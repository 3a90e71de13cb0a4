import ObjectMachine.Linking.Code
import ObjectMachine.Proofs.LayoutPasses
import ObjectMachine.Proofs.Objects

/-!
# Layouts of linked programs

The slots of every class lie apart in the payload, and the fields of a class are the first fields of
all its descendants. Dispatch tables name declared methods only.
-/

namespace ObjectMachine

theorem Image.link_cases {image : Image} {program : Program} (linked : image.link = .ok program) :
    ∃ outline methods, image.outline = .ok outline ∧ outline.typeTable = .ok program.types ∧
      image.linkMethods program.types (outline.methods.zip image.methods) .empty =
        .ok (methods, program.strings) ∧
      program.methods = (Builtin.all.map Builtin.descriptor ++ methods).toArray := by
  rcases Except.bind_eq_ok_iff.mp linked with ⟨outline, outlined, linked⟩
  rcases Except.bind_eq_ok_iff.mp linked with ⟨types, made, linked⟩
  rcases Except.bind_eq_ok_iff.mp linked with ⟨⟨methods, strings⟩, coded, linked⟩
  rcases Except.bind_eq_ok_iff.mp linked with ⟨entry, _, same⟩
  cases same
  exact ⟨outline, methods, outlined, made, coded, rfl⟩

namespace Program

variable {image : Image} {program : Program}

/-- The slots of the types of a linked program lie apart in their payloads. -/
theorem orderly_of_link (linked : image.link = .ok program) : program.Orderly := by
  rcases Image.link_cases linked with ⟨outline, _, _, made, _⟩
  intro ref type found
  rcases Outline.typeTable_cases made found with
    ⟨p, _, rfl⟩ | ⟨_, element, rfl⟩ | ⟨c, chain, _, _, rfl⟩
  · exact ⟨fun _ => List.Pairwise.nil, nofun⟩
  · exact TypeDescriptor.orderly_ofArray _
  · have laid := (outline.packed_layoutOf chain).orderly
    constructor
    · intro length
      rw [TypeDescriptor.slots, List.pairwise_map]
      exact laid.ordered
    · intro length slot mem
      rcases List.mem_map.mp mem with ⟨field, mem', rfl⟩
      exact ⟨Nat.zero_le _, laid.within field mem'⟩

theorem layout_of_base (linked : image.link = .ok program) {ref base : TypeRef}
    {c b : ClassDescriptor} (known : program.class? ref = some c) (has : c.base = some base)
    (known' : program.class? base = some b) :
    ∃ nameOf source, c.layout = b.layout.extend nameOf source := by
  rcases Image.link_cases linked with ⟨outline, _, _, made, _⟩
  rcases Outline.class_cases made (class?_eq_some_iff.mp known) with
    ⟨o, chain, found, chained, rfl⟩
  rcases Outline.class_cases made (class?_eq_some_iff.mp known') with
    ⟨o', chain', _, chained', rfl⟩
  rcases chained.eq_cons found has with ⟨above, inherited, rfl⟩
  cases inherited.unique chained'
  exact ⟨outline.methodName, o, rfl⟩

theorem of_isSubclass {motive : ClassDescriptor → Prop} (linked : image.link = .ok program)
    (extend : ∀ (c b : ClassDescriptor) nameOf source, c.layout = b.layout.extend nameOf source →
      motive b → motive c)
    {derived ref : TypeRef} {b : ClassDescriptor} (descends : program.isSubclass derived ref = true)
    (known : program.class? ref = some b) (holds : motive b) :
    ∃ c, program.class? derived = some c ∧ motive c := by
  have climbs : ∀ steps derived, ref ∈ program.chainWithin steps derived →
      ∃ c, program.class? derived = some c ∧ motive c := by
    intro steps
    induction steps with
    | zero =>
        intro derived mem
        rw [← List.mem_singleton.mp mem]
        exact ⟨b, known, holds⟩
    | succ steps ih =>
        intro derived mem
        unfold chainWithin at mem
        split at mem
        · next base has =>
            rcases List.mem_cons.mp mem with rfl | mem
            · exact ⟨b, known, holds⟩
            · rcases ih base mem with ⟨b', known', holds'⟩
              rcases Option.bind_eq_some_iff.mp has with ⟨c, found, has⟩
              rcases layout_of_base linked found has known' with ⟨nameOf, source, same⟩
              exact ⟨c, found, extend c b' nameOf source same holds'⟩
        · rw [← List.mem_singleton.mp mem]
          exact ⟨b, known, holds⟩
  apply climbs program.types.size
  simpa [isSubclass, chain] using descends

/-- The fields of a class are the first fields of all its descendants. -/
theorem prefix_of_isSubclass (linked : image.link = .ok program) {derived ref : TypeRef}
    {b : ClassDescriptor} (descends : program.isSubclass derived ref = true)
    (known : program.class? ref = some b) :
    ∃ c, program.class? derived = some c ∧ b.fields <+: c.fields := by
  refine of_isSubclass linked ?_ descends known (List.prefix_refl _)
  intro c b' nameOf source same starts
  have fields : c.fields = (b'.layout.extend nameOf source).fields := congrArg Layout.fields same
  rcases Layout.fields_extend b'.layout nameOf source with ⟨own, extended, _⟩
  rw [fields, extended]
  exact starts.trans (List.prefix_append _ _)

end Program
end ObjectMachine
