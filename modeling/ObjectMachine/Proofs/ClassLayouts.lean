import ObjectMachine.Proofs.Dispatch

/-!
# Layouts of classes

Wherever a class is declared, its instances have the fields of its base in front, and behind them
one field for each that the class adds. The fields lie one behind the other without gaps, each as
wide as the kind of its type asks for. So fields never overlap, and a field that is found in a class
has the same place in all descendants of the class.
-/

namespace ObjectMachine

/-!
## Kinds of types
-/

namespace Outline

variable {outline : Outline}

/-- The place of a type tells the kind of its values, whatever is declared there. -/
theorem kind_eq {types : Array TypeDescriptor} {ref : TypeRef} {type : TypeDescriptor}
    (made : outline.typeTable = .ok types) (found : types[ref.index]? = some type) :
    type.kind = ref.kind := by
  have behind : Image.primitiveCount ≤ ref.index → ref.kind = .ref := by
    intro late
    rw [TypeRef.kind, List.getElem?_eq_none late]
  rcases typeTable_cases made found with
    ⟨p, at_p, rfl⟩ | ⟨late, element, rfl⟩ | ⟨c, chain, known, _, rfl⟩
  · rw [TypeRef.kind, at_p]
    rfl
  · exact (behind late).symm
  · rcases class?_eq_some_iff.mp known with ⟨i, _, rfl⟩
    exact (behind (Nat.le_add_right _ i)).symm

/-- The fields of a layout have the types that the classes on its chain add. -/
theorem added_of_layoutOf {chain : List (TypeRef × ClassOutline)} {slot : FieldSlot}
    (mem : slot ∈ (outline.layoutOf chain).fields) :
    ∃ link ∈ chain, slot.type ∈ link.2.ownFields := by
  induction chain with
  | nil => cases mem
  | cons link above ih =>
      rcases Layout.fields_extend (outline.layoutOf above) outline.methodName link.2 with
        ⟨own, fields, types⟩
      have mem' : slot ∈ (outline.layoutOf above).fields ++ own := fields ▸ mem
      rcases List.mem_append.mp mem' with mem' | mem'
      · rcases ih mem' with ⟨link', on_chain, added⟩
        exact ⟨link', List.mem_cons_of_mem _ on_chain, added⟩
      · refine ⟨link, List.mem_cons_self, ?_⟩
        rw [← types]
        exact List.mem_map_of_mem mem'

end Outline

namespace Program

variable {image : Image} {program : Program} {outline : Outline} {claims : Claims}

theorem type?_of_typeRef (outlines : Image.Outlines image outline claims)
    (made : outline.typeTable = .ok program.types) {index : Int32} {ref : TypeRef}
    (resolved : image.typeRef index = .ok ref) :
    ∃ type, program.type? ref = some type ∧ type.kind = ref.kind := by
  have inside : ref.index < program.types.size := by
    have place := Image.placeOf?_eq_some_iff.mp (Image.typeRef_eq_ok_iff.mp resolved)
    rw [(Outline.declares_of_typeTable made).size_eq, outlines.types_length]
    omega
  have found : program.type? ref = some program.types[ref.index] :=
    Array.getElem?_eq_getElem inside
  exact ⟨_, found, Outline.kind_eq made found⟩

/-!
## Fields of classes
-/

/-- The classes of a program have the fields of their bases in front, and all fields lie one behind
the other. -/
structure LaysOut (program : Program) : Prop where
  top : ∀ ref c, program.class? ref = some c → c.base = none →
    c.fields.map FieldSlot.type = c.ownFields
  derived : ∀ ref c base, program.class? ref = some c → c.base = some base →
    ∃ b own, program.class? base = some b ∧ c.fields = b.fields ++ own ∧
      own.map FieldSlot.type = c.ownFields
  kind : ∀ ref c slot, program.class? ref = some c → slot ∈ c.fields →
    ∃ type, program.type? slot.type = some type ∧ slot.kind = type.kind
  /-- The bytes in front of a field are those of the fields before it. -/
  offset : ∀ ref c (i : Nat) slot, program.class? ref = some c → c.fields[i]? = some slot →
    slot.offset = ((c.fields.take i).map fun before => before.kind.width).sum
  size : ∀ ref c, program.class? ref = some c →
    c.size = (c.fields.map fun slot => slot.kind.width).sum
  apart : ∀ ref c (i j : Nat) slot other, program.class? ref = some c →
    c.fields[i]? = some slot → c.fields[j]? = some other → i < j →
    slot.offset + slot.kind.width ≤ other.offset
  /-- A field has its place in all descendants of a class. -/
  inherited : ∀ ref b (i : Nat) slot descendant, program.class? ref = some b →
    b.fields[i]? = some slot → program.isSubclass descendant ref = true →
    ∃ c, program.class? descendant = some c ∧ c.fields[i]? = some slot
  /-- Instructions name fields of classes. -/
  named : ∀ ref method (ip : Nat) insn field, program.method? ref = some method →
    method.code[ip]? = some insn → insn.operand = .field field →
    ∃ b, program.class? field.owner = some b ∧ b.fields[field.index]? = some field.slot

theorem base_cases (outlines : Image.Outlines image outline claims)
    (made : outline.typeTable = .ok program.types) {ref : TypeRef} {c : ClassDescriptor}
    (found : program.class? ref = some c) :
    ∃ own, own.map FieldSlot.type = c.ownFields ∧
      ((c.base = none ∧ c.fields = own) ∨
        ∃ base b, c.base = some base ∧ program.class? base = some b ∧
          c.fields = b.fields ++ own) := by
  rcases class_cases made found with ⟨o, chain, known, chained, rfl⟩
  cases has : o.base with
  | none =>
      rw [chained.eq_singleton known has]
      rcases Layout.fields_extend .empty outline.methodName o with ⟨own, fields, types⟩
      exact ⟨own, types, Or.inl ⟨has, fields⟩⟩
  | some base =>
      rcases chained.eq_cons known has with ⟨above, chained', rfl⟩
      rcases outlines.class_of_base known has with ⟨b, known'⟩
      rcases class?_of_outline made known' with ⟨chain', chained'', found'⟩
      cases chained''.unique chained'
      rcases Layout.fields_extend (outline.layoutOf above) outline.methodName o with
        ⟨own, fields, types⟩
      exact ⟨own, types, Or.inr ⟨base, _, has, found', fields⟩⟩

theorem packed_of_class? (made : outline.typeTable = .ok program.types) {ref : TypeRef}
    {c : ClassDescriptor} (found : program.class? ref = some c) : c.layout.Packed := by
  rcases class_cases made found with ⟨o, chain, _, _, rfl⟩
  exact outline.packed_layoutOf chain

theorem kind_of_slot (outlines : Image.Outlines image outline claims)
    (made : outline.typeTable = .ok program.types) {ref : TypeRef} {c : ClassDescriptor}
    {slot : FieldSlot} (found : program.class? ref = some c) (mem : slot ∈ c.fields) :
    ∃ type, program.type? slot.type = some type ∧ slot.kind = type.kind := by
  have kind := (packed_of_class? made found).kind slot mem
  rcases class_cases made found with ⟨o, chain, _, chained, rfl⟩
  rcases Outline.added_of_layoutOf mem with ⟨link, on_chain, added⟩
  have known := chained.classes on_chain
  rcases outlines.class_of_class? known with ⟨source, _, same⟩
  generalize link.2 = o' at same added
  cases same with
  | ofClass _ resolved _ =>
      rcases (Except.mem_iff_of_mapM resolved).mp added with ⟨index, _, resolved⟩
      rcases type?_of_typeRef outlines made resolved with ⟨type, found', same⟩
      exact ⟨type, found', kind.trans same.symm⟩

/-- The layouts of a linked program are those of this description, in whatever order its classes
were declared. -/
theorem link_laysOut (linked : image.link = .ok program) : program.LaysOut := by
  have promises := linked_of_link linked
  rcases Image.link_cases linked with ⟨outline, _, outlined, made, _⟩
  rcases Image.outline_cases outlined with ⟨claims, outlines⟩
  refine ⟨?_, ?_, ?_, ?_, ?_, ?_, ?_, ?_⟩
  · intro ref c found none
    rcases base_cases outlines made found with ⟨own, types, ⟨_, fields⟩ | ⟨_, _, has, _⟩⟩
    · rw [fields, types]
    · rw [none] at has
      cases has
  · intro ref c base found has
    rcases base_cases outlines made found with
      ⟨own, types, ⟨none, _⟩ | ⟨base', b, has', found', fields⟩⟩
    · rw [none] at has
      cases has
    · rw [has] at has'
      cases has'
      exact ⟨b, own, found', fields, types⟩
  · exact fun ref c slot found mem => kind_of_slot outlines made found mem
  · intro ref c i slot found at_i
    exact (packed_of_class? made found).offset i slot at_i
  · intro ref c found
    exact (packed_of_class? made found).size
  · intro ref c i j slot other found at_i at_j before
    have ordered := (packed_of_class? made found).orderly.ordered
    rcases List.getElem?_eq_some_iff.mp at_i with ⟨inside, rfl⟩
    rcases List.getElem?_eq_some_iff.mp at_j with ⟨inside', rfl⟩
    exact List.pairwise_iff_getElem.mp ordered i j inside inside' before
  · intro ref b i slot descendant found at_i descends
    rcases promises.inherits _ _ b descends found with ⟨c, found', more, same⟩
    refine ⟨c, found', ?_⟩
    rw [← same, List.getElem?_append_left (List.getElem?_eq_some_iff.mp at_i).1]
    exact at_i
  · intro ref method ip insn field known at_ip operand
    rcases (promises.suits ref method ip insn known at_ip).field field operand with
      ⟨b, found, at_i⟩
    exact ⟨b, class?_eq_some_iff.mpr found, at_i⟩

/-- Squares have the fields of shapes in front of their own, though they are declared first. -/
theorem link_laysOut_drawing :
    drawingImage.link = .ok drawingProgram ∧
      ((drawingProgram.class? ⟨5⟩).map fun c => (c.fields.map FieldSlot.offset, c.size)) =
        some ([0, 4, 8, 12], 13) ∧
      drawingProgram.LaysOut :=
  ⟨link_drawingImage, by decide +kernel, link_laysOut link_drawingImage⟩

end Program
end ObjectMachine
