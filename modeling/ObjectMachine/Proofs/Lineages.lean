import ObjectMachine.Proofs.CheckedCode
import ObjectMachine.Proofs.OutlinedImages

/-!
# Lines of classes

Above a class there is the class that it extends, then the class that this one extends, and so on up
to a class without a base. In a linked program every class has such a line, since none descends from
itself. The line says nothing of the order in which the classes are declared, and it is the one that
a program goes through when it looks for a class above another.
-/

namespace ObjectMachine

theorem Image.Outlines.class_of_base {image : Image} {outline : Outline} {claims : Claims}
    (outlines : Image.Outlines image outline claims) {ref base : TypeRef} {o : ClassOutline}
    (known : outline.class? ref = some o) (has : o.base = some base) :
    ∃ b, outline.class? base = some b := by
  rcases Outline.class?_eq_some_iff.mp known with ⟨place, _, rfl⟩
  rcases outlines.extends_of_base known has with ⟨above, b, rfl, at_above, _⟩
  rw [← Image.typeDef?_add_primitiveCount] at at_above
  rcases outlines.class?_of_class at_above with ⟨b', known', _⟩
  exact ⟨b', known'⟩

namespace Program

variable {image : Image} {program : Program} {outline : Outline} {claims : Claims}

/-!
## Lines
-/

/-- A type and the classes above it, from one to the next up to one without a base. -/
inductive Lineage (program : Program) : TypeRef → List TypeRef → Prop where
  | top {ref : TypeRef} : program.base? ref = none → Lineage program ref [ref]
  | link {ref base : TypeRef} {line : List TypeRef} : program.base? ref = some base →
      Lineage program base line → Lineage program ref (ref :: line)

theorem Lineage.chainWithin_eq {ref : TypeRef} {line : List TypeRef}
    (lineage : program.Lineage ref line) {steps : Nat} (enough : line.length ≤ steps + 1) :
    program.chainWithin steps ref = line := by
  induction lineage generalizing steps with
  | top none =>
      cases steps with
      | zero => rfl
      | succ steps => rw [chainWithin, none]
  | @link ref base line has above ih =>
      cases steps with
      | zero =>
          have more : 0 < line.length := by cases above <;> exact Nat.succ_pos _
          rw [List.length_cons] at enough
          omega
      | succ steps =>
          rw [chainWithin, has]
          exact congrArg (ref :: ·) (ih (Nat.le_of_succ_le_succ enough))

/-!
## Lines of linked programs
-/

theorem class_cases (made : outline.typeTable = .ok program.types) {ref : TypeRef}
    {c : ClassDescriptor} (found : program.class? ref = some c) :
    ∃ o chain, outline.class? ref = some o ∧ outline.Chained ref chain ∧
      c = outline.describeClass o chain :=
  Outline.class_cases made (class?_eq_some_iff.mp found)

theorem base?_eq (made : outline.typeTable = .ok program.types) {ref : TypeRef} {o : ClassOutline}
    (known : outline.class? ref = some o) : program.base? ref = o.base := by
  rcases class?_of_outline made known with ⟨chain, _, found⟩
  rw [base?, found]
  rfl

theorem lineage_of_chained (outlines : Image.Outlines image outline claims)
    (made : outline.typeTable = .ok program.types) {ref : TypeRef}
    {chain : List (TypeRef × ClassOutline)} (chained : outline.Chained ref chain)
    {o : ClassOutline} (known : outline.class? ref = some o) :
    program.Lineage ref (chain.map Prod.fst) := by
  induction chained generalizing o with
  | outside outside => rw [outside] at known; cases known
  | top known' none => exact .top ((base?_eq made known').trans none)
  | @link ref base c above known' has _ ih =>
      rcases outlines.class_of_base known' has with ⟨b, known''⟩
      exact .link ((base?_eq made known').trans has) (ih known'')

theorem lineage_of_chain (outlines : Image.Outlines image outline claims)
    (made : outline.typeTable = .ok program.types) {ref : TypeRef} {o : ClassOutline}
    (known : outline.class? ref = some o) {chain : List (TypeRef × ClassOutline)}
    (chained : outline.Chained ref chain) :
    program.Lineage ref (chain.map Prod.fst) ∧ program.chain ref = chain.map Prod.fst := by
  have lineage := lineage_of_chained outlines made chained known
  have short : (chain.map Prod.fst).length ≤ program.types.size + 1 := by
    rw [List.length_map, (Outline.declares_of_typeTable made).size_eq]
    exact Nat.le_succ_of_le chained.length_le
  exact ⟨lineage, lineage.chainWithin_eq short⟩

theorem lineage_chain (linked : image.link = .ok program) (ref : TypeRef) :
    program.Lineage ref (program.chain ref) := by
  rcases Image.link_cases linked with ⟨outline, _, outlined, made, _⟩
  rcases Image.outline_cases outlined with ⟨claims, outlines⟩
  cases found : program.class? ref with
  | none =>
      have lineage : program.Lineage ref [ref] := .top (by rw [base?, found]; rfl)
      rw [chain, lineage.chainWithin_eq (Nat.le_add_left _ _)]
      exact lineage
  | some c =>
      rcases class_cases made found with ⟨o, chain, known, chained, _⟩
      rcases lineage_of_chain outlines made known chained with ⟨lineage, same⟩
      rw [same]
      exact lineage

end Program
end ObjectMachine
