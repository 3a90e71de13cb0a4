import Mathlib.Logic.Relation
import Mathlib.Order.Defs.Unbundled
import Mathlib.Order.WellFounded
import ObjectMachine.Proofs.Dispatch

/-!
# Ancestors

The ancestors of a type are the type itself and the classes above it. A search for an ancestor goes
from each class to its base and has no other end than a class without a base, so it depends on the
linker having refused every cycle of bases. In a linked program it always ends, and being an
ancestor is a partial order in which the ancestors of one type form a chain.
-/

namespace ObjectMachine
namespace Program

variable {image : Image} {program : Program} {ref goal : TypeRef} {line : List TypeRef}

def HasBase (program : Program) (ref base : TypeRef) : Prop :=
  program.base? ref = some base

theorem rightUnique_hasBase (program : Program) : Relator.RightUnique program.HasBase := by
  intro ref base base' has has'
  exact Option.some.inj (has.symm.trans has')

/-- The search for a type among those from the current one upwards ends with the given answer. It
counts no steps. -/
inductive Search (program : Program) (goal : TypeRef) : Option TypeRef → Bool → Prop where
  | ended : Search program goal none false
  | found : Search program goal (some goal) true
  | upwards {ref : TypeRef} {answer : Bool} : ref ≠ goal →
      Search program goal (program.base? ref) answer → Search program goal (some ref) answer

theorem Search.unique {current : Option TypeRef} {answer answer' : Bool}
    (search : program.Search goal current answer) (search' : program.Search goal current answer') :
    answer = answer' := by
  induction search with
  | ended => cases search'; rfl
  | found =>
      cases search' with
      | found => rfl
      | upwards other => exact absurd rfl other
  | upwards other _ ih =>
      cases search' with
      | found => exact absurd rfl other
      | upwards _ later => exact ih later

/-!
## What the line of a type says
-/

namespace Lineage

/-- A search that goes up a line ends at the latest with the line. -/
theorem search (lineage : program.Lineage ref line) (goal : TypeRef) :
    program.Search goal (some ref) (line.contains goal) := by
  induction lineage with
  | @top ref none =>
      by_cases same : ref = goal
      · subst same
        simpa using Search.found
      · have answer : [ref].contains goal = false := by simpa using Ne.symm same
        rw [answer]
        refine .upwards same ?_
        rw [none]
        exact .ended
  | @link ref base line has _ ih =>
      by_cases same : ref = goal
      · subst same
        simpa using Search.found
      · have answer : (ref :: line).contains goal = line.contains goal := by
          simp [Ne.symm same]
        rw [answer]
        refine .upwards same ?_
        rw [has]
        exact ih

theorem mem_iff (lineage : program.Lineage ref line) :
    goal ∈ line ↔ Relation.ReflTransGen program.HasBase ref goal := by
  induction lineage with
  | @top ref none =>
      rw [List.mem_singleton, Relation.ReflTransGen.cases_head_iff]
      constructor
      · intro same
        exact Or.inl same.symm
      · intro reached
        rcases reached with same | ⟨base, has, _⟩
        · exact same.symm
        · rw [HasBase, none] at has
          cases has
  | @link ref base line has _ ih =>
      rw [List.mem_cons, ih, Relation.ReflTransGen.cases_head_iff (a := ref)]
      constructor
      · intro reached
        rcases reached with same | above
        · exact Or.inl same.symm
        · exact Or.inr ⟨base, has, above⟩
      · intro reached
        rcases reached with same | ⟨base', has', above⟩
        · exact Or.inl same.symm
        · cases rightUnique_hasBase program has has'
          exact Or.inr above

theorem accessible (lineage : program.Lineage ref line) :
    Acc (fun base ref => program.HasBase ref base) ref := by
  induction lineage with
  | top none =>
      constructor
      intro base has
      rw [HasBase, none] at has
      cases has
  | link has _ ih =>
      constructor
      intro base has'
      cases rightUnique_hasBase program has has'
      exact ih

end Lineage

/-!
## Linked programs
-/

theorem wellFounded_hasBase (linked : image.link = .ok program) :
    WellFounded fun base ref => program.HasBase ref base :=
  ⟨fun ref => (lineage_chain linked ref).accessible⟩

theorem isSubclass_iff (linked : image.link = .ok program) {derived base : TypeRef} :
    program.isSubclass derived base = true ↔
      Relation.ReflTransGen program.HasBase derived base := by
  rw [isSubclass, List.contains_iff_mem, (lineage_chain linked derived).mem_iff]

theorem search_iff (linked : image.link = .ok program) {derived base : TypeRef} {answer : Bool} :
    program.Search base (some derived) answer ↔ program.isSubclass derived base = answer := by
  have ends := (lineage_chain linked derived).search base
  constructor
  · intro search
    exact ends.unique search
  · intro same
    rw [← same]
    exact ends

/-- No class is above itself. -/
theorem not_above_self (linked : image.link = .ok program) (ref : TypeRef) :
    ¬Relation.TransGen program.HasBase ref ref := by
  intro above
  have irreflexive := (wellFounded_hasBase linked).transGen.irrefl
  exact irreflexive.irrefl ref (Relation.transGen_swap.mpr above)

structure OrdersTypes (program : Program) : Prop where
  /-- Every search for an ancestor ends, with the answer of the test and no other. -/
  ends : ∀ derived base answer,
    program.Search base (some derived) answer ↔ program.isSubclass derived base = answer
  ancestors : ∀ derived base, program.isSubclass derived base = true ↔
    base = derived ∨ Relation.TransGen program.HasBase derived base
  order : IsPartialOrder TypeRef fun derived base => program.isSubclass derived base = true
  comparable : ∀ derived base base', program.isSubclass derived base = true →
    program.isSubclass derived base' = true →
    program.isSubclass base base' = true ∨ program.isSubclass base' base = true

theorem link_ordersTypes (linked : image.link = .ok program) : program.OrdersTypes := by
  refine ⟨fun _ _ _ => search_iff linked, ?_, ?_, ?_⟩
  · intro derived base
    rw [isSubclass_iff linked, Relation.reflTransGen_iff_eq_or_transGen]
  · simp only [isSubclass_iff linked]
    refine { refl := fun _ => .refl, trans := fun _ _ _ => .trans, antisymm := ?_ }
    intro derived base above below
    rcases Relation.reflTransGen_iff_eq_or_transGen.mp above with same | above
    · exact same.symm
    · exact absurd (above.trans_left below) (not_above_self linked derived)
  · intro derived base base' above above'
    rw [isSubclass_iff linked] at above above' ⊢
    rw [isSubclass_iff linked]
    exact above.total_of_right_unique (rightUnique_hasBase program) above'

/-- A square is a shape, but no shape is a square. A type outside the table is its only ancestor. -/
theorem link_ordersTypes_drawing :
    drawingImage.link = .ok drawingProgram ∧ drawingProgram.isSubclass ⟨5⟩ ⟨6⟩ = true ∧
      drawingProgram.isSubclass ⟨6⟩ ⟨5⟩ = false ∧ drawingProgram.isSubclass ⟨99⟩ ⟨99⟩ = true ∧
      drawingProgram.isSubclass ⟨99⟩ ⟨6⟩ = false ∧ drawingProgram.OrdersTypes :=
  ⟨link_drawingImage, by decide +kernel, by decide +kernel, by decide +kernel, by decide +kernel,
    link_ordersTypes link_drawingImage⟩

end Program
end ObjectMachine
