import Mathlib.Algebra.GroupWithZero.Nat
import ObjectMachine.Memory.FreeList

/-!
# Taking free space

The first extent that is large enough is cut, and all others stay as they are, in their order.
-/

namespace ObjectMachine
namespace FreeList

theorem freeBytes_eq_sum (list : FreeList) :
    list.freeBytes = (list.toList.map Extent.size).sum := by
  rw [freeBytes, List.sum, List.foldr_map]

theorem takeFrom_eq_none_iff {size least : Nat} {extents : List Extent} :
    takeFrom size least extents = none ↔ ∀ extent ∈ extents, extent.size < size := by
  induction extents with
  | nil => simp [takeFrom]
  | cons extent rest ih =>
      unfold takeFrom
      by_cases enough : size ≤ extent.size
      · simp only [enough, if_true]
        constructor
        · intro none
          split at none <;> cases none
        · intro small
          have := small extent List.mem_cons_self
          omega
      · simp only [enough, if_false, Option.map_eq_none_iff, ih, List.mem_cons, forall_eq_or_imp]
        constructor
        · intro small
          exact ⟨by omega, small⟩
        · intro small
          exact small.2

/-- What taking space does to the list of extents: the extent it was taken from, what was in front
of it and behind it, and whether some of it was left. -/
theorem takeFrom_eq_some {size least : Nat} {extents after : List Extent} {taken : Taken}
    (found : takeFrom size least extents = some (taken, after)) :
    ∃ front extent back, extents = front ++ extent :: back ∧
      (∀ other ∈ front, other.size < size) ∧ size ≤ extent.size ∧
      ((extent.size - size < least ∧ taken = ⟨extent, none⟩ ∧ after = front ++ back) ∨
        (least ≤ extent.size - size ∧
          taken = ⟨⟨extent.addr, size⟩, some ⟨extent.addr + size, extent.size - size⟩⟩ ∧
          after = front ++ ⟨extent.addr + size, extent.size - size⟩ :: back)) := by
  induction extents generalizing after with
  | nil => cases found
  | cons extent rest ih =>
      unfold takeFrom at found
      by_cases enough : size ≤ extent.size
      · simp only [enough, if_true] at found
        refine ⟨[], extent, rest, rfl, ?_, enough, ?_⟩
        · intro other mem
          cases mem
        · split at found
          · next little =>
              cases found
              exact Or.inl ⟨little, rfl, rfl⟩
          · next useful =>
              cases found
              exact Or.inr ⟨by omega, rfl, rfl⟩
      · simp only [enough, if_false] at found
        rcases Option.map_eq_some_iff.mp found with ⟨⟨taken', after'⟩, found', same⟩
        cases same
        rcases ih found' with ⟨front, cut, back, rfl, smaller, fits, outcome⟩
        refine ⟨extent :: front, cut, back, rfl, ?_, fits, ?_⟩
        · intro other mem
          cases mem with
          | head => omega
          | tail _ mem => exact smaller other mem
        · rcases outcome with ⟨little, taken, rfl⟩ | ⟨useful, taken, rfl⟩
          · exact Or.inl ⟨little, taken, rfl⟩
          · exact Or.inr ⟨useful, taken, rfl⟩

end FreeList
end ObjectMachine
