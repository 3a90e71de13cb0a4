import Mathlib.Algebra.GroupWithZero.Nat
import Mathlib.Order.Defs.Unbundled
import ObjectMachine.StringTable

/-!
# Interning

A string table only grows: what an index stands for stays. It has every text once, so an index is as
good as its text. An index is a word, so a table of more than `2 ^ 32` texts could not tell all of
them apart; up to that size the index of an interned text stands for it, and the indices of the
texts are the inverse of the texts of the indices.
-/

namespace ObjectMachine
namespace StringTable

def Extends (table other : StringTable) : Prop :=
  table.texts.toList <+: other.texts.toList

/-- Every text has one index. -/
def Distinct (table : StringTable) : Prop :=
  table.texts.toList.Nodup

/-- What becomes of a table. -/
structure Grows (table other : StringTable) : Prop where
  keeps : table.Extends other
  distinct : table.Distinct → other.Distinct

variable {table other : StringTable} {ref ref' : StrRef} {text : String}

theorem distinct_empty : empty.Distinct :=
  List.pairwise_singleton _ _

theorem extends_refl (table : StringTable) : table.Extends table :=
  List.prefix_refl _

theorem Extends.trans {third : StringTable} (first : table.Extends other)
    (second : other.Extends third) : table.Extends third :=
  List.IsPrefix.trans first second

instance : IsPreorder StringTable Grows where
  refl table := ⟨extends_refl table, id⟩
  trans _ _ _ first second :=
    ⟨first.keeps.trans second.keeps, fun distinct => second.distinct (first.distinct distinct)⟩

theorem Extends.get? (grown : table.Extends other) (found : table.get? ref = some text) :
    other.get? ref = some text := by
  rcases grown with ⟨more, same⟩
  unfold StringTable.get? at found ⊢
  rw [← Array.getElem?_toList] at found ⊢
  rw [← same]
  exact List.getElem?_append_left (List.getElem?_eq_some_iff.mp found).1 ▸ found

theorem Extends.size_le (grown : table.Extends other) : table.size ≤ other.size := by
  simpa [StringTable.size] using List.IsPrefix.length_le grown

theorem Distinct.eq_of_get? (distinct : table.Distinct) (found : table.get? ref = some text)
    (found' : table.get? ref' = some text) : ref = ref' := by
  unfold StringTable.get? at found found'
  rw [← Array.getElem?_toList] at found found'
  have inside := (List.getElem?_eq_some_iff.mp found).1
  have same : ref.index = ref'.index :=
    (List.getElem?_inj inside distinct).mp (found.trans found'.symm)
  cases ref
  cases ref'
  exact congrArg StrRef.mk (UInt32.toNat_inj.mp same)

theorem Distinct.eq_iff {text' : String} (distinct : table.Distinct)
    (found : table.get? ref = some text) (found' : table.get? ref' = some text') :
    ref = ref' ↔ text = text' := by
  constructor
  · intro same
    subst same
    rw [found] at found'
    exact Option.some.inj found'
  · intro same
    subst same
    exact distinct.eq_of_get? found found'

@[simp] theorem texts_add (table : StringTable) (text : String) :
    (table.add text).texts = table.texts.push text := rfl

theorem find?_eq_none_iff : table.find? text = none ↔ text ∉ table.texts.toList := by
  constructor
  · intro missing mem
    have known := table.complete (Array.mem_toList_iff.mp mem)
    rw [show table.index.lookup text = none from missing] at known
    cases known
  · intro new
    cases found : table.find? text with
    | none => rfl
    | some ref =>
        rcases table.placed found with ⟨place, at_place, _⟩
        exact absurd (Array.mem_toList_iff.mpr (Array.mem_of_getElem? at_place)) new

/-- A text that is interned has an index already, or gets the next one. -/
theorem intern_cases (table : StringTable) (text : String) :
    (∃ i, table.texts.toList[i]? = some text ∧ table.intern text = (⟨UInt32.ofNat i⟩, table)) ∨
    (text ∉ table.texts.toList ∧
      table.intern text = (⟨UInt32.ofNat table.size⟩, table.add text)) := by
  unfold intern
  cases found : table.find? text with
  | some ref =>
      rcases table.placed found with ⟨place, at_place, rfl⟩
      exact Or.inl ⟨place, by rw [Array.getElem?_toList, at_place], rfl⟩
  | none => exact Or.inr ⟨find?_eq_none_iff.mp found, rfl⟩

theorem extends_intern (table : StringTable) (text : String) :
    table.Extends (table.intern text).2 := by
  rcases table.intern_cases text with ⟨i, _, interned⟩ | ⟨_, interned⟩
  · rw [interned]
    exact extends_refl table
  · rw [interned, Extends, texts_add, Array.toList_push]
    exact List.prefix_append _ _

theorem size_intern_le (table : StringTable) (text : String) :
    (table.intern text).2.size ≤ table.size + 1 := by
  rcases table.intern_cases text with ⟨i, _, interned⟩ | ⟨_, interned⟩
  · rw [interned]
    exact Nat.le_succ _
  · rw [interned]
    exact Nat.le_of_eq (Array.size_push text)

theorem Distinct.intern (distinct : table.Distinct) (text : String) :
    (table.intern text).2.Distinct := by
  rcases table.intern_cases text with ⟨i, _, interned⟩ | ⟨new, interned⟩
  · rw [interned]
    exact distinct
  · rw [interned, Distinct, texts_add, Array.toList_push, List.nodup_append]
    refine ⟨distinct, List.pairwise_singleton _ _, ?_⟩
    intro other mem text' mem'
    rw [List.mem_singleton.mp mem']
    intro same
    subst same
    exact new mem

theorem grows_intern (table : StringTable) (text : String) : table.Grows (table.intern text).2 :=
  ⟨table.extends_intern text, fun distinct => distinct.intern text⟩

theorem isSome_get?_intern (table : StringTable) (text : String) :
    ((table.intern text).2.get? (table.intern text).1).isSome := by
  have low : ∀ i size, i < size → (UInt32.ofNat i).toNat < size := by
    intro i size less
    rw [UInt32.toNat_ofNat']
    exact Nat.lt_of_le_of_lt (Nat.mod_le _ _) less
  rcases table.intern_cases text with ⟨i, at_i, interned⟩ | ⟨_, interned⟩
  · rw [interned]
    have inside := (List.getElem?_eq_some_iff.mp at_i).1
    rw [Array.length_toList] at inside
    simpa [StringTable.get?, StrRef.index] using low i _ inside
  · rw [interned]
    have inside := low table.size (table.size + 1) (Nat.lt_succ_self _)
    simpa [StringTable.get?, StrRef.index, size, Array.size_push] using inside

theorem exists_place_of_intern (table : StringTable) (text : String) :
    ∃ place, (table.intern text).1 = ⟨UInt32.ofNat place⟩ ∧
      (table.intern text).2.toList[place]? = some text := by
  rcases table.intern_cases text with ⟨i, at_i, interned⟩ | ⟨_, interned⟩
  · rw [interned]
    exact ⟨i, rfl, at_i⟩
  · rw [interned]
    exact ⟨table.size, rfl, by simp [toList, size]⟩

theorem get?_of_place {place : Nat} (small : place < 2 ^ 32)
    (at_place : table.toList[place]? = some text) :
    table.get? ⟨UInt32.ofNat place⟩ = some text := by
  have same : (UInt32.ofNat place).toNat = place := by
    rw [UInt32.toNat_ofNat']
    exact Nat.mod_eq_of_lt small
  rw [get?, StrRef.index, same, ← Array.getElem?_toList]
  exact at_place

/-- The index of a table is the inverse of its texts. -/
theorem Distinct.find?_eq_some_iff (distinct : table.Distinct) (small : table.size ≤ 2 ^ 32) :
    table.find? text = some ref ↔ table.get? ref = some text := by
  have inverse : ∀ {ref}, table.find? text = some ref → table.get? ref = some text := by
    intro ref found
    rcases table.placed found with ⟨place, at_place, rfl⟩
    have inside : place < table.size := (Array.getElem?_eq_some_iff.mp at_place).1
    rw [← Array.getElem?_toList] at at_place
    exact get?_of_place (Nat.lt_of_lt_of_le inside small) at_place
  refine ⟨inverse, fun found => ?_⟩
  cases found' : table.find? text with
  | none =>
      have mem := Array.mem_toList_iff.mpr (Array.mem_of_getElem? found)
      exact absurd mem (find?_eq_none_iff.mp found')
  | some ref' => rw [distinct.eq_of_get? found (inverse found')]

theorem get?_intern (small : (table.intern text).2.size ≤ 2 ^ 32) :
    (table.intern text).2.get? (table.intern text).1 = some text := by
  rcases table.exists_place_of_intern text with ⟨place, same, at_place⟩
  have inside : place < (table.intern text).2.size := by
    have inside' := (List.getElem?_eq_some_iff.mp at_place).1
    rwa [toList, Array.length_toList] at inside'
  rw [same]
  exact get?_of_place (Nat.lt_of_lt_of_le inside small) at_place

/-- A table of the texts of a list, each where it comes first, stays one. -/
theorem toList_intern {seen : List String} (held : table.toList = seen.eraseDups)
    (text : String) : (table.intern text).2.toList = (seen ++ [text]).eraseDups := by
  have mem_iff : text ∈ table.toList ↔ text ∈ seen := by
    rw [held, List.mem_eraseDups]
  rw [List.eraseDups_append, List.removeAll, ← held]
  rcases table.intern_cases text with ⟨i, at_i, interned⟩ | ⟨new, interned⟩
  · have old := mem_iff.mp (List.mem_of_getElem? at_i)
    simp [interned, old]
  · have new' : text ∉ seen := fun mem => new (mem_iff.mpr mem)
    simp [interned, new', toList, List.eraseDups_cons]

end StringTable
end ObjectMachine
