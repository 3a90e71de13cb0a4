import ObjectMachine.Proofs.CanonicalFreeLists

/-!
# Taking the first fit

However space is returned, taken and compacted, no two extents of a free list share a byte. So what
is taken is never free any longer: the bytes that were free are those of the block and, apart from
them, those that are free afterwards.
-/

namespace ObjectMachine
namespace FreeList

variable {list after : FreeList} {extents rest front back : List Extent} {extent : Extent}
  {taken : Taken} {size least : Nat}

/-!
## What taking does to the bytes
-/

theorem bytesOf_middle (front back : List Extent) (extent : Extent) :
    bytesOf (front ++ extent :: back) = extent.bytes ∪ bytesOf (front ++ back) := by
  rw [bytesOf_perm List.perm_middle, bytesOf_cons]

theorem separate_middle :
    Separate (front ++ extent :: back) ↔ Separate (extent :: (front ++ back)) :=
  ⟨fun separate => separate.perm List.perm_middle,
    fun separate => separate.perm List.perm_middle.symm⟩

/-- The bytes of a list are those of the block that was taken and, apart from them, those that are
left. -/
theorem bytesOf_takeFrom (separate : Separate extents) (useful : 0 < least)
    (found : takeFrom size least extents = some (taken, rest)) :
    Separate rest ∧ Disjoint taken.block.bytes (bytesOf rest) ∧
      bytesOf extents = taken.block.bytes ∪ bytesOf rest := by
  rcases takeFrom_eq_some found with ⟨front, extent, back, rfl, _, enough, outcome⟩
  have separate' := separate_middle.mp separate
  have apart := separate'.disjoint_tail
  rcases outcome with ⟨_, rfl, rfl⟩ | ⟨kept, rfl, rfl⟩
  · exact ⟨separate'.tail, apart, bytesOf_middle _ _ _⟩
  · have cut : extent.bytes = (Extent.mk extent.addr size).bytes ∪
        (Extent.mk (extent.addr + size) (extent.size - size)).bytes := by
      rw [← Extent.bytes_cut, Nat.add_sub_cancel' enough]
    rw [cut, Finset.disjoint_union_left] at apart
    refine ⟨?_, ?_, ?_⟩
    · exact separate_middle.mpr (separate'.tail.cons (Nat.lt_of_lt_of_le useful kept) apart.2)
    · rw [bytesOf_middle, Finset.disjoint_union_right]
      exact ⟨Extent.disjoint_of_limit_le (Nat.le_refl _), apart.1⟩
    · rw [bytesOf_middle, bytesOf_middle, cut, Finset.union_assoc]

/-!
## Runs
-/

def afterTake (list : FreeList) (size least : Nat) : FreeList :=
  match list.take? size least with
  | none => list
  | some (_, after) => after

/-- The lists that come from the empty one by adding extents of bytes that are not free, by asking
for space, and by compacting. -/
inductive Reached : FreeList → Prop where
  | empty : Reached .empty
  | insert {list : FreeList} {extent : Extent} : Reached list → 0 < extent.size →
      extent.limit < 2 ^ 32 → (∀ other ∈ list.toList, Disjoint extent.bytes other.bytes) →
      Reached (list.insert extent)
  | take {list : FreeList} {size least : Nat} : Reached list → 0 < size → 0 < least →
      Reached (list.afterTake size least)
  | compact {list : FreeList} : Reached list → Reached list.compact

structure Sound (list : FreeList) : Prop where
  separate : Separate list.toList
  fits : ∀ extent ∈ list.toList, extent.limit < 2 ^ 32

namespace Sound

theorem insert (sound : list.Sound) (room : 0 < extent.size) (fits : extent.limit < 2 ^ 32)
    (apart : ∀ other ∈ list.toList, Disjoint extent.bytes other.bytes) :
    (list.insert extent).Sound := by
  refine ⟨?_, ?_⟩
  · rw [toList_insert, separate_middle, List.append_nil]
    exact sound.separate.cons room (disjoint_bytesOf_iff.mpr apart)
  · rw [toList_insert, List.forall_mem_append]
    exact ⟨sound.fits, List.forall_mem_singleton.mpr fits⟩

theorem take (sound : list.Sound) (useful : 0 < least) : (list.afterTake size least).Sound := by
  unfold afterTake take?
  cases found : takeFrom size least list.toList with
  | none => exact sound
  | some result =>
      rcases result with ⟨taken, rest⟩
      refine ⟨(bytesOf_takeFrom sound.separate useful found).1, ?_⟩
      rcases takeFrom_eq_some found with ⟨front, extent, back, shape, _, enough, outcome⟩
      have fits := sound.fits
      rw [shape, List.forall_mem_append, List.forall_mem_cons] at fits
      rcases fits with ⟨small, small', small''⟩
      rcases outcome with ⟨_, _, rfl⟩ | ⟨_, _, rfl⟩
      · exact List.forall_mem_append.mpr ⟨small, small''⟩
      · refine List.forall_mem_append.mpr ⟨small, List.forall_mem_cons.mpr ⟨?_, small''⟩⟩
        simp only [Extent.limit] at small' ⊢
        omega

theorem compact (sound : list.Sound) : list.compact.Sound := by
  refine ⟨(gapped_compact sound.separate).separate, ?_⟩
  intro extent mem
  have bound : ∀ extent ∈ list.toList, extent.limit ≤ 2 ^ 32 - 1 := by
    intro extent mem
    exact Nat.le_pred_of_lt (sound.fits extent mem)
  have := limit_le_of_mem_compact sound.separate bound mem
  omega

end Sound

theorem Reached.sound (reached : list.Reached) : list.Sound := by
  induction reached with
  | empty => exact ⟨⟨List.forall_mem_nil _, List.Pairwise.nil⟩, List.forall_mem_nil _⟩
  | insert _ room fits apart ih => exact ih.insert room fits apart
  | take _ _ useful ih => exact ih.take useful
  | compact _ ih => exact ih.compact

/-!
## What is granted
-/

/-- What is taken when a size is asked for and a leftover must have the least size to be kept. -/
structure Grants (list : FreeList) (size least : Nat) (taken : Taken) (after : FreeList) :
    Prop where
  /-- The block is the front of the first extent that is large enough. What is left of that extent
  stays in its place, and all others stay in theirs. -/
  cut : ∃ front extent back, list.toList = front ++ extent :: back ∧
    (∀ other ∈ front, other.size < size) ∧ size ≤ extent.size ∧
    taken.block.addr = extent.addr ∧
    taken.block.size = (if extent.size - size < least then extent.size else size) ∧
    taken.rest = (if extent.size - size < least then none
      else some ⟨extent.addr + size, extent.size - size⟩) ∧
    after.toList = front ++ taken.rest.toList ++ back
  size_le : size ≤ taken.block.size
  size_lt : taken.block.size < size + least
  disjoint : Disjoint taken.block.bytes (bytesOf after.toList)
  conserves : bytesOf list.toList = taken.block.bytes ∪ bytesOf after.toList

theorem Sound.grants (sound : list.Sound) (useful : 0 < least)
    (found : list.take? size least = some (taken, after)) : list.Grants size least taken after := by
  rcases Option.map_eq_some_iff.mp found with ⟨⟨taken', rest⟩, found', same⟩
  cases same
  rcases bytesOf_takeFrom sound.separate useful found' with ⟨_, disjoint, conserves⟩
  rcases takeFrom_eq_some found' with ⟨front, extent, back, shape, smaller, enough, outcome⟩
  rcases outcome with ⟨little, rfl, rfl⟩ | ⟨kept, rfl, rfl⟩
  · refine ⟨⟨front, extent, back, shape, smaller, enough, rfl, ?_, ?_, ?_⟩, enough, ?_, disjoint,
      conserves⟩
    · exact (if_pos little).symm
    · exact (if_pos little).symm
    · simp
    · show extent.size < size + least
      omega
  · have much : ¬extent.size - size < least := Nat.not_lt_of_le kept
    refine ⟨⟨front, extent, back, shape, smaller, enough, rfl, ?_, ?_, ?_⟩, Nat.le_refl _, ?_,
      disjoint, conserves⟩
    · exact (if_neg much).symm
    · exact (if_neg much).symm
    · simp
    · exact Nat.lt_add_of_pos_right useful

theorem take?_eq_none_iff :
    list.take? size least = none ∧ list.afterTake size least = list ↔
      ∀ extent ∈ list.toList, extent.size < size := by
  rw [← @takeFrom_eq_none_iff size least]
  unfold afterTake take?
  cases takeFrom size least list.toList with
  | none => simp
  | some result => simp

/-- The space of a free list is in separate extents, none of it is lost and none is granted
twice. -/
structure Conserves (list : FreeList) : Prop where
  nonempty : ∀ extent ∈ list.toList, 0 < extent.size
  disjoint : list.toList.Pairwise fun a b => Disjoint a.bytes b.bytes
  fits : ∀ extent ∈ list.toList, extent.limit < 2 ^ 32
  refuses : ∀ size least, 0 < size → 0 < least →
    (list.take? size least = none ∧ list.afterTake size least = list ↔
      ∀ extent ∈ list.toList, extent.size < size)
  grants : ∀ size least taken after, 0 < size → 0 < least →
    list.take? size least = some (taken, after) →
    list.afterTake size least = after ∧ list.Grants size least taken after

theorem reached_conserves (reached : list.Reached) : list.Conserves := by
  have sound := reached.sound
  refine ⟨sound.separate.nonempty, sound.separate.disjoint, sound.fits, ?_, ?_⟩
  · intro size least _ _
    exact take?_eq_none_iff
  · intro size least taken after _ useful found
    refine ⟨?_, sound.grants useful found⟩
    rw [afterTake, found]

def cutList : FreeList :=
  ofList [⟨0, 8⟩, ⟨76, 20⟩]

theorem reached_cutList : cutList.Reached := by
  have first : (FreeList.empty.insert ⟨0, 8⟩).Reached :=
    .insert .empty (by decide) (by decide) (by decide)
  have second : ((FreeList.empty.insert ⟨0, 8⟩).insert ⟨64, 32⟩).Reached :=
    .insert first (by decide) (by decide) (by decide)
  exact @Reached.take _ 12 8 second (by decide) (by decide)

/-- Now the second extent goes whole, since too little of it would be left. -/
theorem reached_conserves_cutList :
    cutList.Reached ∧ cutList.Conserves ∧
      cutList.take? 16 8 = some (⟨⟨76, 20⟩, none⟩, ofList [⟨0, 8⟩]) ∧
      cutList.Grants 16 8 ⟨⟨76, 20⟩, none⟩ (ofList [⟨0, 8⟩]) ∧ cutList.take? 21 8 = none := by
  have conserves := reached_conserves reached_cutList
  have found : cutList.take? 16 8 = some (⟨⟨76, 20⟩, none⟩, ofList [⟨0, 8⟩]) := by decide
  refine ⟨reached_cutList, conserves, found, ?_, ?_⟩
  · exact (conserves.grants 16 8 _ _ (by decide) (by decide) found).2
  · exact ((conserves.refuses 21 8 (by decide) (by decide)).mpr (by decide)).1

end FreeList
end ObjectMachine
