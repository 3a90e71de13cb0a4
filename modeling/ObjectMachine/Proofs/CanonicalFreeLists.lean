import ObjectMachine.Proofs.Extents

/-!
# Canonical free lists

Compaction keeps the bytes of a free list and leaves gaps between its extents. Extents with gaps
between them are determined by their bytes, so the compacted list depends on nothing but the bytes
that are free: neither on the order in which they were freed, nor on the extents they were freed in.
-/

namespace ObjectMachine

/-!
## Joining what touches
-/

namespace FreeList

variable {last : Extent} {extents : List Extent}

theorem exists_of_mem_coalesceFrom {joined : Extent} (mem : joined ∈ coalesceFrom last extents) :
    ∃ extent ∈ last :: extents, extent.addr = joined.addr ∧ extent.size ≤ joined.size := by
  induction extents generalizing last with
  | nil => exact ⟨joined, mem, rfl, Nat.le_refl _⟩
  | cons extent rest ih =>
      unfold coalesceFrom at mem
      split at mem
      · rcases ih mem with ⟨other, other_mem, starts, smaller⟩
        rcases List.mem_cons.mp other_mem with rfl | later
        · exact ⟨last, List.mem_cons_self, starts, Nat.le_trans (Nat.le_add_right _ _) smaller⟩
        · exact ⟨other, List.mem_cons_of_mem _ (List.mem_cons_of_mem _ later), starts, smaller⟩
      · rcases List.mem_cons.mp mem with rfl | mem
        · exact ⟨joined, List.mem_cons_self, rfl, Nat.le_refl _⟩
        · rcases ih mem with ⟨other, other_mem, starts, smaller⟩
          exact ⟨other, List.mem_cons_of_mem _ other_mem, starts, smaller⟩

theorem bytesOf_coalesceFrom (last : Extent) (extents : List Extent) :
    bytesOf (coalesceFrom last extents) = bytesOf (last :: extents) := by
  induction extents generalizing last with
  | nil => rfl
  | cons extent rest ih =>
      unfold coalesceFrom
      split
      · next touch =>
          have joined : (Extent.mk last.addr (last.size + extent.size)).bytes =
              last.bytes ∪ extent.bytes := by
            rw [Extent.bytes_cut]
            show _ = _ ∪ (Extent.mk extent.addr extent.size).bytes
            rw [← touch, Extent.limit]
          rw [ih, bytesOf_cons, joined, bytesOf_cons, bytesOf_cons, Finset.union_assoc]
      · rw [bytesOf_cons, ih, ← bytesOf_cons]

/-- Extents in their order, none of which reaches into the next, have gaps between them once those
that touch are joined. -/
theorem gapped_coalesceFrom (nonempty : ∀ extent ∈ last :: extents, 0 < extent.size)
    (ordered : (last :: extents).Pairwise fun a b => a.limit ≤ b.addr) :
    Gapped (coalesceFrom last extents) := by
  refine ⟨?_, ?_⟩
  · intro joined mem
    rcases exists_of_mem_coalesceFrom mem with ⟨extent, mem, _, smaller⟩
    exact Nat.lt_of_lt_of_le (nonempty extent mem) smaller
  · induction extents generalizing last with
    | nil => exact List.pairwise_singleton _ _
    | cons extent rest ih =>
        rcases List.pairwise_cons.mp ordered with ⟨behind, ordered'⟩
        rcases List.pairwise_cons.mp ordered' with ⟨behind', ordered''⟩
        rcases List.forall_mem_cons.mp nonempty with ⟨room, nonempty'⟩
        rcases List.forall_mem_cons.mp nonempty' with ⟨room', nonempty''⟩
        unfold coalesceFrom
        split
        · next touch =>
            apply ih
            · exact List.forall_mem_cons.mpr ⟨Nat.add_pos_left room _, nonempty''⟩
            · refine List.pairwise_cons.mpr ⟨?_, ordered''⟩
              intro other mem
              have := behind' other mem
              simp only [Extent.limit] at this touch ⊢
              omega
        · next apart =>
            refine List.pairwise_cons.mpr ⟨?_, ih nonempty' ordered'⟩
            intro joined mem
            have gap : last.limit < extent.addr :=
              Nat.lt_of_le_of_ne (behind extent List.mem_cons_self) apart
            rcases exists_of_mem_coalesceFrom mem with ⟨other, other_mem, starts, _⟩
            rcases List.mem_cons.mp other_mem with rfl | later
            · omega
            · have := behind' other later
              simp only [Extent.limit] at this gap ⊢
              omega

end FreeList

/-!
## Compacting
-/

theorem Separate.ordered_mergeSort {extents : List Extent} (separate : Separate extents) :
    (extents.mergeSort Extent.le).Pairwise fun a b => a.limit ≤ b.addr := by
  have sorted := List.pairwise_mergeSort Extent.le_trans Extent.le_total extents
  have separate' := separate.perm (List.mergeSort_perm extents Extent.le).symm
  refine (sorted.and separate'.disjoint).imp_of_mem ?_
  intro a b _ mem both
  refine Extent.limit_le_of_disjoint both.2 (separate'.nonempty b mem) ?_
  have := Extent.le_iff.mp both.1
  omega

namespace FreeList

variable {list other : FreeList}

theorem bytesOf_compact (list : FreeList) : bytesOf list.compact.toList = bytesOf list.toList := by
  have perm := List.mergeSort_perm list.toList Extent.le
  rw [compact, toList_ofList, ← bytesOf_perm perm]
  cases list.toList.mergeSort Extent.le with
  | nil => rfl
  | cons extent rest => exact bytesOf_coalesceFrom extent rest

theorem gapped_compact (separate : Separate list.toList) : Gapped list.compact.toList := by
  have ordered := separate.ordered_mergeSort
  have separate' := separate.perm (List.mergeSort_perm list.toList Extent.le).symm
  rw [compact, toList_ofList]
  cases sorted : list.toList.mergeSort Extent.le with
  | nil => exact ⟨List.forall_mem_nil _, List.Pairwise.nil⟩
  | cons extent rest =>
      rw [sorted] at ordered separate'
      exact gapped_coalesceFrom separate'.nonempty ordered

theorem freeBytes_eq_card (separate : Separate list.toList) :
    list.freeBytes = (bytesOf list.toList).card := by
  rw [freeBytes_eq_sum, separate.card_bytesOf]

/-- Compaction depends on the bytes alone. -/
theorem compact_congr (separate : Separate list.toList) (separate' : Separate other.toList)
    (same : bytesOf other.toList = bytesOf list.toList) : other.compact = list.compact := by
  have compacted : other.compact.toList = list.compact.toList := by
    apply (gapped_compact separate').unique (gapped_compact separate)
    rw [bytesOf_compact, bytesOf_compact, same]
  rw [← ofList_toList other.compact, compacted, ofList_toList]

theorem limit_le_of_mem_compact (separate : Separate list.toList) {bound : Nat}
    (fits : ∀ extent ∈ list.toList, extent.limit ≤ bound) {extent : Extent}
    (mem : extent ∈ list.compact.toList) : extent.limit ≤ bound := by
  have room := (gapped_compact separate).nonempty extent mem
  have last : extent.limit - 1 ∈ bytesOf list.toList := by
    rw [← bytesOf_compact, mem_bytesOf_iff]
    refine ⟨extent, mem, ?_⟩
    rw [Extent.mem_bytes_iff, Extent.limit]
    omega
  rcases mem_bytesOf_iff.mp last with ⟨origin, origin_mem, inside⟩
  have := fits origin origin_mem
  rw [Extent.mem_bytes_iff] at inside
  omega

/-- The compacted list is the canonical list of the bytes that are free. -/
structure Canonical (list : FreeList) : Prop where
  increasing : list.compact.toList.Pairwise fun a b => a.addr < b.addr
  gaps : list.compact.toList.Pairwise fun a b => a.limit < b.addr
  nonempty : ∀ extent ∈ list.compact.toList, 0 < extent.size
  bytes : bytesOf list.compact.toList = bytesOf list.toList
  freeBytes : list.compact.freeBytes = list.freeBytes
  /-- No extent ends later than all extents did before. -/
  fits : ∀ bound, (∀ extent ∈ list.toList, extent.limit ≤ bound) →
    ∀ extent ∈ list.compact.toList, extent.limit ≤ bound
  determined : ∀ other : FreeList, Separate other.toList →
    bytesOf other.toList = bytesOf list.toList → other.compact = list.compact
  /-- Neither the order of the extents matters nor into how many parts they are split. -/
  rearranged : ∀ (parts : Extent → List Extent) (other : FreeList),
    (∀ extent ∈ list.toList, Separate (parts extent) ∧ bytesOf (parts extent) = extent.bytes) →
    other.toList.Perm (list.toList.flatMap parts) → other.compact = list.compact
  idempotent : list.compact.compact = list.compact

theorem compact_canonical (list : FreeList) (separate : Separate list.toList) :
    list.Canonical := by
  have gapped := gapped_compact separate
  refine ⟨?_, gapped.gaps, gapped.nonempty, bytesOf_compact list, ?_, ?_, ?_, ?_, ?_⟩
  · refine gapped.gaps.imp ?_
    intro a b gap
    exact Nat.lt_of_le_of_lt (Nat.le_add_right _ _) gap
  · rw [freeBytes_eq_card gapped.separate, bytesOf_compact, freeBytes_eq_card separate]
  · intro bound fits extent mem
    exact limit_le_of_mem_compact separate fits mem
  · intro other separate' same
    exact compact_congr separate separate' same
  · intro parts other split perm
    rcases separate.flatMap split with ⟨separate', same⟩
    exact compact_congr separate (separate'.perm perm.symm) ((bytesOf_perm perm).trans same)
  · exact compact_congr separate gapped.separate (bytesOf_compact list)

def scatteredList : FreeList :=
  ofList [⟨400, 8⟩, ⟨8, 8⟩, ⟨0, 8⟩, ⟨16, 4⟩]

/-- They are joined, and so are the same bytes when they were freed in other parts. -/
theorem compact_canonical_scatteredList :
    Separate scatteredList.toList ∧ scatteredList.Canonical ∧
      scatteredList.compact.toList = [⟨0, 20⟩, ⟨400, 8⟩] ∧
      (ofList [⟨0, 16⟩, ⟨404, 4⟩, ⟨16, 4⟩, ⟨400, 4⟩]).compact = scatteredList.compact := by
  have separate : Separate scatteredList.toList := ⟨by decide, by decide⟩
  have canonical := compact_canonical scatteredList separate
  refine ⟨separate, canonical, ?_, ?_⟩
  · apply Gapped.unique ⟨canonical.nonempty, canonical.gaps⟩ ⟨by decide, by decide⟩
    rw [canonical.bytes]
    decide +kernel
  · exact canonical.determined _ ⟨by decide, by decide⟩ (by decide +kernel)

end FreeList
end ObjectMachine
