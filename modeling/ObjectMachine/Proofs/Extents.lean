import Mathlib.Data.Finset.Union
import Mathlib.Order.Interval.Finset.Nat
import ObjectMachine.Proofs.FreeSpace

/-!
# The bytes of extents

A list of extents stands for the set of bytes in them. Extents that are sorted by address and do not
touch each other are determined by that set: the first starts at the smallest byte and ends in front
of the first byte that is missing.
-/

namespace ObjectMachine

/-!
## The order of extents
-/

namespace Extent

theorem le_iff {a b : Extent} :
    a.le b = true ↔ a.addr < b.addr ∨ a.addr = b.addr ∧ a.size ≤ b.size := by
  simp [le]

theorem le_trans (a b c : Extent) (ab : a.le b = true) (bc : b.le c = true) : a.le c = true := by
  rw [le_iff] at ab bc ⊢
  omega

theorem le_total (a b : Extent) : (a.le b || b.le a) = true := by
  rw [Bool.or_eq_true, le_iff, le_iff]
  omega

theorem le_antisymm {a b : Extent} (ab : a.le b = true) (ba : b.le a = true) : a = b := by
  rw [le_iff] at ab ba
  cases a
  cases b
  simp only at ab ba
  simp only [mk.injEq]
  omega

/-!
## The bytes of an extent
-/

def bytes (extent : Extent) : Finset Nat :=
  Finset.Ico extent.addr extent.limit

@[simp] theorem mem_bytes_iff {extent : Extent} {i : Nat} :
    i ∈ extent.bytes ↔ extent.addr ≤ i ∧ i < extent.limit :=
  Finset.mem_Ico

theorem card_bytes (extent : Extent) : extent.bytes.card = extent.size := by
  rw [bytes, Nat.card_Ico, limit, Nat.add_sub_cancel_left]

theorem disjoint_of_limit_le {a b : Extent} (apart : a.limit ≤ b.addr) :
    Disjoint a.bytes b.bytes := by
  rw [Finset.disjoint_left]
  intro i mem mem'
  rw [mem_bytes_iff] at mem mem'
  omega

/-- Of two extents without a common byte, the one that starts first ends before the other starts. -/
theorem limit_le_of_disjoint {a b : Extent} (disjoint : Disjoint a.bytes b.bytes)
    (room : 0 < b.size) (before : a.addr ≤ b.addr) : a.limit ≤ b.addr := by
  by_contra inside
  have first : b.addr ∈ b.bytes := by
    rw [mem_bytes_iff, limit]
    omega
  exact Finset.disjoint_right.mp disjoint first (mem_bytes_iff.mpr ⟨before, by omega⟩)

theorem bytes_cut (addr front back : Nat) :
    (Extent.mk addr (front + back)).bytes =
      (Extent.mk addr front).bytes ∪ (Extent.mk (addr + front) back).bytes := by
  ext i
  rw [Finset.mem_union, mem_bytes_iff, mem_bytes_iff, mem_bytes_iff]
  simp only [limit]
  omega

end Extent

/-!
## The bytes of a list of extents
-/

def bytesOf (extents : List Extent) : Finset Nat :=
  extents.toFinset.biUnion Extent.bytes

@[simp] theorem mem_bytesOf_iff {extents : List Extent} {i : Nat} :
    i ∈ bytesOf extents ↔ ∃ extent ∈ extents, i ∈ extent.bytes := by
  simp only [bytesOf, Finset.mem_biUnion, List.mem_toFinset]

@[simp] theorem bytesOf_cons (extent : Extent) (rest : List Extent) :
    bytesOf (extent :: rest) = extent.bytes ∪ bytesOf rest := by
  simp [bytesOf]

@[simp] theorem bytesOf_append (front back : List Extent) :
    bytesOf (front ++ back) = bytesOf front ∪ bytesOf back := by
  rw [bytesOf, List.toFinset_append, Finset.union_biUnion]
  rfl

theorem bytesOf_perm {extents extents' : List Extent} (perm : extents.Perm extents') :
    bytesOf extents = bytesOf extents' := by
  rw [bytesOf, bytesOf, List.toFinset_eq_of_perm _ _ perm]

theorem disjoint_bytesOf_iff {bytes : Finset Nat} {extents : List Extent} :
    Disjoint bytes (bytesOf extents) ↔ ∀ extent ∈ extents, Disjoint bytes extent.bytes := by
  simp only [bytesOf, Finset.disjoint_biUnion_right, List.mem_toFinset]

/-- Extents that are not empty and have no byte in common. -/
structure Separate (extents : List Extent) : Prop where
  nonempty : ∀ extent ∈ extents, 0 < extent.size
  disjoint : extents.Pairwise fun a b => Disjoint a.bytes b.bytes

namespace Separate

variable {extents extents' front back : List Extent} {extent : Extent}

theorem perm (separate : Separate extents) (perm : extents.Perm extents') : Separate extents' := by
  refine ⟨?_, ?_⟩
  · intro extent mem
    exact separate.nonempty extent (perm.mem_iff.mpr mem)
  · exact separate.disjoint.perm perm fun disjoint => disjoint.symm

theorem tail (separate : Separate (extent :: extents)) : Separate extents :=
  ⟨fun other mem => separate.nonempty other (List.mem_cons_of_mem _ mem), separate.disjoint.tail⟩

theorem disjoint_tail (separate : Separate (extent :: extents)) :
    Disjoint extent.bytes (bytesOf extents) :=
  disjoint_bytesOf_iff.mpr (List.pairwise_cons.mp separate.disjoint).1

theorem cons (separate : Separate extents) (room : 0 < extent.size)
    (disjoint : Disjoint extent.bytes (bytesOf extents)) : Separate (extent :: extents) :=
  ⟨List.forall_mem_cons.mpr ⟨room, separate.nonempty⟩,
    List.pairwise_cons.mpr ⟨disjoint_bytesOf_iff.mp disjoint, separate.disjoint⟩⟩

theorem card_bytesOf (separate : Separate extents) :
    (bytesOf extents).card = (extents.map Extent.size).sum := by
  induction extents with
  | nil => rfl
  | cons extent rest ih =>
      rw [bytesOf_cons, Finset.card_union_of_disjoint separate.disjoint_tail, ih separate.tail,
        Extent.card_bytes, List.map_cons, List.sum_cons]

/-- Every extent may be replaced by separate extents with the same bytes. -/
theorem flatMap (separate : Separate extents) {parts : Extent → List Extent}
    (split : ∀ extent ∈ extents, Separate (parts extent) ∧ bytesOf (parts extent) = extent.bytes) :
    Separate (extents.flatMap parts) ∧ bytesOf (extents.flatMap parts) = bytesOf extents := by
  induction extents with
  | nil => exact ⟨separate, rfl⟩
  | cons extent rest ih =>
      rcases List.forall_mem_cons.mp split with ⟨⟨parted, same⟩, later⟩
      rcases ih separate.tail later with ⟨separate', same'⟩
      have apart : Disjoint (bytesOf (parts extent)) (bytesOf (rest.flatMap parts)) := by
        rw [same, same']
        exact separate.disjoint_tail
      refine ⟨⟨?_, ?_⟩, ?_⟩
      · rw [List.flatMap_cons, List.forall_mem_append]
        exact ⟨parted.nonempty, separate'.nonempty⟩
      · rw [List.flatMap_cons, List.pairwise_append]
        refine ⟨parted.disjoint, separate'.disjoint, ?_⟩
        intro a mem b mem'
        have apart_b := disjoint_bytesOf_iff.mp apart b mem'
        exact (disjoint_bytesOf_iff.mp apart_b.symm a mem).symm
      · rw [List.flatMap_cons, bytesOf_append, same, same', bytesOf_cons]

end Separate

/-!
## Extents with gaps between them
-/

/-- Extents that are not empty, in the order of their addresses, with bytes between them that are in
none. -/
structure Gapped (extents : List Extent) : Prop where
  nonempty : ∀ extent ∈ extents, 0 < extent.size
  gaps : extents.Pairwise fun a b => a.limit < b.addr

namespace Gapped

variable {extents rest rest' : List Extent} {extent first first' : Extent}

theorem separate (gapped : Gapped extents) : Separate extents := by
  refine ⟨gapped.nonempty, gapped.gaps.imp ?_⟩
  intro a b gap
  exact Extent.disjoint_of_limit_le (Nat.le_of_lt gap)

theorem tail (gapped : Gapped (extent :: rest)) : Gapped rest :=
  ⟨fun other mem => gapped.nonempty other (List.mem_cons_of_mem _ mem), gapped.gaps.tail⟩

theorem limit_lt (gapped : Gapped (first :: rest)) {i : Nat} (mem : i ∈ bytesOf rest) :
    first.limit < i := by
  rcases mem_bytesOf_iff.mp mem with ⟨extent, mem, inside⟩
  have gap := List.rel_of_pairwise_cons gapped.gaps mem
  rw [Extent.mem_bytes_iff] at inside
  omega

theorem mem_cons_iff {i : Nat} :
    i ∈ bytesOf (first :: rest) ↔ (first.addr ≤ i ∧ i < first.limit) ∨ i ∈ bytesOf rest := by
  rw [bytesOf_cons, Finset.mem_union, Extent.mem_bytes_iff]

theorem first_le (gapped : Gapped (first :: rest)) (gapped' : Gapped (first' :: rest'))
    (same : bytesOf (first :: rest) = bytesOf (first' :: rest')) :
    first'.addr ≤ first.addr ∧ (first.addr = first'.addr → first'.limit ≤ first.limit) := by
  have room := gapped.nonempty first List.mem_cons_self
  have begins : first.addr ∈ bytesOf (first' :: rest') := by
    rw [← same, mem_cons_iff, Extent.limit]
    omega
  have misses : first.limit ∉ bytesOf (first' :: rest') := by
    rw [← same, mem_cons_iff]
    intro mem
    rcases mem with inside | behind
    · omega
    · exact Nat.lt_irrefl _ (gapped.limit_lt behind)
  refine ⟨?_, ?_⟩
  · rcases mem_cons_iff.mp begins with inside | behind
    · exact inside.1
    · have := gapped'.limit_lt behind
      simp only [Extent.limit] at this
      omega
  · intro together
    by_contra shorter
    refine misses (mem_cons_iff.mpr (Or.inl ⟨?_, Nat.lt_of_not_le shorter⟩))
    simp only [Extent.limit]
    omega

theorem first_eq (gapped : Gapped (first :: rest)) (gapped' : Gapped (first' :: rest'))
    (same : bytesOf (first :: rest) = bytesOf (first' :: rest')) : first = first' := by
  rcases gapped.first_le gapped' same with ⟨starts, ends⟩
  rcases gapped'.first_le gapped same.symm with ⟨starts', ends'⟩
  have addr : first.addr = first'.addr := Nat.le_antisymm starts' starts
  have limit : first.limit = first'.limit := Nat.le_antisymm (ends' addr.symm) (ends addr)
  cases first
  cases first'
  simp only [Extent.limit] at addr limit
  simp only [Extent.mk.injEq]
  omega

theorem bytesOf_rest (gapped : Gapped (first :: rest)) (gapped' : Gapped (first :: rest'))
    (same : bytesOf (first :: rest) = bytesOf (first :: rest')) : bytesOf rest = bytesOf rest' := by
  rw [bytesOf_cons, bytesOf_cons] at same
  have kept := congrArg (· \ first.bytes) same
  simpa only [Finset.union_sdiff_cancel_left gapped.separate.disjoint_tail,
    Finset.union_sdiff_cancel_left gapped'.separate.disjoint_tail] using kept

/-- Extents with gaps between them are determined by their bytes. -/
theorem unique {extents' : List Extent} (gapped : Gapped extents) (gapped' : Gapped extents')
    (same : bytesOf extents = bytesOf extents') : extents = extents' := by
  have occupied : ∀ {first : Extent} {rest : List Extent}, Gapped (first :: rest) →
      bytesOf (first :: rest) ≠ ∅ := by
    intro first rest gapped none
    have room := gapped.nonempty first List.mem_cons_self
    have mem : first.addr ∈ bytesOf (first :: rest) := by
      rw [mem_cons_iff, Extent.limit]
      omega
    rw [none] at mem
    exact absurd mem (Finset.notMem_empty _)
  induction extents generalizing extents' with
  | nil =>
      cases extents' with
      | nil => rfl
      | cons first' rest' => exact absurd same.symm (occupied gapped')
  | cons first rest ih =>
      cases extents' with
      | nil => exact absurd same (occupied gapped)
      | cons first' rest' =>
          cases gapped.first_eq gapped' same
          rw [ih gapped.tail gapped'.tail (gapped.bytesOf_rest gapped' same)]

end Gapped
end ObjectMachine
