import ObjectMachine.Proofs.FreeSpace
import ObjectMachine.Proofs.Outcomes
import ObjectMachine.Proofs.SlotWrites

/-!
# Allocation

A block is carved out of a free tile. What is left of the tile, if anything, is a free tile behind
the block; all other tiles keep their place and every byte. The payload of the block is cleared,
and null references are stored in it where its type has references, so that it holds an object of
default values.
-/

namespace ObjectMachine

/-!
## Carving a block
-/

/-- A free tile was replaced by a live one and what is left of it, and the bytes of all other tiles
were kept. -/
structure Carved (memory after : Memory) (front : List Tile) (gap block : Tile)
    (rest back : List Tile) : Prop where
  gap_free : gap.isFree = true
  live : block.isFree = false
  unmarked : block.header.marked = false
  rest_free : ∀ tile ∈ rest, tile.isFree = true ∧ tile.header.marked = false
  size : after.arena.size = memory.arena.size
  tiled : Memory.Tiled after (front ++ block :: (rest ++ back))
  free : after.freeList.toList.Perm
    (((front ++ block :: (rest ++ back)).filter Tile.isFree).map Tile.extent)
  kept : ∀ tile ∈ front ++ back, after.arena.AgreeOn memory.arena tile.pos tile.limit

namespace Carved

variable {program : Program} {memory after : Memory} {front : List Tile} {gap block : Tile}
  {rest back : List Tile} {store : Store}

theorem block_mem : block ∈ front ++ block :: (rest ++ back) := by
  simp

theorem other_mem (carved : Carved memory after front gap block rest back) {tile : Tile}
    (mem : tile ∈ front ++ back) : tile ∈ front ++ block :: (rest ++ back) ∧ tile ≠ block := by
  have mem' : tile ∈ front ++ block :: (rest ++ back) := by
    rcases List.mem_append.mp mem with mem | mem
    · exact List.mem_append_left _ mem
    · exact List.mem_append_right _ (List.mem_cons_of_mem _ (List.mem_append_right _ mem))
  refine ⟨mem', ?_⟩
  intro same
  subst same
  have nodup := carved.tiled.spans.nodup
  rw [List.nodup_append] at nodup
  rcases nodup with ⟨_, nodup, apart⟩
  rcases List.mem_append.mp mem with mem | mem
  · exact apart tile mem tile List.mem_cons_self rfl
  · exact (List.nodup_cons.mp nodup).1 (List.mem_append_right _ mem)

theorem of_payload {later : Memory} (carved : Carved memory after front gap block rest back)
    (size : later.arena.size = after.arena.size) (freeList : later.freeList = after.freeList)
    (agree : ∀ first limit, limit ≤ block.pos + headerSize ∨ block.limit ≤ first →
      later.arena.AgreeOn after.arena first limit) :
    Carved memory later front gap block rest back := by
  have apart : ∀ tile ∈ front ++ block :: (rest ++ back), tile ≠ block →
      later.arena.AgreeOn after.arena tile.pos tile.limit := by
    intro tile mem other
    apply agree
    have room := (carved.tiled.spans.bounds block_mem).2.2
    rcases carved.tiled.spans.disjoint mem block_mem with same | before | behind
    · exact absurd same other
    · exact Or.inl (by omega)
    · exact Or.inr behind
  refine ⟨carved.gap_free, carved.live, carved.unmarked, carved.rest_free,
    size.trans carved.size, ?_, ?_, ?_⟩
  · refine ⟨?_, ?_, ?_⟩
    · simpa [Memory.capacity, size] using carved.tiled.small
    · simpa [Memory.capacity, size] using carved.tiled.spans
    · intro tile mem
      rw [← carved.tiled.stored tile mem]
      apply Arena.header?_congr
      by_cases here : tile = block
      · subst here
        exact agree _ _ (Or.inl (Nat.le_refl _))
      · have bounds := carved.tiled.spans.bounds mem
        apply (apart tile mem here).mono (Nat.le_refl _)
        simp only [Tile.limit]
        omega
  · rw [freeList]
    exact carved.free
  · intro tile mem
    rcases carved.other_mem mem with ⟨mem', other⟩
    exact (apart tile mem' other).trans (carved.kept tile mem)

theorem represents (carved : Carved memory after front gap block rest back)
    (orderly : program.Orderly)
    (rep : Memory.Represents program memory (front ++ gap :: back) store) {object : Object}
    {type : TypeDescriptor} (typed : block.header.type = object.type)
    (known : program.type? object.type = some type)
    (holds : block.Holds after type object.values) :
    Memory.Represents program after (front ++ block :: (rest ++ back))
      (store.set block.addr object) := by
  refine ⟨carved.tiled, carved.free, ?_, ?_⟩
  · intro tile mem live
    by_cases here : tile = block
    · subst here
      exact ⟨object, type, Store.set_same _ _ _, typed, known, holds⟩
    · have apart : tile.addr ≠ block.addr := by
        intro same
        exact here (carved.tiled.eq_of_addr mem block_mem same)
      have old : tile ∈ front ++ back := by
        rcases List.mem_append.mp mem with mem | mem
        · exact List.mem_append_left _ mem
        · rcases List.mem_cons.mp mem with same | mem
          · exact absurd same here
          · rcases List.mem_append.mp mem with mem | mem
            · rw [(carved.rest_free tile mem).1] at live
              cases live
            · exact List.mem_append_right _ mem
      have old' : tile ∈ front ++ gap :: back := by
        rcases List.mem_append.mp old with mem | mem
        · exact List.mem_append_left _ mem
        · exact List.mem_append_right _ (List.mem_cons_of_mem _ mem)
      rcases rep.held tile old' live with ⟨object', type', found', typed', known', holds'⟩
      refine ⟨object', type', ?_, typed', known', ?_⟩
      · rw [Store.set_other _ _ apart]
        exact found'
      · apply holds'.congr (orderly _ _ known') rfl (Nat.le_refl _)
        exact (carved.kept tile old).mono (Nat.le_add_right _ _) (Nat.le_refl _)
  · intro addr object' found
    by_cases here : addr = block.addr
    · exact ⟨block, block_mem, carved.live, here.symm⟩
    · rw [Store.set_other _ _ here] at found
      rcases rep.backed addr object' found with ⟨tile, mem, live, same⟩
      refine ⟨tile, ?_, live, same⟩
      rcases List.mem_append.mp mem with mem | mem
      · exact (carved.other_mem (List.mem_append_left _ mem)).1
      · rcases List.mem_cons.mp mem with rfl | mem
        · rw [carved.gap_free] at live
          cases live
        · exact (carved.other_mem (List.mem_append_right _ mem)).1

end Carved

/-!
## Taking a free tile
-/

namespace Memory

theorem clearBytes_eq_ok {memory : Memory} {pos count : Nat}
    (inside : pos + count ≤ memory.arena.size) :
    clearBytes pos count memory =
      .ok () { memory with arena := memory.arena.clear pos count } :=
  if_pos inside

theorem stampBlock_eq_ok {memory : Memory} {block : Extent} (type : TypeRef)
    (room : headerSize ≤ block.size) (inside : block.limit ≤ memory.arena.size) :
    stampBlock block type memory = .ok () { memory with
      arena := (memory.arena.clear block.addr block.size).setHeader block.addr block.size
        type.index } := by
  simp only [Extent.limit] at inside
  simp only [stampBlock, bind, EStateM.bind, clearBytes_eq_ok inside]
  exact writeHeader_eq_ok _ _ (by simp only [Arena.size_clear]; omega)

theorem stamped_block (arena : Arena) (block : Tile) (room : headerSize ≤ block.header.size)
    (inside : block.limit ≤ arena.size) (small : arena.size < 2 ^ 32)
    (tag : block.header.tag < 2 ^ 31) (unmarked : block.header.marked = false) :
    ((arena.clear block.pos block.header.size).setHeader block.pos block.header.size
        block.header.tag).header? block.pos = some block.header ∧
      (∀ i, block.pos + headerSize ≤ i → i < block.limit →
        ((arena.clear block.pos block.header.size).setHeader block.pos block.header.size
          block.header.tag).byte? i = some 0) ∧
      ∀ first limit, limit ≤ block.pos ∨ block.limit ≤ first →
        ((arena.clear block.pos block.header.size).setHeader block.pos block.header.size
          block.header.tag).AgreeOn arena first limit := by
  have width : headerSize = 8 := rfl
  simp only [Tile.limit] at inside
  refine ⟨?_, ?_, ?_⟩
  · rw [Arena.header?_setHeader _ (by rw [Arena.size_clear]; omega) (by omega) tag, ← unmarked]
  · intro i lower upper
    have kept := Arena.agreeOn_setHeader (arena.clear block.pos block.header.size)
      block.header.size block.header.tag (Or.inr lower) i (Nat.le_refl _) (Nat.lt_succ_self _)
    rw [kept]
    simp only [Tile.limit] at upper
    exact Arena.byte?_clear arena inside (by omega) upper
  · intro first limit outside
    simp only [Tile.limit] at outside
    exact (Arena.agreeOn_setHeader _ _ _ (by omega)).trans
      (Arena.agreeOn_clear arena outside)

end Memory

theorem Carved.of_gap {memory after : Memory} {front : List Tile} {gap block : Tile}
    {rest back : List Tile} (tiled : Memory.Tiled memory (front ++ gap :: back))
    (gap_free : gap.isFree = true) (live : block.isFree = false)
    (unmarked : block.header.marked = false)
    (rest_free : ∀ tile ∈ rest, tile.isFree = true ∧ tile.header.marked = false)
    (size : after.arena.size = memory.arena.size)
    (spans : Spans gap.pos (block :: rest) gap.limit)
    (stored : ∀ tile ∈ block :: rest, after.arena.header? tile.pos = some tile.header)
    (agree : ∀ first limit, limit ≤ gap.pos ∨ gap.limit ≤ first →
      after.arena.AgreeOn memory.arena first limit)
    (free : after.freeList.toList.Perm
      ((front.filter Tile.isFree).map Tile.extent ++
        (rest.map Tile.extent ++ (back.filter Tile.isFree).map Tile.extent))) :
    Carved memory after front gap block rest back := by
  rcases Spans.append_iff.mp tiled.spans with ⟨middle, left, start, room, right⟩
  subst start
  have others : ∀ tile ∈ front ++ back, after.arena.AgreeOn memory.arena tile.pos tile.limit := by
    intro tile mem
    apply agree
    rcases List.mem_append.mp mem with mem | mem
    · exact Or.inl (left.bounds mem).2.1
    · exact Or.inr (right.bounds mem).1
  refine ⟨gap_free, live, unmarked, rest_free, size, ⟨?_, ?_, ?_⟩, ?_, others⟩
  · simpa [Memory.capacity, size] using tiled.small
  · have joined := Spans.append_iff.mpr ⟨_, left, Spans.append_iff.mpr ⟨_, spans, right⟩⟩
    simpa [Memory.capacity, size] using joined
  · intro tile mem
    have cases' : tile ∈ block :: rest ∨ tile ∈ front ++ back := by
      simp only [List.mem_append, List.mem_cons] at mem ⊢
      grind
    rcases cases' with new | old
    · exact stored tile new
    · have old' : tile ∈ front ++ gap :: back := by
        simp only [List.mem_append, List.mem_cons] at old ⊢
        grind
      rw [← tiled.stored tile old']
      apply Arena.header?_congr
      have room := (tiled.spans.bounds old').2.2
      apply (others tile old).mono (Nat.le_refl _)
      simp only [Tile.limit]
      omega
  · have all : rest.filter Tile.isFree = rest := by
      rw [List.filter_eq_self]
      intro tile mem
      exact (rest_free tile mem).1
    simpa [List.filter_append, List.filter_cons, live, all] using free

namespace Memory

/-!
## Blocks
-/

def stampRest (arena : Arena) : Option Extent → Arena
  | some rest => arena.setHeader rest.addr rest.size freeTag
  | none => arena

theorem size_stampRest (arena : Arena) (rest : Option Extent) :
    (stampRest arena rest).size = arena.size := by
  cases rest with
  | none => rfl
  | some rest => exact Arena.size_setHeader _ _ _ _

theorem allocateBlock_of_take {memory : Memory} {payload : Nat} {block : Extent}
    {rest : Option Extent} {extents : List Extent} (type : TypeRef)
    (took : FreeList.takeFrom (payload + headerSize) headerSize memory.freeList.toList =
      some (⟨block, rest⟩, extents))
    (room : headerSize ≤ block.size) (inside : block.limit ≤ memory.arena.size)
    (rest_inside : ∀ left ∈ rest, left.addr + headerSize ≤ memory.arena.size) :
    allocateBlock payload type memory = .ok (some (Addr.ofPos block.addr)) {
      arena := ((stampRest memory.arena rest).clear block.addr block.size).setHeader block.addr
        block.size type.index
      freeList := .ofList extents
      stats := { memory.stats with
        allocations := memory.stats.allocations + 1
        bytesAllocated := memory.stats.bytesAllocated + block.size } } := by
  have stamped : stampBlock block type { memory with
        arena := stampRest memory.arena rest, freeList := .ofList extents } =
      .ok () { memory with
        arena := ((stampRest memory.arena rest).clear block.addr block.size).setHeader block.addr
          block.size type.index
        freeList := .ofList extents } :=
    stampBlock_eq_ok type room (by rw [size_stampRest]; exact inside)
  simp only [allocateBlock, FreeList.take?, took, Option.map_some]
  cases rest with
  | none =>
      exact (bind_of_ok stamped).trans rfl
  | some left =>
      have first : writeHeader left.addr left.size freeTag { memory with
            freeList := .ofList extents } =
          .ok () { memory with
            arena := stampRest memory.arena (some left), freeList := .ofList extents } :=
        writeHeader_eq_ok _ _ (rest_inside left rfl)
      exact (bind_of_ok first).trans ((bind_of_ok stamped).trans rfl)

structure Granted (payload : Nat) (type : TypeRef) (memory after : Memory) (front : List Tile)
    (gap block : Tile) (rest back : List Tile) : Prop where
  ran : allocateBlock payload type memory = .ok (some block.addr) after
  carved : Carved memory after front gap block rest back
  tagged : block.header.tag = type.index
  fits : headerSize + payload ≤ block.header.size
  cleared : ∀ i, block.pos + headerSize ≤ i → i < block.limit → after.arena.byte? i = some 0
  counted : after.stats = { memory.stats with
    allocations := memory.stats.allocations + 1
    bytesAllocated := memory.stats.bytesAllocated + block.header.size }

theorem isFree_of_tag {type : TypeRef} (tag : type.index < freeTag) (pos size : Nat) :
    (Tile.mk pos ⟨size, type.index, false⟩).isFree = false := by
  show (type.index == freeTag) = false
  rw [beq_eq_false_iff_ne]
  exact Nat.ne_of_lt tag

theorem gap_of_take {tiles : List Tile} {extents before behind : List Extent} {extent : Extent}
    (free : extents.Perm ((tiles.filter Tile.isFree).map Tile.extent))
    (split : extents = before ++ extent :: behind) :
    ∃ front gap back, tiles = front ++ gap :: back ∧ gap.isFree = true ∧ gap.extent = extent ∧
      (before ++ behind).Perm ((front.filter Tile.isFree).map Tile.extent ++
        (back.filter Tile.isFree).map Tile.extent) := by
  have mem : extent ∈ (tiles.filter Tile.isFree).map Tile.extent := by
    apply free.mem_iff.mp
    rw [split]
    simp
  rcases List.mem_map.mp mem with ⟨gap, filtered, rfl⟩
  rcases List.mem_filter.mp filtered with ⟨gap_mem, gap_free⟩
  rcases List.append_of_mem gap_mem with ⟨front, back, rfl⟩
  refine ⟨front, gap, back, rfl, gap_free, rfl, ?_⟩
  rw [split, List.filter_append, List.filter_cons, if_pos gap_free, List.map_append,
    List.map_cons] at free
  exact (List.perm_cons gap.extent).mp
    ((List.perm_middle.symm.trans free).trans List.perm_middle)

section Cutting

variable {memory : Memory} {front back : List Tile} {gap : Tile} {payload : Nat}
  {type : TypeRef} {extents before behind : List Extent}

theorem grant_whole (tiled : Tiled memory (front ++ gap :: back)) (gap_free : gap.isFree = true)
    (tag : type.index < freeTag) (enough : payload + headerSize ≤ gap.header.size)
    (took : FreeList.takeFrom (payload + headerSize) headerSize memory.freeList.toList =
      some (⟨gap.extent, none⟩, extents))
    (others : extents.Perm ((front.filter Tile.isFree).map Tile.extent ++
      (back.filter Tile.isFree).map Tile.extent)) :
    ∃ after, Granted payload type memory after front gap
      ⟨gap.pos, ⟨gap.header.size, type.index, false⟩⟩ [] back := by
  have tagged : freeTag = 2 ^ 31 - 1 := rfl
  have bounds := tiled.spans.bounds (List.mem_append_right front List.mem_cons_self)
  have small := tiled.small
  have inside : gap.limit ≤ memory.arena.size := bounds.2.1
  simp only [capacity] at small
  rcases stamped_block memory.arena ⟨gap.pos, ⟨gap.header.size, type.index, false⟩⟩
    bounds.2.2 inside (by omega) (show type.index < 2 ^ 31 by omega) rfl with
    ⟨stored, cleared, agree⟩
  have ran := allocateBlock_of_take type took bounds.2.2 inside (by simp)
  refine ⟨_, ran, Carved.of_gap tiled gap_free (isFree_of_tag tag _ _) rfl (by simp)
    (by simp [stampRest]) ?_ ?_ agree ?_, rfl, ?_, cleared, rfl⟩
  · exact ⟨rfl, bounds.2.2, rfl⟩
  · intro tile new
    cases List.mem_singleton.mp new
    exact stored
  · simpa using others
  · rw [Nat.add_comm]
    exact enough

theorem grant_front (tiled : Tiled memory (front ++ gap :: back)) (gap_free : gap.isFree = true)
    (tag : type.index < freeTag) (enough : payload + headerSize ≤ gap.header.size)
    (useful : headerSize ≤ gap.header.size - (payload + headerSize))
    (took : FreeList.takeFrom (payload + headerSize) headerSize memory.freeList.toList =
      some (⟨⟨gap.pos, payload + headerSize⟩, some ⟨gap.pos + (payload + headerSize),
        gap.header.size - (payload + headerSize)⟩⟩,
        before ++ ⟨gap.pos + (payload + headerSize),
          gap.header.size - (payload + headerSize)⟩ :: behind))
    (others : (before ++ behind).Perm ((front.filter Tile.isFree).map Tile.extent ++
      (back.filter Tile.isFree).map Tile.extent)) :
    ∃ after, Granted payload type memory after front gap
      ⟨gap.pos, ⟨payload + headerSize, type.index, false⟩⟩
      [⟨gap.pos + (payload + headerSize),
        ⟨gap.header.size - (payload + headerSize), freeTag, false⟩⟩] back := by
  have width : headerSize = 8 := rfl
  have tagged : freeTag = 2 ^ 31 - 1 := rfl
  have room : headerSize ≤ payload + headerSize := Nat.le_add_left _ _
  have inside := (tiled.spans.bounds (List.mem_append_right front List.mem_cons_self)).2.1
  have small := tiled.small
  have end_eq : gap.pos + (payload + headerSize) + (gap.header.size - (payload + headerSize))
      = gap.limit := by
    simp only [Tile.limit]
    omega
  simp only [capacity, Tile.limit] at inside small
  have rest_stored : (memory.arena.setHeader (gap.pos + (payload + headerSize))
      (gap.header.size - (payload + headerSize)) freeTag).header?
        (gap.pos + (payload + headerSize)) =
      some ⟨gap.header.size - (payload + headerSize), freeTag, false⟩ :=
    Arena.header?_setHeader _ (by omega) (by omega) (by omega)
  rcases stamped_block (memory.arena.setHeader (gap.pos + (payload + headerSize))
      (gap.header.size - (payload + headerSize)) freeTag)
    ⟨gap.pos, ⟨payload + headerSize, type.index, false⟩⟩
    room (by simp only [Tile.limit, Arena.size_setHeader]; omega)
    (by simp only [Arena.size_setHeader]; omega)
    (show type.index < 2 ^ 31 by omega) rfl with
    ⟨stored, cleared, agree⟩
  have ran := allocateBlock_of_take type took room
    (show gap.pos + (payload + headerSize) ≤ memory.arena.size by omega)
    (by
      intro left same
      cases same
      show gap.pos + (payload + headerSize) + headerSize ≤ memory.arena.size
      omega)
  refine ⟨_, ran, Carved.of_gap tiled gap_free (isFree_of_tag tag _ _) rfl ?_ ?_ ?_ ?_ ?_ ?_,
    rfl, Nat.le_of_eq (Nat.add_comm _ _), cleared, rfl⟩
  · intro tile new
    cases List.mem_singleton.mp new
    exact ⟨rfl, rfl⟩
  · simp [stampRest]
  · exact ⟨rfl, room, rfl, useful, end_eq⟩
  · intro tile new
    rcases List.mem_cons.mp new with rfl | new
    · exact stored
    · cases List.mem_singleton.mp new
      rw [← rest_stored]
      apply Arena.header?_congr
      exact agree _ _ (Or.inr (Nat.le_refl _))
  · intro first limit outside
    simp only [Tile.limit] at outside
    refine (agree first limit ?_).trans (Arena.agreeOn_setHeader _ _ _ ?_)
    · simp only [Tile.limit]
      omega
    · omega
  · exact List.perm_middle.trans ((others.cons _).trans List.perm_middle.symm)

end Cutting

/-- The outcome of a request for a block: there is no free tile with enough room, or a block was
carved out of one. -/
theorem allocateBlock_cases {memory : Memory} {tiles : List Tile} (payload : Nat) {type : TypeRef}
    (tiled : Tiled memory tiles)
    (free : memory.freeList.toList.Perm ((tiles.filter Tile.isFree).map Tile.extent))
    (tag : type.index < freeTag) :
    (allocateBlock payload type memory = .ok none memory ∧
      ∀ tile ∈ tiles, tile.isFree = true → tile.header.size < payload + headerSize) ∨
    ∃ front gap block rest back after, tiles = front ++ gap :: back ∧
      Granted payload type memory after front gap block rest back := by
  cases took : FreeList.takeFrom (payload + headerSize) headerSize memory.freeList.toList with
  | none =>
      left
      constructor
      · simp only [allocateBlock, FreeList.take?, took, Option.map_none]
      · intro tile mem isFree
        have small := FreeList.takeFrom_eq_none_iff.mp took
        apply small tile.extent
        apply free.mem_iff.mpr
        exact List.mem_map.mpr ⟨tile, List.mem_filter.mpr ⟨mem, isFree⟩, rfl⟩
  | some result =>
      right
      rcases result with ⟨taken, extents⟩
      rcases FreeList.takeFrom_eq_some took with
        ⟨before, extent, behind, split, _, enough, outcome⟩
      rcases gap_of_take free split with ⟨front, gap, back, rfl, gap_free, rfl, others⟩
      simp only [Tile.extent] at enough
      rcases outcome with ⟨_, rfl, rfl⟩ | ⟨useful, rfl, rfl⟩
      · rcases grant_whole tiled gap_free tag enough took others with ⟨after, granted⟩
        exact ⟨front, gap, _, _, back, after, rfl, granted⟩
      · rcases grant_front tiled gap_free tag enough useful took others with ⟨after, granted⟩
        exact ⟨front, gap, _, _, back, after, rfl, granted⟩

end Memory

/-!
## Default values

Null references are stored at a list of positions, four bytes each. The positions of the
references of a block are those of its slots, so all its other slots stay cleared.
-/

namespace Arena

def nullAt (arena : Arena) : List Nat → Arena
  | [] => arena
  | pos :: rest => (arena.setWord pos Addr.null.word).nullAt rest

@[simp] theorem size_nullAt (arena : Arena) (positions : List Nat) :
    (arena.nullAt positions).size = arena.size := by
  induction positions generalizing arena with
  | nil => rfl
  | cons pos rest ih => rw [nullAt, ih, size_setWord]

theorem agreeOn_nullAt (arena : Arena) {positions : List Nat} {first limit : Nat}
    (outside : ∀ pos ∈ positions, limit ≤ pos ∨ pos + 4 ≤ first) :
    AgreeOn (arena.nullAt positions) arena first limit := by
  induction positions generalizing arena with
  | nil => exact AgreeOn.refl _ _ _
  | cons pos rest ih =>
      rw [nullAt]
      exact (ih _ fun other mem => outside other (List.mem_cons_of_mem _ mem)).trans
        (agreeOn_setWord _ _ (outside pos List.mem_cons_self))

theorem word?_nullAt (arena : Arena) {positions : List Nat}
    (ordered : positions.Pairwise fun pos other => pos + 4 ≤ other)
    (inside : ∀ pos ∈ positions, pos + 4 ≤ arena.size) {pos : Nat} (mem : pos ∈ positions) :
    (arena.nullAt positions).word? pos = some Addr.null.word := by
  induction positions generalizing arena with
  | nil => cases mem
  | cons head rest ih =>
      rcases List.pairwise_cons.mp ordered with ⟨behind, ordered⟩
      rw [nullAt]
      cases mem with
      | head =>
          rw [word?_congr (agreeOn_nullAt _ fun other mem => Or.inl (behind other mem))]
          exact word?_setWord _ _ (inside pos List.mem_cons_self)
      | tail _ mem =>
          apply ih _ ordered _ mem
          intro other mem
          rw [size_setWord]
          exact inside other (List.mem_cons_of_mem _ mem)

end Arena

namespace TypeDescriptor

def refPositions (type : TypeDescriptor) (length payload : Nat) : List Nat :=
  ((type.slots length).filter fun slot => slot.kind = .ref).map fun slot => payload + slot.offset

theorem mem_refPositions_iff {type : TypeDescriptor} {length payload pos : Nat} :
    pos ∈ type.refPositions length payload ↔
      ∃ slot ∈ type.slots length, slot.kind = .ref ∧ pos = payload + slot.offset := by
  simp only [refPositions, List.mem_map, List.mem_filter, decide_eq_true_eq]
  constructor
  · intro found
    rcases found with ⟨slot, ⟨mem, kind⟩, rfl⟩
    exact ⟨slot, mem, kind, rfl⟩
  · intro found
    rcases found with ⟨slot, mem, kind, rfl⟩
    exact ⟨slot, ⟨mem, kind⟩, rfl⟩

theorem Orderly.refPositions_ordered {type : TypeDescriptor} (orderly : type.Orderly)
    (length payload : Nat) :
    (type.refPositions length payload).Pairwise fun pos other => pos + 4 ≤ other := by
  rw [refPositions, List.pairwise_map]
  rw [List.pairwise_filter]
  refine (orderly.ordered length).imp ?_
  intro slot other ordered isRef _
  have kind : slot.kind = .ref := by simpa using isRef
  have four : slot.kind.width = 4 := by rw [kind]; rfl
  omega

def defaults (type : TypeDescriptor) (length : Nat) : List Value :=
  (type.slots length).map fun slot => slot.kind.default

theorem slots_length_defaults (type : TypeDescriptor) (length : Nat) :
    type.slots (type.defaults length).length = type.slots length := by
  cases type <;> simp [defaults, slots]

theorem payload_length_defaults (type : TypeDescriptor) (length : Nat) :
    type.payload (type.defaults length).length = type.payload length := by
  cases type <;> simp [defaults, slots, payload]

theorem length_defaults_ofArray (a : ArrayDescriptor) (length : Nat) :
    ((ofArray a).defaults length).length = length := by
  simp [defaults]

end TypeDescriptor

namespace Tile

theorem holds_defaults {memory after : Memory} {block : Tile} {type : TypeDescriptor}
    {length : Nat} (orderly : type.Orderly) (primitive : ∀ p, type ≠ .primitive p)
    (fits : headerSize + type.payload length ≤ block.header.size)
    (inside : block.limit ≤ memory.arena.size)
    (array : ∀ a, type = .ofArray a →
      memory.arena.word? (block.pos + headerSize) = some (UInt32.ofNat length))
    (cleared : ∀ i, block.pos + headerSize + type.lead ≤ i → i < block.limit →
      memory.arena.byte? i = some 0)
    (nulled : after.arena =
      memory.arena.nullAt (type.refPositions length (block.pos + headerSize))) :
    block.Holds after type (type.defaults length) := by
  simp only [Tile.limit] at inside cleared
  refine ⟨primitive, ?_, ?_, ?_, ?_⟩
  · rw [type.slots_length_defaults]
    simp [TypeDescriptor.defaults]
  · rw [type.payload_length_defaults]
    exact fits
  · intro a isArray
    have length_eq : (type.defaults length).length = length := by
      rw [isArray]
      exact TypeDescriptor.length_defaults_ofArray a length
    rw [length_eq, ← array a isArray, nulled]
    apply Arena.word?_congr
    apply Arena.agreeOn_nullAt
    intro pos mem
    rcases TypeDescriptor.mem_refPositions_iff.mp mem with ⟨slot, slot_mem, _, rfl⟩
    have within := orderly.within length slot slot_mem
    rw [isArray] at within
    have four : lengthSize = 4 := rfl
    simp only [TypeDescriptor.lead] at within
    omega
  · intro i slot value at_i found
    rw [type.slots_length_defaults] at at_i
    rw [TypeDescriptor.defaults, List.getElem?_map, at_i] at found
    cases found
    have slot_mem := List.mem_of_getElem? at_i
    have within := orderly.within length slot slot_mem
    by_cases isRef : slot.kind = .ref
    · have read : after.arena.word? (block.pos + headerSize + slot.offset) =
          some Addr.null.word := by
        rw [nulled]
        apply Arena.word?_nullAt _ (orderly.refPositions_ordered _ _)
        · intro pos mem
          rcases TypeDescriptor.mem_refPositions_iff.mp mem with ⟨other, other_mem, kind, rfl⟩
          have within := orderly.within length other other_mem
          have four : other.kind.width = 4 := by rw [kind]; rfl
          omega
        · exact TypeDescriptor.mem_refPositions_iff.mpr ⟨slot, slot_mem, isRef, rfl⟩
      simp only [isRef, Memory.readValue, read, Memory.valueOfWord]
      rfl
    · apply Memory.readValue_of_clear isRef
      intro j lower upper
      rw [nulled, Arena.agreeOn_nullAt memory.arena _ j lower upper]
      · exact cleared j (by omega) (by omega)
      · -- The slots of references lie elsewhere, as this slot is none of them.
        intro pos mem
        rcases TypeDescriptor.mem_refPositions_iff.mp mem with ⟨other, other_mem, kind, rfl⟩
        rcases List.mem_iff_getElem?.mp other_mem with ⟨k, at_k⟩
        have different : i ≠ k := by
          intro same
          subst same
          rw [at_i] at at_k
          cases at_k
          exact isRef kind
        have four : other.kind.width = 4 := by rw [kind]; rfl
        have apart := orderly.disjoint at_i at_k different
        omega

end Tile

/-!
## New objects
-/

namespace Memory

theorem clearFields_eq_ok {memory : Memory} {payload : Nat} {fields : List FieldSlot}
    (inside : ∀ field ∈ fields, field.kind = .ref →
      payload + field.offset + 4 ≤ memory.arena.size) :
    clearFields payload fields memory = .ok () { memory with
      arena := memory.arena.nullAt
        ((fields.filter fun field => field.kind = .ref).map fun field =>
          payload + field.offset) } := by
  induction fields generalizing memory with
  | nil => rfl
  | cons field rest ih =>
      have later := fun other mem => inside other (List.mem_cons_of_mem field mem)
      unfold clearFields
      by_cases isRef : field.kind = .ref
      · have first : writeWord (payload + field.offset) Addr.null.word memory =
            .ok () { memory with
              arena := memory.arena.setWord (payload + field.offset) Addr.null.word } :=
          if_pos (inside field List.mem_cons_self isRef)
        simp only [isRef, if_true]
        rw [bind_of_ok first, ih (by simpa using later)]
        simp [isRef, Arena.nullAt]
      · simp only [isRef, if_false]
        show clearFields payload rest memory = _
        rw [ih later]
        simp [isRef]

theorem clearElements_eq_ok {memory : Memory} {pos count : Nat}
    (inside : pos + count * 4 ≤ memory.arena.size) :
    clearElements pos count memory = .ok () { memory with
      arena := memory.arena.nullAt ((List.range count).map fun i => pos + i * 4) } := by
  induction count generalizing memory pos with
  | zero => rfl
  | succ count ih =>
      have first : writeWord pos Addr.null.word memory =
          .ok () { memory with arena := memory.arena.setWord pos Addr.null.word } :=
        if_pos (by omega)
      have four : Kind.ref.width = 4 := rfl
      unfold clearElements
      rw [bind_of_ok first, four, ih (by simp only [Arena.size_setWord]; omega),
        List.range_succ_eq_map, List.map_cons, Arena.nullAt]
      simp [Function.comp_def, Nat.add_mul, Nat.add_assoc, Nat.add_comm]

theorem clearFields_eq_nullAt {memory : Memory} {c : ClassDescriptor} {pos : Nat}
    (tidy : (TypeDescriptor.ofClass c).Orderly) (inside : pos + c.size ≤ memory.arena.size) :
    clearFields pos c.fields memory = .ok () { memory with
      arena := memory.arena.nullAt ((TypeDescriptor.ofClass c).refPositions 0 pos) } := by
  have positions : (TypeDescriptor.ofClass c).refPositions 0 pos =
      (c.fields.filter fun field => field.kind = .ref).map fun field => pos + field.offset := by
    simp [TypeDescriptor.refPositions, TypeDescriptor.slots, List.filter_map, Function.comp_def]
  rw [positions]
  apply clearFields_eq_ok
  intro field mem isRef
  have within := (tidy.within 0 ⟨field.offset, field.kind⟩
    (List.mem_map.mpr ⟨field, mem, rfl⟩)).2
  have four : field.kind.width = 4 := by rw [isRef]; rfl
  simp only [TypeDescriptor.payload] at within
  omega

theorem clearElements_eq_nullAt {memory : Memory} {a : ArrayDescriptor} {pos length : Nat}
    (isRef : a.elementKind = .ref)
    (inside : pos + (lengthSize + length * a.elementKind.width) ≤ memory.arena.size) :
    clearElements (pos + lengthSize) length memory = .ok () { memory with
      arena := memory.arena.nullAt ((TypeDescriptor.ofArray a).refPositions length pos) } := by
  have width : a.elementKind.width = 4 := by rw [isRef]; rfl
  have positions : (TypeDescriptor.ofArray a).refPositions length pos =
      (List.range length).map fun i => pos + lengthSize + i * 4 := by
    have all : (List.range length).filter (fun _ => true) = List.range length :=
      List.filter_eq_self.mpr fun _ _ => rfl
    simp [TypeDescriptor.refPositions, TypeDescriptor.slots, List.filter_map,
      Function.comp_def, isRef, Kind.width, Nat.add_assoc, all]
  rw [positions]
  apply clearElements_eq_ok
  rw [width] at inside
  omega

theorem refPositions_eq_nil {a : ArrayDescriptor} (noRef : a.elementKind ≠ .ref)
    (length pos : Nat) : (TypeDescriptor.ofArray a).refPositions length pos = [] := by
  simp [TypeDescriptor.refPositions, TypeDescriptor.slots, noRef]

end Memory

def liveBytes (tiles : List Tile) : Nat :=
  ((tiles.filter fun tile => !tile.isFree).map fun tile => tile.header.size).sum

structure Created (program : Program) (memory after : Memory) (tiles tiles' : List Tile)
    (store : Store) (addr : Addr) (object : Object) : Prop where
  represents : Memory.Represents program after tiles' (store.set addr object)
  fresh : store addr = none
  capacity : after.capacity = memory.capacity
  unmarked : (∀ tile ∈ tiles, tile.header.marked = false) →
    ∀ tile ∈ tiles', tile.header.marked = false
  bytes : after.stats.bytesAllocated + liveBytes tiles =
    memory.stats.bytesAllocated + liveBytes tiles'
  kept : ∀ tile ∈ tiles, tile.isFree = false →
    tile ∈ tiles' ∧ after.arena.AgreeOn memory.arena tile.pos tile.limit
  taken : ∃ gap ∈ tiles, gap.isFree = true ∧ gap.addr = addr ∧
    ∀ tile ∈ tiles', tile.addr = addr → tile.limit ≤ gap.limit

namespace Carved

variable {program : Program} {memory after : Memory} {front : List Tile} {gap block : Tile}
  {rest back : List Tile} {store : Store}

theorem pos_eq (carved : Carved memory after front gap block rest back)
    (tiled : Memory.Tiled memory (front ++ gap :: back)) : block.pos = gap.pos := by
  rcases Spans.append_iff.mp tiled.spans with ⟨middle, left, start, _⟩
  rcases Spans.append_iff.mp carved.tiled.spans with ⟨middle', left', start', _⟩
  rw [start, start', ← left.sum, ← left'.sum]

theorem limit_le (carved : Carved memory after front gap block rest back)
    (tiled : Memory.Tiled memory (front ++ gap :: back)) : block.limit ≤ gap.limit := by
  rcases Spans.append_iff.mp tiled.spans with ⟨middle, left, start, _, right⟩
  rcases Spans.append_iff.mp carved.tiled.spans with ⟨middle', left', start', _, right'⟩
  rcases Spans.append_iff.mp right' with ⟨last, behind, right''⟩
  have total := right.sum
  have total' := right''.sum
  have capacity : after.capacity = memory.capacity := carved.size
  have inner := behind.le
  omega

theorem fresh (carved : Carved memory after front gap block rest back)
    (rep : Memory.Represents program memory (front ++ gap :: back) store) :
    store block.addr = none := by
  cases found : store block.addr with
  | none => rfl
  | some object =>
      rcases rep.backed _ _ found with ⟨tile, mem, live, same⟩
      have gap_mem : gap ∈ front ++ gap :: back := by simp
      have same' : tile.addr = gap.addr := by
        rw [same, Tile.addr, Tile.addr, carved.pos_eq rep.toTiled]
      have equal := rep.eq_of_addr mem gap_mem same'
      rw [equal, carved.gap_free] at live
      cases live

theorem unmarked_all (carved : Carved memory after front gap block rest back)
    (unmarked : ∀ tile ∈ front ++ gap :: back, tile.header.marked = false) :
    ∀ tile ∈ front ++ block :: (rest ++ back), tile.header.marked = false := by
  intro tile mem
  rcases List.mem_append.mp mem with mem | mem
  · exact unmarked tile (List.mem_append_left _ mem)
  · rcases List.mem_cons.mp mem with rfl | mem
    · exact carved.unmarked
    · rcases List.mem_append.mp mem with mem | mem
      · exact (carved.rest_free tile mem).2
      · exact unmarked tile (List.mem_append_right _ (List.mem_cons_of_mem _ mem))

theorem liveBytes_eq (carved : Carved memory after front gap block rest back) :
    liveBytes (front ++ block :: (rest ++ back)) =
      liveBytes (front ++ gap :: back) + block.header.size := by
  have none : rest.filter (fun tile => !tile.isFree) = [] := by
    rw [List.filter_eq_nil_iff]
    intro tile mem
    rw [(carved.rest_free tile mem).1]
    decide
  simp only [liveBytes, List.filter_append, List.filter_cons, carved.live, carved.gap_free, none,
    Bool.not_false, Bool.not_true, if_true, List.map_append, List.map_cons, List.sum_append,
    List.sum_cons, List.nil_append]
  simp
  omega

theorem nulled (carved : Carved memory after front gap block rest back) {type : TypeDescriptor}
    {length : Nat} (orderly : type.Orderly) (primitive : ∀ p, type ≠ .primitive p)
    (fits : headerSize + type.payload length ≤ block.header.size)
    (array : ∀ a, type = .ofArray a →
      after.arena.word? (block.pos + headerSize) = some (UInt32.ofNat length))
    (cleared : ∀ i, block.pos + headerSize + type.lead ≤ i → i < block.limit →
      after.arena.byte? i = some 0) :
    Carved memory { after with
        arena := after.arena.nullAt (type.refPositions length (block.pos + headerSize)) }
      front gap block rest back ∧
    block.Holds { after with
        arena := after.arena.nullAt (type.refPositions length (block.pos + headerSize)) }
      type (type.defaults length) := by
  constructor
  · refine carved.of_payload (Arena.size_nullAt _ _) rfl ?_
    intro first limit outside
    apply Arena.agreeOn_nullAt
    intro pos mem
    rcases TypeDescriptor.mem_refPositions_iff.mp mem with ⟨slot, slot_mem, kind, rfl⟩
    have within := (orderly.within length slot slot_mem).2
    have four : slot.kind.width = 4 := by rw [kind]; rfl
    simp only [Tile.limit] at outside
    omega
  · exact Tile.holds_defaults orderly primitive fits
      (carved.tiled.spans.bounds block_mem).2.1 array cleared rfl

theorem created (carved : Carved memory after front gap block rest back)
    (orderly : program.Orderly)
    (rep : Memory.Represents program memory (front ++ gap :: back) store) {ref : TypeRef}
    {type : TypeDescriptor} {values : List Value} (tag : block.header.tag = ref.index)
    (known : program.type? ref = some type) (holds : block.Holds after type values)
    (counted : after.stats.bytesAllocated = memory.stats.bytesAllocated + block.header.size) :
    Created program memory after (front ++ gap :: back) (front ++ block :: (rest ++ back)) store
      block.addr ⟨ref, values⟩ := by
  have typed : block.header.type = ref := by
    cases ref
    exact congrArg TypeRef.mk tag
  refine ⟨carved.represents orderly rep typed known holds, carved.fresh rep, carved.size,
    carved.unmarked_all, ?_, ?_, ?_⟩
  · rw [counted, carved.liveBytes_eq]
    omega
  · intro tile mem live
    have old : tile ∈ front ++ back := by
      rcases List.mem_append.mp mem with mem | mem
      · exact List.mem_append_left _ mem
      · rcases List.mem_cons.mp mem with rfl | mem
        · rw [carved.gap_free] at live
          cases live
        · exact List.mem_append_right _ mem
    exact ⟨(carved.other_mem old).1, carved.kept tile old⟩
  · refine ⟨gap, by simp, carved.gap_free, ?_, ?_⟩
    · rw [Tile.addr, Tile.addr, carved.pos_eq rep.toTiled]
    · intro tile mem same
      rw [carved.tiled.eq_of_addr mem block_mem same]
      exact carved.limit_le rep.toTiled

end Carved

namespace Memory
namespace Represents

variable {program : Program} {memory : Memory} {tiles : List Tile} {store : Store}

/-- A request for a new object: there is no room, or the object is created with the defaults of
its fields. -/
theorem newObject_cases (rep : Represents program memory tiles store) (orderly : program.Orderly)
    {ref : TypeRef} {c : ClassDescriptor} (known : program.class? ref = some c)
    (tag : ref.index < freeTag) :
    (newObject ref c memory = .ok none memory ∧
      ∀ tile ∈ tiles, tile.isFree = true → tile.header.size < c.size + headerSize) ∨
    ∃ addr after tiles', newObject ref c memory = .ok (some addr) after ∧
      Created program memory after tiles tiles' store addr
        ⟨ref, (TypeDescriptor.ofClass c).defaults 0⟩ := by
  have known' := Program.class?_eq_some_iff.mp known
  have tidy := orderly _ _ known'
  rcases allocateBlock_cases c.size rep.toTiled rep.free tag with
    ⟨ran, full⟩ | ⟨front, gap, block, rest, back, after, rfl, ran, carved, tagged, fits, cleared,
      counted⟩
  · left
    refine ⟨?_, full⟩
    rw [newObject, bind_of_ok ran]
    rfl
  · right
    have inside := (carved.tiled.spans.bounds Carved.block_mem).2.1
    simp only [capacity, Tile.limit] at inside
    have nulled : clearFields (block.addr.pos + headerSize) c.fields after =
        .ok () { after with
          arena := after.arena.nullAt
            ((TypeDescriptor.ofClass c).refPositions 0 (block.pos + headerSize)) } := by
      rw [carved.tiled.pos_addr Carved.block_mem]
      exact clearFields_eq_nullAt tidy (by omega)
    have primitive : ∀ p, TypeDescriptor.ofClass c ≠ .primitive p := by
      intro p same
      cases same
    have array : ∀ a, TypeDescriptor.ofClass c = .ofArray a →
        after.arena.word? (block.pos + headerSize) = some (UInt32.ofNat 0) := by
      intro a same
      cases same
    rcases carved.nulled tidy primitive fits array cleared with ⟨carved', holds⟩
    refine ⟨block.addr, _, _, ?_, carved'.created orderly rep tagged known' holds ?_⟩
    · rw [newObject, bind_of_ok ran]
      exact (bind_of_ok nulled).trans rfl
    · rw [counted]

/-- A request for a new array: there is no room, or the array is created with the defaults of its
elements. -/
theorem newArray_cases (rep : Represents program memory tiles store) (orderly : program.Orderly)
    {ref : TypeRef} {a : ArrayDescriptor} (known : program.array? ref = some a)
    (tag : ref.index < freeTag) (length : Nat) :
    (newArray ref a length memory = .ok none memory ∧
      ∀ tile ∈ tiles, tile.isFree = true →
        tile.header.size < lengthSize + length * a.elementKind.width + headerSize) ∨
    ∃ addr after tiles', newArray ref a length memory = .ok (some addr) after ∧
      Created program memory after tiles tiles' store addr
        ⟨ref, (TypeDescriptor.ofArray a).defaults length⟩ := by
  have known' := Program.array?_eq_some_iff.mp known
  have tidy := orderly _ _ known'
  have four : lengthSize = 4 := rfl
  rcases allocateBlock_cases (lengthSize + length * a.elementKind.width) rep.toTiled rep.free
      tag with
    ⟨ran, full⟩ | ⟨front, gap, block, rest, back, after, rfl, ran, carved, tagged, fits, cleared,
      counted⟩
  · left
    refine ⟨?_, full⟩
    rw [newArray, bind_of_ok ran]
    rfl
  · right
    have inside := (carved.tiled.spans.bounds Carved.block_mem).2.1
    simp only [capacity, Tile.limit] at inside
    have stored : writeWord (block.addr.pos + headerSize) (UInt32.ofNat length) after =
        .ok () { after with
          arena := after.arena.setWord (block.pos + headerSize) (UInt32.ofNat length) } := by
      rw [carved.tiled.pos_addr Carved.block_mem]
      exact if_pos (by omega)
    have carved' : Carved memory { after with
          arena := after.arena.setWord (block.pos + headerSize) (UInt32.ofNat length) }
        front gap block rest back := by
      refine carved.of_payload (Arena.size_setWord _ _ _) rfl ?_
      intro first limit outside
      apply Arena.agreeOn_setWord
      simp only [Tile.limit] at outside
      omega
    have array : (after.arena.setWord (block.pos + headerSize) (UInt32.ofNat length)).word?
        (block.pos + headerSize) = some (UInt32.ofNat length) :=
      Arena.word?_setWord _ _ (by omega)
    have cleared' : ∀ i, block.pos + headerSize + lengthSize ≤ i → i < block.limit →
        (after.arena.setWord (block.pos + headerSize) (UInt32.ofNat length)).byte? i =
          some 0 := by
      intro i lower upper
      have kept : Arena.AgreeOn
          (after.arena.setWord (block.pos + headerSize) (UInt32.ofNat length)) after.arena i
          (i + 1) := Arena.agreeOn_setWord _ _ (by omega)
      rw [kept i (Nat.le_refl _) (Nat.lt_succ_self _)]
      exact cleared i (by omega) upper
    have primitive : ∀ p, TypeDescriptor.ofArray a ≠ .primitive p := by
      intro p same
      cases same
    rcases carved'.nulled tidy primitive fits (fun _ _ => array) cleared' with
      ⟨carved'', holds⟩
    refine ⟨block.addr, _, _, ?_, carved''.created orderly rep tagged known' holds ?_⟩
    · rw [newArray, bind_of_ok ran]
      refine (bind_of_ok stored).trans ?_
      by_cases isRef : a.elementKind = .ref
      · have nulled := @clearElements_eq_nullAt { after with
            arena := after.arena.setWord (block.pos + headerSize) (UInt32.ofNat length) }
          a (block.pos + headerSize) length isRef (by simp only [Arena.size_setWord]; omega)
        rw [← carved.tiled.pos_addr Carved.block_mem] at nulled ⊢
        simp only [isRef, if_true]
        exact (bind_of_ok nulled).trans rfl
      · rw [refPositions_eq_nil isRef]
        simp only [isRef, if_false]
        rfl
    · rw [counted]

end Represents
end Memory
end ObjectMachine
