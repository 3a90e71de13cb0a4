import ObjectMachine.Proofs.RegularMemory

/-!
# Repeated collections

A collection depends on which blocks are reached, and not on the way in which they are found.
Marking leaves the same marks in whatever order it comes to the blocks, since headers and payloads
are all that there is in the arena; and what comes after it starts from the marks.

A collection leaves nothing for the next one. Its free extents stand in the free list in the order
of their addresses, no two of them touch, and each has the header that it would get again.
-/

namespace ObjectMachine

/-!
## The order of marking
-/

namespace Memory

variable {program : Program} {memory current current' : Memory} {tiles : List Tile}
  {store : Store} {roots roots' seen seen' : List Addr}

theorem markTiles_congr (same : ∀ addr, addr ∈ seen' ↔ addr ∈ seen) :
    markTiles seen' tiles = markTiles seen tiles := by
  refine List.map_congr_left ?_
  intro tile _
  have contains : seen'.contains tile.addr = seen.contains tile.addr := by
    rw [Bool.eq_iff_iff, List.contains_iff_mem, List.contains_iff_mem]
    exact same tile.addr
  rw [contains]

/-- Markings of a memory that are done end in the same memory if the same is reached. -/
theorem Marking.unique (marking : Marking program memory tiles store roots seen [] current)
    (marking' : Marking program memory tiles store roots' seen' [] current')
    (same : ∀ addr, store.Reaches roots' addr ↔ store.Reaches roots addr) :
    seen'.length = seen.length ∧ current' = current := by
  have members : ∀ addr, addr ∈ seen' ↔ addr ∈ seen := by
    intro addr
    rw [marking'.mem_seen_iff, marking.mem_seen_iff, same]
  have arena : current'.arena = current.arena := by
    have tiled' := marking'.represents.toTiled
    rw [markTiles_congr members] at tiled'
    apply tiled'.arena_eq marking.represents.toTiled
    intro placed placed_mem
    rcases mem_markTiles_iff.mp placed_mem with ⟨tile, mem, rfl⟩
    exact (marking'.payloads tile mem).trans (marking.payloads tile mem).symm
  have freeList := marking'.freeList.trans marking.freeList.symm
  have stats := marking'.stats.trans marking.stats.symm
  constructor
  · have perm := (List.perm_ext_iff_of_nodup marking'.nodup marking.nodup).mpr members
    exact perm.length_eq
  · cases current
    cases current'
    simp only at arena freeList stats
    rw [arena, freeList, stats]

end Memory

namespace Heap

variable {program : Program} {memory : Memory} {tiles : List Tile} {store : Store}
  {roots roots' : List Addr}

/-- Collections are the same if they start from the same roots, in whatever order. -/
theorem collect_congr (heap : Heap program memory tiles store) (orderly : program.Orderly)
    (rooted : store.Roots roots) (rooted' : store.Roots roots')
    (same : ∀ addr, addr ≠ .null → (addr ∈ roots' ↔ addr ∈ roots)) :
    Memory.collect program roots' memory = Memory.collect program roots memory := by
  rcases heap.exists_marking heap.unmarked orderly heap.closed rooted with
    ⟨seen, current, marked, marking⟩
  rcases heap.exists_marking heap.unmarked orderly heap.closed rooted' with
    ⟨seen', current', marked', marking'⟩
  have reached : ∀ addr, store.Reaches roots' addr ↔ store.Reaches roots addr := by
    intro addr
    constructor
    · intro reached
      exact reached.of_roots fun root mem proper => (same root proper).mp mem
    · intro reached
      exact reached.of_roots fun root mem proper => (same root proper).mpr mem
  rcases marking.unique marking' reached with ⟨count, rfl⟩
  rw [count, ← marked] at marked'
  exact bind_congr_left marked'

end Heap

/-!
## Tiles that are joined
-/

theorem Tile.eq_ofExtent {tile : Tile} (free : tile.isFree = true)
    (unmarked : tile.header.marked = false) : tile = .ofExtent tile.extent := by
  rcases tile with ⟨pos, size, tag, marked⟩
  have tagged : tag = freeTag := eq_of_beq free
  have clear : marked = false := unmarked
  rw [tagged, clear]
  rfl

theorem joinFrom_of_live (gap : Extent) {tiles : List Tile}
    (live : ∀ next ∈ tiles.head?, next.isFree = false) :
    joinFrom (some gap) tiles = .ofExtent gap :: joinFrom none tiles := by
  cases tiles with
  | nil => rfl
  | cons tile rest =>
      have live' := live tile rfl
      simp [joinFrom, live']

theorem joinTiles_of_joined {tiles : List Tile} (joined : Joined tiles)
    (unmarked : ∀ tile ∈ tiles, tile.header.marked = false) : joinTiles tiles = tiles := by
  unfold joinTiles
  induction tiles with
  | nil => rfl
  | cons tile rest ih =>
      have later := ih joined.2 fun other mem => unmarked other (List.mem_cons_of_mem _ mem)
      cases free : tile.isFree with
      | true =>
          rw [joinFrom, if_pos free, extend, joinFrom_of_live _ (joined.1 free), later,
            ← Tile.eq_ofExtent free (unmarked tile List.mem_cons_self)]
      | false =>
          rw [joinFrom, if_neg (by simp [free]), later]
          rfl

/-!
## Nothing left to collect
-/

/-- A heap that a collection from some roots has left, or could have left. -/
structure Settled (program : Program) (memory : Memory) (tiles : List Tile) (store : Store)
    (roots : List Addr) : Prop extends Heap program memory tiles store where
  joined : Joined tiles
  ordered : memory.freeList.toList = freeExtents tiles
  reached : ∀ tile ∈ tiles, tile.isFree = false → store.Reaches roots tile.addr

namespace Memory

variable {program : Program} {memory current middle last : Memory} {tiles : List Tile}
  {store : Store} {roots seen : List Addr}

theorem Steps.settled (steps : Steps program memory tiles store roots seen current middle last)
    (heap : Heap program memory tiles store) (orderly : program.Orderly)
    (rooted : store.Roots roots) :
    Settled program (last.recorded (reported seen tiles)) (remaining seen tiles)
      (store.trim roots) roots := by
  have collected := steps.collected heap.toRepresents orderly heap.closed rooted
  refine ⟨heap.collected collected, collected.joined, steps.compacted.free, ?_⟩
  intro tile mem live
  exact ((collected.mem_iff live).mp mem).2.trim

/-- Where everything is reached, sweeping finds live tiles marked and free tiles as they were. -/
theorem Steps.swept_eq (steps : Steps program memory tiles store roots seen current middle last)
    (settled : Settled program memory tiles store roots) (rooted : store.Roots roots) {tile : Tile}
    (mem : tile ∈ tiles) : (tile.withMark (seen.contains tile.addr)).swept = tile := by
  have clear := settled.unmarked tile mem
  cases free : tile.isFree with
  | false =>
      have known := steps.marking.mem_seen_iff.mpr (settled.reached tile mem free)
      exact Tile.swept_withMark clear free known
  | true =>
      -- What was seen has an object, and a free tile has none.
      have unseen : seen.contains tile.addr = false := by
        rw [Bool.eq_false_iff, Ne, List.contains_iff_mem]
        intro known
        have reached := steps.marking.mem_seen_iff.mp known
        rcases Option.isSome_iff_exists.mp (reached.isSome settled.closed rooted) with
          ⟨object, found⟩
        rcases settled.backed _ _ found with ⟨other, mem', live, same⟩
        rw [settled.eq_of_addr mem' mem same, free] at live
        cases live
      rw [unseen, tile.withMark_false clear]
      exact Tile.swept_of_isFree free

theorem Steps.remaining_eq
    (steps : Steps program memory tiles store roots seen current middle last)
    (settled : Settled program memory tiles store roots) (rooted : store.Roots roots) :
    remaining seen tiles = tiles := by
  have same : (markTiles seen tiles).map Tile.swept = tiles := by
    rw [markTiles, List.map_map]
    have each := List.map_congr_left fun tile mem => steps.swept_eq settled rooted mem
    exact each.trans (List.map_id _)
  rw [remaining, same]
  exact joinTiles_of_joined settled.joined settled.unmarked

theorem Steps.arena_eq (steps : Steps program memory tiles store roots seen current middle last)
    (tiled : Tiled memory tiles) (same : remaining seen tiles = tiles) :
    last.arena = memory.arena := by
  have tiled' : Tiled last (remaining seen tiles) := steps.compacted.tiled
  rw [same] at tiled'
  apply tiled'.arena_eq tiled
  intro tile mem
  have first := steps.marking.payloads tile mem
  have second := steps.swept.payload steps.marking.represents.spans
    (mem_markTiles_iff.mpr ⟨tile, mem, rfl⟩)
  have third : last.arena.AgreeOn middle.arena (tile.pos + headerSize) tile.limit := by
    apply steps.compacted.agree
    intro extent mem'
    have mem'' : extent ∈ freeExtents (remaining seen tiles) := mem'
    rw [same] at mem''
    rcases mem_freeExtents_iff.mp mem'' with ⟨other, other_mem, _, rfl⟩
    show tile.limit ≤ other.pos ∨ other.pos + headerSize ≤ tile.pos + headerSize
    by_cases here : tile = other
    · rw [here]
      exact Or.inr (Nat.le_refl _)
    · have apart := tiled.spans.apart_header mem other_mem here
      omega
  exact third.trans (second.trans first)

end Memory

/-- Where everything is reached and joined, a collection finds nothing and changes nothing. -/
theorem Settled.collect_eq {program : Program} {memory : Memory} {tiles : List Tile}
    {store : Store} {roots : List Addr} (settled : Settled program memory tiles store roots)
    (orderly : program.Orderly) (rooted : store.Roots roots) :
    ∃ last, Memory.collect program roots memory =
        .ok ⟨(Memory.listing tiles).length, 0, 0, liveBytes tiles⟩ last ∧
      last.arena = memory.arena ∧ last.freeList = memory.freeList := by
  rcases settled.exists_steps settled.unmarked orderly settled.closed rooted with
    ⟨seen, current, middle, last, marked, swept, compacted, steps⟩
  have same := steps.remaining_eq settled rooted
  have collected := steps.collected settled.toRepresents orderly settled.closed rooted
  rw [same] at collected
  have report : Memory.reported seen tiles =
      ⟨(Memory.listing tiles).length, 0, 0, liveBytes tiles⟩ := by
    have marked := collected.marked
    have blocks := collected.blocks
    have live := collected.live
    have bytes := collected.bytes
    generalize Memory.reported seen tiles = report at marked blocks live bytes
    rcases report with ⟨_, _, _, _⟩
    simp only at marked blocks live bytes
    rw [Report.mk.injEq]
    omega
  have ran := Memory.collect_of_steps marked swept compacted
  rw [report] at ran
  refine ⟨_, ran, steps.arena_eq settled.toTiled same, ?_⟩
  have free : last.freeList.toList = freeExtents (Memory.remaining seen tiles) :=
    steps.compacted.free
  rw [same, ← settled.ordered] at free
  exact congrArg FreeList.ofList free

/-!
## Collections of regular memories
-/

namespace Memory

/-- Collections of a regular memory from the same roots end in the same way, whatever the order of
the roots; and a second one reports the blocks that are left, frees none and changes nothing. -/
theorem collect_canonical {image : Image} {program : Program} {size freed : Nat} {memory : Memory}
    {roots roots' : List Addr} (linked : image.link = .ok program)
    (few : program.types.size < 2 ^ 31 - 1) (regular : Regular program size memory freed)
    (admitted : ∀ root ∈ roots, memory.Admits root)
    (same : ∀ addr, addr ≠ .null → (addr ∈ roots' ↔ addr ∈ roots)) :
    ∃ report after, collect program roots memory = .ok report after ∧
      collect program roots' memory = .ok report after ∧
      ∃ last, collect program roots after = .ok ⟨report.marked, 0, 0, report.liveBytes⟩ last ∧
        last.arena = after.arena ∧ last.freeList = after.freeList := by
  have orderly := Program.orderly_of_link linked
  rcases regular.heap orderly few with ⟨tiles, store, heap, _, _⟩
  have rooted := heap.roots admitted
  have rooted' : store.Roots roots' := by
    intro root mem proper
    exact rooted root ((same root proper).mp mem) proper
  rcases heap.exists_steps heap.unmarked orderly heap.closed rooted with
    ⟨seen, current, middle, last, marked, swept, compacted, steps⟩
  have ran := collect_of_steps marked swept compacted
  have collected := steps.collected heap.toRepresents orderly heap.closed rooted
  rcases (steps.settled heap orderly rooted).collect_eq orderly rooted.trim with
    ⟨again, ran', arena, freeList⟩
  rw [← collected.marked, ← collected.live] at ran'
  exact ⟨_, _, ran, (heap.collect_congr orderly rooted rooted' same).trans ran, again, ran',
    arena, freeList⟩

/-- Collecting from the second and the third of three nodes, in one order and in the other. -/
theorem collect_canonical_linkedNodes :
    nodeImage.link = .ok nodeProgram ∧ nodeProgram.types.size < 2 ^ 31 - 1 ∧
      Regular nodeProgram 48 linkedNodes 0 ∧
      (∀ root ∈ [Addr.mk 12, ⟨24⟩], linkedNodes.Admits root) ∧
      (∀ addr, addr ≠ .null →
        (addr ∈ [Addr.mk 24, .null, ⟨12⟩, ⟨24⟩] ↔ addr ∈ [Addr.mk 12, ⟨24⟩])) ∧
      ∃ report after, collect nodeProgram [⟨12⟩, ⟨24⟩] linkedNodes = .ok report after ∧
        collect nodeProgram [⟨24⟩, .null, ⟨12⟩, ⟨24⟩] linkedNodes = .ok report after ∧
        ∃ last, collect nodeProgram [⟨12⟩, ⟨24⟩] after =
            .ok ⟨report.marked, 0, 0, report.liveBytes⟩ last ∧
          last.arena = after.arena ∧ last.freeList = after.freeList := by
  have admitted : ∀ root ∈ [Addr.mk 12, ⟨24⟩], linkedNodes.Admits root := by
    intro root mem
    refine Or.inr ⟨⟨12, 4, false⟩, _, blocks_linkedNodes, ?_⟩
    simp only [List.mem_cons, List.not_mem_nil, or_false] at mem
    rcases mem with rfl | rfl <;> decide
  have same : ∀ addr, addr ≠ .null →
      (addr ∈ [Addr.mk 24, .null, ⟨12⟩, ⟨24⟩] ↔ addr ∈ [Addr.mk 12, ⟨24⟩]) := by
    intro addr proper
    simp only [List.mem_cons, List.not_mem_nil, or_false, proper, false_or]
    tauto
  exact ⟨link_nodeImage, by decide, regular_linkedNodes, admitted, same,
    collect_canonical link_nodeImage (by decide) regular_linkedNodes admitted same⟩

end Memory
end ObjectMachine
