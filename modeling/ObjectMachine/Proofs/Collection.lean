import ObjectMachine.Proofs.Allocation
import ObjectMachine.Proofs.Compaction

/-!
# Collections

A collection marks, sweeps and compacts. Put together: the blocks that are reached from the roots
stay as they are, in their places and with every byte, all others become free, and the report says
how many there were of each. So the memory represents what is reached of the store, and nothing
else.
-/

namespace ObjectMachine

/-!
## The sweep of a marked memory
-/

theorem perm_freeExtents_swept (tiles : List Tile) :
    (freeExtents tiles ++ (tiles.filter Tile.isDead).map Tile.extent).Perm
      (freeExtents (tiles.map Tile.swept)) := by
  induction tiles with
  | nil => exact List.Perm.refl _
  | cons tile rest ih =>
      have after := tile.isFree_swept
      rcases tile.sweep_cases with ⟨free, dead, kept, _⟩ | ⟨free, dead, kept, _⟩ |
        ⟨free, dead, kept, _⟩
      · rw [kept, Bool.not_false] at after
        rw [freeExtents_cons_of_free free, List.map_cons, freeExtents_cons_of_free after,
          List.filter_cons_of_neg (by simp [dead]), Tile.extent_swept]
        exact ih.cons _
      · rw [kept, Bool.not_true] at after
        rw [freeExtents_cons_of_live free, List.map_cons, freeExtents_cons_of_live after,
          List.filter_cons_of_neg (by simp [dead])]
        exact ih
      · rw [kept, Bool.not_false] at after
        rw [freeExtents_cons_of_live free, List.map_cons, freeExtents_cons_of_free after,
          List.filter_cons_of_pos dead, Tile.extent_swept, List.map_cons]
        exact List.perm_middle.trans (ih.cons _)

section
variable {seen : List Addr} {tiles : List Tile}

theorem Tile.swept_withMark {tile : Tile} (unmarked : tile.header.marked = false)
    (live : tile.isFree = false) (known : tile.addr ∈ seen) :
    (tile.withMark (seen.contains tile.addr)).swept = tile := by
  have contains : seen.contains tile.addr = true := by simpa using known
  rw [contains]
  show (if (!tile.isFree && !true) = true then _ else
    if (!tile.isFree && true) = true then (tile.withMark true).withMark false else _) = tile
  rw [live]
  exact tile.withMark_false unmarked

theorem live_swept (unmarked : ∀ tile ∈ tiles, tile.header.marked = false) :
    ((markTiles seen tiles).map Tile.swept).filter (fun tile => !tile.isFree) =
      tiles.filter fun tile => !tile.isFree && seen.contains tile.addr := by
  induction tiles with
  | nil => rfl
  | cons tile rest ih =>
      have later := ih fun other mem => unmarked other (List.mem_cons_of_mem _ mem)
      have clear := unmarked tile List.mem_cons_self
      simp only [markTiles, List.map_cons, List.filter_cons, Tile.isFree_swept, Bool.not_not]
        at later ⊢
      have kept : (tile.withMark (seen.contains tile.addr)).isKept =
          (!tile.isFree && seen.contains tile.addr) := rfl
      rw [kept, later]
      split
      · next survives =>
          simp only [Bool.and_eq_true, Bool.not_eq_true', List.contains_iff_mem] at survives
          rw [Tile.swept_withMark clear survives.1 survives.2]
      · rfl

theorem sizes_kept :
    sizes ((markTiles seen tiles).filter Tile.isKept) =
      sizes (tiles.filter fun tile => !tile.isFree && seen.contains tile.addr) := by
  simp [markTiles, sizes, List.filter_map, Function.comp_def, Tile.isKept]

theorem sizes_dead :
    sizes ((markTiles seen tiles).filter Tile.isDead) =
      sizes (tiles.filter fun tile => !tile.isFree && !seen.contains tile.addr) := by
  simp [markTiles, sizes, List.filter_map, Function.comp_def, Tile.isDead]

theorem length_dead :
    ((markTiles seen tiles).filter Tile.isDead).length =
      (tiles.filter fun tile => !tile.isFree && !seen.contains tile.addr).length := by
  simp [markTiles, List.filter_map, Function.comp_def, Tile.isDead]

end

/-!
## The whole collection
-/

structure Collected (program : Program) (memory after : Memory) (tiles tiles' : List Tile)
    (store : Store) (roots : List Addr) (report : Report) : Prop where
  represents : Memory.Represents program after tiles' (store.trim roots)
  unmarked : ∀ tile ∈ tiles', tile.header.marked = false
  capacity : after.capacity = memory.capacity
  joined : Joined tiles'
  survivors : ∃ seen : List Addr, (∀ addr, addr ∈ seen ↔ store.Reaches roots addr) ∧
    tiles'.filter (fun tile => !tile.isFree) =
      tiles.filter fun tile => !tile.isFree && seen.contains tile.addr
  payloads : ∀ tile ∈ tiles', tile.isFree = false →
    after.arena.AgreeOn memory.arena (tile.pos + headerSize) tile.limit
  freed : ∀ tile ∈ tiles, ¬ store.Reaches roots tile.addr →
    after.isAllocated tile.addr = false
  marked : report.marked = (Memory.listing tiles').length
  live : report.liveBytes = liveBytes tiles'
  blocks : report.freedBlocks + report.marked = (Memory.listing tiles).length
  bytes : report.freedBytes + report.liveBytes = liveBytes tiles
  stats : after.stats = { memory.stats with
    collections := memory.stats.collections + 1
    last := report }

namespace Collected

variable {program : Program} {memory after : Memory} {tiles tiles' : List Tile} {store : Store}
  {roots : List Addr} {report : Report}

theorem mem_iff (collected : Collected program memory after tiles tiles' store roots report)
    {tile : Tile} (live : tile.isFree = false) :
    tile ∈ tiles' ↔ tile ∈ tiles ∧ store.Reaches roots tile.addr := by
  rcases collected.survivors with ⟨seen, reached, kept⟩
  have left : tile ∈ tiles' ↔ tile ∈ tiles'.filter fun tile => !tile.isFree := by
    simp [live]
  rw [left, kept, ← reached]
  simp [live]

theorem sublist (collected : Collected program memory after tiles tiles' store roots report) :
    (Memory.listing tiles').Sublist (Memory.listing tiles) := by
  rcases collected.survivors with ⟨seen, _, kept⟩
  have filtered : (tiles.filter fun tile => !tile.isFree && seen.contains tile.addr) =
      (tiles.filter fun tile => !tile.isFree).filter fun tile => seen.contains tile.addr := by
    simp only [List.filter_filter, Bool.and_comm]
  rw [Memory.listing, Memory.listing, kept, filtered]
  exact List.filter_sublist.map _

end Collected

namespace Memory

theorem isAllocated_of_free {memory : Memory} {addr : Addr} {header : Header}
    (stored : memory.arena.header? addr.pos = some header) (free : header.isFree = true) :
    memory.isAllocated addr = false := by
  have read := readHeader_eq_ok_iff.mpr stored
  simp only [isAllocated, Memory.header, read, bind, Except.bind, free, or_true, if_true]

theorem Marking.length_seen {program : Program} {memory current : Memory} {tiles : List Tile}
    {store : Store} {roots seen : List Addr}
    (marking : Marking program memory tiles store roots seen [] current)
    (closed : store.Closed) (rooted : store.Roots roots) :
    seen.length =
      (tiles.filter fun tile => !tile.isFree && seen.contains tile.addr).length := by
  have spans := spans_markTiles_iff.mp marking.represents.spans
  have marked : ∀ tile ∈ tiles,
      tile.withMark (seen.contains tile.addr) ∈ markTiles seen tiles := by
    intro tile mem
    exact mem_markTiles_iff.mpr ⟨tile, mem, rfl⟩
  have distinct : ((tiles.filter fun tile =>
      !tile.isFree && seen.contains tile.addr).map Tile.addr).Nodup := by
    rw [List.nodup_iff_pairwise_ne, List.pairwise_map]
    refine (List.Pairwise.filter _ (List.nodup_iff_pairwise_ne.mp spans.nodup)).imp_of_mem ?_
    intro tile other mem mem' different same
    have mem := (List.mem_filter.mp mem).1
    have mem' := (List.mem_filter.mp mem').1
    apply different
    apply spans.eq_of_pos mem mem'
    have located : tile.addr.pos = tile.pos := (marking.represents.pos_addr (marked tile mem) :)
    have located' : other.addr.pos = other.pos :=
      (marking.represents.pos_addr (marked other mem') :)
    rw [← located, ← located', same]
  rw [← List.length_map (f := Tile.addr)]
  apply List.Perm.length_eq
  rw [List.perm_ext_iff_of_nodup marking.nodup distinct]
  intro addr
  constructor
  · intro mem
    have reached := marking.reached addr (Or.inl mem)
    rcases Option.isSome_iff_exists.mp (reached.isSome closed rooted) with ⟨object, found⟩
    rcases marking.represents.backed addr object found with ⟨tile', placed, live, same⟩
    rcases mem_markTiles_iff.mp placed with ⟨tile, tile_mem, rfl⟩
    have live' : tile.isFree = false := live
    have same' : tile.addr = addr := same
    refine List.mem_map.mpr ⟨tile, List.mem_filter.mpr ⟨tile_mem, ?_⟩, same'⟩
    simpa [live', same'] using mem
  · intro mem
    rcases List.mem_map.mp mem with ⟨tile, tile_mem, rfl⟩
    have survives := (List.mem_filter.mp tile_mem).2
    simp only [Bool.and_eq_true, List.contains_iff_mem] at survives
    exact survives.2

theorem Represents.with_stats {program : Program} {memory : Memory} {tiles : List Tile}
    {store : Store} (rep : Represents program memory tiles store) (stats : Stats) :
    Represents program { memory with stats } tiles store :=
  ⟨⟨rep.small, rep.spans, rep.stored⟩, rep.free,
    fun tile mem live => by
      rcases rep.held tile mem live with ⟨object, type, found, typed, known, holds⟩
      exact ⟨object, type, found, typed, known,
        ⟨holds.block, holds.count, holds.fits, holds.length, holds.reads⟩⟩,
    rep.backed⟩

/-- A memory that has been marked and swept is tiled by the swept tiles. -/
theorem Swept.tiled {memory after : Memory} {tiles : List Tile} (swept : Swept memory after tiles)
    (tiled : Tiled memory tiles) : Tiled after (tiles.map Tile.swept) := by
  have capacity : after.capacity = memory.capacity := swept.size
  refine ⟨?_, ?_, ?_⟩
  · rw [capacity]
    exact tiled.small
  · rw [capacity]
    exact tiled.spans.map (fun tile _ => tile.pos_swept) (fun tile _ => tile.size_swept)
  · intro tile' placed
    rcases List.mem_map.mp placed with ⟨tile, mem, rfl⟩
    rw [Tile.pos_swept]
    exact swept.stored tile mem

theorem Swept.payload {memory after : Memory} {tiles : List Tile} {tile : Tile}
    {first limit : Nat} (swept : Swept memory after tiles) (spans : Spans first tiles limit)
    (mem : tile ∈ tiles) :
    after.arena.AgreeOn memory.arena (tile.pos + headerSize) tile.limit := by
  apply swept.agree
  intro other mem'
  by_cases here : tile = other
  · rw [here]
    exact Or.inr (Nat.le_refl _)
  · have apart := spans.apart_header mem mem' here
    omega

def remaining (seen : List Addr) (tiles : List Tile) : List Tile :=
  joinTiles ((markTiles seen tiles).map Tile.swept)

structure Steps (program : Program) (memory : Memory) (tiles : List Tile) (store : Store)
    (roots seen : List Addr) (current middle last : Memory) : Prop where
  unmarked : ∀ tile ∈ tiles, tile.header.marked = false
  marking : Marking program memory tiles store roots seen [] current
  swept : Swept current middle (markTiles seen tiles)
  compacted : Compacted middle last ((markTiles seen tiles).map Tile.swept)

namespace Steps

variable {program : Program} {memory current middle last : Memory} {tiles : List Tile}
  {store : Store} {roots seen : List Addr} {tile : Tile}

theorem survivors (steps : Steps program memory tiles store roots seen current middle last) :
    (remaining seen tiles).filter (fun tile => !tile.isFree) =
      tiles.filter fun tile => !tile.isFree && seen.contains tile.addr := by
  rw [remaining, joinTiles, live_joinFrom, live_swept steps.unmarked]

theorem mem_remaining_iff
    (steps : Steps program memory tiles store roots seen current middle last)
    (live : tile.isFree = false) :
    tile ∈ remaining seen tiles ↔ tile ∈ tiles ∧ store.Reaches roots tile.addr := by
  have left : tile ∈ remaining seen tiles ↔
      tile ∈ (remaining seen tiles).filter fun tile => !tile.isFree := by
    simp [live]
  have right : tile ∈ tiles.filter (fun tile => !tile.isFree && seen.contains tile.addr) ↔
      tile ∈ tiles ∧ tile.addr ∈ seen := by
    simp [live]
  rw [left, steps.survivors, right, steps.marking.mem_seen_iff]

theorem mem_swept (steps : Steps program memory tiles store roots seen current middle last)
    (mem : tile ∈ tiles) (live : tile.isFree = false) (known : tile.addr ∈ seen) :
    tile ∈ (markTiles seen tiles).map Tile.swept := by
  refine List.mem_map.mpr ⟨_, mem_markTiles_iff.mpr ⟨tile, mem, rfl⟩, ?_⟩
  exact Tile.swept_withMark (steps.unmarked tile mem) live known

theorem payload (steps : Steps program memory tiles store roots seen current middle last)
    (mem : tile ∈ remaining seen tiles) (live : tile.isFree = false) :
    last.arena.AgreeOn memory.arena (tile.pos + headerSize) tile.limit := by
  rcases (steps.mem_remaining_iff live).mp mem with ⟨old, reaches⟩
  have known := steps.marking.mem_seen_iff.mpr reaches
  have first := steps.marking.payloads tile old
  have second := steps.swept.payload steps.marking.represents.spans
    (mem_markTiles_iff.mpr ⟨tile, old, rfl⟩)
  have third := steps.compacted.kept tile (steps.mem_swept old live known) live
  exact (third.mono (Nat.le_add_right _ _) (Nat.le_refl _)).trans (second.trans first)

theorem capacity (steps : Steps program memory tiles store roots seen current middle last) :
    last.capacity = memory.capacity := by
  rw [← steps.marking.capacity]
  exact steps.compacted.size.trans steps.swept.size

theorem stats (steps : Steps program memory tiles store roots seen current middle last) :
    last.stats = memory.stats :=
  steps.compacted.stats.trans (steps.swept.stats.trans steps.marking.stats)

theorem represents (steps : Steps program memory tiles store roots seen current middle last)
    (rep : Represents program memory tiles store) (orderly : program.Orderly) :
    Represents program last (remaining seen tiles) (store.trim roots) := by
  refine rep.of_kept orderly steps.compacted.tiled (.of_eq steps.compacted.free) ?_ ?_
  · intro tile mem live
    rcases (steps.mem_remaining_iff live).mp mem with ⟨old, reaches⟩
    exact ⟨tile, old, live, rfl, rfl, rfl, Store.trim_of_reaches reaches,
      steps.payload mem live⟩
  · intro addr object found
    rcases Store.trim_eq_some_iff.mp found with ⟨reaches, found'⟩
    rcases rep.backed addr object found' with ⟨tile, mem, live, rfl⟩
    exact ⟨tile, (steps.mem_remaining_iff live).mpr ⟨mem, reaches⟩, live, rfl⟩

theorem freed (steps : Steps program memory tiles store roots seen current middle last)
    (tiled : Tiled memory tiles) (mem : tile ∈ tiles)
    (unreached : ¬ store.Reaches roots tile.addr) : last.isAllocated tile.addr = false := by
  have placed : (tile.withMark (seen.contains tile.addr)).swept ∈
      (markTiles seen tiles).map Tile.swept :=
    List.mem_map.mpr ⟨_, mem_markTiles_iff.mpr ⟨tile, mem, rfl⟩, rfl⟩
  have unseen : seen.contains tile.addr = false := by
    simpa using mt steps.marking.mem_seen_iff.mp unreached
  have free : (tile.withMark (seen.contains tile.addr)).swept.isFree = true := by
    rw [Tile.isFree_swept, unseen]
    simp [Tile.isKept]
  rcases steps.compacted.freed _ placed free with ⟨header, stored, free'⟩
  rw [Tile.pos_swept, Tile.pos_withMark, ← tiled.pos_addr mem] at stored
  exact isAllocated_of_free stored free'

theorem unmarked_remaining
    (steps : Steps program memory tiles store roots seen current middle last) :
    ∀ tile ∈ remaining seen tiles, tile.header.marked = false := by
  intro tile mem
  rcases mem_joinFrom mem with ⟨_, live⟩ | ⟨extent, rfl, _⟩
  · exact steps.unmarked tile ((steps.mem_remaining_iff live).mp mem).1
  · rfl

end Steps

/-- Marking ends with the addresses that are reached. -/
theorem Represents.exists_marking {program : Program} {memory : Memory} {tiles : List Tile}
    {store : Store} {roots : List Addr} (rep : Represents program memory tiles store)
    (unmarked : ∀ tile ∈ tiles, tile.header.marked = false) (orderly : program.Orderly)
    (closed : store.Closed) (rooted : store.Roots roots) :
    ∃ seen current, mark program roots memory = .ok seen.length current ∧
      Marking program memory tiles store roots seen [] current :=
  (Marking.start rep unmarked).run orderly closed rooted

theorem Represents.exists_steps {program : Program} {memory : Memory} {tiles : List Tile}
    {store : Store} {roots : List Addr} (rep : Represents program memory tiles store)
    (unmarked : ∀ tile ∈ tiles, tile.header.marked = false) (orderly : program.Orderly)
    (closed : store.Closed) (rooted : store.Roots roots) :
    ∃ seen current middle last, mark program roots memory = .ok seen.length current ∧
      sweep current = .ok ((markTiles seen tiles).foldl Report.sweep .none) middle ∧
      compact middle = .ok () last ∧
      Steps program memory tiles store roots seen current middle last := by
  rcases rep.exists_marking unmarked orderly closed rooted with ⟨seen, current, marked, marking⟩
  rcases sweep_eq_ok marking.represents.toTiled with ⟨middle, sweeping, swept⟩
  have free : middle.freeList.toList.Perm
      (freeExtents ((markTiles seen tiles).map Tile.swept)) := by
    rw [swept.freeList]
    exact (marking.represents.free.append_right _).trans (perm_freeExtents_swept _)
  rcases compact_eq_ok (swept.tiled marking.represents.toTiled) free with
    ⟨last, compacting, compacted⟩
  exact ⟨seen, current, middle, last, marked, sweeping, compacting,
    unmarked, marking, swept, compacted⟩

def reported (seen : List Addr) (tiles : List Tile) : Report :=
  { (markTiles seen tiles).foldl Report.sweep .none with marked := seen.length }

def recorded (memory : Memory) (report : Report) : Memory :=
  { memory with stats := { memory.stats with
    collections := memory.stats.collections + 1
    last := report } }

theorem collect_of_steps {program : Program} {roots seen : List Addr} {tiles : List Tile}
    {memory current middle last : Memory}
    (marked : mark program roots memory = .ok seen.length current)
    (swept : sweep current = .ok ((markTiles seen tiles).foldl Report.sweep .none) middle)
    (compacted : compact middle = .ok () last) :
    collect program roots memory =
      .ok (reported seen tiles) (last.recorded (reported seen tiles)) := by
  rw [collect, bind_of_ok marked, bind_of_ok swept]
  exact (bind_of_ok compacted).trans rfl

/-- The steps of a collection keep what is reached, and nothing else. -/
theorem Steps.collected {program : Program} {memory current middle last : Memory}
    {tiles : List Tile} {store : Store} {roots seen : List Addr}
    (steps : Steps program memory tiles store roots seen current middle last)
    (rep : Represents program memory tiles store) (orderly : program.Orderly)
    (closed : store.Closed) (rooted : store.Roots roots) :
    Collected program memory (last.recorded (reported seen tiles)) tiles (remaining seen tiles)
      store roots (reported seen tiles) := by
  have counted := steps.marking.length_seen closed rooted
  -- The live tiles are those that were seen and the others.
  have divided : ((tiles.filter fun tile => !tile.isFree && seen.contains tile.addr) ++
      tiles.filter fun tile => !tile.isFree && !seen.contains tile.addr).Perm
        (tiles.filter fun tile => !tile.isFree) := by
    have both := List.filter_append_perm (fun tile => seen.contains tile.addr)
      (tiles.filter fun tile => !tile.isFree)
    rw [List.filter_filter, List.filter_filter] at both
    simpa only [Bool.and_comm] using both
  refine ⟨(steps.represents rep orderly).with_stats _, steps.unmarked_remaining, steps.capacity,
    joined_joinFrom none _, ⟨seen, fun addr => steps.marking.mem_seen_iff, steps.survivors⟩,
    fun tile mem live => steps.payload mem live,
    fun tile mem unreached => steps.freed rep.toTiled mem unreached, ?_, ?_, ?_, ?_, ?_⟩
  · rw [listing, steps.survivors, List.length_map]
    exact counted
  · rw [reported, Report.foldl_sweep, sizes_kept, liveBytes, steps.survivors]
    exact Nat.zero_add _
  · have total := divided.length_eq
    rw [List.length_append] at total
    rw [reported, Report.foldl_sweep, length_dead, listing, List.length_map]
    simp only [Report.none]
    omega
  · have total := (divided.map fun tile => tile.header.size).sum_nat
    rw [List.map_append, List.sum_append] at total
    rw [reported, Report.foldl_sweep, sizes_kept, sizes_dead]
    simp only [Report.none, sizes, liveBytes]
    omega
  · simp only [recorded, steps.stats]

/-- A collection succeeds, and frees exactly what is not reached. -/
theorem Represents.collect_eq {program : Program} {memory : Memory} {tiles : List Tile}
    {store : Store} {roots : List Addr} (rep : Represents program memory tiles store)
    (unmarked : ∀ tile ∈ tiles, tile.header.marked = false) (orderly : program.Orderly)
    (closed : store.Closed) (rooted : store.Roots roots) :
    ∃ report after tiles', collect program roots memory = .ok report after ∧
      Collected program memory after tiles tiles' store roots report := by
  rcases rep.exists_steps unmarked orderly closed rooted with
    ⟨seen, current, middle, last, marked, swept, compacted, steps⟩
  exact ⟨_, _, _, collect_of_steps marked swept compacted,
    steps.collected rep orderly closed rooted⟩

end Memory
end ObjectMachine
