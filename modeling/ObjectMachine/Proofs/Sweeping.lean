import ObjectMachine.Proofs.Marking
import ObjectMachine.Proofs.Outcomes

/-!
# Sweeping

The sweep walks over the tiles and changes headers only: a live tile without a mark becomes free
and goes to the end of the free list, and a mark is taken off. The report adds up the sizes of both
kinds of tiles.
-/

namespace ObjectMachine

namespace Tile

def isDead (tile : Tile) : Bool :=
  !tile.isFree && !tile.header.marked

def isKept (tile : Tile) : Bool :=
  !tile.isFree && tile.header.marked

def ofExtent (extent : Extent) : Tile :=
  ⟨extent.addr, ⟨extent.size, freeTag, false⟩⟩

def swept (tile : Tile) : Tile :=
  if tile.isDead then ofExtent tile.extent
  else if tile.isKept then tile.withMark false
  else tile

@[simp] theorem isFree_ofExtent (extent : Extent) : (ofExtent extent).isFree = true :=
  beq_self_eq_true freeTag

@[simp] theorem extent_ofExtent (extent : Extent) : (ofExtent extent).extent = extent := rfl

@[simp] theorem pos_swept (tile : Tile) : tile.swept.pos = tile.pos := by
  unfold swept
  split
  · rfl
  · split <;> rfl

@[simp] theorem size_swept (tile : Tile) : tile.swept.header.size = tile.header.size := by
  unfold swept
  split
  · rfl
  · split <;> rfl

@[simp] theorem extent_swept (tile : Tile) : tile.swept.extent = tile.extent := by
  rw [extent, extent, pos_swept, size_swept]

theorem sweep_cases (tile : Tile) :
    (tile.isFree = true ∧ tile.isDead = false ∧ tile.isKept = false ∧ tile.swept = tile) ∨
    (tile.isFree = false ∧ tile.isDead = false ∧ tile.isKept = true ∧
      tile.swept = tile.withMark false) ∨
    (tile.isFree = false ∧ tile.isDead = true ∧ tile.isKept = false ∧
      tile.swept = ofExtent tile.extent) := by
  unfold swept isDead isKept
  cases tile.isFree with
  | true => simp
  | false =>
      cases tile.header.marked with
      | true => simp
      | false => simp

theorem swept_of_isFree {tile : Tile} (free : tile.isFree = true) : tile.swept = tile := by
  simp [swept, isDead, isKept, free]

theorem isFree_swept (tile : Tile) : tile.swept.isFree = !tile.isKept := by
  rcases tile.sweep_cases with ⟨free, _, kept, same⟩ | ⟨free, _, kept, same⟩ | ⟨_, _, kept, same⟩
  · rw [same, free, kept]
    rfl
  · rw [same, kept, isFree_withMark, free]
    rfl
  · rw [same, kept, isFree_ofExtent]
    rfl

end Tile

def Report.sweep (report : Report) (tile : Tile) : Report :=
  if tile.isDead then
    { report with
      freedBlocks := report.freedBlocks + 1
      freedBytes := report.freedBytes + tile.header.size }
  else if tile.isKept then
    { report with liveBytes := report.liveBytes + tile.header.size }
  else
    report

def sizes (tiles : List Tile) : Nat :=
  (tiles.map fun tile => tile.header.size).sum

/-- The sweep counts what it frees and what it keeps. -/
theorem Report.foldl_sweep (report : Report) (tiles : List Tile) :
    tiles.foldl Report.sweep report =
      ⟨report.marked, report.freedBlocks + (tiles.filter Tile.isDead).length,
        report.freedBytes + sizes (tiles.filter Tile.isDead),
        report.liveBytes + sizes (tiles.filter Tile.isKept)⟩ := by
  induction tiles generalizing report with
  | nil => rfl
  | cons tile rest ih =>
      rw [List.foldl_cons, ih]
      rcases tile.sweep_cases with ⟨_, dead, kept, _⟩ | ⟨_, dead, kept, _⟩ | ⟨_, dead, kept, _⟩
      · simp [Report.sweep, dead, kept]
      · simp [Report.sweep, dead, kept, sizes, Nat.add_assoc]
      · simp only [Report.sweep, dead, kept, sizes, if_true, List.filter_cons, List.length_cons,
          List.map_cons, List.sum_cons, Report.mk.injEq, true_and, Bool.false_eq_true, if_false,
          and_true]
        omega

namespace Memory

structure Swept (memory after : Memory) (tiles : List Tile) : Prop where
  size : after.arena.size = memory.arena.size
  stats : after.stats = memory.stats
  freeList : after.freeList.toList =
    memory.freeList.toList ++ (tiles.filter Tile.isDead).map Tile.extent
  stored : ∀ tile ∈ tiles, after.arena.header? tile.pos = some tile.swept.header
  agree : ∀ first limit,
    (∀ tile ∈ tiles, limit ≤ tile.pos ∨ tile.pos + headerSize ≤ first) →
    after.arena.AgreeOn memory.arena first limit

theorem sweepBlock_eq_ok {memory : Memory} {tile : Tile} (report : Report)
    (small : memory.capacity < 2 ^ 32) (room : headerSize ≤ tile.header.size)
    (inside : tile.limit ≤ memory.capacity)
    (stored : memory.arena.header? tile.pos = some tile.header) :
    ∃ after, sweepBlock tile.pos tile.header report memory = .ok (report.sweep tile) after ∧
      Swept memory after [tile] := by
  have width : headerSize = 8 := rfl
  simp only [Tile.limit, capacity] at inside small
  rcases tile.sweep_cases with ⟨free, dead, kept, same⟩ | ⟨free, dead, kept, same⟩ |
    ⟨free, dead, kept, same⟩
  · refine ⟨memory, ?_, rfl, rfl, by simp [dead], ?_, fun _ _ _ => .refl _ _ _⟩
    · have free' : tile.header.isFree = true := free
      simp only [sweepBlock, free', Report.sweep, dead, kept]
      rfl
    · intro other mem
      rw [List.mem_singleton.mp mem, same]
      exact stored
  · refine ⟨{ memory with arena := memory.arena.clearTop (tile.pos + 4) }, ?_,
      Arena.size_clearTop _ _, rfl, by simp [dead], ?_, ?_⟩
    · have free' : tile.header.isFree = false := free
      have marked : tile.header.marked = true := by
        simpa [Tile.isKept, free] using kept
      simp only [sweepBlock, free', marked, Report.sweep, dead, kept]
      rfl
    · intro other mem
      rw [List.mem_singleton.mp mem, same]
      exact Arena.header?_clearTop stored
    · intro first limit outside
      have := outside tile List.mem_cons_self
      exact Arena.agreeOn_clearTop _ (by omega)
  · refine ⟨{ memory with
        arena := memory.arena.setHeader tile.pos tile.header.size freeTag
        freeList := memory.freeList.insert tile.extent }, ?_, Arena.size_setHeader _ _ _ _, rfl,
      by simp [dead], ?_, ?_⟩
    · have free' : tile.header.isFree = false := free
      have marked : tile.header.marked = false := by
        simpa [Tile.isDead, free] using dead
      have freed : freeBlock tile.pos tile.header.size memory = .ok () { memory with
          arena := memory.arena.setHeader tile.pos tile.header.size freeTag
          freeList := memory.freeList.insert tile.extent } := by
        unfold freeBlock
        exact @writeHeader_eq_ok { memory with freeList := memory.freeList.insert tile.extent }
          tile.pos tile.header.size freeTag (by simp only; omega)
      simp only [sweepBlock, free', marked, Report.sweep, dead]
      exact (bind_of_ok freed).trans rfl
    · intro other mem
      rw [List.mem_singleton.mp mem, same]
      exact Arena.header?_setHeader _ (by omega) (by omega) (by decide)
    · intro first limit outside
      have := outside tile List.mem_cons_self
      exact Arena.agreeOn_setHeader _ _ _ (by omega)

/-- The sweep over a tile and then over those behind it. -/
theorem Swept.cons {memory middle after : Memory} {tile : Tile} {rest : List Tile}
    (first : Swept memory middle [tile]) (later : Swept middle after rest)
    (room : headerSize ≤ tile.header.size) (behind : ∀ other ∈ rest, tile.limit ≤ other.pos) :
    Swept memory after (tile :: rest) := by
  refine ⟨later.size.trans first.size, later.stats.trans first.stats, ?_, ?_, ?_⟩
  · rw [later.freeList, first.freeList, List.append_assoc, ← List.map_append,
      ← List.filter_append, List.singleton_append]
  · intro other mem
    cases mem with
    | head =>
        rw [← first.stored tile List.mem_cons_self]
        apply Arena.header?_congr
        apply later.agree
        intro other mem
        have := behind other mem
        simp only [Tile.limit] at this
        omega
    | tail _ mem => exact later.stored other mem
  · intro first' limit outside
    refine (later.agree _ _ ?_).trans (first.agree _ _ ?_)
    · intro other mem
      exact outside other (List.mem_cons_of_mem _ mem)
    · intro other mem
      rw [List.mem_singleton.mp mem]
      exact outside tile List.mem_cons_self

theorem sweepFrom_eq_ok {memory : Memory} {tiles : List Tile} {first limit : Nat}
    (report : Report) (same : memory.capacity = limit) (small : limit < 2 ^ 32)
    (spans : Spans first tiles limit)
    (stored : ∀ tile ∈ tiles, memory.arena.header? tile.pos = some tile.header) :
    ∃ after, sweepFrom limit first report memory = .ok (tiles.foldl Report.sweep report) after ∧
      Swept memory after tiles := by
  have width : headerSize = 8 := rfl
  induction tiles generalizing first report memory with
  | nil =>
      rw [sweepFrom, if_neg (by have := Spans.nil_iff.mp spans; omega)]
      exact ⟨memory, rfl, rfl, rfl, by simp, nofun, fun _ _ _ => .refl _ _ _⟩
  | cons tile rest ih =>
      have inside := (spans.bounds List.mem_cons_self).2.1
      rcases spans with ⟨start, room, spans⟩
      subst start
      have here := stored tile List.mem_cons_self
      have walked := walkHeader_eq_ok (by omega) room (by omega) here
      rcases sweepBlock_eq_ok report (by omega) room (by omega) here with ⟨middle, ran, swept⟩
      have behind : ∀ other ∈ rest, tile.limit ≤ other.pos := by
        intro other mem
        exact (spans.bounds mem).1
      have stored' : ∀ other ∈ rest, middle.arena.header? other.pos = some other.header := by
        intro other mem
        rw [← stored other (List.mem_cons_of_mem _ mem)]
        apply Arena.header?_congr
        apply swept.agree
        intro swept' mem'
        have := behind other mem
        rw [List.mem_singleton.mp mem']
        simp only [Tile.limit] at this
        omega
      rcases ih (report.sweep tile) (swept.size.trans same) spans stored' with
        ⟨after, ran', swept'⟩
      refine ⟨after, ?_, swept.cons swept' room behind⟩
      simp only [Tile.limit] at inside ran'
      rw [sweepFrom, if_pos (by omega)]
      split
      · next e failed =>
          rw [walked] at failed
          cases failed
      · next header found =>
          rw [walked] at found
          cases found
          rw [ran]
          exact ran'

theorem sweep_eq_ok {memory : Memory} {tiles : List Tile} (tiled : Tiled memory tiles) :
    ∃ after, sweep memory = .ok (tiles.foldl Report.sweep .none) after ∧
      Swept memory after tiles := by
  have small := tiled.small
  exact sweepFrom_eq_ok .none rfl (by omega) tiled.spans tiled.stored

end Memory
end ObjectMachine
