import ObjectMachine.Proofs.Extents
import ObjectMachine.Proofs.Sweeping

/-!
# Compaction

After the sweep the free list has the free tiles in some order. Sorted, they stand in the order of
the walk, and two of them touch exactly if they are neighbours in the walk. So joining extents that
touch is joining free tiles that are neighbours; live tiles stay where they are.
-/

namespace ObjectMachine

def freeExtents (tiles : List Tile) : List Extent :=
  (tiles.filter Tile.isFree).map Tile.extent

theorem freeExtents_cons_of_free {tile : Tile} (free : tile.isFree = true) (rest : List Tile) :
    freeExtents (tile :: rest) = tile.extent :: freeExtents rest := by
  simp [freeExtents, free]

theorem freeExtents_cons_of_live {tile : Tile} (live : tile.isFree = false) (rest : List Tile) :
    freeExtents (tile :: rest) = freeExtents rest := by
  simp [freeExtents, live]

theorem mem_freeExtents_iff {tiles : List Tile} {extent : Extent} :
    extent ∈ freeExtents tiles ↔ ∃ tile ∈ tiles, tile.isFree = true ∧ tile.extent = extent := by
  simp [freeExtents, and_assoc]

/-!
## Sorting
-/

section
variable {tiles : List Tile} {first limit : Nat}

theorem freeExtents_apart (spans : Spans first tiles limit) :
    (freeExtents tiles).Pairwise fun a b => a.limit ≤ b.addr := by
  rw [freeExtents, List.pairwise_map]
  exact spans.pairwise.filter _

theorem freeExtents_inside (spans : Spans first tiles limit) {extent : Extent}
    (mem : extent ∈ freeExtents tiles) : headerSize ≤ extent.size ∧ extent.limit ≤ limit := by
  rcases mem_freeExtents_iff.mp mem with ⟨tile, tile_mem, _, rfl⟩
  have bounds := spans.bounds tile_mem
  exact ⟨bounds.2.2, bounds.2.1⟩

theorem freeExtents_increasing (spans : Spans first tiles limit) :
    (freeExtents tiles).Pairwise fun a b => a.addr < b.addr := by
  refine (freeExtents_apart spans).imp_of_mem ?_
  intro a b mem _ apart
  have width : headerSize = 8 := rfl
  have room := (freeExtents_inside spans mem).1
  simp only [Extent.limit] at apart
  omega

theorem nodup_freeExtents (spans : Spans first tiles limit) : (freeExtents tiles).Nodup := by
  refine (freeExtents_increasing spans).imp ?_
  intro a b less same
  subst same
  exact Nat.lt_irrefl _ less

end

theorem mergeSort_eq_freeExtents {extents : List Extent} {tiles : List Tile} {first limit : Nat}
    (spans : Spans first tiles limit) (perm : extents.Perm (freeExtents tiles)) :
    extents.mergeSort Extent.le = freeExtents tiles := by
  refine @List.Perm.eq_of_pairwise Extent (fun a b => a.le b = true) _ _ ?_ ?_ ?_ ?_
  · intro a b _ _ ab ba
    exact Extent.le_antisymm ab ba
  · exact List.pairwise_mergeSort Extent.le_trans Extent.le_total extents
  · refine (freeExtents_increasing spans).imp ?_
    intro a b less
    exact Extent.le_iff.mpr (Or.inl less)
  · exact (List.mergeSort_perm extents Extent.le).trans perm

/-!
## Joining
-/

def extend (tile : Tile) : Option Extent → Extent
  | none => tile.extent
  | some gap => ⟨gap.addr, gap.size + tile.header.size⟩

/-- Free tiles that are neighbours are joined. The extent that was begun is a free tile once a live
tile follows. -/
def joinFrom : Option Extent → List Tile → List Tile
  | begun, [] => begun.toList.map Tile.ofExtent
  | begun, tile :: rest =>
      if tile.isFree then
        joinFrom (some (extend tile begun)) rest
      else
        begun.toList.map Tile.ofExtent ++ tile :: joinFrom none rest

def joinTiles (tiles : List Tile) : List Tile :=
  joinFrom none tiles

/-- An extent that was begun ends where the tiles start. -/
def Begun (first : Nat) : Option Extent → Nat → Prop
  | none, start => start = first
  | some gap, start => gap.addr = start ∧ gap.limit = first ∧ headerSize ≤ gap.size

theorem Begun.extend {begun : Option Extent} {start : Nat} {tile : Tile}
    (valid : Begun tile.pos begun start) (room : headerSize ≤ tile.header.size) :
    Begun tile.limit (some (extend tile begun)) start := by
  cases begun with
  | none => exact ⟨valid.symm, rfl, room⟩
  | some gap =>
      rcases valid with ⟨begins, ends, _⟩
      refine ⟨begins, ?_, by simp only [ObjectMachine.extend]; omega⟩
      simp only [ObjectMachine.extend, Extent.limit, Tile.limit] at ends ⊢
      omega

theorem Begun.spans {begun : Option Extent} {first start limit : Nat} {tiles : List Tile}
    (valid : Begun first begun start) (spans : Spans first tiles limit) :
    Spans start (begun.toList.map Tile.ofExtent ++ tiles) limit := by
  cases begun with
  | none =>
      cases valid
      exact spans
  | some gap =>
      rcases valid with ⟨begins, ends, room⟩
      refine ⟨begins, room, ?_⟩
      show Spans gap.limit tiles limit
      rw [ends]
      exact spans

theorem spans_joinFrom {tiles : List Tile} {begun : Option Extent} {first start limit : Nat}
    (valid : Begun first begun start) (spans : Spans first tiles limit) :
    Spans start (joinFrom begun tiles) limit := by
  induction tiles generalizing begun first start with
  | nil =>
      have := valid.spans spans
      simpa [joinFrom] using this
  | cons tile rest ih =>
      rcases spans with ⟨rfl, room, spans⟩
      unfold joinFrom
      split
      · exact ih (valid.extend room) spans
      · apply valid.spans
        exact ⟨rfl, room, ih rfl spans⟩

theorem live_joinFrom (begun : Option Extent) (tiles : List Tile) :
    (joinFrom begun tiles).filter (fun tile => !tile.isFree) =
      tiles.filter fun tile => !tile.isFree := by
  have first : (begun.toList.map Tile.ofExtent).filter (fun tile => !tile.isFree) = [] := by
    cases begun with
    | none => rfl
    | some gap => simp
  induction tiles generalizing begun with
  | nil => exact first
  | cons tile rest ih =>
      unfold joinFrom
      split
      · next free =>
          rw [ih _ (by simp)]
          simp [free]
      · next live =>
          rw [List.filter_append, first, List.nil_append, List.filter_cons, List.filter_cons,
            ih none rfl]

/-- No two free tiles are neighbours. -/
def Joined : List Tile → Prop
  | [] => True
  | tile :: rest => (tile.isFree = true → ∀ next ∈ rest.head?, next.isFree = false) ∧ Joined rest

theorem joined_joinFrom (begun : Option Extent) (tiles : List Tile) :
    Joined (joinFrom begun tiles) := by
  induction tiles generalizing begun with
  | nil =>
      cases begun with
      | none => trivial
      | some gap => exact ⟨fun _ => nofun, trivial⟩
  | cons tile rest ih =>
      unfold joinFrom
      split
      · exact ih _
      · next live =>
          have later : Joined (tile :: joinFrom none rest) :=
            ⟨fun free => absurd free live, ih none⟩
          cases begun with
          | none => exact later
          | some gap =>
              refine ⟨fun _ => ?_, later⟩
              intro next same
              cases same
              simpa using live

theorem mem_joinFrom {tiles : List Tile} {begun : Option Extent} {tile : Tile}
    (mem : tile ∈ joinFrom begun tiles) :
    (tile ∈ tiles ∧ tile.isFree = false) ∨
      ∃ extent, tile = Tile.ofExtent extent ∧
        ((∃ gap ∈ begun, gap.addr = extent.addr) ∨
          ∃ other ∈ tiles, other.isFree = true ∧ other.pos = extent.addr) := by
  have first : ∀ begun : Option Extent, tile ∈ begun.toList.map Tile.ofExtent →
      ∃ gap ∈ begun, tile = Tile.ofExtent gap := by
    intro begun mem
    cases begun with
    | none => cases mem
    | some gap => exact ⟨gap, rfl, List.mem_singleton.mp mem⟩
  induction tiles generalizing begun with
  | nil =>
      unfold joinFrom at mem
      rcases first begun mem with ⟨gap, has, rfl⟩
      exact Or.inr ⟨gap, rfl, Or.inl ⟨gap, has, rfl⟩⟩
  | cons head rest ih =>
      unfold joinFrom at mem
      split at mem
      · next free =>
          rcases ih mem with ⟨mem, live⟩ | ⟨extent, same, begins⟩
          · exact Or.inl ⟨List.mem_cons_of_mem _ mem, live⟩
          · refine Or.inr ⟨extent, same, ?_⟩
            rcases begins with ⟨gap, has, begins⟩ | ⟨other, mem, free, begins⟩
            · cases has
              cases begun with
              | none => exact Or.inr ⟨head, List.mem_cons_self, free, begins⟩
              | some gap => exact Or.inl ⟨gap, rfl, begins⟩
            · exact Or.inr ⟨other, List.mem_cons_of_mem _ mem, free, begins⟩
      · next live =>
          rcases List.mem_append.mp mem with mem | mem
          · rcases first begun mem with ⟨gap, has, rfl⟩
            exact Or.inr ⟨gap, rfl, Or.inl ⟨gap, has, rfl⟩⟩
          · rcases List.mem_cons.mp mem with rfl | mem
            · exact Or.inl ⟨List.mem_cons_self, by simpa using live⟩
            · rcases ih mem with ⟨mem, live⟩ | ⟨extent, same, begins⟩
              · exact Or.inl ⟨List.mem_cons_of_mem _ mem, live⟩
              · refine Or.inr ⟨extent, same, ?_⟩
                rcases begins with ⟨gap, has, _⟩ | ⟨other, mem, free, begins⟩
                · cases has
                · exact Or.inr ⟨other, List.mem_cons_of_mem _ mem, free, begins⟩

theorem coalesceFrom_of_apart {gap : Extent} {extents : List Extent}
    (apart : ∀ extent ∈ extents, gap.limit < extent.addr) :
    FreeList.coalesceFrom gap extents = gap :: FreeList.coalesce extents := by
  cases extents with
  | nil => rfl
  | cons extent rest =>
      have := apart extent List.mem_cons_self
      rw [FreeList.coalesceFrom, if_neg (by omega)]
      rfl

/-- Joining the extents that touch is joining the free tiles that are neighbours. -/
theorem coalesce_eq_freeExtents {tiles : List Tile} {begun : Option Extent}
    {first start limit : Nat} (valid : Begun first begun start)
    (spans : Spans first tiles limit) :
    FreeList.coalesce (begun.toList ++ freeExtents tiles) =
      freeExtents (joinFrom begun tiles) := by
  have width : headerSize = 8 := rfl
  induction tiles generalizing begun first start with
  | nil =>
      cases begun with
      | none => rfl
      | some gap => simp [joinFrom, freeExtents, FreeList.coalesce, FreeList.coalesceFrom]
  | cons tile rest ih =>
      rcases spans with ⟨rfl, room, spans⟩
      unfold joinFrom
      split
      · next free =>
          rw [freeExtents_cons_of_free free, ← ih (valid.extend room) spans]
          cases begun with
          | none => rfl
          | some gap =>
              have touch : gap.limit = tile.extent.addr := valid.2.1
              show FreeList.coalesceFrom gap (tile.extent :: freeExtents rest) = _
              rw [FreeList.coalesceFrom, if_pos touch]
              rfl
      · next live =>
          have live' : tile.isFree = false := by simpa using live
          have later := @ih none _ _ rfl spans
          simp only [Option.toList_none, List.nil_append] at later
          cases begun with
          | none =>
              simp only [Option.toList_none, List.map_nil, List.nil_append]
              rw [freeExtents_cons_of_live live', freeExtents_cons_of_live live', later]
          | some gap =>
              have apart : ∀ extent ∈ freeExtents rest, gap.limit < extent.addr := by
                intro extent mem
                rcases mem_freeExtents_iff.mp mem with ⟨other, other_mem, _, rfl⟩
                have behind := (spans.bounds other_mem).1
                simp only [Tile.limit] at behind
                have ends := valid.2.1
                show gap.limit < other.pos
                omega
              simp only [Option.toList_some, List.map_cons, List.map_nil, List.cons_append,
                List.nil_append]
              rw [freeExtents_cons_of_live live',
                freeExtents_cons_of_free (Tile.isFree_ofExtent gap),
                freeExtents_cons_of_live live', ← later]
              exact coalesceFrom_of_apart apart

namespace Memory

/-!
## The headers of joined extents
-/

/-- What stamping extents has done to a memory. -/
structure Stamped (memory after : Memory) (extents : List Extent) : Prop where
  size : after.arena.size = memory.arena.size
  stats : after.stats = memory.stats
  freeList : after.freeList = memory.freeList
  stored : ∀ extent ∈ extents,
    after.arena.header? extent.addr = some (Tile.ofExtent extent).header
  agree : ∀ first limit,
    (∀ extent ∈ extents, limit ≤ extent.addr ∨ extent.addr + headerSize ≤ first) →
    after.arena.AgreeOn memory.arena first limit

theorem stampExtents_eq_ok {memory : Memory} {extents : List Extent}
    (small : memory.arena.size < 2 ^ 32)
    (inside : ∀ extent ∈ extents, headerSize ≤ extent.size ∧ extent.limit ≤ memory.arena.size)
    (apart : extents.Pairwise fun a b => a.limit ≤ b.addr) :
    ∃ after, stampExtents extents memory = .ok () after ∧ Stamped memory after extents := by
  have width : headerSize = 8 := rfl
  induction extents generalizing memory with
  | nil => exact ⟨memory, rfl, rfl, rfl, rfl, nofun, fun _ _ _ => .refl _ _ _⟩
  | cons extent rest ih =>
      rcases inside extent List.mem_cons_self with ⟨room, inside'⟩
      simp only [Extent.limit] at inside'
      rcases List.pairwise_cons.mp apart with ⟨behind, apart⟩
      have first : writeHeader extent.addr extent.size freeTag memory = .ok ()
          { memory with arena := memory.arena.setHeader extent.addr extent.size freeTag } :=
        writeHeader_eq_ok _ _ (by omega)
      have inside'' : ∀ other ∈ rest, headerSize ≤ other.size ∧ other.limit ≤
          (memory.arena.setHeader extent.addr extent.size freeTag).size := by
        intro other mem
        rw [Arena.size_setHeader]
        exact inside other (List.mem_cons_of_mem _ mem)
      rcases @ih { memory with arena := memory.arena.setHeader extent.addr extent.size freeTag }
          (by rw [Arena.size_setHeader]; exact small) inside'' apart with
        ⟨after, ran, stamped⟩
      refine ⟨after, ?_, ?_, stamped.stats, stamped.freeList, ?_, ?_⟩
      · rw [stampExtents, bind_of_ok first]
        exact ran
      · rw [stamped.size, Arena.size_setHeader]
      · intro other mem
        cases mem with
        | head =>
            have read : (memory.arena.setHeader extent.addr extent.size freeTag).header?
                extent.addr = some (Tile.ofExtent extent).header :=
              Arena.header?_setHeader _ (by omega) (by omega) (by decide)
            rw [← read]
            apply Arena.header?_congr
            apply stamped.agree
            intro other mem
            have := behind other mem
            simp only [Extent.limit] at this
            omega
        | tail _ mem => exact stamped.stored other mem
      · intro first' limit outside
        refine (stamped.agree _ _ ?_).trans (Arena.agreeOn_setHeader _ _ _ ?_)
        · intro other mem
          exact outside other (List.mem_cons_of_mem _ mem)
        · have := outside extent List.mem_cons_self
          omega

structure Compacted (memory after : Memory) (tiles : List Tile) : Prop where
  tiled : Tiled after (joinTiles tiles)
  free : after.freeList.toList = freeExtents (joinTiles tiles)
  size : after.arena.size = memory.arena.size
  stats : after.stats = memory.stats
  kept : ∀ tile ∈ tiles, tile.isFree = false →
    after.arena.AgreeOn memory.arena tile.pos tile.limit
  freed : ∀ tile ∈ tiles, tile.isFree = true →
    ∃ header, after.arena.header? tile.pos = some header ∧ header.isFree = true
  /-- Only headers of free tiles are written. -/
  agree : ∀ first limit,
    (∀ extent ∈ freeExtents (joinTiles tiles),
      limit ≤ extent.addr ∨ extent.addr + headerSize ≤ first) →
    after.arena.AgreeOn memory.arena first limit

theorem begins_of_joined {tiles : List Tile} {extent : Extent}
    (mem : extent ∈ freeExtents (joinTiles tiles)) :
    ∃ tile ∈ tiles, tile.isFree = true ∧ tile.pos = extent.addr := by
  rcases mem_freeExtents_iff.mp mem with ⟨joint, joint_mem, isFree, rfl⟩
  rcases mem_joinFrom joint_mem with ⟨_, live⟩ | ⟨extent, rfl, ⟨gap, has, _⟩ | begins⟩
  · rw [isFree] at live
    cases live
  · cases has
  · exact begins

theorem toList_compact {list : FreeList} {tiles : List Tile} {limit : Nat}
    (spans : Spans 0 tiles limit) (free : list.toList.Perm (freeExtents tiles)) :
    list.compact.toList = freeExtents (joinTiles tiles) := by
  rw [FreeList.compact, FreeList.toList_ofList, mergeSort_eq_freeExtents spans free]
  exact @coalesce_eq_freeExtents tiles none _ _ _ rfl spans

namespace Stamped

variable {memory after : Memory} {tiles : List Tile} {tile : Tile} {limit : Nat}

theorem kept (stamped : Stamped memory after (freeExtents (joinTiles tiles)))
    (spans : Spans 0 tiles limit) (mem : tile ∈ tiles) (live : tile.isFree = false) :
    after.arena.AgreeOn memory.arena tile.pos tile.limit := by
  apply stamped.agree
  intro extent joined
  rcases begins_of_joined joined with ⟨other, mem', isFree, begins⟩
  rw [← begins]
  apply spans.apart_header mem mem'
  intro same
  rw [same, isFree] at live
  cases live

/-- A free tile begins an extent, or its own header is still there. -/
theorem freed (stamped : Stamped memory after (freeExtents (joinTiles tiles)))
    (spans : Spans 0 tiles limit) (mem : tile ∈ tiles) (isFree : tile.isFree = true)
    (stored : memory.arena.header? tile.pos = some tile.header) :
    ∃ header, after.arena.header? tile.pos = some header ∧ header.isFree = true := by
  by_cases starts : ∃ extent ∈ freeExtents (joinTiles tiles), extent.addr = tile.pos
  · rcases starts with ⟨extent, joined, same⟩
    exact ⟨_, same ▸ stamped.stored extent joined, Tile.isFree_ofExtent extent⟩
  · refine ⟨tile.header, ?_, isFree⟩
    rw [← stored]
    apply Arena.header?_congr
    apply stamped.agree
    intro extent joined
    rcases begins_of_joined joined with ⟨other, mem', _, begins⟩
    have different : tile ≠ other := by
      intro same
      exact starts ⟨extent, joined, by rw [same, begins]⟩
    have inside := spans.header_inside mem
    have apart := spans.apart_header mem mem' different
    omega

end Stamped

theorem compact_eq_ok {memory : Memory} {tiles : List Tile} (tiled : Tiled memory tiles)
    (free : memory.freeList.toList.Perm (freeExtents tiles)) :
    ∃ after, compact memory = .ok () after ∧ Compacted memory after tiles := by
  have small := tiled.small
  have joined : Spans 0 (joinTiles tiles) memory.capacity := spans_joinFrom rfl tiled.spans
  have compacted := toList_compact tiled.spans free
  rcases @stampExtents_eq_ok { memory with freeList := memory.freeList.compact } _
      (by simp only [capacity] at small; simp only; omega)
      (fun extent mem => freeExtents_inside joined mem) (freeExtents_apart joined) with
    ⟨after, ran, stamped⟩
  have capacity' : after.capacity = memory.capacity := stamped.size
  refine ⟨after, ?_, ⟨?_, ?_, ?_⟩, ?_, stamped.size, stamped.stats,
    fun tile mem => stamped.kept tiled.spans mem, ?_, stamped.agree⟩
  · show stampExtents memory.freeList.compact.toList
      { memory with freeList := memory.freeList.compact } = _
    rw [compacted]
    exact ran
  · rw [capacity']
    exact small
  · rw [capacity']
    exact joined
  · intro tile mem
    rcases mem_joinFrom mem with ⟨mem', live⟩ | ⟨extent, rfl, _⟩
    · rw [← tiled.stored tile mem']
      apply Arena.header?_congr
      exact (stamped.kept tiled.spans mem' live).mono (Nat.le_refl _)
        (tiled.spans.header_inside mem')
    · apply stamped.stored extent
      exact mem_freeExtents_iff.mpr ⟨_, mem, Tile.isFree_ofExtent _, rfl⟩
  · rw [stamped.freeList]
    exact compacted
  · intro tile mem isFree
    exact stamped.freed tiled.spans mem isFree (tiled.stored tile mem)

end Memory
end ObjectMachine
