import ObjectMachine.Proofs.Headers

/-!
# The tiling of the arena

A tile is a block as a walk over the arena meets it: a position and the header found there. Tiles
span a range when each starts where the one before it ends. A memory is tiled by a list that spans
its arena and whose headers are the ones stored; then a walk over the headers meets exactly the
tiles of the list.
-/

namespace ObjectMachine

structure Tile where
  /-- The position of the header. -/
  pos : Nat
  /-- The header. -/
  header : Header
  deriving DecidableEq, Repr

namespace Tile

def limit (tile : Tile) : Nat :=
  tile.pos + tile.header.size

def addr (tile : Tile) : Addr :=
  .ofPos tile.pos

def extent (tile : Tile) : Extent :=
  ⟨tile.pos, tile.header.size⟩

def isFree (tile : Tile) : Bool :=
  tile.header.isFree

end Tile

/-!
## Spans
-/

/-- Tiles lie side by side from one position to another, each with room for its header. -/
def Spans : Nat → List Tile → Nat → Prop
  | pos, [], limit => pos = limit
  | pos, tile :: rest, limit =>
      tile.pos = pos ∧ headerSize ≤ tile.header.size ∧ Spans tile.limit rest limit

namespace Spans

variable {first limit : Nat} {tiles : List Tile} {tile other : Tile}

@[simp] theorem nil_iff : Spans first [] limit ↔ first = limit := Iff.rfl

@[simp] theorem cons_iff :
    Spans first (tile :: tiles) limit ↔
      tile.pos = first ∧ headerSize ≤ tile.header.size ∧ Spans tile.limit tiles limit := Iff.rfl

theorem append_iff {front back : List Tile} :
    Spans first (front ++ back) limit ↔
      ∃ middle, Spans first front middle ∧ Spans middle back limit := by
  induction front generalizing first with
  | nil => simp
  | cons tile rest ih =>
      simp only [List.cons_append, cons_iff, ih]
      constructor
      · intro found
        rcases found with ⟨start, room, middle, left, right⟩
        exact ⟨middle, ⟨start, room, left⟩, right⟩
      · intro found
        rcases found with ⟨middle, ⟨start, room, left⟩, right⟩
        exact ⟨start, room, middle, left, right⟩

theorem le (spans : Spans first tiles limit) : first ≤ limit := by
  induction tiles generalizing first with
  | nil => exact Nat.le_of_eq spans
  | cons tile rest ih =>
      rcases spans with ⟨start, _, spans⟩
      have := ih spans
      simp only [Tile.limit] at this
      omega

theorem bounds (spans : Spans first tiles limit) (mem : tile ∈ tiles) :
    first ≤ tile.pos ∧ tile.limit ≤ limit ∧ headerSize ≤ tile.header.size := by
  induction tiles generalizing first with
  | nil => cases mem
  | cons head rest ih =>
      rcases spans with ⟨start, room, spans⟩
      cases mem with
      | head =>
          exact ⟨Nat.le_of_eq start.symm, le spans, room⟩
      | tail _ mem =>
          have := ih spans mem
          simp only [Tile.limit] at this ⊢
          omega

theorem pairwise (spans : Spans first tiles limit) :
    tiles.Pairwise fun tile other => tile.limit ≤ other.pos := by
  induction tiles generalizing first with
  | nil => exact List.Pairwise.nil
  | cons head rest ih =>
      rcases spans with ⟨_, _, spans⟩
      refine List.Pairwise.cons ?_ (ih spans)
      intro other mem
      exact (bounds spans mem).1

/-- Two tiles are the same or have no byte in common. -/
theorem disjoint (spans : Spans first tiles limit) (mem : tile ∈ tiles) (mem' : other ∈ tiles) :
    tile = other ∨ tile.limit ≤ other.pos ∨ other.limit ≤ tile.pos := by
  induction tiles generalizing first with
  | nil => cases mem
  | cons head rest ih =>
      rcases spans with ⟨_, _, spans⟩
      cases mem with
      | head =>
          cases mem' with
          | head => exact Or.inl rfl
          | tail _ mem' => exact Or.inr (Or.inl (bounds spans mem').1)
      | tail _ mem =>
          cases mem' with
          | head => exact Or.inr (Or.inr (bounds spans mem).1)
          | tail _ mem' => exact ih spans mem mem'

theorem header_inside (spans : Spans first tiles limit) (mem : tile ∈ tiles) :
    tile.pos + headerSize ≤ tile.limit :=
  Nat.add_le_add_left (bounds spans mem).2.2 _

theorem apart_header (spans : Spans first tiles limit) (mem : tile ∈ tiles)
    (mem' : other ∈ tiles) (different : tile ≠ other) :
    tile.limit ≤ other.pos ∨ other.pos + headerSize ≤ tile.pos := by
  rcases disjoint spans mem mem' with equal | before | behind
  · exact absurd equal different
  · exact Or.inl before
  · exact Or.inr (Nat.le_trans (header_inside spans mem') behind)

theorem eq_of_pos (spans : Spans first tiles limit) (mem : tile ∈ tiles) (mem' : other ∈ tiles)
    (same : tile.pos = other.pos) : tile = other := by
  have width : headerSize = 8 := rfl
  have inside := header_inside spans mem
  by_cases equal : tile = other
  · exact equal
  · have apart := apart_header spans mem mem' equal
    omega

theorem nodup (spans : Spans first tiles limit) : tiles.Nodup := by
  have width : headerSize = 8 := rfl
  induction tiles generalizing first with
  | nil => exact List.nodup_nil
  | cons head rest ih =>
      rcases spans with ⟨_, room, spans⟩
      refine List.nodup_cons.mpr ⟨?_, ih spans⟩
      intro mem
      have := (bounds spans mem).1
      simp only [Tile.limit] at this
      omega

theorem sum (spans : Spans first tiles limit) :
    first + (tiles.map fun tile => tile.header.size).sum = limit := by
  induction tiles generalizing first with
  | nil => simpa using spans
  | cons head rest ih =>
      rcases spans with ⟨start, _, spans⟩
      have := ih spans
      simp only [Tile.limit] at this
      simp only [List.map_cons, List.sum_cons]
      omega

theorem exists_tile (spans : Spans first tiles limit) {i : Nat} (lower : first ≤ i)
    (upper : i < limit) : ∃ tile ∈ tiles, tile.pos ≤ i ∧ i < tile.limit := by
  induction tiles generalizing first with
  | nil =>
      have empty : first = limit := spans
      omega
  | cons head rest ih =>
      rcases spans with ⟨start, _, spans⟩
      rcases Nat.lt_or_ge i head.limit with inside | behind
      · exact ⟨head, List.mem_cons_self, by omega, inside⟩
      · rcases ih spans behind with ⟨tile, mem, inside⟩
        exact ⟨tile, List.mem_cons_of_mem _ mem, inside⟩

theorem map (spans : Spans first tiles limit) {change : Tile → Tile}
    (pos : ∀ tile ∈ tiles, (change tile).pos = tile.pos)
    (size : ∀ tile ∈ tiles, (change tile).header.size = tile.header.size) :
    Spans first (tiles.map change) limit := by
  induction tiles generalizing first with
  | nil => exact spans
  | cons head rest ih =>
      rcases spans with ⟨start, room, spans⟩
      have pos' := pos head List.mem_cons_self
      have size' := size head List.mem_cons_self
      refine ⟨pos'.trans start, by rw [size']; exact room, ?_⟩
      have same : (change head).limit = head.limit := by
        rw [Tile.limit, Tile.limit, pos', size']
      rw [same]
      exact ih spans (fun tile mem => pos tile (List.mem_cons_of_mem _ mem))
        (fun tile mem => size tile (List.mem_cons_of_mem _ mem))

end Spans

/-!
## Walking over the tiles
-/

namespace Memory

/-- The tiles that a list shows to be live blocks, as a walk lists them. -/
def listing (tiles : List Tile) : List (Addr × Header) :=
  (tiles.filter fun tile => !tile.isFree).map fun tile => (tile.addr, tile.header)

theorem walkHeader_eq_ok {memory : Memory} {tile : Tile} (small : memory.capacity < 2 ^ 32)
    (room : headerSize ≤ tile.header.size) (inside : tile.limit ≤ memory.capacity)
    (stored : memory.arena.header? tile.pos = some tile.header) :
    memory.walkHeader tile.pos = .ok tile.header := by
  have width : headerSize = 8 := rfl
  simp only [Tile.limit] at inside
  have read : memory.readHeader (.ofPos tile.pos) = .ok tile.header := by
    rw [readHeader_eq_ok_iff, Addr.pos_ofPos (by omega), stored]
  simp only [walkHeader, read, bind, Except.bind]
  rw [if_neg (by omega), if_neg (by omega)]

theorem blocksFrom_eq_ok {memory : Memory} {tiles : List Tile} {first : Nat}
    (small : memory.capacity < 2 ^ 32) (spans : Spans first tiles memory.capacity)
    (stored : ∀ tile ∈ tiles, memory.arena.header? tile.pos = some tile.header) :
    memory.blocksFrom first = .ok (listing tiles) := by
  have width : headerSize = 8 := rfl
  induction tiles generalizing first with
  | nil =>
      rw [blocksFrom, if_neg (by have := Spans.nil_iff.mp spans; omega)]
      rfl
  | cons tile rest ih =>
      have inside := (spans.bounds List.mem_cons_self).2.1
      rcases spans with ⟨start, room, spans⟩
      subst start
      have walked := walkHeader_eq_ok small room inside (stored tile List.mem_cons_self)
      have listed := ih spans fun other mem => stored other (List.mem_cons_of_mem _ mem)
      simp only [Tile.limit] at inside listed
      rw [blocksFrom, if_pos (by omega)]
      split
      · next e failed =>
          rw [walked] at failed
          cases failed
      · next header found =>
          rw [walked] at found
          cases found
          rw [listed]
          cases free : tile.isFree with
          | true =>
              have free' : tile.header.isFree = true := free
              simp [listing, free, free']
          | false =>
              have free' : tile.header.isFree = false := free
              simp [listing, free, free', Tile.addr]

/-- A list of tiles spans the arena of a memory, and its headers are stored there. -/
structure Tiled (memory : Memory) (tiles : List Tile) : Prop where
  /-- Addresses of positions are words, and the null address is none of them. -/
  small : memory.capacity < 2 ^ 32 - 1
  /-- The tiles span the arena. -/
  spans : Spans 0 tiles memory.capacity
  /-- The headers are stored. -/
  stored : ∀ tile ∈ tiles, memory.arena.header? tile.pos = some tile.header

namespace Tiled

variable {memory : Memory} {tiles : List Tile} {tile : Tile}

/-- The walk over a tiled memory succeeds and lists the live tiles. -/
theorem blocks_eq (tiled : Tiled memory tiles) : memory.blocks = .ok (listing tiles) := by
  have small := tiled.small
  exact blocksFrom_eq_ok (by omega) tiled.spans tiled.stored

theorem capacity_eq {other : Memory} (tiled : Tiled memory tiles) (tiled' : Tiled other tiles) :
    other.capacity = memory.capacity := by
  rw [← tiled.spans.sum, ← tiled'.spans.sum]

/-- Headers and payloads are all that there is. -/
theorem arena_eq {other : Memory} (tiled : Tiled memory tiles) (tiled' : Tiled other tiles)
    (payloads : ∀ tile ∈ tiles,
      memory.arena.AgreeOn other.arena (tile.pos + headerSize) tile.limit) :
    memory.arena = other.arena := by
  apply Arena.eq_of_agreeOn (tiled'.capacity_eq tiled)
  intro i lower upper
  rcases tiled'.spans.exists_tile lower upper with ⟨tile, mem, above, below⟩
  have header := Arena.agreeOn_of_header? (tiled.stored tile mem) (tiled'.stored tile mem)
  exact header.append (payloads tile mem) i above below

theorem pos_lt (tiled : Tiled memory tiles) (mem : tile ∈ tiles) : tile.pos < 2 ^ 32 - 1 := by
  have width : headerSize = 8 := rfl
  have small := tiled.small
  have bounds := tiled.spans.bounds mem
  simp only [Tile.limit] at bounds
  omega

theorem pos_addr (tiled : Tiled memory tiles) (mem : tile ∈ tiles) :
    tile.addr.pos = tile.pos := by
  have := tiled.pos_lt mem
  exact Addr.pos_ofPos (by omega)

theorem addr_ne_null (tiled : Tiled memory tiles) (mem : tile ∈ tiles) : tile.addr ≠ .null :=
  Addr.ofPos_ne_null (tiled.pos_lt mem)

theorem eq_of_addr {other : Tile} (tiled : Tiled memory tiles) (mem : tile ∈ tiles)
    (mem' : other ∈ tiles) (same : tile.addr = other.addr) : tile = other := by
  apply tiled.spans.eq_of_pos mem mem'
  rw [← tiled.pos_addr mem, ← tiled.pos_addr mem', same]

theorem header_eq_ok (tiled : Tiled memory tiles) (mem : tile ∈ tiles)
    (live : tile.isFree = false) : memory.header tile.addr = .ok tile.header := by
  have bounds := tiled.spans.bounds mem
  have read : memory.readHeader tile.addr = .ok tile.header := by
    rw [readHeader_eq_ok_iff, tiled.pos_addr mem, tiled.stored tile mem]
  have live' : tile.header.isFree = false := live
  simp only [Tile.limit] at bounds
  simp only [header, read, bind, Except.bind, tiled.pos_addr mem, live']
  rw [if_neg]
  intro either
  rcases either with small | large | free
  · omega
  · omega
  · cases free

theorem mem_listing_iff (tiles : List Tile) (addr : Addr) (header : Header) :
    (addr, header) ∈ listing tiles ↔
      ∃ tile ∈ tiles, tile.isFree = false ∧ tile.addr = addr ∧ tile.header = header := by
  simp only [listing, List.mem_map, List.mem_filter, Prod.mk.injEq, Bool.not_eq_true']
  constructor
  · intro found
    rcases found with ⟨tile, ⟨mem, live⟩, same⟩
    exact ⟨tile, mem, live, same⟩
  · intro found
    rcases found with ⟨tile, mem, live, same⟩
    exact ⟨tile, ⟨mem, live⟩, same⟩

end Tiled
end Memory
end ObjectMachine
