import ObjectMachine.Error
import ObjectMachine.Memory.Arena
import ObjectMachine.Memory.FreeList

/-!
# The object memory

Blocks tile the arena. Each starts with a header of two words: the size of the block with its
header, and a tag. The top bit of the tag is the mark, and the rest is the place of the block's
type in the table of types, or the largest such number if the block is free. So the arena can be
walked from its start by the sizes in the headers alone.

Headers are read wherever an address points, and what is found there is checked before it is
used. An operation that fails leaves the memory as far as it had come.
-/

namespace ObjectMachine

def headerSize : Nat := 8

def lengthSize : Nat := 4

/-- The tag of a free block. -/
def freeTag : Nat := 0x7fffffff

/-!
## Headers
-/

structure Header where
  /-- The bytes of the block, header included. -/
  size : Nat
  /-- The tag without the mark. -/
  tag : Nat
  marked : Bool
  deriving DecidableEq, Repr, Inhabited

namespace Header

def ofWords (size tag : UInt32) : Header where
  size := size.toNat
  tag := tag.toNat % 0x80000000
  marked := 0x80000000 ≤ tag.toNat

def isFree (header : Header) : Bool :=
  header.tag == freeTag

def type (header : Header) : TypeRef :=
  ⟨header.tag⟩

end Header

/-!
## Memories
-/

structure Report where
  /-- The blocks that were reached. -/
  marked : Nat
  freedBlocks : Nat
  freedBytes : Nat
  /-- The bytes of the blocks that were kept. -/
  liveBytes : Nat
  deriving DecidableEq, Repr, Inhabited

def Report.none : Report := ⟨0, 0, 0, 0⟩

structure Stats where
  allocations : Nat
  bytesAllocated : Nat
  collections : Nat
  last : Report
  deriving DecidableEq, Repr, Inhabited

structure Memory where
  arena : Arena
  freeList : FreeList
  /-- What has been done so far. -/
  stats : Stats
  deriving DecidableEq, Repr, Inhabited

namespace Memory

/-- An operation on a memory. It ends with a result or an error, and leaves a memory either
way. -/
abbrev Op := EStateM Error Memory

def query {α : Type} (look : Memory → Except Error α) : Op α := fun memory =>
  match look memory with
  | .ok a => .ok a memory
  | .error e => .error e memory

def capacity (memory : Memory) : Nat :=
  memory.arena.size

def freeBytes (memory : Memory) : Nat :=
  memory.freeList.freeBytes

/-!
## Writing
-/

def writeWord (pos : Nat) (word : UInt32) : Op Unit := fun memory =>
  if pos + 4 ≤ memory.arena.size then
    .ok () { memory with arena := memory.arena.setWord pos word }
  else
    .error (.corruption (.outsideArena pos 4)) memory

def writeByte (pos : Nat) (b : UInt8) : Op Unit := fun memory =>
  if pos + 1 ≤ memory.arena.size then
    .ok () { memory with arena := memory.arena.setByte pos b }
  else
    .error (.corruption (.outsideArena pos 1)) memory

def clearBytes (pos count : Nat) : Op Unit := fun memory =>
  if pos + count ≤ memory.arena.size then
    .ok () { memory with arena := memory.arena.clear pos count }
  else
    .error (.corruption (.outsideArena pos count)) memory

/-- A header without a mark is stored. -/
def writeHeader (pos size tag : Nat) : Op Unit := do
  writeWord pos (UInt32.ofNat size)
  writeWord (pos + 4) (UInt32.ofNat tag)

def new (size : Nat) : Except Error Memory :=
  if size < headerSize ∨ Addr.null.pos ≤ size then
    .error (.shortage (.heapSize size))
  else
    let memory : Memory := {
      arena := .zeros size
      freeList := FreeList.empty.insert ⟨0, size⟩
      stats := ⟨0, 0, 0, .none⟩ }
    match writeHeader 0 size freeTag memory with
    | .ok _ memory => .ok memory
    | .error e _ => .error e

/-!
## Headers in memory
-/

/-- The header at an address, whatever it says. -/
def readHeader (memory : Memory) (addr : Addr) : Except Error Header :=
  match memory.arena.word? addr.pos, memory.arena.word? (addr.pos + 4) with
  | some size, some tag => .ok (.ofWords size tag)
  | _, _ => .error (.corruption (.outsideHeap addr))

/-- The header of the live block at an address. -/
def header (memory : Memory) (addr : Addr) : Except Error Header := do
  let header ← memory.readHeader addr
  if header.size < headerSize ∨ memory.capacity < addr.pos + header.size ∨ header.isFree then
    .error (.corruption (.notLive addr header.size header.isFree))
  else
    .ok header

def typeOf (memory : Memory) (addr : Addr) : Except Error TypeRef := do
  let header ← memory.header addr
  .ok header.type

def isAllocated (memory : Memory) (addr : Addr) : Bool :=
  match memory.header addr with
  | .ok _ => true
  | .error _ => false

/-- The header at a position of the walk, which must lead on within the arena. -/
def walkHeader (memory : Memory) (pos : Nat) : Except Error Header := do
  let addr := Addr.ofPos pos
  let header ← memory.readHeader addr
  if header.size = 0 then
    .error (.corruption (.zeroSize addr))
  else if memory.capacity < pos + header.size then
    .error (.corruption (.overrunsHeap addr header.size))
  else
    .ok header

theorem size_pos_of_walkHeader {memory : Memory} {pos : Nat} {header : Header}
    (h : memory.walkHeader pos = .ok header) : 0 < header.size := by
  unfold walkHeader at h
  cases hr : memory.readHeader (Addr.ofPos pos) with
  | error e => simp [hr, bind, Except.bind] at h
  | ok found =>
      simp only [hr, bind, Except.bind] at h
      split at h
      · cases h
      · split at h
        · cases h
        · cases h
          omega

def blocksFrom (memory : Memory) (pos : Nat) : Except Error (List (Addr × Header)) :=
  if pos < memory.capacity then
    match _h : memory.walkHeader pos with
    | .error e => .error e
    | .ok header =>
        match blocksFrom memory (pos + header.size) with
        | .error e => .error e
        | .ok rest => .ok (if header.isFree then rest else (Addr.ofPos pos, header) :: rest)
  else
    .ok []
termination_by memory.capacity - pos
decreasing_by
  have := size_pos_of_walkHeader _h
  omega

/-- The live blocks in the order of their addresses. -/
def blocks (memory : Memory) : Except Error (List (Addr × Header)) :=
  memory.blocksFrom 0

end Memory
end ObjectMachine
