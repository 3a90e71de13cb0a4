import ObjectMachine.Memory.Basic

/-!
# Fields and elements

Values are read and written by their kind at positions in the payload of a live block. A field
lies at its offset; an array stores its length first, then its elements. What is read or written
through a slot must lie in the block.
-/

namespace ObjectMachine
namespace Memory

/-!
## Values at positions
-/

def valueOfWord (kind : Kind) (pos : Nat) (word : UInt32) : Except Error Value :=
  match kind with
  | .bool => .ok (.bool (word ≠ 0))
  | .char =>
      match Word.toChar? word with
      | some c => .ok (.char c)
      | none => .error (.corruption (.badChar word (Addr.ofPos pos)))
  | .int => .ok (.int word.toInt32)
  | .str => .ok (.str ⟨word⟩)
  | .ref => .ok (.ref ⟨word⟩)

def wordOfValue : Value → UInt32
  | .bool b => if b then 1 else 0
  | .char c => c.val
  | .int i => i.toUInt32
  | .str s => s.word
  | .ref addr => addr.word

/-- The value of a kind at a position. A boolean takes a byte, all else a word. -/
def readValue (memory : Memory) (pos : Nat) (kind : Kind) : Except Error Value :=
  let found := match kind with
    | .bool => (memory.arena.byte? pos).map UInt8.toUInt32
    | _ => memory.arena.word? pos
  match found with
  | some word => valueOfWord kind pos word
  | none => .error (.corruption (.outsideArena pos kind.width))

def writeValue (pos : Nat) (value : Value) : Op Unit :=
  match value with
  | .bool b => writeByte pos (if b then 1 else 0)
  | _ => writeWord pos (wordOfValue value)

/-!
## Slots of blocks
-/

/-- The position of bytes in the payload of a live block, all of which must lie in the block. -/
def payloadPos (memory : Memory) (addr : Addr) (offset width : Nat) : Except Error Nat := do
  let header ← memory.header addr
  if header.size < headerSize + offset + width then
    .error (.corruption (.overrunsBlock offset addr header.size))
  else
    .ok (addr.pos + headerSize + offset)

def getField (memory : Memory) (addr : Addr) (slot : FieldSlot) : Except Error Value := do
  let pos ← memory.payloadPos addr slot.offset slot.kind.width
  memory.readValue pos slot.kind

def putField (addr : Addr) (slot : FieldSlot) (value : Value) : Op Unit := do
  let pos ← query fun memory => memory.payloadPos addr slot.offset slot.kind.width
  writeValue pos value

def arrayLength (memory : Memory) (addr : Addr) : Except Error Nat := do
  let pos ← memory.payloadPos addr 0 lengthSize
  match memory.arena.word? pos with
  | some word => .ok word.toNat
  | none => .error (.corruption (.outsideArena pos lengthSize))

def elementPos (memory : Memory) (addr : Addr) (kind : Kind) (index : Int32) :
    Except Error Nat := do
  let length ← memory.arrayLength addr
  if index.toInt < 0 ∨ (length : Int) ≤ index.toInt then
    .error (.indexOutOfRange index length)
  else
    memory.payloadPos addr (lengthSize + index.toInt.toNat * kind.width) kind.width

def getElement (memory : Memory) (addr : Addr) (kind : Kind) (index : Int32) :
    Except Error Value := do
  let pos ← memory.elementPos addr kind index
  memory.readValue pos kind

def putElement (addr : Addr) (kind : Kind) (index : Int32) (value : Value) : Op Unit := do
  let pos ← query fun memory => memory.elementPos addr kind index
  writeValue pos value

end Memory
end ObjectMachine
