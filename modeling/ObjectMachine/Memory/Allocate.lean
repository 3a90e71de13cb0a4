import ObjectMachine.Memory.Access
import ObjectMachine.Program.Basic

/-!
# Allocation

A block is cut from the free list and filled with zeros, so that its fields and elements start
with the default values of their kinds; only references, whose default is not zero, are stored
one by one. A leftover that could not hold a header goes with the block.
-/

namespace ObjectMachine
namespace Memory

def stampBlock (block : Extent) (type : TypeRef) : Op Unit := do
  clearBytes block.addr block.size
  writeHeader block.addr block.size type.index

/-- A block with room for a payload, or nothing if no free extent is large enough. -/
def allocateBlock (payload : Nat) (type : TypeRef) : Op (Option Addr) := fun memory =>
  match memory.freeList.take? (payload + headerSize) headerSize with
  | none => .ok none memory
  | some (taken, freeList) =>
      let stamp : Op (Option Addr) := do
        if let some rest := taken.rest then
          writeHeader rest.addr rest.size freeTag
        stampBlock taken.block type
        modify fun memory => { memory with stats := { memory.stats with
          allocations := memory.stats.allocations + 1
          bytesAllocated := memory.stats.bytesAllocated + taken.block.size } }
        return some (Addr.ofPos taken.block.addr)
      stamp { memory with freeList }

def clearFields (payload : Nat) : List FieldSlot → Op Unit
  | [] => pure ()
  | slot :: rest => do
      if slot.kind = .ref then
        writeWord (payload + slot.offset) Addr.null.word
      clearFields payload rest

def clearElements (pos : Nat) : Nat → Op Unit
  | 0 => pure ()
  | count + 1 => do
      writeWord pos Addr.null.word
      clearElements (pos + Kind.ref.width) count

def newObject (type : TypeRef) (c : ClassDescriptor) : Op (Option Addr) := do
  match ← allocateBlock c.size type with
  | none => return none
  | some addr =>
      clearFields (addr.pos + headerSize) c.fields
      return some addr

def newArray (type : TypeRef) (a : ArrayDescriptor) (length : Nat) : Op (Option Addr) := do
  match ← allocateBlock (lengthSize + length * a.elementKind.width) type with
  | none => return none
  | some addr =>
      let payload := addr.pos + headerSize
      writeWord payload (UInt32.ofNat length)
      if a.elementKind = .ref then
        clearElements (payload + lengthSize) length
      return some addr

end Memory
end ObjectMachine
