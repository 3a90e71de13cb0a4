import ObjectMachine.Memory.Allocate
import ObjectMachine.Proofs.StoredValues
import ObjectMachine.Proofs.Tiling

/-!
# Objects in a memory

Above the bytes there is a store: every live block is an object, which has a type and a list of
values. This module says what it means that a tile holds an object, and that a memory represents a
store; and that reading a field, an element or a length gives what the store has.

The slots of a block lie one behind the other in its payload, so that what is said about the bytes
of one slot says nothing about another.
-/

namespace ObjectMachine

/-!
## Slots of types
-/

structure Slot where
  /-- The bytes in front of it. -/
  offset : Nat
  /-- The kind of the values it holds. -/
  kind : Kind

namespace TypeDescriptor

/-- The slots of a block of a type. An array has as many as its length. -/
def slots (length : Nat) : TypeDescriptor → List Slot
  | .primitive _ => []
  | .ofClass c => c.fields.map fun field => ⟨field.offset, field.kind⟩
  | .ofArray a =>
      (List.range length).map fun i => ⟨lengthSize + i * a.elementKind.width, a.elementKind⟩

def payload (length : Nat) : TypeDescriptor → Nat
  | .primitive _ => 0
  | .ofClass c => c.size
  | .ofArray a => lengthSize + length * a.elementKind.width

def lead : TypeDescriptor → Nat
  | .primitive _ => 0
  | .ofClass _ => 0
  | .ofArray _ => lengthSize

/-- Slots lie one behind the other, all of them in the payload. -/
structure Orderly (type : TypeDescriptor) : Prop where
  ordered : ∀ length, (type.slots length).Pairwise fun slot other =>
    slot.offset + slot.kind.width ≤ other.offset
  within : ∀ length, ∀ slot ∈ type.slots length,
    type.lead ≤ slot.offset ∧ slot.offset + slot.kind.width ≤ type.payload length

@[simp] theorem length_slots_ofArray (length : Nat) (a : ArrayDescriptor) :
    ((ofArray a).slots length).length = length := by
  simp [slots]

theorem slots_ofArray_getElem? {length i : Nat} (a : ArrayDescriptor) (inside : i < length) :
    ((ofArray a).slots length)[i]? =
      some ⟨lengthSize + i * a.elementKind.width, a.elementKind⟩ := by
  simp [slots, inside]

theorem orderly_ofArray (a : ArrayDescriptor) : (ofArray a).Orderly := by
  constructor
  · intro length
    rw [slots, List.pairwise_map]
    refine List.pairwise_lt_range.imp ?_
    intro i j less
    have step : (i + 1) * a.elementKind.width ≤ j * a.elementKind.width :=
      Nat.mul_le_mul_right _ less
    rw [Nat.add_mul, Nat.one_mul] at step
    show lengthSize + i * a.elementKind.width + a.elementKind.width ≤
      lengthSize + j * a.elementKind.width
    omega
  · intro length slot mem
    rw [slots, List.mem_map] at mem
    rcases mem with ⟨i, mem, rfl⟩
    have step : (i + 1) * a.elementKind.width ≤ length * a.elementKind.width :=
      Nat.mul_le_mul_right _ (List.mem_range.mp mem)
    rw [Nat.add_mul, Nat.one_mul] at step
    show lengthSize ≤ lengthSize + i * a.elementKind.width ∧
      lengthSize + i * a.elementKind.width + a.elementKind.width ≤
        lengthSize + length * a.elementKind.width
    omega

theorem Orderly.disjoint {type : TypeDescriptor} (orderly : type.Orderly) {length i j : Nat}
    {slot other : Slot} (at_i : (type.slots length)[i]? = some slot)
    (at_j : (type.slots length)[j]? = some other) (different : i ≠ j) :
    slot.offset + slot.kind.width ≤ other.offset ∨
      other.offset + other.kind.width ≤ slot.offset := by
  have ordered := List.pairwise_iff_getElem.mp (orderly.ordered length)
  rcases List.getElem?_eq_some_iff.mp at_i with ⟨hi, rfl⟩
  rcases List.getElem?_eq_some_iff.mp at_j with ⟨hj, rfl⟩
  rcases Nat.lt_or_gt_of_ne different with less | greater
  · exact Or.inl (ordered i j hi hj less)
  · exact Or.inr (ordered j i hj hi greater)

end TypeDescriptor

def Program.Orderly (program : Program) : Prop :=
  ∀ ref type, program.type? ref = some type → type.Orderly

theorem Program.class?_eq_some_iff {program : Program} {ref : TypeRef} {c : ClassDescriptor} :
    program.class? ref = some c ↔ program.type? ref = some (.ofClass c) := by
  unfold Program.class?
  cases found : program.type? ref with
  | none => simp
  | some type => cases type <;> simp

theorem Program.array?_eq_some_iff {program : Program} {ref : TypeRef} {a : ArrayDescriptor} :
    program.array? ref = some a ↔ program.type? ref = some (.ofArray a) := by
  unfold Program.array?
  cases found : program.type? ref with
  | none => simp
  | some type => cases type <;> simp

/-!
## Objects
-/

structure Object where
  /-- The type. -/
  type : TypeRef
  /-- The values. -/
  values : List Value

abbrev Store := Addr → Option Object

/-- A tile holds the values of an object of a type. -/
structure Tile.Holds (memory : Memory) (tile : Tile) (type : TypeDescriptor)
    (values : List Value) : Prop where
  /-- Blocks are instances or arrays. -/
  block : ∀ p, type ≠ .primitive p
  /-- There is a value for every slot. -/
  count : (type.slots values.length).length = values.length
  /-- The payload lies in the tile. -/
  fits : headerSize + type.payload values.length ≤ tile.header.size
  /-- An array stores its length. -/
  length : ∀ a, type = .ofArray a →
    memory.arena.word? (tile.pos + headerSize) = some (UInt32.ofNat values.length)
  /-- The values are stored in the slots. -/
  reads : ∀ (i : Nat) (slot : Slot) (value : Value), (type.slots values.length)[i]? = some slot →
    values[i]? = some value →
    memory.readValue (tile.pos + headerSize + slot.offset) slot.kind = .ok value

namespace Memory

/-- A memory with the given tiles represents a store. -/
structure Represents (program : Program) (memory : Memory) (tiles : List Tile) (store : Store) :
    Prop extends Tiled memory tiles where
  /-- The free tiles are what the free list has. -/
  free : memory.freeList.toList.Perm ((tiles.filter Tile.isFree).map Tile.extent)
  /-- Every live tile holds an object of the store. -/
  held : ∀ tile ∈ tiles, tile.isFree = false → ∃ object type,
    store tile.addr = some object ∧ tile.header.type = object.type ∧
      program.type? object.type = some type ∧ tile.Holds memory type object.values
  /-- Every object of the store is held by a live tile. -/
  backed : ∀ addr object, store addr = some object →
    ∃ tile ∈ tiles, tile.isFree = false ∧ tile.addr = addr

end Memory

theorem Tile.Holds.congr {memory other : Memory} {tile tile' : Tile} {type : TypeDescriptor}
    {values : List Value} (orderly : type.Orderly) (holds : tile.Holds memory type values)
    (pos : tile'.pos = tile.pos) (size : tile.header.size ≤ tile'.header.size)
    (agree : other.arena.AgreeOn memory.arena (tile.pos + headerSize) tile.limit) :
    tile'.Holds other type values := by
  have fits := holds.fits
  refine ⟨holds.block, holds.count, Nat.le_trans fits size, ?_, ?_⟩
  · intro a array
    rw [pos, ← holds.length a array]
    apply Arena.word?_congr
    apply agree.mono (Nat.le_refl _)
    subst array
    have four : lengthSize = 4 := rfl
    simp only [TypeDescriptor.payload] at fits
    simp only [Tile.limit]
    omega
  · intro i slot value at_i found
    rw [pos, ← holds.reads i slot value at_i found]
    apply Memory.readValue_congr
    have within := orderly.within values.length slot (List.mem_of_getElem? at_i)
    apply agree.mono (by omega)
    simp only [Tile.limit]
    omega

/-!
## Reading a represented memory
-/

namespace Memory
namespace Represents

variable {program : Program} {memory : Memory} {tiles : List Tile} {store : Store}
  {addr : Addr} {object : Object}

theorem tile_of_object (rep : Represents program memory tiles store)
    (found : store addr = some object) :
    ∃ tile type, tile ∈ tiles ∧ tile.isFree = false ∧ tile.addr = addr ∧
      tile.header.type = object.type ∧ program.type? object.type = some type ∧
      tile.Holds memory type object.values := by
  rcases rep.backed addr object found with ⟨tile, mem, live, same⟩
  rcases rep.held tile mem live with ⟨object', type, found', typed, known, holds⟩
  rw [same, found] at found'
  cases found'
  exact ⟨tile, type, mem, live, same, typed, known, holds⟩

theorem header_eq (rep : Represents program memory tiles store)
    (found : store addr = some object) :
    ∃ header, memory.header addr = .ok header ∧ header.type = object.type := by
  rcases rep.tile_of_object found with ⟨tile, _, mem, live, rfl, typed, _, _⟩
  exact ⟨tile.header, rep.header_eq_ok mem live, typed⟩

theorem typeOf_eq (rep : Represents program memory tiles store)
    (found : store addr = some object) : memory.typeOf addr = .ok object.type := by
  rcases rep.header_eq found with ⟨header, read, typed⟩
  simp only [typeOf, read, bind, Except.bind, typed]

/-- An address is listed by the walk exactly if the store has an object there. -/
theorem listed_iff (rep : Represents program memory tiles store) (addr : Addr) :
    (∃ header, (addr, header) ∈ listing tiles) ↔ (store addr).isSome := by
  constructor
  · intro given
    rcases given with ⟨header, listed⟩
    rcases (Tiled.mem_listing_iff tiles addr header).mp listed with ⟨tile, mem, live, rfl, rfl⟩
    rcases rep.held tile mem live with ⟨object, _, found, _⟩
    rw [found]
    rfl
  · intro known
    rcases Option.isSome_iff_exists.mp known with ⟨object, found⟩
    rcases rep.backed addr object found with ⟨tile, mem, live, same⟩
    exact ⟨tile.header, (Tiled.mem_listing_iff tiles addr _).mpr ⟨tile, mem, live, same, rfl⟩⟩

theorem ne_null (rep : Represents program memory tiles store) (found : store addr = some object) :
    addr ≠ .null := by
  rcases rep.backed addr object found with ⟨tile, mem, _, rfl⟩
  exact rep.addr_ne_null mem

theorem payloadPos_eq (rep : Represents program memory tiles store) {tile : Tile}
    (mem : tile ∈ tiles) (live : tile.isFree = false) {offset width : Nat}
    (inside : headerSize + offset + width ≤ tile.header.size) :
    memory.payloadPos tile.addr offset width = .ok (tile.pos + headerSize + offset) := by
  simp only [payloadPos, rep.header_eq_ok mem live, bind, Except.bind]
  rw [if_neg (by omega), rep.pos_addr mem]

theorem slot_read (rep : Represents program memory tiles store) (orderly : program.Orderly)
    (found : store addr = some object) {type : TypeDescriptor}
    (known : program.type? object.type = some type) {i : Nat} {slot : Slot}
    (at_i : (type.slots object.values.length)[i]? = some slot) :
    ∃ pos value, memory.payloadPos addr slot.offset slot.kind.width = .ok pos ∧
      object.values[i]? = some value ∧ memory.readValue pos slot.kind = .ok value := by
  rcases rep.tile_of_object found with ⟨tile, type', mem, live, rfl, _, known', holds⟩
  rw [known] at known'
  cases known'
  have within := (orderly _ _ known).within _ slot (List.mem_of_getElem? at_i)
  have fits := holds.fits
  have inside : i < object.values.length := by
    rw [← holds.count]
    exact (List.getElem?_eq_some_iff.mp at_i).1
  refine ⟨_, object.values[i], rep.payloadPos_eq mem live (by omega),
    List.getElem?_eq_getElem inside, ?_⟩
  exact holds.reads i slot _ at_i (List.getElem?_eq_getElem inside)

theorem getField_eq (rep : Represents program memory tiles store) (orderly : program.Orderly)
    (found : store addr = some object) {c : ClassDescriptor}
    (known : program.class? object.type = some c) {i : Nat} {field : FieldSlot}
    (at_i : c.fields[i]? = some field) :
    ∃ value, object.values[i]? = some value ∧ memory.getField addr field = .ok value := by
  have at_i' : ((TypeDescriptor.ofClass c).slots object.values.length)[i]? =
      some ⟨field.offset, field.kind⟩ := by
    simp [TypeDescriptor.slots, at_i]
  rcases rep.slot_read orderly found (Program.class?_eq_some_iff.mp known) at_i' with
    ⟨pos, value, located, stored, read⟩
  refine ⟨value, stored, ?_⟩
  simp only [getField, located, bind, Except.bind]
  exact read

theorem arrayLength_eq (rep : Represents program memory tiles store)
    (found : store addr = some object) {a : ArrayDescriptor}
    (known : program.array? object.type = some a) :
    memory.arrayLength addr = .ok object.values.length := by
  rcases rep.tile_of_object found with ⟨tile, type, mem, live, rfl, _, known', holds⟩
  rw [Program.array?_eq_some_iff.mp known] at known'
  cases known'
  have four : lengthSize = 4 := rfl
  have eight : headerSize = 8 := rfl
  have small := rep.small
  have bounds := rep.spans.bounds mem
  have fits := holds.fits
  simp only [TypeDescriptor.payload, Tile.limit] at fits bounds
  have located : memory.payloadPos tile.addr 0 lengthSize = .ok (tile.pos + headerSize + 0) :=
    rep.payloadPos_eq mem live (by omega)
  have few : object.values.length < 2 ^ 32 := by
    have width : 1 ≤ a.elementKind.width := by cases a.elementKind <;> decide
    have := Nat.mul_le_mul_left object.values.length width
    omega
  simp only [arrayLength, located, bind, Except.bind, Nat.add_zero, holds.length a rfl,
    UInt32.toNat_ofNat']
  rw [Nat.mod_eq_of_lt few]

theorem elementPos_eq (rep : Represents program memory tiles store)
    (found : store addr = some object) {a : ArrayDescriptor}
    (known : program.array? object.type = some a) (index : Int32) :
    memory.elementPos addr a.elementKind index =
      if index.toInt < 0 ∨ (object.values.length : Int) ≤ index.toInt then
        .error (.indexOutOfRange index object.values.length)
      else
        memory.payloadPos addr (lengthSize + index.toInt.toNat * a.elementKind.width)
          a.elementKind.width := by
  simp only [elementPos, rep.arrayLength_eq found known, bind, Except.bind]

theorem getElement_eq (rep : Represents program memory tiles store) (orderly : program.Orderly)
    (found : store addr = some object) {a : ArrayDescriptor}
    (known : program.array? object.type = some a) {index : Int32} (lower : 0 ≤ index.toInt)
    (upper : index.toInt < object.values.length) :
    ∃ value, object.values[index.toInt.toNat]? = some value ∧
      memory.getElement addr a.elementKind index = .ok value := by
  have at_i : ((TypeDescriptor.ofArray a).slots object.values.length)[index.toInt.toNat]? =
      some ⟨lengthSize + index.toInt.toNat * a.elementKind.width, a.elementKind⟩ :=
    TypeDescriptor.slots_ofArray_getElem? a (by omega)
  rcases rep.slot_read orderly found (Program.array?_eq_some_iff.mp known) at_i with
    ⟨pos, value, located, stored, read⟩
  refine ⟨value, stored, ?_⟩
  have inside : ¬ (index.toInt < 0 ∨ (object.values.length : Int) ≤ index.toInt) := by omega
  simp only [getElement, rep.elementPos_eq found known, if_neg inside, located, bind, Except.bind]
  exact read

theorem getElement_out_of_range (rep : Represents program memory tiles store)
    (found : store addr = some object) {a : ArrayDescriptor}
    (known : program.array? object.type = some a) {index : Int32}
    (outside : index.toInt < 0 ∨ (object.values.length : Int) ≤ index.toInt) :
    memory.getElement addr a.elementKind index =
      .error (.indexOutOfRange index object.values.length) := by
  simp only [getElement, rep.elementPos_eq found known, if_pos outside, bind, Except.bind]

end Represents
end Memory
end ObjectMachine
