import ObjectMachine.Proofs.Heaps
import ObjectMachine.Proofs.Layouts

/-!
# Regular memories

A memory is regular for a program if it comes from a fresh one by allocation with the types of the
program, by writing suitable values to the slots of live blocks, and by collections from live roots.
A regular memory is a heap at every moment. From that follow what its bytes look like and what a
collection does to it.
-/

namespace ObjectMachine
namespace Memory

def Op.after {α : Type} (op : Op α) (memory : Memory) : Memory :=
  match op memory with
  | .ok _ memory => memory
  | .error _ memory => memory

theorem Op.after_of_ok {α : Type} {op : Op α} {memory after : Memory} {a : α}
    (ran : op memory = .ok a after) : op.after memory = after := by
  rw [Op.after, ran]

theorem Op.after_of_error {α : Type} {op : Op α} {memory after : Memory} {e : Error}
    (ran : op memory = .error e after) : op.after memory = after := by
  rw [Op.after, ran]

/-- The walk over a memory lists a block at an address, with its header. -/
def Lists (memory : Memory) (addr : Addr) (header : Header) : Prop :=
  ∃ listed, memory.blocks = .ok listed ∧ (addr, header) ∈ listed

def Admits (memory : Memory) (addr : Addr) : Prop :=
  addr = .null ∨ ∃ header, memory.Lists addr header

/-- A value is no reference, or one that is null or leads to a live block. -/
def AdmitsValue (memory : Memory) (value : Value) : Prop :=
  ∀ addr, value = .ref addr → memory.Admits addr

/-- The memories of a program, each with the number of bytes that its collections have freed. -/
inductive Regular (program : Program) (size : Nat) : Memory → Nat → Prop where
  | new {memory : Memory} : Memory.new size = .ok memory → Regular program size memory 0
  | object {memory : Memory} {freed : Nat} {ref : TypeRef} {c : ClassDescriptor} :
      Regular program size memory freed → program.class? ref = some c →
      Regular program size ((newObject ref c).after memory) freed
  | array {memory : Memory} {freed : Nat} {ref : TypeRef} {a : ArrayDescriptor} (length : Nat) :
      Regular program size memory freed → program.array? ref = some a →
      Regular program size ((newArray ref a length).after memory) freed
  | field {memory : Memory} {freed : Nat} {addr : Addr} {header : Header} {c : ClassDescriptor}
      {slot : FieldSlot} {value : Value} :
      Regular program size memory freed → memory.Lists addr header →
      program.class? header.type = some c → slot ∈ c.fields → value.kind = slot.kind →
      memory.AdmitsValue value →
      Regular program size ((putField addr slot value).after memory) freed
  | element {memory : Memory} {freed : Nat} {addr : Addr} {header : Header} {a : ArrayDescriptor}
      {value : Value} (index : Int32) :
      Regular program size memory freed → memory.Lists addr header →
      program.array? header.type = some a → value.kind = a.elementKind →
      memory.AdmitsValue value →
      Regular program size ((putElement addr a.elementKind index value).after memory) freed
  | collect {memory after : Memory} {freed : Nat} {roots : List Addr} {report : Report} :
      Regular program size memory freed → (∀ root ∈ roots, memory.Admits root) →
      collect program roots memory = .ok report after →
      Regular program size after (freed + report.freedBytes)

/-!
## Regular memories are heaps
-/

namespace Represents

variable {program : Program} {memory : Memory} {tiles : List Tile} {store : Store}
  {addr : Addr} {header : Header}

theorem lists_iff (rep : Represents program memory tiles store) :
    memory.Lists addr header ↔ (addr, header) ∈ listing tiles := by
  constructor
  · intro found
    rcases found with ⟨listed, walked, mem⟩
    rw [rep.blocks_eq] at walked
    cases walked
    exact mem
  · intro mem
    exact ⟨_, rep.blocks_eq, mem⟩

theorem object_of_lists (rep : Represents program memory tiles store)
    (lists : memory.Lists addr header) :
    ∃ object, store addr = some object ∧ object.type = header.type := by
  rcases (Tiled.mem_listing_iff tiles addr header).mp (rep.lists_iff.mp lists) with
    ⟨tile, mem, live, rfl, rfl⟩
  rcases rep.held tile mem live with ⟨object, _, found, typed, _, _⟩
  exact ⟨object, found, typed.symm⟩

theorem isSome_iff (rep : Represents program memory tiles store) :
    (store addr).isSome ↔ ∃ header, memory.Lists addr header := by
  rw [← rep.listed_iff addr]
  exact exists_congr fun header => rep.lists_iff.symm

theorem storable (rep : Represents program memory tiles store) {value : Value}
    (admits : memory.AdmitsValue value) : Storable store value := by
  intro addr same proper
  rcases admits addr same with null | lists
  · exact absurd null proper
  · exact rep.isSome_iff.mpr lists

theorem roots (rep : Represents program memory tiles store) {roots : List Addr}
    (admits : ∀ root ∈ roots, memory.Admits root) : store.Roots roots := by
  intro root mem proper
  rcases admits root mem with null | lists
  · exact absurd null proper
  · exact rep.isSome_iff.mpr lists

end Represents

/-- A regular memory is a heap, and what was allocated and not freed is live. -/
theorem Regular.heap {program : Program} {size : Nat} {memory : Memory} {freed : Nat}
    (regular : Regular program size memory freed) (orderly : program.Orderly)
    (tagged : program.Tagged) :
    ∃ tiles store, Heap program memory tiles store ∧ memory.capacity = size ∧
      memory.stats.bytesAllocated = freed + liveBytes tiles := by
  induction regular with
  | new made =>
      rcases new_cases made with ⟨capacity, _, _, _, _, none⟩
      exact ⟨_, _, Heap.new made, capacity, none⟩
  | @object memory freed ref c _ known ih =>
      rcases ih with ⟨tiles, store, heap, capacity, bytes⟩
      have tag := tagged.index_lt (Program.class?_eq_some_iff.mp known)
      rcases heap.newObject_cases orderly known tag with
        ⟨ran, _⟩ | ⟨addr, after, tiles', ran, created⟩
      · rw [Op.after_of_ok ran]
        exact ⟨tiles, store, heap, capacity, bytes⟩
      · rw [Op.after_of_ok ran]
        have counted := created.bytes
        exact ⟨tiles', _, heap.created created, created.capacity.trans capacity, by omega⟩
  | @array memory freed ref a length _ known ih =>
      rcases ih with ⟨tiles, store, heap, capacity, bytes⟩
      have tag := tagged.index_lt (Program.array?_eq_some_iff.mp known)
      rcases heap.newArray_cases orderly known tag length with
        ⟨ran, _⟩ | ⟨addr, after, tiles', ran, created⟩
      · rw [Op.after_of_ok ran]
        exact ⟨tiles, store, heap, capacity, bytes⟩
      · rw [Op.after_of_ok ran]
        have counted := created.bytes
        exact ⟨tiles', _, heap.created created, created.capacity.trans capacity, by omega⟩
  | @field memory freed addr header c slot value _ lists known mem kind admits ih =>
      rcases ih with ⟨tiles, store, heap, capacity, bytes⟩
      rcases heap.object_of_lists lists with ⟨object, found, typed⟩
      rw [← typed] at known
      rcases List.getElem?_of_mem mem with ⟨i, at_i⟩
      rcases heap.putField_eq orderly found known at_i kind with ⟨after, ran, _, stats, rep⟩
      rw [Op.after_of_ok ran]
      refine ⟨tiles, _, heap.put found (heap.storable admits) rep, ?_, by rw [stats]; exact bytes⟩
      exact (heap.capacity_eq rep.toTiled).trans capacity
  | @element memory freed addr header a value index _ lists known kind admits ih =>
      rcases ih with ⟨tiles, store, heap, capacity, bytes⟩
      rcases heap.object_of_lists lists with ⟨object, found, typed⟩
      rw [← typed] at known
      by_cases outside : index.toInt < 0 ∨ (object.values.length : Int) ≤ index.toInt
      · rw [Op.after_of_error (heap.putElement_out_of_range found known value outside)]
        exact ⟨tiles, store, heap, capacity, bytes⟩
      · have lower : 0 ≤ index.toInt := by omega
        have upper : index.toInt < object.values.length := by omega
        rcases heap.putElement_eq orderly found known lower upper kind with
          ⟨after, ran, _, stats, rep⟩
        rw [Op.after_of_ok ran]
        refine ⟨tiles, _, heap.put found (heap.storable admits) rep, ?_,
          by rw [stats]; exact bytes⟩
        exact (heap.capacity_eq rep.toTiled).trans capacity
  | @collect memory after freed roots report _ admits ran ih =>
      rcases ih with ⟨tiles, store, heap, capacity, bytes⟩
      rcases heap.collect_eq heap.unmarked orderly heap.closed (heap.roots admits) with
        ⟨report', after', tiles', ran', collected⟩
      rw [ran] at ran'
      cases ran'
      refine ⟨tiles', _, heap.collected collected, collected.capacity.trans capacity, ?_⟩
      have total := collected.bytes
      have live := collected.live
      rw [collected.stats]
      simp only
      omega

/-!
## What is reached through fields and elements
-/

/-- What is reached from a list of roots by reading fields and elements. -/
inductive Reaches (program : Program) (memory : Memory) (roots : List Addr) : Addr → Prop where
  | root {addr : Addr} : addr ∈ roots → addr ≠ .null → Reaches program memory roots addr
  | field {addr child : Addr} {header : Header} {c : ClassDescriptor} {slot : FieldSlot} :
      Reaches program memory roots addr → memory.Lists addr header →
      program.class? header.type = some c → slot ∈ c.fields →
      memory.getField addr slot = .ok (.ref child) → child ≠ .null →
      Reaches program memory roots child
  | element {addr child : Addr} {header : Header} {a : ArrayDescriptor} {index : Int32} :
      Reaches program memory roots addr → memory.Lists addr header →
      program.array? header.type = some a →
      memory.getElement addr a.elementKind index = .ok (.ref child) → child ≠ .null →
      Reaches program memory roots child

namespace Represents

variable {program : Program} {memory : Memory} {tiles : List Tile} {store : Store}
  {roots : List Addr} {addr child : Addr} {object : Object}

theorem lists_of_object (rep : Represents program memory tiles store)
    (found : store addr = some object) :
    ∃ header, memory.Lists addr header ∧ header.type = object.type := by
  rcases rep.tile_of_object found with ⟨tile, _, mem, live, rfl, typed, _, _⟩
  refine ⟨tile.header, rep.lists_iff.mpr ?_, typed⟩
  exact (Tiled.mem_listing_iff tiles _ _).mpr ⟨tile, mem, live, rfl, rfl⟩

/-- An element of an array that holds references has an index that is an integer of the machine:
four bytes for each element leave room for no others. -/
theorem small_index (rep : Represents program memory tiles store)
    (found : store addr = some object) {a : ArrayDescriptor}
    (known : program.array? object.type = some a) {i : Nat}
    (at_i : object.values[i]? = some (.ref child)) :
    (Int32.ofNat i).toInt = i ∧ i < object.values.length := by
  rcases rep.tile_of_object found with ⟨tile, type, mem, _, rfl, _, known', holds⟩
  rw [Program.array?_eq_some_iff.mp known] at known'
  cases known'
  have inside := (List.getElem?_eq_some_iff.mp at_i).1
  have read := holds.reads i _ _ (TypeDescriptor.slots_ofArray_getElem? a inside) at_i
  have kind : Kind.ref = a.elementKind := kind_of_readValue read
  have fits := holds.fits
  have bounds := rep.spans.bounds mem
  have small := rep.small
  simp only [TypeDescriptor.payload, ← kind, Kind.width, Tile.limit] at fits bounds
  have eight : headerSize = 8 := rfl
  have four : lengthSize = 4 := rfl
  refine ⟨?_, inside⟩
  exact Int32.toInt_ofNat_of_lt (by omega)

theorem reads_reference (rep : Represents program memory tiles store) (orderly : program.Orderly)
    (found : store addr = some object) (refers : child ∈ object.references) :
    (∃ c slot, program.class? object.type = some c ∧ slot ∈ c.fields ∧
      memory.getField addr slot = .ok (.ref child)) ∨
    ∃ a index, program.array? object.type = some a ∧
      memory.getElement addr a.elementKind index = .ok (.ref child) := by
  rcases Object.mem_references_iff.mp refers with ⟨mem, _⟩
  rcases List.getElem?_of_mem mem with ⟨i, at_i⟩
  rcases rep.tile_of_object found with ⟨_, type, _, _, _, _, known, holds⟩
  have count := holds.count
  cases type with
  | primitive p => exact absurd rfl (holds.block p)
  | ofClass c =>
      left
      have known' := Program.class?_eq_some_iff.mpr known
      have inside : i < c.fields.length := by
        have := (List.getElem?_eq_some_iff.mp at_i).1
        simp only [TypeDescriptor.slots, List.length_map] at count
        omega
      have at_field := List.getElem?_eq_getElem inside
      rcases rep.getField_eq orderly found known' at_field with ⟨value, at_i', read⟩
      rw [at_i] at at_i'
      cases at_i'
      exact ⟨c, _, known', List.getElem_mem inside, read⟩
  | ofArray a =>
      right
      have known' := Program.array?_eq_some_iff.mpr known
      rcases rep.small_index found known' at_i with ⟨index, inside⟩
      rcases @getElement_eq _ _ _ _ _ _ rep orderly found a known' (Int32.ofNat i)
        (by omega) (by omega) with ⟨value, at_i', read⟩
      rw [index, Int.toNat_natCast, at_i] at at_i'
      cases at_i'
      exact ⟨a, _, known', read⟩

theorem reaches_iff (rep : Represents program memory tiles store) (orderly : program.Orderly) :
    Reaches program memory roots addr ↔ store.Reaches roots addr := by
  constructor
  · intro reached
    induction reached with
    | root mem proper => exact .root mem proper
    | field _ lists known mem read proper ih =>
        rcases rep.object_of_lists lists with ⟨object, found, typed⟩
        rw [← typed] at known
        rcases List.getElem?_of_mem mem with ⟨i, at_i⟩
        rcases rep.getField_eq orderly found known at_i with ⟨value, stored, read'⟩
        rw [read] at read'
        cases read'
        exact .step ih found
          (Object.mem_references_iff.mpr ⟨List.mem_of_getElem? stored, proper⟩)
    | @element _ _ _ _ index _ lists known read proper ih =>
        rcases rep.object_of_lists lists with ⟨object, found, typed⟩
        rw [← typed] at known
        by_cases outside : index.toInt < 0 ∨ (object.values.length : Int) ≤ index.toInt
        · rw [rep.getElement_out_of_range found known outside] at read
          cases read
        · rcases @getElement_eq _ _ _ _ _ _ rep orderly found _ known index (by omega)
            (by omega) with ⟨value, stored, read'⟩
          rw [read] at read'
          cases read'
          exact .step ih found
            (Object.mem_references_iff.mpr ⟨List.mem_of_getElem? stored, proper⟩)
  · intro reached
    induction reached with
    | root mem proper => exact .root mem proper
    | step _ found refers ih =>
        have proper := (Object.mem_references_iff.mp refers).2
        rcases rep.lists_of_object found with ⟨header, lists, typed⟩
        rcases rep.reads_reference orderly found refers with
          ⟨c, slot, known, mem, read⟩ | ⟨a, index, known, read⟩
        · rw [← typed] at known
          exact .field ih lists known mem read proper
        · rw [← typed] at known
          exact .element ih lists known read proper

end Represents

/-!
## A memory with three nodes

The first of them leads to the second, and nothing leads to the third.
-/

end Memory

/-- An image with a class of nodes, each of which leads to a next one. It makes a node and says
so. -/
def nodeImage : Image where
  types := [.ofClass ⟨"Node", none, [0], []⟩]
  methods := [⟨"Main", none, [], [0],
    [⟨.newobj, .type 0⟩, ⟨.stloc, .slot 0⟩, ⟨.ldstr, .str "made"⟩, ⟨.call, .method (-4)⟩,
      ⟨.ret, .none⟩]⟩]
  main := 0

def nodeClass : ClassDescriptor where
  name := "Node"
  base := none
  ownFields := [⟨4⟩]
  methods := []
  fields := [⟨⟨4⟩, .ref, 0⟩]
  size := 4
  vtable := []

def nodeProgram : Program where
  types := #[.primitive .bool, .primitive .char, .primitive .int, .primitive .string,
    .ofClass nodeClass]
  methods := #[Builtin.descriptor .halt, Builtin.descriptor .writeChar,
    Builtin.descriptor .writeInt, Builtin.descriptor .writeString, Builtin.descriptor .readChar,
    Builtin.descriptor .readInt, Builtin.descriptor .readString,
    ⟨"Main", none, none, none, [], [⟨4⟩],
      #[⟨.newobj, .type ⟨4⟩⟩, ⟨.stloc, .slot 0⟩, ⟨.ldstr, .str ⟨1⟩⟩, ⟨.call, .method ⟨3⟩⟩,
        ⟨.ret, .none⟩]⟩]
  entry := ⟨7⟩
  strings := StringTable.empty.add "made"

theorem link_nodeImage : nodeImage.link = .ok nodeProgram :=
  Except.eq_ok_of_toOption (by decide +kernel)

namespace Memory

def threeNodes : Memory :=
  (newObject ⟨4⟩ nodeClass).after ((newObject ⟨4⟩ nodeClass).after ((newObject ⟨4⟩ nodeClass).after
    ((Memory.new 48).toOption.getD default)))

def linkedNodes : Memory :=
  (putField ⟨0⟩ ⟨⟨4⟩, .ref, 0⟩ (.ref ⟨12⟩)).after threeNodes

theorem blocks_threeNodes : threeNodes.blocks =
    .ok [(⟨0⟩, ⟨12, 4, false⟩), (⟨12⟩, ⟨12, 4, false⟩), (⟨24⟩, ⟨12, 4, false⟩)] :=
  Except.eq_ok_of_toOption (by decide +kernel)

theorem blocks_linkedNodes : linkedNodes.blocks =
    .ok [(⟨0⟩, ⟨12, 4, false⟩), (⟨12⟩, ⟨12, 4, false⟩), (⟨24⟩, ⟨12, 4, false⟩)] :=
  Except.eq_ok_of_toOption (by decide +kernel)

theorem regular_linkedNodes : Regular nodeProgram 48 linkedNodes 0 := by
  have known : nodeProgram.class? ⟨4⟩ = some nodeClass := by decide +kernel
  have fresh : Regular nodeProgram 48 ((Memory.new 48).toOption.getD default) 0 :=
    .new (Except.eq_ok_of_toOption (by decide +kernel))
  have three : Regular nodeProgram 48 threeNodes 0 :=
    ((fresh.object known).object known).object known
  have first : threeNodes.Lists ⟨0⟩ ⟨12, 4, false⟩ := ⟨_, blocks_threeNodes, by decide⟩
  have second : threeNodes.Lists ⟨12⟩ ⟨12, 4, false⟩ := ⟨_, blocks_threeNodes, by decide⟩
  refine three.field first known List.mem_cons_self rfl ?_
  intro addr same
  cases same
  exact Or.inr ⟨_, second⟩

/-!
## The bytes of regular memories
-/

/-- A live block has room for the payload of its type: the fields of its class, or as many elements
as its stored length says. -/
theorem Represents.block_fits {program : Program} {memory : Memory} {tiles : List Tile}
    {store : Store} {addr : Addr} {header : Header}
    (rep : Represents program memory tiles store) (listed : (addr, header) ∈ listing tiles) :
    (∃ c, program.class? header.type = some c ∧ headerSize + c.size ≤ header.size) ∨
    ∃ a length, program.array? header.type = some a ∧ memory.arrayLength addr = .ok length ∧
      headerSize + (lengthSize + length * a.elementKind.width) ≤ header.size := by
  rcases (Tiled.mem_listing_iff tiles addr header).mp listed with ⟨tile, mem, live, rfl, rfl⟩
  rcases rep.held tile mem live with ⟨object, type, found, typed, known, holds⟩
  have fits := holds.fits
  rw [typed]
  cases type with
  | primitive p => exact absurd rfl (holds.block p)
  | ofClass c => exact Or.inl ⟨c, Program.class?_eq_some_iff.mpr known, fits⟩
  | ofArray a =>
      have known' := Program.array?_eq_some_iff.mpr known
      exact Or.inr ⟨a, object.values.length, known', rep.arrayLength_eq found known', fits⟩

theorem sum_sizes_listing (tiles : List Tile) :
    ((listing tiles).map fun block => block.2.size).sum = liveBytes tiles := by
  simp [listing, liveBytes, Function.comp_def]

theorem Represents.freeBytes_add {program : Program} {memory : Memory} {tiles : List Tile}
    {store : Store} (rep : Represents program memory tiles store) :
    memory.freeBytes + liveBytes tiles = memory.capacity := by
  have free : memory.freeBytes = sizes (tiles.filter Tile.isFree) := by
    have perm := (rep.free.map Extent.size).sum_nat
    rw [List.map_map, ← FreeList.freeBytes_eq_sum] at perm
    exact perm
  have total := ((List.filter_append_perm Tile.isFree tiles).map fun tile =>
    tile.header.size).sum_nat
  rw [List.map_append, List.sum_append] at total
  have spanned := rep.spans.sum
  simp only [sizes] at free
  simp only [liveBytes]
  omega

/-- The tiles of a memory and its live blocks, with all that their headers promise. -/
structure TiledFor (program : Program) (memory : Memory) (size freed : Nat) (tiles : List Tile)
    (live : List (Addr × Header)) : Prop where
  /-- The tiles lie side by side from the start of the arena to its end. -/
  capacity : memory.capacity = size
  spans : Spans 0 tiles size
  /-- Their headers are those in the arena; none is too small, and none has a mark. -/
  stored : ∀ tile ∈ tiles, memory.arena.header? tile.pos = some tile.header
  sizes : ∀ tile ∈ tiles, 8 ≤ tile.header.size
  unmarked : ∀ tile ∈ tiles, tile.header.marked = false
  /-- The free tiles are the extents of the free list, each of them once. -/
  free : memory.freeList.toList.Perm (freeExtents tiles)
  nodup : memory.freeList.toList.Nodup
  /-- The walk lists the other tiles. -/
  listed : memory.blocks = .ok live
  others : live =
    (tiles.filter fun tile => !tile.isFree).map fun tile => (tile.addr, tile.header)
  /-- Each of them has a type of the program and room for its payload. -/
  fits : ∀ block ∈ live,
    (∃ c, program.class? block.2.type = some c ∧ headerSize + c.size ≤ block.2.size) ∨
    ∃ a length, program.array? block.2.type = some a ∧ memory.arrayLength block.1 = .ok length ∧
      headerSize + (lengthSize + length * a.elementKind.width) ≤ block.2.size
  /-- What is not free is live, and so is what was allocated and has not been freed. -/
  total : memory.freeBytes + (live.map fun block => block.2.size).sum = size
  balance : memory.stats.bytesAllocated = freed + (live.map fun block => block.2.size).sum

/-- The blocks of a regular memory tile it. -/
theorem regular_tiled {image : Image} {program : Program} {size freed : Nat} {memory : Memory}
    (linked : image.link = .ok program) (few : program.types.size < 2 ^ 31 - 1)
    (regular : Regular program size memory freed) :
    ∃ tiles live, TiledFor program memory size freed tiles live := by
  rcases regular.heap (Program.orderly_of_link linked) few with
    ⟨tiles, store, heap, capacity, bytes⟩
  refine ⟨tiles, listing tiles, capacity, capacity ▸ heap.spans, heap.stored, ?_, heap.unmarked,
    heap.free, ?_, heap.blocks_eq, rfl, ?_, ?_, ?_⟩
  · intro tile mem
    exact (heap.spans.bounds mem).2.2
  · exact heap.free.nodup_iff.mpr (nodup_freeExtents heap.spans)
  · intro entry listed
    rcases entry with ⟨addr, header⟩
    exact heap.block_fits listed
  · rw [sum_sizes_listing, ← capacity]
    exact heap.freeBytes_add
  · rw [sum_sizes_listing]
    exact bytes

/-- Three nodes with a free block behind them. -/
theorem regular_tiled_linkedNodes :
    nodeImage.link = .ok nodeProgram ∧ nodeProgram.types.size < 2 ^ 31 - 1 ∧
      Regular nodeProgram 48 linkedNodes 0 ∧
      ∃ tiles live, TiledFor nodeProgram linkedNodes 48 0 tiles live :=
  ⟨link_nodeImage, by decide, regular_linkedNodes,
    regular_tiled link_nodeImage (by decide) regular_linkedNodes⟩

/-!
## Collections of regular memories
-/

/-- A collection has kept the blocks that are reached from its roots, and no others. -/
structure KeepsReached (program : Program) (memory after : Memory) (roots : List Addr)
    (report : Report) (before survivors : List (Addr × Header)) : Prop where
  /-- The live blocks before and after the collection. -/
  listed : memory.blocks = .ok before
  left : after.blocks = .ok survivors
  /-- Blocks survive in their order, each with its address and its header, if they are reached. -/
  sublist : survivors.Sublist before
  survives : ∀ block,
    block ∈ survivors ↔ block ∈ before ∧ Reaches program memory roots block.1
  /-- Survivors have no mark, and every byte of their payloads. -/
  unmarked : ∀ block ∈ survivors, block.2.marked = false
  payload : ∀ block ∈ survivors,
    after.arena.AgreeOn memory.arena (block.1.pos + headerSize) (block.1.pos + block.2.size)
  /-- All other blocks are gone. -/
  gone : ∀ block ∈ before, ¬ Reaches program memory roots block.1 →
    after.isAllocated block.1 = false
  /-- The report counts survivors and freed blocks, and adds up their sizes. -/
  marked : report.marked = survivors.length
  live : report.liveBytes = (survivors.map fun block => block.2.size).sum
  blocks : report.freedBlocks + survivors.length = before.length
  bytes : report.freedBytes + (survivors.map fun block => block.2.size).sum =
    (before.map fun block => block.2.size).sum

/-- A collection of a regular memory from live roots succeeds and frees exactly the blocks that are
not reached. -/
theorem collect_keeps_reached {image : Image} {program : Program} {size freed : Nat}
    {memory : Memory} {roots : List Addr} (linked : image.link = .ok program)
    (few : program.types.size < 2 ^ 31 - 1) (regular : Regular program size memory freed)
    (admitted : ∀ root ∈ roots, memory.Admits root) :
    ∃ report after before survivors, collect program roots memory = .ok report after ∧
      KeepsReached program memory after roots report before survivors := by
  have orderly := Program.orderly_of_link linked
  rcases regular.heap orderly few with ⟨tiles, store, heap, _, _⟩
  rcases heap.collect_eq heap.unmarked orderly heap.closed (heap.roots admitted) with
    ⟨report, after, tiles', ran, collected⟩
  have rep := collected.represents
  refine ⟨report, after, listing tiles, listing tiles', ran, heap.blocks_eq, rep.blocks_eq,
    collected.sublist, ?_, ?_, ?_, ?_, collected.marked, ?_, ?_, ?_⟩
  · intro block
    rcases block with ⟨addr, header⟩
    rw [Tiled.mem_listing_iff, Tiled.mem_listing_iff, heap.reaches_iff orderly]
    constructor
    · intro found
      rcases found with ⟨tile, mem, live, rfl, rfl⟩
      rcases (collected.mem_iff live).mp mem with ⟨old, reached⟩
      exact ⟨⟨tile, old, live, rfl, rfl⟩, reached⟩
    · intro both
      rcases both with ⟨⟨tile, old, live, rfl, rfl⟩, reached⟩
      exact ⟨tile, (collected.mem_iff live).mpr ⟨old, reached⟩, live, rfl, rfl⟩
  · intro block listed
    rcases block with ⟨addr, header⟩
    rcases (Tiled.mem_listing_iff tiles' addr header).mp listed with ⟨tile, mem, live, rfl, rfl⟩
    exact collected.unmarked tile mem
  · intro block listed
    rcases block with ⟨addr, header⟩
    rcases (Tiled.mem_listing_iff tiles' addr header).mp listed with ⟨tile, mem, live, rfl, rfl⟩
    rw [rep.pos_addr mem]
    exact collected.payloads tile mem live
  · intro block listed unreached
    rcases block with ⟨addr, header⟩
    rcases (Tiled.mem_listing_iff tiles addr header).mp listed with ⟨tile, mem, live, rfl, rfl⟩
    rw [heap.reaches_iff orderly] at unreached
    exact collected.freed tile mem unreached
  · rw [sum_sizes_listing, collected.live]
  · rw [← collected.marked, collected.blocks]
  · rw [sum_sizes_listing, sum_sizes_listing, ← collected.live, collected.bytes]

/-- Collecting from the first of three nodes, which leads to the second. -/
theorem collect_keeps_reached_linkedNodes :
    nodeImage.link = .ok nodeProgram ∧ nodeProgram.types.size < 2 ^ 31 - 1 ∧
      Regular nodeProgram 48 linkedNodes 0 ∧
      (∀ root ∈ [Addr.mk 0, .null, ⟨0⟩], linkedNodes.Admits root) ∧
      ∃ report after before survivors,
        collect nodeProgram [⟨0⟩, .null, ⟨0⟩] linkedNodes = .ok report after ∧
          KeepsReached nodeProgram linkedNodes after [⟨0⟩, .null, ⟨0⟩] report before
            survivors := by
  have admitted : ∀ root ∈ [Addr.mk 0, .null, ⟨0⟩], linkedNodes.Admits root := by
    have first : linkedNodes.Admits ⟨0⟩ :=
      Or.inr ⟨⟨12, 4, false⟩, _, blocks_linkedNodes, by decide⟩
    simp only [List.mem_cons, List.not_mem_nil, or_false]
    intro root either
    rcases either with rfl | rfl | rfl
    · exact first
    · exact Or.inl rfl
    · exact first
  exact ⟨link_nodeImage, by decide, regular_linkedNodes, admitted,
    collect_keeps_reached link_nodeImage (by decide) regular_linkedNodes admitted⟩

end Memory
end ObjectMachine
