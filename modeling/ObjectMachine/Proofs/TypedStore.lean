import ObjectMachine.Proofs.RegularMemory

/-!
# The store that a memory implements

The bytes of a memory determine a store: every block of the walk is an object, with the type that
its header names and the values that are read, kind by kind, from its slots. If a memory represents
a store then this is the store.

So each operation on a regular memory can be described by what it does to the store of the memory,
and nothing that is said there depends on where blocks lie or what was in their bytes before.
-/

namespace ObjectMachine

theorem ClassDescriptor.defaults_eq (c : ClassDescriptor) :
    (TypeDescriptor.ofClass c).defaults 0 = c.fields.map fun field => field.kind.default := by
  simp [TypeDescriptor.defaults, TypeDescriptor.slots, Function.comp_def]

theorem ArrayDescriptor.defaults_eq (a : ArrayDescriptor) (length : Nat) :
    (TypeDescriptor.ofArray a).defaults length = List.replicate length a.elementKind.default := by
  simp [TypeDescriptor.defaults, TypeDescriptor.slots, Function.comp_def, List.map_const']

namespace Memory

/-!
## The store of a memory
-/

def storedLength (memory : Memory) (addr : Addr) : TypeDescriptor → Option Nat
  | .ofArray _ => (memory.arena.word? (addr.pos + headerSize)).map UInt32.toNat
  | _ => some 0

def storedValues (memory : Memory) (addr : Addr) (type : TypeDescriptor) :
    Option (List Value) := do
  let length ← memory.storedLength addr type
  (type.slots length).mapM fun slot =>
    (memory.readValue (addr.pos + headerSize + slot.offset) slot.kind).toOption

def objectAt (program : Program) (memory : Memory) (addr : Addr) : Option Object := do
  let listed ← memory.blocks.toOption
  let header ← listed.lookup addr
  let type ← program.type? header.type
  let values ← memory.storedValues addr type
  some ⟨header.type, values⟩

def objects (program : Program) (memory : Memory) : Store :=
  objectAt program memory

/-!
## Memories that represent a store
-/

theorem mapM_eq_some_of_getElem? {α β : Type} {f : α → Option β} :
    ∀ {as : List α} {bs : List β}, as.length = bs.length →
      (∀ (i : Nat) a b, as[i]? = some a → bs[i]? = some b → f a = some b) →
      as.mapM f = some bs
  | [], [], _, _ => rfl
  | a :: as, b :: bs, length, each => by
      have first : f a = some b := each 0 a b rfl rfl
      have rest : as.mapM f = some bs := by
        apply mapM_eq_some_of_getElem?
        · simpa using length
        · intro i a' b' at_i at_i'
          exact each (i + 1) a' b' at_i at_i'
      simp [List.mapM_cons, first, rest]

namespace Tiled

variable {memory : Memory} {tiles : List Tile} {addr : Addr}

theorem lookup_listing (tiled : Tiled memory tiles) {tile : Tile} (mem : tile ∈ tiles)
    (live : tile.isFree = false) : (listing tiles).lookup tile.addr = some tile.header := by
  have listed := (mem_listing_iff tiles _ _).mpr ⟨tile, mem, live, rfl, rfl⟩
  cases found : (listing tiles).lookup tile.addr with
  | none =>
      have absent := List.lookup_eq_none_iff.mp found _ listed
      simp at absent
  | some header =>
      rcases List.lookup_eq_some_iff.mp found with ⟨front, back, split, _⟩
      have listed' : (tile.addr, header) ∈ listing tiles := by simp [split]
      rcases (mem_listing_iff tiles _ _).mp listed' with ⟨other, mem', _, same, rfl⟩
      rw [tiled.eq_of_addr mem' mem same]

end Tiled

namespace Represents

variable {program : Program} {memory after : Memory} {tiles tiles' : List Tile} {store : Store}
  {addr : Addr} {object : Object}

theorem storedValues_eq (rep : Represents program memory tiles store) {tile : Tile}
    (mem : tile ∈ tiles) {type : TypeDescriptor} {values : List Value}
    (holds : tile.Holds memory type values) :
    memory.storedValues tile.addr type = some values := by
  have reads : (type.slots values.length).mapM (fun slot =>
      (memory.readValue (tile.pos + headerSize + slot.offset) slot.kind).toOption) =
        some values := by
    apply mapM_eq_some_of_getElem? holds.count
    intro i slot value at_i found
    rw [holds.reads i slot value at_i found]
    rfl
  cases type with
  | primitive p => exact absurd rfl (holds.block p)
  | ofClass c =>
      simp only [storedValues, storedLength, rep.pos_addr mem]
      exact reads
  | ofArray a =>
      have few : values.length < 2 ^ 32 := by
        have width : 1 ≤ a.elementKind.width := by cases a.elementKind <;> decide
        have fits := holds.fits
        have bounds := rep.spans.bounds mem
        have small := rep.small
        have wide := Nat.mul_le_mul_left values.length width
        simp only [TypeDescriptor.payload, Tile.limit] at fits bounds
        omega
      have length : memory.storedLength tile.addr (.ofArray a) = some values.length := by
        rw [storedLength, rep.pos_addr mem, holds.length a rfl, Option.map_some,
          UInt32.toNat_ofNat', Nat.mod_eq_of_lt few]
      simp only [storedValues, length, rep.pos_addr mem]
      exact reads

theorem objects_eq (rep : Represents program memory tiles store) :
    memory.objects program = store := by
  funext addr
  have walked : memory.blocks.toOption = some (listing tiles) := by
    rw [rep.blocks_eq]
    rfl
  cases found : store addr with
  | none =>
      have absent : (listing tiles).lookup addr = none := by
        rw [List.lookup_eq_none_iff]
        intro block listed
        have unlisted : ¬ ∃ header, (addr, header) ∈ listing tiles := by
          simp [rep.listed_iff, found]
        rw [bne_iff_ne]
        intro same
        exact unlisted ⟨block.2, same ▸ listed⟩
      simp [objects, objectAt, walked, absent]
  | some object =>
      rcases rep.tile_of_object found with ⟨tile, type, mem, live, rfl, typed, known, holds⟩
      simp [objects, objectAt, walked, rep.lookup_listing mem live, typed, known,
        rep.storedValues_eq mem holds]

theorem kinds (rep : Represents program memory tiles store) (found : store addr = some object) :
    (∃ c, program.class? object.type = some c ∧
      object.values.map Value.kind = c.fields.map FieldSlot.kind) ∨
    ∃ a, program.array? object.type = some a ∧
      ∀ value ∈ object.values, value.kind = a.elementKind := by
  rcases rep.tile_of_object found with ⟨tile, type, mem, _, rfl, _, known, holds⟩
  have kind : ∀ (i : Nat) slot value, (type.slots object.values.length)[i]? = some slot →
      object.values[i]? = some value → value.kind = slot.kind := by
    intro i slot value at_i at_i'
    exact kind_of_readValue (holds.reads i slot value at_i at_i')
  have count := holds.count
  cases type with
  | primitive p => exact absurd rfl (holds.block p)
  | ofClass c =>
      left
      refine ⟨c, Program.class?_eq_some_iff.mpr known, ?_⟩
      simp only [TypeDescriptor.slots, List.length_map] at count
      apply List.ext_getElem
      · simp [count]
      · intro i inside inside'
        rw [List.length_map] at inside inside'
        have at_i : ((TypeDescriptor.ofClass c).slots object.values.length)[i]? =
            some ⟨c.fields[i].offset, c.fields[i].kind⟩ := by
          simp [TypeDescriptor.slots, List.getElem?_eq_getElem inside']
        simpa using kind i _ _ at_i (List.getElem?_eq_getElem inside)
  | ofArray a =>
      right
      refine ⟨a, Program.array?_eq_some_iff.mpr known, ?_⟩
      intro value mem'
      rcases List.getElem?_of_mem mem' with ⟨i, at_i⟩
      have inside := (List.getElem?_eq_some_iff.mp at_i).1
      exact kind i _ value (TypeDescriptor.slots_ofArray_getElem? a inside) at_i

end Represents

/-!
## Operations on regular memories
-/

/-- A memory behaves as a store of typed objects. -/
structure ImplementsStore (program : Program) (memory : Memory) : Prop where
  /-- The objects of the store are the live blocks. -/
  live : ∀ addr, (memory.objects program addr).isSome ↔ ∃ header, memory.Lists addr header
  /-- Each has the type of its block, and its values are of the kinds of the slots. -/
  typed : ∀ addr object, memory.objects program addr = some object →
    memory.typeOf addr = .ok object.type ∧
      ((∃ c, program.class? object.type = some c ∧
        object.values.map Value.kind = c.fields.map FieldSlot.kind) ∨
      ∃ a, program.array? object.type = some a ∧
        ∀ value ∈ object.values, value.kind = a.elementKind)
  /-- A new object has the defaults of its fields, and no other entry changes. -/
  object_new : ∀ ref c, program.class? ref = some c →
    newObject ref c memory = .ok none memory ∨
    ∃ addr after, newObject ref c memory = .ok (some addr) after ∧ addr ≠ .null ∧
      memory.objects program addr = none ∧
      after.objects program = (memory.objects program).set addr
        ⟨ref, c.fields.map fun field => field.kind.default⟩
  /-- A new array has the requested length and the default of its elements. -/
  array_new : ∀ ref a length, program.array? ref = some a →
    newArray ref a length memory = .ok none memory ∨
    ∃ addr after, newArray ref a length memory = .ok (some addr) after ∧ addr ≠ .null ∧
      memory.objects program addr = none ∧
      after.objects program = (memory.objects program).set addr
        ⟨ref, List.replicate length a.elementKind.default⟩
  /-- Fields are read from the store and written to it, one at a time. -/
  field_get : ∀ addr object c (i : Nat) field, memory.objects program addr = some object →
    program.class? object.type = some c → c.fields[i]? = some field →
    ∃ value, object.values[i]? = some value ∧ memory.getField addr field = .ok value
  field_put : ∀ addr object c (i : Nat) field value, memory.objects program addr = some object →
    program.class? object.type = some c → c.fields[i]? = some field → value.kind = field.kind →
    ∃ after, putField addr field value memory = .ok () after ∧
      after.objects program = (memory.objects program).set addr (object.put i value)
  /-- Elements are read and written likewise, at the indices below the length. -/
  array_length : ∀ addr object a, memory.objects program addr = some object →
    program.array? object.type = some a → memory.arrayLength addr = .ok object.values.length
  element_get : ∀ addr object a (index : Int32), memory.objects program addr = some object →
    program.array? object.type = some a →
    0 ≤ index.toInt → index.toInt < object.values.length →
    ∃ value, object.values[index.toInt.toNat]? = some value ∧
      memory.getElement addr a.elementKind index = .ok value
  element_put : ∀ addr object a (index : Int32) value, memory.objects program addr = some object →
    program.array? object.type = some a → value.kind = a.elementKind →
    0 ≤ index.toInt → index.toInt < object.values.length →
    ∃ after, putElement addr a.elementKind index value memory = .ok () after ∧
      after.objects program =
        (memory.objects program).set addr (object.put index.toInt.toNat value)
  /-- At all other indices there is an error, and the memory stays as it is. -/
  outside : ∀ addr object a (index : Int32) value, memory.objects program addr = some object →
    program.array? object.type = some a →
    ¬ (0 ≤ index.toInt ∧ index.toInt < object.values.length) →
    memory.getElement addr a.elementKind index =
        .error (.indexOutOfRange index object.values.length) ∧
      putElement addr a.elementKind index value memory =
        .error (.indexOutOfRange index object.values.length) memory
  /-- A collection leaves the objects that its roots reach. -/
  collected : ∀ roots, (∀ root ∈ roots, memory.Admits root) →
    ∃ report after, collect program roots memory = .ok report after ∧
      after.objects program = (memory.objects program).trim roots

end Memory

/-- A heap implements the store that it represents. -/
theorem Heap.implementsStore {program : Program} {memory : Memory} {tiles : List Tile}
    {store : Store} (heap : Heap program memory tiles store) (orderly : program.Orderly)
    (tagged : program.Tagged) : memory.ImplementsStore program := by
  have view : memory.objects program = store := heap.objects_eq
  constructor
  case live =>
    intro addr
    rw [view]
    exact heap.isSome_iff
  case typed =>
    intro addr object found
    rw [view] at found
    exact ⟨heap.typeOf_eq found, heap.kinds found⟩
  case object_new =>
    intro ref c known
    have tag := tagged.index_lt (Program.class?_eq_some_iff.mp known)
    rcases heap.newObject_cases orderly known tag with
      ⟨ran, _⟩ | ⟨addr, after, tiles', ran, created⟩
    · exact Or.inl ran
    · right
      rw [view, ← c.defaults_eq]
      exact ⟨addr, after, ran, created.represents.ne_null (Store.set_same _ _ _), created.fresh,
        created.represents.objects_eq⟩
  case array_new =>
    intro ref a length known
    have tag := tagged.index_lt (Program.array?_eq_some_iff.mp known)
    rcases heap.newArray_cases orderly known tag length with
      ⟨ran, _⟩ | ⟨addr, after, tiles', ran, created⟩
    · exact Or.inl ran
    · right
      rw [view, ← a.defaults_eq]
      exact ⟨addr, after, ran, created.represents.ne_null (Store.set_same _ _ _), created.fresh,
        created.represents.objects_eq⟩
  case field_get =>
    intro addr object c i field found known at_i
    rw [view] at found
    exact heap.getField_eq orderly found known at_i
  case field_put =>
    intro addr object c i field value found known at_i kind
    rw [view] at found ⊢
    rcases heap.putField_eq orderly found known at_i kind with ⟨after, ran, _, _, rep⟩
    exact ⟨after, ran, rep.objects_eq⟩
  case array_length =>
    intro addr object a found known
    rw [view] at found
    exact heap.arrayLength_eq found known
  case element_get =>
    intro addr object a index found known lower upper
    rw [view] at found
    exact heap.getElement_eq orderly found known lower upper
  case element_put =>
    intro addr object a index value found known kind lower upper
    rw [view] at found ⊢
    rcases heap.putElement_eq orderly found known lower upper kind with ⟨after, ran, _, _, rep⟩
    exact ⟨after, ran, rep.objects_eq⟩
  case outside =>
    intro addr object a index value found known out
    rw [view] at found
    have outside : index.toInt < 0 ∨ (object.values.length : Int) ≤ index.toInt := by omega
    exact ⟨heap.getElement_out_of_range found known outside,
      heap.putElement_out_of_range found known value outside⟩
  case collected =>
    intro roots admitted
    rcases heap.collect_eq heap.unmarked orderly heap.closed (heap.roots admitted) with
      ⟨report, after, tiles', ran, collected⟩
    rw [view]
    exact ⟨report, after, ran, collected.represents.objects_eq⟩

namespace Memory

theorem objects_new {program : Program} {size : Nat} {memory : Memory}
    (made : Memory.new size = .ok memory) : memory.objects program = fun _ => none :=
  (Heap.new made).objects_eq

/-- Regular memories implement their stores. -/
theorem regular_implementsStore {image : Image} {program : Program} {size freed : Nat}
    {memory : Memory} (linked : image.link = .ok program)
    (few : program.types.size < 2 ^ 31 - 1) (regular : Regular program size memory freed) :
    memory.ImplementsStore program := by
  have orderly := Program.orderly_of_link linked
  rcases regular.heap orderly few with ⟨tiles, store, heap, _, _⟩
  exact heap.implementsStore orderly few

/-- Three nodes, one of which leads to another. -/
theorem regular_implementsStore_linkedNodes :
    nodeImage.link = .ok nodeProgram ∧ nodeProgram.types.size < 2 ^ 31 - 1 ∧
      Regular nodeProgram 48 linkedNodes 0 ∧ linkedNodes.ImplementsStore nodeProgram :=
  ⟨link_nodeImage, by decide, regular_linkedNodes,
    regular_implementsStore link_nodeImage (by decide) regular_linkedNodes⟩

example : (linkedNodes.objects nodeProgram ⟨0⟩).map Object.values = some [.ref ⟨12⟩] := by
  decide +kernel

end Memory
end ObjectMachine
