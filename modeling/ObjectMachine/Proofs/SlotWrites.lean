import ObjectMachine.Proofs.Objects

/-!
# Writing a slot

A value stored in a slot of an object, of the kind of the slot, changes that value of that object
and nothing else. The bytes of the slot lie in the payload of one tile, so all headers stay, and so
does the payload of every other tile.
-/

namespace ObjectMachine

def Store.set (store : Store) (addr : Addr) (object : Object) : Store :=
  fun other => if other = addr then some object else store other

@[simp] theorem Store.set_same (store : Store) (addr : Addr) (object : Object) :
    store.set addr object addr = some object := by
  simp [Store.set]

theorem Store.set_other (store : Store) {addr other : Addr} (object : Object)
    (different : other ≠ addr) : store.set addr object other = store other := by
  simp [Store.set, different]

def Object.put (object : Object) (i : Nat) (value : Value) : Object :=
  { object with values := object.values.set i value }

namespace Tile

theorem Holds.slot_inside {memory : Memory} {tile : Tile} {type : TypeDescriptor}
    {values : List Value} (holds : tile.Holds memory type values) (orderly : type.Orderly)
    {i : Nat} {slot : Slot} (at_i : (type.slots values.length)[i]? = some slot) :
    headerSize + slot.offset + slot.kind.width ≤ tile.header.size := by
  have within := orderly.within _ slot (List.mem_of_getElem? at_i)
  have fits := holds.fits
  omega

/-- A value stored in a slot is what the tile holds there afterwards. -/
theorem Holds.write {memory other : Memory} {tile : Tile} {type : TypeDescriptor}
    {values : List Value} (holds : tile.Holds memory type values) (orderly : type.Orderly)
    (inside : tile.limit ≤ memory.capacity) {i : Nat} {slot : Slot} {value : Value}
    (at_i : (type.slots values.length)[i]? = some slot) (kind : value.kind = slot.kind)
    (stored : other.arena =
      memory.arena.setValue (tile.pos + headerSize + slot.offset) value) :
    tile.Holds other type (values.set i value) := by
  have within := orderly.within _ slot (List.mem_of_getElem? at_i)
  have room := holds.slot_inside orderly at_i
  have same : (values.set i value).length = values.length := List.length_set
  simp only [Tile.limit, Memory.capacity] at inside
  refine ⟨holds.block, ?_, ?_, ?_, ?_⟩
  · rw [same]
    exact holds.count
  · rw [same]
    exact holds.fits
  · intro a array
    rw [same, ← holds.length a array, stored]
    apply Arena.word?_congr
    apply Arena.agreeOn_setValue
    subst array
    have four : lengthSize = 4 := rfl
    simp only [TypeDescriptor.lead] at within
    omega
  · intro j slot' value' at_j found
    rw [same] at at_j
    rw [List.getElem?_set] at found
    by_cases here : i = j
    · -- The slot that was written: it has the kind of the value.
      subst here
      rw [at_i] at at_j
      cases at_j
      have length : i < values.length := by
        rw [← holds.count]
        exact (List.getElem?_eq_some_iff.mp at_i).1
      simp only [if_true, length] at found
      cases found
      rw [← kind]
      exact Memory.readValue_setValue (by rw [kind]; omega) stored
    · simp only [here, if_false] at found
      rw [← holds.reads j slot' value' at_j found]
      apply Memory.readValue_congr
      rw [stored]
      apply Arena.agreeOn_setValue
      rw [kind]
      have apart := orderly.disjoint at_i at_j here
      omega

end Tile

namespace Memory
namespace Represents

variable {program : Program} {memory : Memory} {tiles : List Tile} {store : Store}
  {addr : Addr} {object : Object}

theorem write_slot (rep : Represents program memory tiles store) (orderly : program.Orderly)
    (found : store addr = some object) {type : TypeDescriptor}
    (known : program.type? object.type = some type) {i : Nat} {slot : Slot}
    (at_i : (type.slots object.values.length)[i]? = some slot) {value : Value}
    (kind : value.kind = slot.kind) :
    ∃ pos, memory.payloadPos addr slot.offset slot.kind.width = .ok pos ∧
      writeValue pos value memory =
        .ok () { memory with arena := memory.arena.setValue pos value } ∧
      Represents program { memory with arena := memory.arena.setValue pos value } tiles
        (store.set addr (object.put i value)) := by
  rcases rep.tile_of_object found with ⟨tile, type', mem, live, rfl, typed, known', holds⟩
  rw [known] at known'
  cases known'
  have tidy := orderly _ _ known
  have room := holds.slot_inside tidy at_i
  have bounds := rep.spans.bounds mem
  simp only [Tile.limit, capacity] at bounds
  refine ⟨tile.pos + headerSize + slot.offset, rep.payloadPos_eq mem live room, ?_, ?_⟩
  · exact writeValue_eq_ok (by rw [kind]; omega)
  · refine ⟨⟨?_, ?_, ?_⟩, rep.free, ?_, ?_⟩
    · simpa [capacity] using rep.small
    · simpa [capacity] using rep.spans
    · -- Headers lie in front of their own payload and outside all other tiles.
      intro other mem'
      rw [← rep.stored other mem']
      apply Arena.header?_congr
      apply Arena.agreeOn_setValue
      rw [kind]
      by_cases here : tile = other
      · rw [here]
        omega
      · have apart := rep.spans.apart_header mem mem' here
        simp only [Tile.limit] at apart
        omega
    · intro other mem' live'
      by_cases here : other = tile
      · subst here
        exact ⟨object.put i value, type, Store.set_same _ _ _, typed, known,
          holds.write tidy (by simp only [Tile.limit, capacity]; omega) at_i kind rfl⟩
      · have apart : other.addr ≠ tile.addr := by
          intro same
          exact here (rep.eq_of_addr mem' mem same)
        rcases rep.held other mem' live' with ⟨object', type', found', typed', known', holds'⟩
        refine ⟨object', type', ?_, typed', known', ?_⟩
        · rw [Store.set_other _ _ apart]
          exact found'
        · apply holds'.congr (orderly _ _ known') rfl (Nat.le_refl _)
          apply Arena.agreeOn_setValue
          rw [kind]
          rcases rep.spans.disjoint mem mem' with equal | before | after
          · exact absurd equal.symm here
          · simp only [Tile.limit] at before ⊢
            omega
          · simp only [Tile.limit] at after ⊢
            omega
    · intro other object' found'
      by_cases here : other = tile.addr
      · exact ⟨tile, mem, live, here.symm⟩
      · rw [Store.set_other _ _ here] at found'
        exact rep.backed other object' found'

theorem putField_eq (rep : Represents program memory tiles store) (orderly : program.Orderly)
    (found : store addr = some object) {c : ClassDescriptor}
    (known : program.class? object.type = some c) {i : Nat} {field : FieldSlot}
    (at_i : c.fields[i]? = some field) {value : Value} (kind : value.kind = field.kind) :
    ∃ after : Memory, putField addr field value memory = .ok () after ∧
      after.freeList = memory.freeList ∧ after.stats = memory.stats ∧
      Represents program after tiles (store.set addr (object.put i value)) := by
  have at_i' : ((TypeDescriptor.ofClass c).slots object.values.length)[i]? =
      some ⟨field.offset, field.kind⟩ := by
    simp [TypeDescriptor.slots, at_i]
  rcases rep.write_slot orderly found (Program.class?_eq_some_iff.mp known) at_i' kind with
    ⟨pos, located, written, rep'⟩
  refine ⟨{ memory with arena := memory.arena.setValue pos value }, ?_, rfl, rfl, rep'⟩
  simp only [putField, bind, EStateM.bind, query, located]
  exact written

theorem putElement_eq (rep : Represents program memory tiles store) (orderly : program.Orderly)
    (found : store addr = some object) {a : ArrayDescriptor}
    (known : program.array? object.type = some a) {index : Int32} (lower : 0 ≤ index.toInt)
    (upper : index.toInt < object.values.length) {value : Value}
    (kind : value.kind = a.elementKind) :
    ∃ after : Memory, putElement addr a.elementKind index value memory = .ok () after ∧
      after.freeList = memory.freeList ∧ after.stats = memory.stats ∧
      Represents program after tiles (store.set addr (object.put index.toInt.toNat value)) := by
  have at_i : ((TypeDescriptor.ofArray a).slots object.values.length)[index.toInt.toNat]? =
      some ⟨lengthSize + index.toInt.toNat * a.elementKind.width, a.elementKind⟩ :=
    TypeDescriptor.slots_ofArray_getElem? a (by omega)
  rcases rep.write_slot orderly found (Program.array?_eq_some_iff.mp known) at_i kind with
    ⟨pos, located, written, rep'⟩
  refine ⟨{ memory with arena := memory.arena.setValue pos value }, ?_, rfl, rfl, rep'⟩
  have inside : ¬ (index.toInt < 0 ∨ (object.values.length : Int) ≤ index.toInt) := by omega
  simp only [putElement, bind, EStateM.bind, query, rep.elementPos_eq found known, if_neg inside,
    located]
  exact written

theorem putElement_out_of_range (rep : Represents program memory tiles store)
    (found : store addr = some object) {a : ArrayDescriptor}
    (known : program.array? object.type = some a) {index : Int32} (value : Value)
    (outside : index.toInt < 0 ∨ (object.values.length : Int) ≤ index.toInt) :
    putElement addr a.elementKind index value memory =
      .error (.indexOutOfRange index object.values.length) memory := by
  simp only [putElement, bind, EStateM.bind, query, rep.elementPos_eq found known, if_pos outside]

end Represents
end Memory
end ObjectMachine
