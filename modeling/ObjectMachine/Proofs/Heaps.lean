import ObjectMachine.Proofs.Collection

/-!
# Heaps

A heap is a memory that represents a closed store and has no marks. Every operation on a memory
that respects the types of a program leads from a heap to a heap, and what it does to the store is
all that matters from here on.
-/

namespace ObjectMachine

/-- A memory represents a closed store, and no block has a mark. -/
structure Heap (program : Program) (memory : Memory) (tiles : List Tile) (store : Store) : Prop
    extends Memory.Represents program memory tiles store where
  unmarked : ∀ tile ∈ tiles, tile.header.marked = false
  closed : store.Closed

/-- Type references of a program are no tags of free blocks. -/
def Program.Tagged (program : Program) : Prop :=
  program.types.size < freeTag

theorem Program.Tagged.index_lt {program : Program} (tagged : program.Tagged) {ref : TypeRef}
    {type : TypeDescriptor} (known : program.type? ref = some type) : ref.index < freeTag := by
  have inside := (Array.getElem?_eq_some_iff.mp known).1
  exact Nat.lt_trans inside tagged

theorem Object.references_defaults (ref : TypeRef) (type : TypeDescriptor) (length : Nat) :
    (Object.mk ref (type.defaults length)).references = [] := by
  rw [Object.references, List.filterMap_eq_nil_iff]
  intro value mem
  rcases List.mem_map.mp mem with ⟨slot, _, rfl⟩
  cases slot.kind <;> rfl

theorem Object.references_put {object : Object} {i : Nat} {value : Value} {addr : Addr}
    (refers : addr ∈ (object.put i value).references) :
    value = .ref addr ∨ addr ∈ object.references := by
  rcases Object.mem_references_iff.mp refers with ⟨mem, proper⟩
  rcases List.mem_or_eq_of_mem_set mem with mem | same
  · exact Or.inr (Object.mem_references_iff.mpr ⟨mem, proper⟩)
  · exact Or.inl same.symm

namespace Memory

/-- The values that may be stored: references are null or lead to objects. -/
def Storable (store : Store) (value : Value) : Prop :=
  ∀ addr, value = .ref addr → addr ≠ .null → (store addr).isSome

theorem new_cases {size : Nat} {memory : Memory} (made : Memory.new size = .ok memory) :
    memory.capacity = size ∧ headerSize ≤ size ∧ size < 2 ^ 32 - 1 ∧
      memory.arena.header? 0 = some ⟨size, freeTag, false⟩ ∧
      memory.freeList.toList = [⟨0, size⟩] ∧ memory.stats.bytesAllocated = 0 := by
  have width : headerSize = 8 := rfl
  have top : Addr.null.pos = 2 ^ 32 - 1 := rfl
  unfold Memory.new at made
  split at made
  · cases made
  · next usable =>
      have length : (Arena.zeros size).size = size := by
        simp [Arena.zeros, Arena.size]
      have stamped := @writeHeader_eq_ok ⟨.zeros size, FreeList.empty.insert ⟨0, size⟩,
        ⟨0, 0, 0, .none⟩⟩ 0 size freeTag (by simp only [length]; omega)
      simp only [stamped, Except.ok.injEq] at made
      rw [← made]
      refine ⟨?_, by omega, by omega, ?_, rfl, rfl⟩
      · show ((Arena.zeros size).setHeader 0 size freeTag).size = size
        rw [Arena.size_setHeader, length]
      · exact Arena.header?_setHeader _ (by rw [length]; omega) (by omega) (by decide)

end Memory

namespace Heap

variable {program : Program} {memory after : Memory} {tiles tiles' : List Tile} {store : Store}
  {addr : Addr} {object : Object}

theorem new {size : Nat} (made : Memory.new size = .ok memory) :
    Heap program memory [Tile.ofExtent ⟨0, size⟩] fun _ => none := by
  rcases Memory.new_cases made with ⟨capacity, room, small, stored, free, _⟩
  refine ⟨⟨⟨?_, ?_, ?_⟩, ?_, ?_, nofun⟩, ?_, nofun⟩
  · rw [capacity]
    exact small
  · rw [capacity]
    exact ⟨rfl, room, Nat.zero_add size⟩
  · intro tile mem
    rw [List.mem_singleton.mp mem]
    exact stored
  · rw [free]
    simp
  · intro tile mem live
    rw [List.mem_singleton.mp mem, Tile.isFree_ofExtent] at live
    cases live
  · intro tile mem
    rw [List.mem_singleton.mp mem]
    rfl

theorem created (heap : Heap program memory tiles store) {ref : TypeRef} {type : TypeDescriptor}
    {length : Nat}
    (created : Created program memory after tiles tiles' store addr ⟨ref, type.defaults length⟩) :
    Heap program after tiles' (store.set addr ⟨ref, type.defaults length⟩) := by
  refine ⟨created.represents, created.unmarked heap.unmarked, heap.closed.set ?_⟩
  rw [Object.references_defaults]
  exact nofun

theorem put (heap : Heap program memory tiles store) (found : store addr = some object) {i : Nat}
    {value : Value} (storable : Memory.Storable store value)
    (rep : Memory.Represents program after tiles (store.set addr (object.put i value))) :
    Heap program after tiles (store.set addr (object.put i value)) := by
  refine ⟨rep, heap.unmarked, heap.closed.set ?_⟩
  intro child refers proper
  rcases Object.references_put refers with same | refers
  · exact storable child same proper
  · exact heap.closed addr object child found refers

theorem collected {report : Report} {roots : List Addr} (heap : Heap program memory tiles store)
    (collected : Collected program memory after tiles tiles' store roots report) :
    Heap program after tiles' (store.trim roots) :=
  ⟨collected.represents, collected.unmarked, heap.closed.trim⟩

end Heap
end ObjectMachine
