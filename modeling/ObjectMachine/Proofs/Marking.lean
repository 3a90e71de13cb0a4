import ObjectMachine.Proofs.MarkingRounds
import ObjectMachine.Proofs.Reachability

/-!
# Marking

Marking follows references from the roots. The addresses that were seen are those whose blocks have
a mark; together with the work that is left they cover the roots and everything that a seen object
refers to. When no work is left, exactly the reached addresses have been seen. Marks change one bit
of each header, so the store is the same all the while.
-/

namespace ObjectMachine

/-!
## A changed memory for the same objects
-/

namespace Memory

/-- Objects that keep their blocks and every byte of their payloads are represented as before, also
when others are left out. -/
theorem Represents.of_kept {program : Program} {memory later : Memory} {tiles tiles' : List Tile}
    {store store' : Store} (rep : Represents program memory tiles store)
    (orderly : program.Orderly) (tiled : Tiled later tiles')
    (free : later.freeList.toList.Perm ((tiles'.filter Tile.isFree).map Tile.extent))
    (old : ∀ tile' ∈ tiles', tile'.isFree = false → ∃ tile ∈ tiles, tile.isFree = false ∧
      tile'.pos = tile.pos ∧ tile'.header.size = tile.header.size ∧
      tile'.header.tag = tile.header.tag ∧ store' tile.addr = store tile.addr ∧
      later.arena.AgreeOn memory.arena (tile.pos + headerSize) tile.limit)
    (backed : ∀ addr object, store' addr = some object →
      ∃ tile' ∈ tiles', tile'.isFree = false ∧ tile'.addr = addr) :
    Represents program later tiles' store' := by
  refine ⟨tiled, free, ?_, backed⟩
  intro tile' mem' live'
  rcases old tile' mem' live' with ⟨tile, mem, live, pos, size, tag, same, agree⟩
  rcases rep.held tile mem live with ⟨object, type, found, typed, known, holds⟩
  have typed' : tile'.header.type = tile.header.type := congrArg TypeRef.mk tag
  have addr' : tile'.addr = tile.addr := congrArg Addr.ofPos pos
  refine ⟨object, type, ?_, typed'.trans typed, known, ?_⟩
  · rw [addr', same, found]
  · exact holds.congr (orderly _ _ known) pos (Nat.le_of_eq size.symm) agree

/-!
## The references of an object
-/

theorem word_of_readValue {memory : Memory} {pos : Nat} {value : Value}
    (read : memory.readValue pos .ref = .ok value) :
    ∃ word, memory.arena.word? pos = some word ∧ value = .ref ⟨word⟩ := by
  cases found : memory.arena.word? pos with
  | none => simp [readValue, found] at read
  | some word =>
      simp only [readValue, found, valueOfWord, Except.ok.injEq] at read
      exact ⟨word, rfl, read.symm⟩

theorem root?_of_readValue {memory : Memory} {pos : Nat} {kind : Kind} {value : Value}
    (read : memory.readValue pos kind = .ok value) (other : kind ≠ .ref) :
    value.root? = none := by
  have same := kind_of_readValue read
  cases value with
  | ref addr => exact absurd same.symm other
  | _ => rfl

theorem push_word (word : UInt32) (values : List Value) (work : List Addr) :
    (values.filterMap Value.root?).reverse ++
        (if (Addr.mk word).isNull then work else ⟨word⟩ :: work) =
      ((.ref ⟨word⟩ :: values).filterMap Value.root?).reverse ++ work := by
  cases null : (Addr.mk word).isNull with
  | true => simp [Value.root?, null]
  | false => simp [Value.root?, null]

theorem pushElements_eq_ok {memory : Memory} {pos : Nat} {values : List Value} (work : List Addr)
    (reads : ∀ i value, values[i]? = some value →
      memory.readValue (pos + i * Kind.ref.width) .ref = .ok value) :
    pushElements memory.arena pos values.length work =
      .ok ((values.filterMap Value.root?).reverse ++ work) := by
  induction values generalizing pos work with
  | nil => rfl
  | cons value rest ih =>
      have first := reads 0 value rfl
      rw [Nat.zero_mul, Nat.add_zero] at first
      rcases word_of_readValue first with ⟨word, found, rfl⟩
      have later : ∀ i value, rest[i]? = some value →
          memory.readValue (pos + Kind.ref.width + i * Kind.ref.width) .ref = .ok value := by
        intro i value at_i
        have read := reads (i + 1) value at_i
        rwa [Nat.add_mul, Nat.one_mul, Nat.add_comm (i * _), ← Nat.add_assoc] at read
      simp only [List.length_cons, pushElements, found]
      rw [ih _ later, push_word]

theorem pushFields_eq_ok {memory : Memory} {payload : Nat} {fields : List FieldSlot}
    {values : List Value} (work : List Addr) (count : fields.length = values.length)
    (reads : ∀ (i : Nat) (field : FieldSlot) (value : Value), fields[i]? = some field →
      values[i]? = some value → memory.readValue (payload + field.offset) field.kind = .ok value) :
    pushFields memory.arena payload fields work =
      .ok ((values.filterMap Value.root?).reverse ++ work) := by
  induction fields generalizing values work with
  | nil =>
      cases values with
      | nil => rfl
      | cons value rest => cases count
  | cons field rest ih =>
      cases values with
      | nil => cases count
      | cons value others =>
          have first := reads 0 field value rfl rfl
          have later : ∀ work, pushFields memory.arena payload rest work =
              .ok ((others.filterMap Value.root?).reverse ++ work) := by
            intro work
            apply ih work (Nat.succ.inj count)
            intro i field value at_i found
            exact reads (i + 1) field value at_i found
          unfold pushFields
          by_cases isRef : field.kind = .ref
          · rw [isRef] at first
            rcases word_of_readValue first with ⟨word, found, rfl⟩
            simp only [isRef, if_true, found]
            rw [later, push_word]
          · simp only [isRef, if_false]
            rw [later, List.filterMap_cons_none (root?_of_readValue first isRef)]

theorem Represents.pushChildren_eq {program : Program} {memory : Memory} {tiles : List Tile}
    {store : Store} {addr : Addr} {object : Object} (rep : Represents program memory tiles store)
    (found : store addr = some object) (work : List Addr) :
    pushChildren program memory addr object.type work =
      .ok (object.references.reverse ++ work) := by
  rcases rep.tile_of_object found with ⟨tile, type, mem, live, rfl, _, known, holds⟩
  have count := holds.count
  have reads := holds.reads
  cases type with
  | primitive p => exact absurd rfl (holds.block p)
  | ofClass c =>
      simp only [pushChildren, known, rep.pos_addr mem]
      apply pushFields_eq_ok work (by simpa [TypeDescriptor.slots] using count)
      intro i field value at_i stored
      exact reads i ⟨field.offset, field.kind⟩ value
        (by simp [TypeDescriptor.slots, at_i]) stored
  | ofArray a =>
      have elements : ∀ i value, object.values[i]? = some value →
          memory.readValue
            (tile.pos + headerSize + (lengthSize + i * a.elementKind.width)) a.elementKind =
              .ok value := by
        intro i value stored
        have inside := (List.getElem?_eq_some_iff.mp stored).1
        exact reads i _ value (TypeDescriptor.slots_ofArray_getElem? a inside) stored
      have length := rep.arrayLength_eq found (Program.array?_eq_some_iff.mpr known)
      simp only [pushChildren, known, rep.pos_addr mem]
      by_cases isRef : a.elementKind = .ref
      · simp only [isRef, if_true, length, bind, Except.bind]
        apply pushElements_eq_ok
        intro i value stored
        have read := elements i value stored
        rwa [isRef, ← Nat.add_assoc] at read
      · -- Elements that are no references have nothing to follow.
        have none : object.references = [] := by
          rw [Object.references, List.filterMap_eq_nil_iff]
          intro value mem'
          rcases List.getElem?_of_mem mem' with ⟨i, stored⟩
          exact root?_of_readValue (elements i value stored) isRef
        simp [isRef, none]

end Memory

/-!
## Marked tiles
-/

namespace Tile

def withMark (tile : Tile) (marked : Bool) : Tile :=
  { tile with header := { tile.header with marked } }

variable (tile : Tile) (marked : Bool)

@[simp] theorem pos_withMark : (tile.withMark marked).pos = tile.pos := rfl
@[simp] theorem size_withMark : (tile.withMark marked).header.size = tile.header.size := rfl
@[simp] theorem tag_withMark : (tile.withMark marked).header.tag = tile.header.tag := rfl
@[simp] theorem marked_withMark : (tile.withMark marked).header.marked = marked := rfl
@[simp] theorem isFree_withMark : (tile.withMark marked).isFree = tile.isFree := rfl
@[simp] theorem addr_withMark : (tile.withMark marked).addr = tile.addr := rfl
@[simp] theorem limit_withMark : (tile.withMark marked).limit = tile.limit := rfl
@[simp] theorem extent_withMark : (tile.withMark marked).extent = tile.extent := rfl

theorem withMark_false {tile : Tile} (unmarked : tile.header.marked = false) :
    tile.withMark false = tile := by
  cases tile with
  | mk pos header =>
      cases header with
      | mk size tag marked =>
          simp only at unmarked
          subst unmarked
          rfl

end Tile

/-- Tiles of which those at the given addresses have marks. -/
def markTiles (seen : List Addr) (tiles : List Tile) : List Tile :=
  tiles.map fun tile => tile.withMark (seen.contains tile.addr)

theorem markTiles_nil {tiles : List Tile} (unmarked : ∀ tile ∈ tiles, tile.header.marked = false) :
    markTiles [] tiles = tiles := by
  have same : ∀ tile ∈ tiles, tile.withMark (List.contains [] tile.addr) = tile := by
    intro tile mem
    exact Tile.withMark_false (unmarked tile mem)
  rw [markTiles, List.map_congr_left same, List.map_id']

theorem mem_markTiles_iff {seen : List Addr} {tiles : List Tile} {tile' : Tile} :
    tile' ∈ markTiles seen tiles ↔
      ∃ tile ∈ tiles, tile' = tile.withMark (seen.contains tile.addr) := by
  simp [markTiles, eq_comm]

theorem free_markTiles (seen : List Addr) (tiles : List Tile) :
    ((markTiles seen tiles).filter Tile.isFree).map Tile.extent =
      (tiles.filter Tile.isFree).map Tile.extent := by
  simp [markTiles, List.filter_map, Function.comp_def]

theorem spans_markTiles_iff {seen : List Addr} {tiles : List Tile} {first limit : Nat} :
    Spans first (markTiles seen tiles) limit ↔ Spans first tiles limit := by
  induction tiles generalizing first with
  | nil => rfl
  | cons tile rest ih =>
      simp only [markTiles, List.map_cons, Spans.cons_iff, Tile.pos_withMark, Tile.size_withMark,
        Tile.limit_withMark] at ih ⊢
      rw [ih]

namespace Memory

section SetMark

variable {program : Program} {memory : Memory} {tiles : List Tile} {store : Store}
  {seen : List Addr} {tile other : Tile}

theorem withMark_mem (mem : tile ∈ tiles) :
    tile.withMark (seen.contains tile.addr) ∈ markTiles seen tiles :=
  mem_markTiles_iff.mpr ⟨tile, mem, rfl⟩

theorem Represents.pos_of_mem (rep : Represents program memory (markTiles seen tiles) store)
    (mem : tile ∈ tiles) : tile.addr.pos = tile.pos :=
  (rep.pos_addr (withMark_mem mem) :)

theorem Represents.payload_setMark (rep : Represents program memory (markTiles seen tiles) store)
    (mem : tile ∈ tiles) (mem' : other ∈ tiles) :
    (memory.setMark tile.addr).arena.AgreeOn memory.arena (other.pos + headerSize)
      other.limit := by
  have width : headerSize = 8 := rfl
  have spans := spans_markTiles_iff.mp rep.spans
  apply Arena.agreeOn_setTop
  rw [rep.pos_of_mem mem]
  by_cases same : other = tile
  · right
    rw [same]
    omega
  · have apart := spans.apart_header mem' mem same
    omega

/-- Only the header of the tile itself gets the mark. -/
theorem Represents.stored_setMark (rep : Represents program memory (markTiles seen tiles) store)
    (mem : tile ∈ tiles) (mem' : other ∈ tiles) :
    (memory.setMark tile.addr).arena.header? other.pos =
      some (other.withMark ((tile.addr :: seen).contains other.addr)).header := by
  have width : headerSize = 8 := rfl
  have spans := spans_markTiles_iff.mp rep.spans
  have located := rep.pos_of_mem mem
  have stored := rep.stored _ (withMark_mem mem')
  by_cases same : other = tile
  · subst same
    have set := Arena.header?_setTop stored
    simpa [Memory.setMark, located, Tile.withMark] using set
  · have elsewhere : other.addr ≠ tile.addr := by
      intro here
      apply same
      apply spans.eq_of_pos mem' mem
      rw [← located, ← rep.pos_of_mem mem', here]
    have unseen : (tile.addr :: seen).contains other.addr = seen.contains other.addr := by
      simp [elsewhere]
    rw [unseen, ← stored]
    apply Arena.header?_congr
    apply Arena.agreeOn_setTop
    rw [located]
    have inside := spans.header_inside mem'
    have apart := spans.apart_header mem' mem same
    omega

theorem Represents.setMark (orderly : program.Orderly)
    (rep : Represents program memory (markTiles seen tiles) store) (mem : tile ∈ tiles) :
    Represents program (memory.setMark tile.addr) (markTiles (tile.addr :: seen) tiles) store := by
  have size : (memory.setMark tile.addr).arena.size = memory.arena.size := Arena.size_setTop _ _
  refine rep.of_kept orderly ⟨?_, ?_, ?_⟩ ?_ ?_ ?_
  · rw [capacity, size]
    exact rep.small
  · rw [capacity, size]
    exact spans_markTiles_iff.mpr (spans_markTiles_iff.mp rep.spans)
  · intro other' placed
    rcases mem_markTiles_iff.mp placed with ⟨other, mem', rfl⟩
    exact @Represents.stored_setMark _ _ _ _ _ _ other rep mem mem'
  · rw [free_markTiles, ← free_markTiles seen]
    exact rep.free
  · intro other' placed live
    rcases mem_markTiles_iff.mp placed with ⟨other, mem', rfl⟩
    exact ⟨_, withMark_mem mem', live, rfl, rfl, rfl, rfl,
      @Represents.payload_setMark _ _ _ _ _ _ other rep mem mem'⟩
  · intro addr object found
    rcases rep.backed addr object found with ⟨other', placed, live, same⟩
    rcases mem_markTiles_iff.mp placed with ⟨other, mem', rfl⟩
    exact ⟨_, withMark_mem mem', live, same⟩

end SetMark

/-!
## The work
-/

/-- How far the marking of a memory has come: the addresses that were seen have marks, and what is
left to do is on the stack. -/
structure Marking (program : Program) (memory : Memory) (tiles : List Tile) (store : Store)
    (roots seen work : List Addr) (current : Memory) : Prop where
  represents : Represents program current (markTiles seen tiles) store
  capacity : current.capacity = memory.capacity
  freeList : current.freeList = memory.freeList
  stats : current.stats = memory.stats
  payloads : ∀ tile ∈ tiles,
    current.arena.AgreeOn memory.arena (tile.pos + headerSize) tile.limit
  nodup : seen.Nodup
  reached : ∀ addr, addr ∈ seen ∨ addr ∈ work → store.Reaches roots addr
  rooted : ∀ addr ∈ roots, addr ≠ .null → addr ∈ seen ∨ addr ∈ work
  followed : ∀ addr ∈ seen, ∀ object child, store addr = some object →
    child ∈ object.references → child ∈ seen ∨ child ∈ work

namespace Marking

variable {program : Program} {memory current : Memory} {tiles : List Tile} {store : Store}
  {roots seen work : List Addr} {addr : Addr}

theorem start (rep : Represents program memory tiles store)
    (unmarked : ∀ tile ∈ tiles, tile.header.marked = false) :
    Marking program memory tiles store roots []
      (roots.filter fun addr => !addr.isNull).reverse memory := by
  have mem_work : ∀ addr, addr ∈ (roots.filter fun addr => !addr.isNull).reverse ↔
      addr ∈ roots ∧ addr ≠ .null := by
    intro addr
    simp [Addr.isNull]
  refine ⟨?_, rfl, rfl, rfl, fun _ _ => .refl _ _ _, List.nodup_nil, ?_, ?_, ?_⟩
  · rw [markTiles_nil unmarked]
    exact rep
  · intro addr either
    rcases either with seen | work
    · cases seen
    · rcases (mem_work addr).mp work with ⟨mem, proper⟩
      exact .root mem proper
  · intro addr mem proper
    exact Or.inr ((mem_work addr).mpr ⟨mem, proper⟩)
  · intro addr seen
    cases seen

/-- An address on the stack is that of an object, and its block has a mark exactly if it was
seen. -/
theorem header_eq (marking : Marking program memory tiles store roots seen (addr :: work) current)
    (closed : store.Closed) (rooted : store.Roots roots) :
    ∃ tile object, tile ∈ tiles ∧ tile.addr = addr ∧ store addr = some object ∧
      current.header addr = .ok (tile.withMark (seen.contains addr)).header ∧
      tile.header.type = object.type := by
  have reached := marking.reached addr (Or.inr List.mem_cons_self)
  rcases Option.isSome_iff_exists.mp (reached.isSome closed rooted) with ⟨object, found⟩
  rcases marking.represents.tile_of_object found with
    ⟨tile', _, placed, live, same, typed, _, _⟩
  rcases mem_markTiles_iff.mp placed with ⟨tile, mem, rfl⟩
  have same' : tile.addr = addr := same
  have read := marking.represents.header_eq_ok placed live
  rw [same, same'] at read
  exact ⟨tile, object, mem, same', found, read, typed⟩

theorem skip (marking : Marking program memory tiles store roots seen (addr :: work) current)
    (known : addr ∈ seen) : Marking program memory tiles store roots seen work current := by
  have covered : ∀ other, other ∈ seen ∨ other ∈ addr :: work → other ∈ seen ∨ other ∈ work := by
    intro other either
    rcases either with mem | mem
    · exact Or.inl mem
    · cases mem with
      | head => exact Or.inl known
      | tail _ mem => exact Or.inr mem
  refine { marking with reached := ?_, rooted := ?_, followed := ?_ }
  · intro other either
    rcases either with mem | mem
    · exact marking.reached other (Or.inl mem)
    · exact marking.reached other (Or.inr (List.mem_cons_of_mem _ mem))
  · intro other mem proper
    exact covered other (marking.rooted other mem proper)
  · intro other mem object child found refers
    exact covered child (marking.followed other mem object child found refers)

theorem visit (marking : Marking program memory tiles store roots seen (addr :: work) current)
    (orderly : program.Orderly) {tile : Tile} {object : Object} (mem : tile ∈ tiles)
    (same : tile.addr = addr) (found : store addr = some object) (new : addr ∉ seen) :
    Marking program memory tiles store roots (addr :: seen) (object.references.reverse ++ work)
      (current.setMark addr) := by
  subst same
  have rep := marking.represents
  have covered : ∀ other, other ∈ seen ∨ other ∈ tile.addr :: work →
      other ∈ tile.addr :: seen ∨ other ∈ object.references.reverse ++ work := by
    intro other either
    rcases either with mem | mem
    · exact Or.inl (List.mem_cons_of_mem _ mem)
    · cases mem with
      | head => exact Or.inl List.mem_cons_self
      | tail _ mem => exact Or.inr (List.mem_append_right _ mem)
  have here := marking.reached tile.addr (Or.inr List.mem_cons_self)
  refine ⟨rep.setMark orderly mem, ?_, marking.freeList, marking.stats, ?_, ?_, ?_, ?_, ?_⟩
  · rw [← marking.capacity]
    exact Arena.size_setTop _ _
  · intro other mem'
    exact (rep.payload_setMark mem mem').trans (marking.payloads other mem')
  · exact List.nodup_cons.mpr ⟨new, marking.nodup⟩
  · intro other either
    rcases either with mem | mem
    · cases mem with
      | head => exact here
      | tail _ mem => exact marking.reached other (Or.inl mem)
    · rcases List.mem_append.mp mem with child | mem
      · exact .step here found (List.mem_reverse.mp child)
      · exact marking.reached other (Or.inr (List.mem_cons_of_mem _ mem))
  · intro other mem proper
    exact covered other (marking.rooted other mem proper)
  · intro other mem object' child found' refers
    cases mem with
    | head =>
        rw [found] at found'
        cases found'
        exact Or.inr (List.mem_append_left _ (List.mem_reverse.mpr refers))
    | tail _ mem => exact covered child (marking.followed other mem object' child found' refers)

/-- A round of marking does not fail, and counts the addresses that it has seen. -/
theorem round (marking : Marking program memory tiles store roots seen (addr :: work) current)
    (orderly : program.Orderly) (closed : store.Closed) (rooted : store.Roots roots) :
    ∃ seen' work' marks after, markRound program addr work current = .ok (work', marks) after ∧
      seen'.length = seen.length + marks ∧
      Marking program memory tiles store roots seen' work' after := by
  rcases marking.header_eq closed rooted with ⟨tile, object, mem, same, found, read, typed⟩
  by_cases known : addr ∈ seen
  · refine ⟨seen, work, 0, current, ?_, rfl, marking.skip known⟩
    simp [markRound, read, known]
  · have next := marking.visit orderly mem same found known
    have pushed := next.represents.pushChildren_eq found work
    rw [← typed] at pushed
    refine ⟨_, _, 1, _, ?_, List.length_cons, next⟩
    have unmarked : (tile.withMark (seen.contains addr)).header.marked = false := by
      simpa using known
    have type : (tile.withMark (seen.contains addr)).header.type = tile.header.type := rfl
    simp only [markRound, read, unmarked, Bool.false_eq_true, if_false, type, pushed]

theorem run (marking : Marking program memory tiles store roots seen work current)
    (orderly : program.Orderly) (closed : store.Closed) (rooted : store.Roots roots) :
    ∃ seen' after, markFrom program work seen.length current = .ok seen'.length after ∧
      Marking program memory tiles store roots seen' [] after := by
  rcases exists_rounds program work seen.length current with ⟨n, -, rounds⟩
  generalize markFrom program work seen.length current = outcome at rounds ⊢
  generalize counted : seen.length = count at rounds
  induction rounds generalizing seen with
  | done count current => exact ⟨seen, current, by rw [counted], marking⟩
  | fails ended =>
      rcases marking.round orderly closed rooted with ⟨_, _, _, _, ended', _⟩
      rw [ended] at ended'
      cases ended'
  | goesOn ended _ ih =>
      rcases marking.round orderly closed rooted with ⟨seen', _, _, _, ended', longer, next⟩
      rw [ended] at ended'
      cases ended'
      exact ih next (by rw [longer, counted])

/-- When no work is left, what was seen is what is reached. -/
theorem mem_seen_iff (marking : Marking program memory tiles store roots seen [] current) :
    addr ∈ seen ↔ store.Reaches roots addr := by
  constructor
  · intro mem
    exact marking.reached addr (Or.inl mem)
  · intro reached
    induction reached with
    | root mem proper => exact (marking.rooted _ mem proper).resolve_right List.not_mem_nil
    | step _ found refers ih =>
        exact (marking.followed _ ih _ _ found refers).resolve_right List.not_mem_nil

end Marking
end Memory
end ObjectMachine
