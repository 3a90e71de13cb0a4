import ObjectMachine.Proofs.SessionInvariants
import ObjectMachine.Proofs.TypeNames

/-!
# Exhausted memories

The blocks that a machine can still reach leave gaps between them. A new block fits into the memory
exactly if it fits into one of the gaps: what is in a gap is free, or becomes free in a collection,
and a collection joins all free space of a gap into one extent. So a machine that reports a shortage
has no gap that is large enough, and one that has such a gap finds room in it, and what it can reach
stays as it was.

The report names the type of the elements of an array. If that is an array made of itself, the
shortage is not reported: the request does not return.
-/

namespace ObjectMachine

/-!
## Gaps
-/

/-- A run of positions, none of them covered, that goes as far as it can in both directions. -/
structure Gap (covered : Nat → Prop) (capacity first limit : Nat) : Prop where
  proper : first < limit
  inside : limit ≤ capacity
  bare : ∀ i, first ≤ i → i < limit → ¬ covered i
  before : first = 0 ∨ covered (first - 1)
  behind : limit = capacity ∨ covered limit

theorem exists_first {covered : Nat → Prop} {first limit : Nat}
    (bare : ∀ i, first ≤ i → i < limit → ¬ covered i) :
    ∃ start ≤ first, (∀ i, start ≤ i → i < limit → ¬ covered i) ∧
      (start = 0 ∨ covered (start - 1)) := by
  induction first with
  | zero => exact ⟨0, Nat.le_refl 0, bare, Or.inl rfl⟩
  | succ first ih =>
      by_cases stops : covered first
      · exact ⟨first + 1, Nat.le_refl _, bare, Or.inr stops⟩
      · have longer : ∀ i, first ≤ i → i < limit → ¬ covered i := by
          intro i lower upper
          rcases Nat.eq_or_lt_of_le lower with rfl | lower
          · exact stops
          · exact bare i lower upper
        rcases ih longer with ⟨start, less, bare', ends⟩
        exact ⟨start, Nat.le_succ_of_le less, bare', ends⟩

theorem exists_limit {covered : Nat → Prop} {capacity first limit : Nat}
    (inside : limit ≤ capacity) (bare : ∀ i, first ≤ i → i < limit → ¬ covered i) :
    ∃ stop, limit ≤ stop ∧ stop ≤ capacity ∧ (∀ i, first ≤ i → i < stop → ¬ covered i) ∧
      (stop = capacity ∨ covered stop) := by
  induction missing : capacity - limit generalizing limit with
  | zero => exact ⟨limit, Nat.le_refl _, inside, bare, Or.inl (by omega)⟩
  | succ missing ih =>
      by_cases stops : covered limit
      · exact ⟨limit, Nat.le_refl _, inside, bare, Or.inr stops⟩
      · have longer : ∀ i, first ≤ i → i < limit + 1 → ¬ covered i := by
          intro i lower upper
          rcases Nat.eq_or_lt_of_le (Nat.le_of_lt_succ upper) with rfl | upper
          · exact stops
          · exact bare i lower upper
        rcases ih (by omega) longer (by omega) with ⟨stop, larger, inside, bare', ends⟩
        exact ⟨stop, Nat.le_of_succ_le larger, inside, bare', ends⟩

theorem exists_gap {covered : Nat → Prop} {capacity first limit : Nat} (proper : first < limit)
    (inside : limit ≤ capacity) (bare : ∀ i, first ≤ i → i < limit → ¬ covered i) :
    ∃ start stop, Gap covered capacity start stop ∧ start ≤ first ∧ limit ≤ stop := by
  rcases exists_first bare with ⟨start, lower, bare, before⟩
  rcases exists_limit inside bare with ⟨stop, upper, inside, bare, behind⟩
  exact ⟨start, stop, ⟨by omega, inside, bare, before, behind⟩, lower, upper⟩

theorem Spans.eq_of_common {tiles : List Tile} {start stop i : Nat} {tile other : Tile}
    (spans : Spans start tiles stop) (mem : tile ∈ tiles) (mem' : other ∈ tiles)
    (inside : tile.pos ≤ i ∧ i < tile.limit) (inside' : other.pos ≤ i ∧ i < other.limit) :
    tile = other := by
  rcases spans.disjoint mem mem' with same | before | behind
  · exact same
  · omega
  · omega

/-- Where no two free tiles are neighbours, a run that meets no live tile lies in one free tile. -/
theorem Spans.exists_free {tiles : List Tile} {start stop first limit : Nat}
    (spans : Spans start tiles stop) (joined : Joined tiles) (proper : first < limit)
    (lower : start ≤ first) (upper : limit ≤ stop)
    (bare : ∀ tile ∈ tiles, tile.isFree = false →
      ∀ i, first ≤ i → i < limit → ¬ (tile.pos ≤ i ∧ i < tile.limit)) :
    ∃ tile ∈ tiles, tile.isFree = true ∧ tile.pos ≤ first ∧ limit ≤ tile.limit := by
  induction tiles generalizing start with
  | nil =>
      have same : start = stop := spans
      omega
  | cons tile rest ih =>
      rcases spans with ⟨rfl, room, spans⟩
      rcases joined with ⟨apart, joined⟩
      by_cases within : first < tile.limit
      · have free : tile.isFree = true := by
          by_contra live
          exact bare tile List.mem_cons_self (by simpa using live) first (Nat.le_refl _) proper
            ⟨lower, within⟩
        refine ⟨tile, List.mem_cons_self, free, lower, ?_⟩
        -- Behind a free tile there is a live one, which the run would meet.
        by_contra beyond
        cases rest with
        | nil =>
            have same : tile.limit = stop := spans
            omega
        | cons next rest =>
            rcases spans with ⟨begins, room', -⟩
            have width : headerSize = 8 := rfl
            apply bare next (List.mem_cons_of_mem _ List.mem_cons_self) (apart free next rfl)
              tile.limit (by omega) (by omega)
            simp only [Tile.limit] at begins ⊢
            omega
      · rcases ih spans joined (by omega) fun other mem => bare other (List.mem_cons_of_mem _ mem)
          with ⟨other, mem, found⟩
        exact ⟨other, List.mem_cons_of_mem _ mem, found⟩

/-!
## Covered bytes
-/

namespace Memory

/-- A byte lies in a live block that is reached from the roots. -/
def Covered (program : Program) (memory : Memory) (roots : List Addr) (i : Nat) : Prop :=
  ∃ addr header, memory.Lists addr header ∧ Reaches program memory roots addr ∧
    addr.pos ≤ i ∧ i < addr.pos + header.size

variable {program : Program} {memory after : Memory} {tiles tiles' : List Tile} {store : Store}
  {roots : List Addr} {report : Report} {i : Nat}

theorem Represents.covered_iff (rep : Represents program memory tiles store)
    (orderly : program.Orderly) : Covered program memory roots i ↔
      ∃ tile ∈ tiles, tile.isFree = false ∧ store.Reaches roots tile.addr ∧
        tile.pos ≤ i ∧ i < tile.limit := by
  constructor
  · intro covered
    rcases covered with ⟨addr, header, lists, reached, inside⟩
    rcases (Tiled.mem_listing_iff tiles addr header).mp (rep.lists_iff.mp lists) with
      ⟨tile, mem, live, rfl, rfl⟩
    rw [rep.reaches_iff orderly] at reached
    rw [rep.pos_addr mem] at inside
    exact ⟨tile, mem, live, reached, inside⟩
  · intro found
    rcases found with ⟨tile, mem, live, reached, inside⟩
    refine ⟨tile.addr, tile.header, rep.lists_iff.mpr ?_, (rep.reaches_iff orderly).mpr reached, ?_⟩
    · exact (Tiled.mem_listing_iff tiles _ _).mpr ⟨tile, mem, live, rfl, rfl⟩
    · rw [rep.pos_addr mem]
      exact inside

end Memory

theorem Collected.covered_iff {program : Program} {memory after : Memory}
    {tiles tiles' : List Tile} {store : Store} {roots : List Addr} {report : Report} {i : Nat}
    (collected : Collected program memory after tiles tiles' store roots report)
    (rep : Memory.Represents program memory tiles store) (orderly : program.Orderly) :
    Memory.Covered program memory roots i ↔
      ∃ tile ∈ tiles', tile.isFree = false ∧ tile.pos ≤ i ∧ i < tile.limit := by
  rw [rep.covered_iff orderly]
  constructor
  · intro found
    rcases found with ⟨tile, mem, live, reached, inside⟩
    exact ⟨tile, (collected.mem_iff live).mpr ⟨mem, reached⟩, live, inside⟩
  · intro found
    rcases found with ⟨tile, mem, live, inside⟩
    rcases (collected.mem_iff live).mp mem with ⟨old, reached⟩
    exact ⟨tile, old, live, reached, inside⟩

/-!
## Allocation
-/

namespace Machine

/-- There is a gap of at least a size between the blocks that a machine can reach. -/
def Roomy (program : Program) (machine : Machine) (size : Nat) : Prop :=
  ∃ first limit, Gap (machine.memory.Covered program machine.roots) machine.memory.capacity
    first limit ∧ size ≤ limit - first

/-- The frames of a machine are what they were, and so is every block that it could reach. -/
structure KeepsBlocks (program : Program) (machine after : Machine) : Prop where
  frames : after.frames = machine.frames
  blocks : ∀ addr header, machine.memory.Lists addr header →
    Memory.Reaches program machine.memory machine.roots addr →
    after.memory.Lists addr header ∧ after.memory.arena.AgreeOn machine.memory.arena
      (addr.pos + headerSize) (addr.pos + header.size)

/-- An allocation ends with a shortage exactly if no gap is large enough and the shortage can be
named. Without a name it does not return, and otherwise it gives the address of a block of the type
that has none of its bytes in a block that could be reached. -/
structure AllocatesExactly (program : Program) (machine : Machine) (type : TypeRef) (size : Nat)
    (named : Prop) (outcome : EStateM.Result Failure Machine Addr) : Prop where
  exhausted : (∃ cause after, outcome = .error (.error (.shortage cause)) after) ↔
    ¬ machine.Roomy program size ∧ named
  endless : (∃ unsaid after, outcome = .error (.endless unsaid) after) ↔
    ¬ machine.Roomy program size ∧ ¬ named
  granted : machine.Roomy program size → ∃ addr header after, outcome = .ok addr after ∧
    after.memory.Lists addr header ∧ header.type = type ∧ size ≤ header.size ∧
    ∀ i, addr.pos ≤ i → i < addr.pos + header.size →
      ¬ machine.memory.Covered program machine.roots i
  kept : KeepsBlocks program machine (lastState outcome)

/-- A machine that is ready for an allocation, at once or after a collection: the free tiles of its
memory lie in gaps, and what could be reached is there. -/
structure Ready (program : Program) (machine ready : Machine) (tiles : List Tile) (store : Store) :
    Prop where
  heap : Heap program ready.memory tiles store
  capacity : ready.memory.capacity = machine.memory.capacity
  frames : ready.frames = machine.frames
  bare : ∀ tile ∈ tiles, tile.isFree = true → ∀ i, tile.pos ≤ i → i < tile.limit →
    ¬ machine.memory.Covered program machine.roots i
  kept : ∀ addr header, machine.memory.Lists addr header →
    Memory.Reaches program machine.memory machine.roots addr →
    ∃ tile ∈ tiles, tile.isFree = false ∧ tile.addr = addr ∧ tile.header = header ∧
      ready.memory.arena.AgreeOn machine.memory.arena (tile.pos + headerSize) tile.limit

variable {program : Program} {machine ready : Machine} {tiles tiles' : List Tile} {store : Store}
  {addr : Addr} {type : TypeRef} {descriptor : TypeDescriptor} {length : Nat} {named : Prop}

theorem ready_now (heap : Heap program machine.memory tiles store) (orderly : program.Orderly) :
    Ready program machine machine tiles store := by
  refine ⟨heap, rfl, rfl, ?_, ?_⟩
  · intro tile mem free i lower upper covered
    rcases (heap.covered_iff orderly).mp covered with ⟨other, mem', live, -, inside⟩
    rw [← heap.spans.eq_of_common mem mem' ⟨lower, upper⟩ inside, free] at live
    cases live
  · intro addr header lists _
    rcases (Memory.Tiled.mem_listing_iff tiles addr header).mp (heap.lists_iff.mp lists) with
      ⟨tile, mem, live, same, same'⟩
    exact ⟨tile, mem, live, same, same', .refl _ _ _⟩

theorem ready_collected {memory : Memory} {log : Log} {report : Report}
    (heap : Heap program machine.memory tiles store) (orderly : program.Orderly)
    (collected : Collected program machine.memory memory tiles tiles' store machine.roots report) :
    Ready program machine { machine with memory, log } tiles' (store.trim machine.roots) := by
  refine ⟨heap.collected collected, collected.capacity, rfl, ?_, ?_⟩
  · intro tile mem free i lower upper covered
    rcases (collected.covered_iff heap.toRepresents orderly).mp covered with
      ⟨other, mem', live, inside⟩
    rw [← collected.represents.spans.eq_of_common mem mem' ⟨lower, upper⟩ inside, free] at live
    cases live
  · intro addr header lists reached
    rcases (Memory.Tiled.mem_listing_iff tiles addr header).mp (heap.lists_iff.mp lists) with
      ⟨tile, mem, live, rfl, rfl⟩
    rw [heap.reaches_iff orderly] at reached
    have mem' := (collected.mem_iff live).mpr ⟨mem, reached⟩
    exact ⟨tile, mem', live, rfl, rfl, collected.payloads tile mem' live⟩

namespace Ready

theorem roomy (steady : Ready program machine ready tiles store) {gap : Tile} (mem : gap ∈ tiles)
    (free : gap.isFree = true) {size : Nat} (enough : size ≤ gap.header.size) :
    machine.Roomy program size := by
  have width : headerSize = 8 := rfl
  have bounds := steady.heap.spans.bounds mem
  rw [steady.capacity] at bounds
  have proper : gap.pos < gap.limit := by
    simp only [Tile.limit]
    omega
  rcases exists_gap proper bounds.2.1 (steady.bare gap mem free) with
    ⟨first, limit, isGap, lower, upper⟩
  refine ⟨first, limit, isGap, ?_⟩
  simp only [Tile.limit] at upper
  omega

theorem keepsBlocks (steady : Ready program machine ready tiles store) {after : Memory}
    {store' : Store} (rep : Memory.Represents program after tiles' store')
    (kept : ∀ tile ∈ tiles, tile.isFree = false →
      tile ∈ tiles' ∧ after.arena.AgreeOn ready.memory.arena tile.pos tile.limit) :
    KeepsBlocks program machine { ready with memory := after } := by
  refine ⟨steady.frames, ?_⟩
  intro addr header lists reached
  rcases steady.kept addr header lists reached with ⟨tile, mem, live, rfl, rfl, agree⟩
  rcases kept tile mem live with ⟨mem', agree'⟩
  refine ⟨rep.lists_iff.mpr ?_, ?_⟩
  · exact (Memory.Tiled.mem_listing_iff tiles' _ _).mpr ⟨tile, mem', live, rfl, rfl⟩
  · rw [rep.pos_addr mem']
    exact (agree'.mono (Nat.le_add_right _ _) (Nat.le_refl _)).trans agree

theorem found (steady : Ready program machine ready tiles store) (known : program.type? type =
      some descriptor) {after : Memory}
    (created : Created program ready.memory after tiles tiles' store addr
      ⟨type, descriptor.defaults length⟩) :
    AllocatesExactly program machine type (headerSize + descriptor.payload length) named
      (.ok addr { ready with memory := after }) := by
  have rep := created.represents
  rcases rep.tile_of_object (store.set_same addr _) with
    ⟨block, descriptor', mem, live, rfl, typed, known', holds⟩
  rw [known] at known'
  cases known'
  rcases created.taken with ⟨gap, gap_mem, free, same, ends⟩
  have fits := holds.fits
  rw [descriptor.payload_length_defaults] at fits
  have pos : block.pos = gap.pos := by
    rw [← rep.pos_addr mem, ← steady.heap.pos_addr gap_mem, same]
  have limit := ends block mem rfl
  have roomy : machine.Roomy program (headerSize + descriptor.payload length) := by
    apply steady.roomy gap_mem free
    simp only [Tile.limit] at limit
    omega
  refine ⟨?_, ?_, ?_, ?_⟩
  · refine iff_of_false ?_ fun full => full.1 roomy
    intro short
    rcases short with ⟨cause, last, same⟩
    cases same
  · refine iff_of_false ?_ fun full => full.1 roomy
    intro stops
    rcases stops with ⟨unsaid, last, same⟩
    cases same
  · intro _
    refine ⟨block.addr, block.header, _, rfl, rep.lists_iff.mpr ?_, typed, fits, ?_⟩
    · exact (Memory.Tiled.mem_listing_iff tiles' _ _).mpr ⟨block, mem, live, rfl, rfl⟩
    · intro i lower upper
      rw [rep.pos_addr mem] at lower upper
      apply steady.bare gap gap_mem free i (by omega)
      exact Nat.lt_of_lt_of_le upper limit
  · exact steady.keepsBlocks rep created.kept

/-- If a machine has been collected and no free tile is large enough, then no gap is. -/
theorem short (steady : Ready program machine ready tiles store) (joined : Joined tiles)
    (covers : ∀ tile ∈ tiles, tile.isFree = false → ∀ i, tile.pos ≤ i → i < tile.limit →
      machine.memory.Covered program machine.roots i) {size : Nat}
    (full : ∀ tile ∈ tiles, tile.isFree = true → tile.header.size < size)
    {cause : Option Shortage} (shown : cause.isSome ↔ named) :
    AllocatesExactly program machine type size named (.error (.ofShortage cause) ready) := by
  have crowded : ¬ machine.Roomy program size := by
    intro roomy
    rcases roomy with ⟨first, limit, isGap, enough⟩
    have inside := isGap.inside
    rw [← steady.capacity] at inside
    rcases steady.heap.spans.exists_free joined isGap.proper (Nat.zero_le _) inside
        (fun tile mem live i lower upper within =>
          isGap.bare i lower upper (covers tile mem live i within.1 within.2)) with
      ⟨tile, mem, free, lower, upper⟩
    have small := full tile mem free
    simp only [Tile.limit] at upper
    omega
  have kept : KeepsBlocks program machine ready :=
    steady.keepsBlocks steady.heap.toRepresents fun tile mem _ => ⟨mem, .refl _ _ _⟩
  cases cause with
  | some cause =>
      have named : named := shown.mp rfl
      refine ⟨iff_of_true ⟨cause, ready, rfl⟩ ⟨crowded, named⟩, ?_,
        fun roomy => absurd roomy crowded, kept⟩
      refine iff_of_false ?_ fun both => both.2 named
      intro stops
      rcases stops with ⟨unsaid, last, same⟩
      cases same
  | none =>
      have unnamed : ¬ named := by
        intro named
        cases shown.mpr named
      refine ⟨?_, iff_of_true ⟨.shortage, ready, rfl⟩ ⟨crowded, unnamed⟩,
        fun roomy => absurd roomy crowded, kept⟩
      refine iff_of_false ?_ fun both => unnamed both.2
      intro short
      rcases short with ⟨cause, last, same⟩
      cases same

end Ready

/-- An allocation tries, collects if there is no room, and tries once more. -/
theorem allocate_exact {attempt : Memory.Op (Option Addr)} {shortage : Machine → Option Shortage}
    (shown : ∀ after, after.program = program → ((shortage after).isSome ↔ named))
    (heap : Heap program machine.memory tiles store) (same : machine.program = program)
    (orderly : program.Orderly) (rooted : store.Roots machine.roots)
    (known : program.type? type = some descriptor)
    (requests : Requests program attempt type descriptor length) :
    AllocatesExactly program machine type (headerSize + descriptor.payload length) named
      (allocate attempt shortage machine) := by
  rcases requests _ _ _ heap with ⟨none, _⟩ | ⟨addr, after, tiles', ran, created⟩
  · rcases collectGarbage_eq heap same orderly rooted with
      ⟨report, memory, log, swept, ran, collected⟩
    have steady : Ready program machine { machine with memory, log } swept _ :=
      ready_collected heap orderly collected
    rw [allocate, bind_of_ok (onMemory_of_ok none)]
    show AllocatesExactly _ _ _ _ _ ((collectGarbage >>= _) machine)
    rw [bind_of_ok ran]
    rcases requests _ _ _ steady.heap with ⟨none', full⟩ | ⟨addr, after, tiles', ran', created⟩
    · rw [bind_of_ok (onMemory_of_ok none')]
      refine steady.short collected.joined ?_ full (shown _ same)
      intro tile mem live i lower upper
      exact (collected.covered_iff heap.toRepresents orderly).mpr ⟨tile, mem, live, lower, upper⟩
    · rw [bind_of_ok (onMemory_of_ok ran')]
      exact steady.found known created
  · rw [allocate, bind_of_ok (onMemory_of_ok ran)]
    exact (ready_now heap orderly).found known created

namespace Sound

variable {origin : Origin program}

theorem allocateObject_exact (sound : Sound origin machine) {c : ClassDescriptor}
    (known : program.class? type = some c) :
    AllocatesExactly program machine type (headerSize + c.size) True
      (allocateObject type machine) := by
  rcases sound with ⟨pairing, alike⟩
  rcases alike.heaps with ⟨tiles, _, store, _, heap, _, joins⟩
  have isClass := Program.class?_eq_some_iff.mp known
  have shown : program.typeName? type = some c.name :=
    Program.typeName?_eq_some_iff.mpr (.ofClass isClass)
  rw [allocateObject, observe_bind, alike.left_program, known]
  refine allocate_exact ?_ heap alike.left_program origin.linked.orderly (alike.rooted joins)
    isClass (requests_newObject origin known)
  intro after same
  rw [same, shown]
  exact iff_of_true rfl trivial

theorem allocateArray_exact (sound : Sound origin machine) {a : ArrayDescriptor}
    (known : program.array? type = some a) (length : Nat) :
    AllocatesExactly program machine type
      (headerSize + (lengthSize + length * a.elementKind.width)) (program.Founded a.element)
      (allocateArray type length machine) := by
  rcases sound with ⟨pairing, alike⟩
  rcases alike.heaps with ⟨tiles, _, store, _, heap, _, joins⟩
  rw [allocateArray, observe_bind, alike.left_program, known]
  refine allocate_exact ?_ heap alike.left_program origin.linked.orderly (alike.rooted joins)
    (Program.array?_eq_some_iff.mp known) (requests_newArray origin known length)
  intro after same
  rw [same, Option.isSome_map]
  exact Program.isSome_typeName?_iff

end Sound

/-- In every session, a request for an instance or an array runs short exactly if no gap between the
blocks that the machine can reach is large enough for it. It then ends with a shortage, unless the
elements are arrays without end. The tags of blocks have 31 bits and the largest marks free space,
so they tell that many types apart. -/
theorem reached_allocatesExactly {image : Image} {program : Program} {machine : Machine}
    (linked : image.link = .ok program) (few : program.types.size < 2 ^ 31 - 1)
    (reached : Reached program machine) :
    (∀ type c, program.class? type = some c →
      AllocatesExactly program machine type (headerSize + c.size) True
        (allocateObject type machine)) ∧
    ∀ type a length, program.array? type = some a →
      AllocatesExactly program machine type
        (headerSize + (lengthSize + length * a.elementKind.width)) (program.Founded a.element)
        (allocateArray type length machine) := by
  rcases reached.sound (Program.linked_of_link linked) few with ⟨origin, sound⟩
  exact ⟨fun _ _ known => sound.allocateObject_exact known,
    fun _ _ length known => sound.allocateArray_exact known length⟩

theorem reached_allocatesExactly_writingMachine :
    nodeImage.link = .ok nodeProgram ∧ nodeProgram.types.size < 2 ^ 31 - 1 ∧
      Reached nodeProgram writingMachine ∧ nodeProgram.class? ⟨4⟩ = some nodeClass ∧
      AllocatesExactly nodeProgram writingMachine ⟨4⟩ (headerSize + nodeClass.size) True
        (allocateObject ⟨4⟩ writingMachine) := by
  have known : nodeProgram.class? ⟨4⟩ = some nodeClass := by decide +kernel
  exact ⟨link_nodeImage, by decide, reached_writingMachine, known,
    (reached_allocatesExactly link_nodeImage (by decide) reached_writingMachine).1 _ _ known⟩

theorem not_roomy_of_capacity {size : Nat} (large : machine.memory.capacity < size) :
    ¬ machine.Roomy program size := by
  intro roomy
  rcases roomy with ⟨first, limit, isGap, enough⟩
  have inside := isGap.inside
  omega

def endlessMachine (limits : Limits) : Machine :=
  (boot endlessProgram limits [] .off).toOption.getD default

theorem reached_endlessMachine {limits : Limits}
    (usable : (boot endlessProgram limits [] .off).toOption.isSome) :
    Reached endlessProgram (endlessMachine limits) :=
  .boot (Except.eq_ok_getD usable)

theorem array?_endlessProgram : endlessProgram.array? ⟨4⟩ = some ⟨⟨4⟩, .ref⟩ := rfl

/-- Such an array that is larger than the heap is asked for. There is no gap for it, and no shortage
is reported. -/
theorem not_exhausted_endlessMachine :
    endlessImage.link = .ok endlessProgram ∧ endlessProgram.types.size < 2 ^ 31 - 1 ∧
      Reached endlessProgram (endlessMachine ⟨64, 2, 4⟩) ∧
      ∃ a, endlessProgram.array? ⟨4⟩ = some a ∧
        ¬ ((∃ cause after, allocateArray ⟨4⟩ 100 (endlessMachine ⟨64, 2, 4⟩) =
            .error (.error (.shortage cause)) after) ↔
          ¬ (endlessMachine ⟨64, 2, 4⟩).Roomy endlessProgram
            (headerSize + (lengthSize + 100 * a.elementKind.width))) := by
  have few : endlessProgram.types.size < 2 ^ 31 - 1 := by decide
  have reached : Reached endlessProgram (endlessMachine ⟨64, 2, 4⟩) :=
    reached_endlessMachine (by decide +kernel)
  rcases reached.sound (Program.linked_of_link link_endlessImage) few with ⟨origin, sound⟩
  refine ⟨link_endlessImage, few, reached, _, array?_endlessProgram, ?_⟩
  intro claimed
  have crowded : ¬ (endlessMachine ⟨64, 2, 4⟩).Roomy endlessProgram
      (headerSize + (lengthSize + 100 * Kind.width .ref)) :=
    not_roomy_of_capacity (by decide +kernel)
  have exact := sound.allocateArray_exact array?_endlessProgram 100
  exact Program.not_founded_endlessProgram (exact.exhausted.mp (claimed.mpr crowded)).2

end Machine
end ObjectMachine
