import ObjectMachine.Proofs.HeapInstructions

/-!
# Instructions that allocate

The frames name every object that a machine can still get at, so a collection keeps all of them: on
one of two alike machines it takes from the pairing only what neither can reach any more. That is
why a collection may happen on one machine and not on the other. After an allocation that succeeds
on both, the new objects are paired.
-/

namespace ObjectMachine

/-!
## Roots
-/

theorem Frame.mem_roots_iff {frame : Frame} {addr : Addr} :
    addr ∈ frame.roots ↔ addr ≠ .null ∧ (addr = frame.receiver ∨ .ref addr ∈ frame.args ∨
      .ref addr ∈ frame.locals ∨ .ref addr ∈ frame.stack) := by
  have receiver : addr ∈ (if frame.receiver.isNull then [] else [frame.receiver]) ↔
      addr ≠ .null ∧ addr = frame.receiver := by
    by_cases null : frame.receiver = .null
    · simp [Addr.isNull, null]
    · simp only [Addr.isNull, beq_iff_eq, null, if_false, List.mem_singleton]
      constructor
      · intro equal
        subst equal
        exact ⟨null, rfl⟩
      · exact And.right
  simp only [Frame.roots, List.mem_append, receiver, List.mem_filterMap, List.mem_reverse,
    Value.root?_eq_some_iff]
  constructor
  · intro either
    rcases either with ⟨proper, same⟩ | ⟨value, mem, rfl, proper⟩
    · exact ⟨proper, Or.inl same⟩
    · exact ⟨proper, Or.inr (by simpa only [or_assoc] using mem)⟩
  · intro both
    rcases both with ⟨proper, same | mem⟩
    · exact Or.inl ⟨proper, same⟩
    · exact Or.inr ⟨_, by simpa only [or_assoc] using mem, rfl, proper⟩

theorem Machine.mem_roots_iff {machine : Machine} {addr : Addr} :
    addr ∈ machine.roots ↔ ∃ frame ∈ machine.frames, addr ∈ frame.roots := by
  simp [Machine.roots]

namespace Frame.Alike

variable {pairing : Pairing} {frame other : Frame}

theorem root (alike : Frame.Alike pairing frame other) {a : Addr} (mem : a ∈ frame.roots) :
    ∃ a' ∈ other.roots, pairing.addr a a' := by
  rcases Frame.mem_roots_iff.mp mem with ⟨proper, rfl | mem | mem | mem⟩
  · rcases alike.receiver with ⟨null, _⟩ | paired
    · exact absurd null proper
    · exact ⟨_, Frame.mem_roots_iff.mpr ⟨(pairing.proper paired).2, Or.inl rfl⟩, paired⟩
  · rcases alike.args.addr_of_mem mem proper with ⟨a', mem', paired⟩
    exact ⟨a', Frame.mem_roots_iff.mpr ⟨(pairing.proper paired).2, Or.inr (Or.inl mem')⟩, paired⟩
  · rcases alike.locals.addr_of_mem mem proper with ⟨a', mem', paired⟩
    exact ⟨a', Frame.mem_roots_iff.mpr ⟨(pairing.proper paired).2,
      Or.inr (Or.inr (Or.inl mem'))⟩, paired⟩
  · rcases alike.stack.addr_of_mem mem proper with ⟨a', mem', paired⟩
    exact ⟨a', Frame.mem_roots_iff.mpr ⟨(pairing.proper paired).2,
      Or.inr (Or.inr (Or.inr mem'))⟩, paired⟩

theorem map (alike : Frame.Alike pairing frame other) {changed : Pairing}
    (strings : ∀ {r r' : StrRef}, pairing.str r r' → changed.str r r')
    (addrs : ∀ {a a' : Addr}, a ∈ frame.roots → pairing.addr a a' → changed.addr a a') :
    Frame.Alike changed frame other := by
  refine ⟨alike.method, alike.ip, ?_, alike.args.map strings ?_, alike.locals.map strings ?_,
    alike.stack.map strings ?_⟩
  · rcases alike.receiver with null | paired
    · exact Or.inl null
    · exact Or.inr (addrs (mem_roots_iff.mpr ⟨(pairing.proper paired).1, Or.inl rfl⟩) paired)
  · intro a a' mem _ paired
    exact addrs (mem_roots_iff.mpr ⟨(pairing.proper paired).1, Or.inr (Or.inl mem)⟩) paired
  · intro a a' mem _ paired
    exact addrs (mem_roots_iff.mpr ⟨(pairing.proper paired).1, Or.inr (Or.inr (Or.inl mem))⟩) paired
  · intro a a' mem _ paired
    exact addrs (mem_roots_iff.mpr ⟨(pairing.proper paired).1, Or.inr (Or.inr (Or.inr mem))⟩) paired

end Frame.Alike

namespace Machine

variable {program : Program} {origin origin' : Origin program} {pairing : Pairing}
  {machine other : Machine}

namespace Alike

theorem root (alike : Alike origin origin' pairing machine other) {a : Addr}
    (mem : a ∈ machine.roots) : ∃ a' ∈ other.roots, pairing.addr a a' := by
  rcases mem_roots_iff.mp mem with ⟨frame, frame_mem, mem⟩
  rcases forall₂_exists_of_mem alike.frames frame_mem with ⟨frame', frame_mem', same⟩
  rcases same.root mem with ⟨a', mem', paired⟩
  exact ⟨a', mem_roots_iff.mpr ⟨frame', frame_mem', mem'⟩, paired⟩

theorem restrict_frames (alike : Alike origin origin' pairing machine other) {keep : Addr → Prop}
    (kept : ∀ a ∈ machine.roots, a ≠ .null → keep a) :
    List.Forall₂ (Frame.Alike (pairing.restrict keep)) machine.frames other.frames := by
  apply forall₂_imp_of_mem alike.frames
  intro frame mem frame' _ same
  refine same.map id ?_
  intro a a' root paired
  exact ⟨paired, kept a (mem_roots_iff.mpr ⟨frame, mem, root⟩) (pairing.proper paired).1⟩

theorem rooted (alike : Alike origin origin' pairing machine other) {store store' : Store}
    (joins : pairing.Joins store store') : store.Roots machine.roots := by
  intro a mem _
  rcases alike.root mem with ⟨a', _, paired⟩
  rcases joins a a' paired with ⟨object, _, found, _⟩
  rw [found]
  rfl

end Alike

theorem collectGarbage_eq {tiles : List Tile} {store : Store}
    (heap : Heap program machine.memory tiles store) (same : machine.program = program)
    (orderly : program.Orderly) (rooted : store.Roots machine.roots) :
    ∃ report memory log swept, collectGarbage machine = .ok report { machine with memory, log } ∧
      Collected program machine.memory memory tiles swept store machine.roots report := by
  rcases heap.collect_eq heap.unmarked orderly heap.closed rooted with
    ⟨report, memory, swept, ran, collected⟩
  rw [← same] at ran
  have ran' : onMemory (Memory.collect machine.program machine.roots) machine =
      .ok report { machine with memory } := onMemory_of_ok ran
  rcases note_eq .debug (fun machine => machine.memory.collectionEvent) { machine with memory } with
    ⟨log, noted⟩
  refine ⟨report, memory, log, swept, ?_, collected⟩
  unfold collectGarbage
  rw [observe_bind, observe_bind, bind_of_ok ran', bind_of_ok noted]
  rfl

theorem Alike.collect (alike : Alike origin origin' pairing machine other) :
    ∃ report memory log pairing', collectGarbage machine = .ok report { machine with memory, log } ∧
      Alike origin origin' pairing' { machine with memory, log } other := by
  rcases alike.heaps with ⟨tiles, tiles', store, store', heap, heap', joins⟩
  rcases collectGarbage_eq heap alike.left_program origin.linked.orderly (alike.rooted joins) with
    ⟨report, memory, log, swept, ran, collected⟩
  exact ⟨report, memory, log, pairing.restrict (store.Reaches machine.roots), ran, { alike with
    heaps := ⟨_, _, _, _, heap.collected collected, heap', joins.trim machine.roots⟩
    frames := alike.restrict_frames fun _ => .root }⟩

/-!
## Allocation
-/

/-- A request finds no free tile with enough room and does nothing, or adds a new object to the
heap. -/
def Requests (program : Program) (attempt : Memory.Op (Option Addr)) (type : TypeRef)
    (descriptor : TypeDescriptor) (length : Nat) : Prop :=
  ∀ memory tiles store, Heap program memory tiles store →
    (attempt memory = .ok none memory ∧ ∀ tile ∈ tiles, tile.isFree = true →
      tile.header.size < headerSize + descriptor.payload length) ∨
    ∃ addr after tiles', attempt memory = .ok (some addr) after ∧
      Created program memory after tiles tiles' store addr ⟨type, descriptor.defaults length⟩

theorem requests_newObject (origin : Origin program) {type : TypeRef} {c : ClassDescriptor}
    (known : program.class? type = some c) :
    Requests program (Memory.newObject type c) type (.ofClass c) 0 := by
  intro memory tiles store heap
  have tag := origin.tagged.index_lt (Program.class?_eq_some_iff.mp known)
  rw [Nat.add_comm]
  exact heap.newObject_cases origin.linked.orderly known tag

theorem requests_newArray (origin : Origin program) {type : TypeRef} {array : ArrayDescriptor}
    (known : program.array? type = some array) (length : Nat) :
    Requests program (Memory.newArray type array length) type (.ofArray array) length := by
  intro memory tiles store heap
  have tag := origin.tagged.index_lt (Program.array?_eq_some_iff.mp known)
  rw [Nat.add_comm]
  exact heap.newArray_cases origin.linked.orderly known tag length

variable {attempt : Memory.Op (Option Addr)} {type : TypeRef} {descriptor : TypeDescriptor}
  {length : Nat} {shortage : Machine → Option Shortage}

/-- The outcome of an allocation for a machine that is ready for it: the block it asked for, or a
shortage. -/
inductive Allocates (attempt : Memory.Op (Option Addr)) (shortage : Machine → Option Shortage)
    (ready : Machine) : EStateM.Result Failure Machine Addr → Prop where
  | found {addr : Addr} {after : Memory} : attempt ready.memory = .ok (some addr) after →
      Allocates attempt shortage ready (.ok addr { ready with memory := after })
  | short : Allocates attempt shortage ready (.error (.ofShortage (shortage ready)) ready)

namespace Alike

/-- An allocation is ready at once, or after a collection. -/
theorem allocate (alike : Alike origin origin' pairing machine other)
    (requests : Requests program attempt type descriptor length)
    (shortage : Machine → Option Shortage) :
    ∃ ready pairing', Alike origin origin' pairing' ready other ∧
      Allocates attempt shortage ready (allocate attempt shortage machine) := by
  rcases alike.heaps with ⟨_, _, _, _, heap, _, _⟩
  rcases requests _ _ _ heap with ⟨full, _⟩ | ⟨addr, after, _, ran, _⟩
  · rcases alike.collect with ⟨report, memory, log, pairing', collected, alike'⟩
    refine ⟨_, pairing', alike', ?_⟩
    rw [Machine.allocate, bind_of_ok (onMemory_of_ok full)]
    show Allocates attempt shortage _ ((collectGarbage >>= _) machine)
    rw [bind_of_ok collected]
    rcases alike'.heaps with ⟨_, _, _, _, heap', _, _⟩
    rcases requests _ _ _ heap' with ⟨full', _⟩ | ⟨addr, after, _, ran, _⟩
    · rw [bind_of_ok (onMemory_of_ok full')]
      exact .short
    · rw [bind_of_ok (onMemory_of_ok ran)]
      exact .found ran
  · refine ⟨machine, pairing, alike, ?_⟩
    rw [Machine.allocate, bind_of_ok (onMemory_of_ok ran)]
    exact .found ran

theorem created (alike : Alike origin origin' pairing machine other)
    (requests : Requests program attempt type descriptor length) {a a' : Addr}
    {after after' : Memory} (ran : attempt machine.memory = .ok (some a) after)
    (ran' : attempt other.memory = .ok (some a') after') :
    ∃ pairing', Alike origin origin' pairing' { machine with memory := after }
      { other with memory := after' } ∧ pairing'.addr a a' := by
  rcases alike.heaps with ⟨_, _, _, _, heap, heap', joins⟩
  rcases requests _ _ _ heap with ⟨full, _⟩ | ⟨_, _, _, made, created⟩
  · rw [ran] at full
    cases full
  · rcases requests _ _ _ heap' with ⟨full, _⟩ | ⟨_, _, _, made', created'⟩
    · rw [ran'] at full
      cases full
    · rw [ran] at made
      rw [ran'] at made'
      cases made
      cases made'
      have proper := created.represents.ne_null (Store.set_same _ _ _)
      have proper' := created'.represents.ne_null (Store.set_same _ _ _)
      have free := joins.free proper proper' created.fresh created'.fresh
      have defaults := descriptor.defaults_alike alike.empty length
      refine ⟨pairing.insert free, { alike with
        heaps := ⟨_, _, _, _, heap.created created, heap'.created created',
          joins.insert free created.fresh created'.fresh ⟨rfl, defaults⟩⟩
        frames := ?_ }, Or.inr ⟨rfl, rfl⟩⟩
      exact alike.frames.imp fun _ _ same => same.map id fun _ => Or.inl

/-- A block is allocated, and its address is put on the stack. If only one of the machines has room
for it, that one goes on alone and stays sound. -/
theorem settleAllocation (alike : Alike origin origin' pairing machine other)
    (requests : Requests program attempt type descriptor length)
    (shortage : Machine → Option Shortage) :
    MachinesSettle origin origin'
      ((Machine.allocate attempt shortage >>= fun addr => Machine.push (.ref addr)) machine)
      ((Machine.allocate attempt shortage >>= fun addr => Machine.push (.ref addr)) other) := by
  rcases alike.allocate requests shortage with ⟨ready, _, alike₁, outcome⟩
  rcases alike₁.swap.allocate requests shortage with ⟨ready', _, alike₂, outcome'⟩
  have both := alike₂.swap
  have alone : ∀ {origin : Origin program} {pairing : Pairing} {ready : Machine} {a : Addr}
      {after : Memory}, Alike origin origin pairing ready ready →
      attempt ready.memory = .ok (some a) after →
      Safe origin (Machine.push (.ref a) { ready with memory := after }) := by
    intro origin pairing ready a after alike ran
    rcases alike.created requests ran ran with ⟨_, alike, paired⟩
    exact safe_of_settle (alike.push (.ref (Or.inr paired)))
  generalize left : Machine.allocate attempt shortage machine = result at outcome
  generalize right : Machine.allocate attempt shortage other = result' at outcome'
  cases outcome with
  | found ran =>
      rw [bind_of_ok left]
      cases outcome' with
      | found ran' =>
          rw [bind_of_ok right]
          rcases both.created requests ran ran' with ⟨_, alike, paired⟩
          exact alike.push (.ref (Or.inr paired))
      | short =>
          rw [bind_of_error right]
          exact settle_of_short_right (Failure.isShortage_ofShortage _) (alone both.diagonal ran)
            ⟨Failure.sound_ofShortage _, both.swap.sound⟩
  | short =>
      rw [bind_of_error left]
      cases outcome' with
      | found ran' =>
          rw [bind_of_ok right]
          exact settle_of_short_left (Failure.isShortage_ofShortage _)
            ⟨Failure.sound_ofShortage _, both.sound⟩ (alone both.swap.diagonal ran')
      | short =>
          rw [bind_of_error right]
          exact .shortError (Or.inl (Failure.isShortage_ofShortage _)) (Failure.sound_ofShortage _)
            (Failure.sound_ofShortage _) both.bothSound

theorem settleRequest {δ : Type} (alike : Alike origin origin' pairing machine other)
    (find : Program → Option δ) (e : Failure) (safe : ¬ e.IsCorruption)
    (attempt : δ → Memory.Op (Option Addr)) (shortage : δ → Machine → Option Shortage)
    (requests : ∀ d, find program = some d →
      ∃ descriptor, Requests program (attempt d) type descriptor length) :
    MachinesSettle origin origin'
      (((do
        let d ← Machine.orThrow (← observe fun machine => find machine.program) e
        Machine.allocate (attempt d) (shortage d)) >>= fun addr =>
          Machine.push (.ref addr)) machine)
      (((do
        let d ← Machine.orThrow (← observe fun machine => find machine.program) e
        Machine.allocate (attempt d) (shortage d)) >>= fun addr =>
          Machine.push (.ref addr)) other) := by
  cases known : find program with
  | none =>
      have fails : ∀ {machine : Machine}, machine.program = program →
          (observe (fun machine => find machine.program) >>= fun found =>
            Machine.orThrow found e >>= fun d =>
              Machine.allocate (attempt d) (shortage d)) machine = .error e machine := by
        intro machine same
        rw [observe_bind, same, known]
        rfl
      rw [bind_of_error (fails alike.left_program), bind_of_error (fails alike.right_program)]
      exact .failed safe ⟨pairing, alike⟩
  | some d =>
      have allocates : ∀ {machine : Machine}, machine.program = program →
          (observe (fun machine => find machine.program) >>= fun found =>
            Machine.orThrow found e >>= fun d =>
              Machine.allocate (attempt d) (shortage d)) machine =
            Machine.allocate (attempt d) (shortage d) machine := by
        intro machine same
        rw [observe_bind, same, known]
        rfl
      rw [bind_congr_left (allocates alike.left_program),
        bind_congr_left (allocates alike.right_program)]
      rcases requests d known with ⟨descriptor, requests⟩
      exact alike.settleAllocation requests _

theorem makeObject (alike : Alike origin origin' pairing machine other) (type : TypeRef) :
    MachinesSettle origin origin' (makeObject type machine) (Machine.makeObject type other) :=
  alike.settleRequest (fun program => program.class? type) (.error (.code (.notAClass type))) id
    (Memory.newObject type) _ fun _ known => ⟨_, requests_newObject origin known⟩

theorem makeArray (alike : Alike origin origin' pairing machine other) (type : TypeRef) :
    MachinesSettle origin origin' (makeArray type machine) (Machine.makeArray type other) := by
  apply (alike.onFrame Frame.Alike.popInt).bind
  intro length _ machine other both
  rcases both with ⟨rfl, alike⟩
  by_cases negative : length.toInt < 0
  · rw [if_pos negative]
    exact .failed id ⟨pairing, alike⟩
  · rw [if_neg negative]
    exact alike.settleRequest (fun program => program.array? type)
      (.error (.code (.notAnArrayType type))) id
      (fun array => Memory.newArray type array length.toInt.toNat) _
      fun _ known => ⟨_, requests_newArray origin known _⟩

end Alike
end Machine
end ObjectMachine
