import ObjectMachine.Proofs.Callers
import ObjectMachine.Proofs.CheckedSessions
import ObjectMachine.Proofs.Dispatch
import ObjectMachine.Proofs.FrameLives
import ObjectMachine.Proofs.Receivers

/-!
# Well-formed frames

The outermost frame is the one that a session was started with, and the others were put above it by
calls. In every session there are no more frames than calls may be deep and no more values on a
stack than it has room for. A frame has the arguments and local variables that its method declares.
A frame of a call has a receiver if its method belongs to a class, and the receiver is a live
instance of that class.
-/

namespace ObjectMachine

/-!
## Frames
-/

namespace Frame

/-- A frame has the slots of its method, and no more values on its stack than there may be. -/
structure Shaped (program : Program) (limits : Limits) (frame : Frame) : Prop where
  capacity : frame.capacity = limits.stackCapacity
  stack : frame.stack.length ≤ frame.capacity
  slots : ∃ method, program.method? frame.method = some method ∧
    frame.locals.map Value.kind = method.locals.map program.kindOf ∧
    frame.args.length = method.params.length

/-- A frame has a receiver if its method belongs to a class, and then one of that class. The type of
the receiver is known if types are no tags of free blocks. -/
structure Received (program : Program) (memory : Memory) (frame : Frame) : Prop where
  owned : ∀ method, program.method? frame.method = some method →
    (frame.receiver ≠ .null ↔ method.owner.isSome)
  typed : program.Tagged → ∀ method owner, program.method? frame.method = some method →
    method.owner = some owner → ∃ actual, memory.typeOf frame.receiver = .ok actual ∧
      program.isSubclass actual owner = true

variable {program : Program} {limits : Limits} {memory : Memory} {frame after : Frame}

theorem Shaped.ages (shaped : frame.Shaped program limits) (ages : frame.Ages after) :
    after.Shaped program limits := by
  rcases shaped.slots with ⟨method, known, locals, args⟩
  refine ⟨ages.capacity.trans shaped.capacity, ?_, method, ?_, ages.locals.trans locals, ?_⟩
  · rw [ages.capacity]
    exact ages.stack shaped.stack
  · rw [ages.method]
    exact known
  · rw [← args]
    simpa using congrArg List.length ages.args

theorem Received.ages (received : frame.Received program memory) (ages : frame.Ages after) :
    after.Received program memory := by
  refine ⟨?_, ?_⟩
  · rw [ages.method, ages.receiver]
    exact received.owned
  · rw [ages.method, ages.receiver]
    exact received.typed

theorem Received.retype {memory' : Memory} (received : frame.Received program memory)
    (same : program.Tagged → frame.receiver ≠ .null →
      memory'.typeOf frame.receiver = memory.typeOf frame.receiver) :
    frame.Received program memory' := by
  refine ⟨received.owned, ?_⟩
  intro tagged method owner known owned
  have proper : frame.receiver ≠ .null := by
    rw [received.owned method known, owned]
    rfl
  rw [same tagged proper]
  exact received.typed tagged method owner known owned

theorem shaped_enter {target : MethodRef} {called : MethodDescriptor} {args : List Value}
    (known : program.method? target = some called) (count : args.length = called.params.length)
    (receiver : Addr) (limits : Limits) :
    (enter program target receiver args limits.stackCapacity).Shaped program limits := by
  refine ⟨rfl, Nat.zero_le _, called, known, ?_, count⟩
  simp [enter, known]

end Frame

/-!
## Call stacks
-/

/-- A call stack: a first frame, which has no receiver and no arguments, and frames of calls. -/
inductive Stacked (program : Program) (limits : Limits) (memory : Memory) : List Frame → Prop where
  | none : Stacked program limits memory []
  | first {frame : Frame} : frame.Shaped program limits → frame.receiver = .null →
      frame.args = [] → Stacked program limits memory [frame]
  | called {frame caller : Frame} {rest : List Frame} : frame.Shaped program limits →
      frame.Received program memory → Stacked program limits memory (caller :: rest) →
      Stacked program limits memory (frame :: caller :: rest)

namespace Stacked

variable {program : Program} {limits : Limits} {memory : Memory} {frame after : Frame}
  {frames rest : List Frame}

theorem tail (stacked : Stacked program limits memory (frame :: rest)) :
    Stacked program limits memory rest := by
  cases stacked with
  | first _ _ _ => exact .none
  | called _ _ below => exact below

theorem replace (stacked : Stacked program limits memory (frame :: rest))
    (ages : frame.Ages after) : Stacked program limits memory (after :: rest) := by
  cases stacked with
  | first shaped null bare =>
      refine .first (shaped.ages ages) (ages.receiver.trans null) ?_
      have kinds := ages.args
      rw [bare] at kinds
      exact List.map_eq_nil_iff.mp kinds
  | called shaped received below => exact .called (shaped.ages ages) (received.ages ages) below

theorem ages (stacked : Stacked program limits memory frames) {frames' : List Frame}
    (ages : FramesAge frames frames') : Stacked program limits memory frames' := by
  cases ages with
  | none => exact stacked
  | top ages => exact stacked.replace ages

theorem retype (stacked : Stacked program limits memory frames) {memory' : Memory}
    (same : program.Tagged → ∀ addr ∈ frames.map Frame.receiver, addr ≠ .null →
      memory'.typeOf addr = memory.typeOf addr) : Stacked program limits memory' frames := by
  induction stacked with
  | none => exact .none
  | first shaped null bare => exact .first shaped null bare
  | called shaped received _ ih =>
      refine .called shaped (received.retype ?_) (ih ?_)
      · intro tagged proper
        exact same tagged _ List.mem_cons_self proper
      · intro tagged addr mem
        exact same tagged addr (List.mem_cons_of_mem _ mem)

theorem shaped (stacked : Stacked program limits memory frames) :
    ∀ frame ∈ frames, frame.Shaped program limits := by
  induction stacked with
  | none => exact nofun
  | first shaped _ _ => exact List.forall_mem_singleton.mpr shaped
  | called shaped _ _ ih => exact List.forall_mem_cons.mpr ⟨shaped, ih⟩

theorem received (stacked : Stacked program limits memory frames) :
    ∀ frame ∈ frames.dropLast, frame.Received program memory := by
  induction stacked with
  | none => exact nofun
  | first _ _ _ => exact nofun
  | called _ received _ ih => exact List.forall_mem_cons.mpr ⟨received, ih⟩

theorem bare (stacked : Stacked program limits memory frames) :
    ∀ frame ∈ frames.getLast?, frame.receiver = .null ∧ frame.args = [] := by
  induction stacked with
  | none => exact nofun
  | first _ null bare =>
      intro frame last
      cases last
      exact ⟨null, bare⟩
  | called _ _ _ ih =>
      intro frame last
      rw [List.getLast?_cons_cons] at last
      exact ih frame last

end Stacked

namespace Machine

variable {program : Program} {limits : Limits} {machine after : Machine}

/-!
## Machines
-/

structure Formed (program : Program) (limits : Limits) (machine : Machine) : Prop where
  runs : machine.program = program
  limited : machine.limits = limits
  depth : machine.frames.length ≤ max 1 limits.callDepth
  frames : Stacked program limits machine.memory machine.frames
  sound : program.Tagged → ∃ origin : Origin program, Sound origin machine

theorem formed_of_boot (linked : program.Linked) {input : List UInt8} {log : Log}
    (booted : boot program limits input log = .ok machine) : Formed program limits machine := by
  have sound : program.Tagged → ∃ origin : Origin program, Sound origin machine :=
    fun tagged => ⟨_, sound_of_boot linked tagged booted⟩
  rcases Except.bind_eq_ok_iff.mp booted with ⟨memory, _, same⟩
  cases same
  exact ⟨rfl, rfl, Nat.zero_le _, .none, sound⟩

/-- A call that enters a method does so with what the method wants. -/
theorem Enters.received {image : Image} (linked : image.link = .ok machine.program) {entry : Entry}
    {method : MethodRef} {isVirtual : Bool} {frame : Frame} {rest : List Frame}
    (enters : Enters entry method isVirtual machine frame rest after) :
    entry.args.length = entry.called.params.length ∧
      (Frame.enter machine.program entry.target entry.receiver entry.args
        machine.limits.stackCapacity).Received machine.program machine.memory := by
  have count : entry.args.length = entry.named.params.length := by
    simpa using congrArg List.length enters.kinds
  have found : ∀ called, machine.program.method? entry.target = some called →
      called = entry.called := by
    intro called known
    rw [enters.called] at known
    cases known
    rfl
  cases isVirtual with
  | false =>
      have same : entry.called = entry.named := by
        have known := enters.called
        rw [enters.direct rfl, enters.named] at known
        exact (Option.some.inj known).symm
      refine ⟨by rw [same]; exact count, ?_, ?_⟩
      · intro called known
        rw [found called known, same]
        cases owned : entry.named.owner with
        | none => exact iff_of_false (fun proper => proper (enters.receiver.free owned)) nofun
        | some owner => exact iff_of_true (enters.receiver.owned owner owned).1 rfl
      · intro _ called owner known owned
        rw [found called known, same] at owned
        exact (enters.receiver.owned owner owned).2
  | true =>
      rcases enters.virtual rfl with ⟨arity, actual, typed, resolved⟩
      rcases Program.dispatched linked resolved enters.called with ⟨owner, owned, descends⟩
      refine ⟨arity.symm, ?_, ?_⟩
      · intro called known
        rw [found called known, owned]
        rcases Option.isSome_iff_exists.mp (enters.receiver.virtual rfl) with ⟨owner', owned'⟩
        exact iff_of_true (enters.receiver.owned owner' owned').1 rfl
      · intro _ called owner' known owned'
        rw [found called known, owned] at owned'
        cases owned'
        exact ⟨actual, typed, descends⟩

namespace Formed

theorem within {writes : Prop} (formed : Formed program limits machine)
    (within : Within writes machine after)
    (sound : program.Tagged → ∃ origin : Origin program, Sound origin after)
    (retains : program.Tagged → Retains machine after) : Formed program limits after := by
  refine ⟨within.program.trans formed.runs, within.limits.trans formed.limited, ?_, ?_, sound⟩
  · rw [within.frames.length_eq]
    exact formed.depth
  · exact (formed.frames.retype fun tagged => (retains tagged).types).ages within.frames

theorem enters {image : Image} (formed : Formed program limits machine)
    (linked : image.link = .ok program) {entry : Entry} {method : MethodRef} {isVirtual : Bool}
    {frame : Frame} {rest : List Frame} (top : machine.frames = frame :: rest)
    (enters : Enters entry method isVirtual machine { frame with ip := frame.ip + 1 } rest after)
    (sound : program.Tagged → ∃ origin : Origin program, Sound origin after) :
    Formed program limits after := by
  refine ⟨enters.program.trans formed.runs, enters.limits.trans formed.limited, ?_, ?_, sound⟩
  · have depth := enters.depth
    rw [formed.limited, top, List.length_cons] at depth
    rw [enters.frames, List.length_cons, List.length_cons]
    omega
  · have frames := formed.frames
    rw [← formed.runs] at linked frames ⊢
    rw [top] at frames
    rcases enters.received linked with ⟨count, received⟩
    rw [enters.frames, enters.memory, formed.limited]
    rw [formed.limited] at received
    exact .called (Frame.shaped_enter enters.called count _ _) received
      (frames.replace enters.caller_ages)

theorem leaves (formed : Formed program limits machine) {results : List Value} {frame : Frame}
    {rest : List Frame} (top : machine.frames = frame :: rest)
    (leaves : Leaves results rest machine after)
    (sound : program.Tagged → ∃ origin : Origin program, Sound origin after) :
    Formed program limits after := by
  refine ⟨leaves.program.trans formed.runs, leaves.limits.trans formed.limited, ?_, ?_, sound⟩
  · have depth := formed.depth
    rw [top, List.length_cons] at depth
    rw [leaves.frames, List.length_modifyHead]
    omega
  · have frames := formed.frames
    rw [top] at frames
    rw [leaves.frames, leaves.memory]
    cases rest with
    | nil => exact .none
    | cons caller callers => exact frames.tail.replace (leaves.ages caller rfl)

theorem step {image : Image} (formed : Formed program limits machine)
    (linked : image.link = .ok program) :
    Formed program limits (lastState (Machine.step machine)) := by
  have sound : program.Tagged →
      ∃ origin : Origin program, Sound origin (lastState (Machine.step machine)) := by
    intro tagged
    rcases formed.sound tagged with ⟨origin, sound⟩
    exact ⟨origin, sound.step.sound⟩
  rcases step_cases machine with
    ⟨e, failed⟩ | ⟨frame, rest, method, insn, log, top, known, at_ip, executes⟩
  · rw [failed]
    exact formed
  · have retains : Within insn.opcode.Writes machine (lastState (Machine.step machine)) →
        program.Tagged → Retains machine (lastState (Machine.step machine)) := by
      intro within tagged
      rcases formed.sound tagged with ⟨origin, sound⟩
      exact sound.retains_step top known at_ip executes within
    have turns := turns_step top executes
    generalize Machine.step machine = outcome at sound retains turns ⊢
    cases turns with
    | stays within => exact formed.within within sound (retains within)
    | enters _ _ enters => exact formed.enters linked top enters sound
    | drops leaves => exact formed.leaves top leaves sound
    | leaves _ _ leaves => exact formed.leaves top leaves sound

theorem collect (formed : Formed program limits machine) :
    Formed program limits (lastState (collectGarbage machine)) := by
  refine formed.within (within_collectGarbage machine) ?_ ?_
  · intro tagged
    rcases formed.sound tagged with ⟨origin, sound⟩
    exact ⟨origin, sound.collect.sound⟩
  · intro tagged
    rcases formed.sound tagged with ⟨origin, pairing, alike⟩
    exact alike.retains_collect

theorem start (formed : Formed program limits machine) (entry : MethodRef) :
    Formed program limits (lastState (Machine.start entry machine)) := by
  rcases start_cases entry machine with ⟨cause, refused⟩ | ⟨log, started⟩
  · rw [refused]
    exact formed
  · have upholds := @start_upholds ⟨False, False⟩ program machine formed.runs nofun entry nofun
    have sound : program.Tagged → ∃ origin : Origin program,
        Sound origin (lastState (Machine.start entry machine)) := by
      intro tagged
      rcases formed.sound tagged with ⟨origin, sound⟩
      exact ⟨origin, (sound.start entry).sound⟩
    rw [started] at upholds sound
    rw [started]
    rcases upholds.frames _ (List.mem_singleton_self _) with ⟨method, known, fits⟩
    refine ⟨formed.runs, formed.limited, Nat.le_max_left _ _, .first ?_ rfl rfl, sound⟩
    rw [formed.runs, formed.limited]
    exact Frame.shaped_enter known fits.args _ _

theorem with_frames_nil (formed : Formed program limits machine) (log : Log) :
    Formed program limits { machine with log, frames := [] } := by
  refine ⟨formed.runs, formed.limited, Nat.zero_le _, .none, ?_⟩
  intro tagged
  rcases formed.sound tagged with ⟨origin, sound⟩
  exact ⟨origin, sound.with_frames_nil log⟩

end Formed

theorem invariant_formed {image : Image} (linked : image.link = .ok program) :
    Invariant (Formed program limits) where
  start _ entry formed := formed.start entry
  step _ formed := formed.step linked
  collect _ formed := formed.collect
  clear _ log formed := formed.with_frames_nil log

/-!
## Sessions
-/

/-- The frames of a machine for a program keep within limits and are what their methods want. -/
structure WellFormed (program : Program) (limits : Limits) (machine : Machine) : Prop where
  depth : machine.frames.length ≤ max 1 limits.callDepth
  stack : ∀ frame ∈ machine.frames, frame.stack.length ≤ limits.stackCapacity
  /-- The local variables and arguments are those that the method declares. -/
  slots : ∀ frame ∈ machine.frames, ∃ method, program.method? frame.method = some method ∧
    frame.locals.map Value.kind = method.locals.map program.kindOf ∧
    frame.args.length = method.params.length
  /-- As long as a frame lives, its arguments are of the same kinds. -/
  lives : ∀ height after, Lives height machine after →
    ∃ frame frame', machine.frames.reverse[height]? = some frame ∧
      after.frames.reverse[height]? = some frame' ∧ frame'.method = frame.method ∧
      frame'.args.map Value.kind = frame.args.map Value.kind
  /-- The outermost frame was put there at the start, and all others by calls. -/
  first : ∀ frame ∈ machine.frames.getLast?, frame.receiver = .null ∧ frame.args = []
  receivers : ∀ frame ∈ machine.frames.dropLast, ∀ method,
    program.method? frame.method = some method →
    (frame.receiver ≠ .null ↔ method.owner.isSome)
  /-- The receiver of a call is a live instance of the class that the method belongs to. A block
  has 31 bits for its type, and their largest value marks free space: with more types than that,
  its header no longer tells the class of an object. -/
  classes : program.types.size < 2 ^ 31 - 1 → ∀ frame ∈ machine.frames.dropLast,
    ∀ method owner, program.method? frame.method = some method → method.owner = some owner →
    ∃ header, machine.memory.Lists frame.receiver header ∧
      program.isSubclass header.type owner = true

theorem Sound.lists {program : Program} {origin : Origin program} (sound : Sound origin machine)
    {frame : Frame} (mem : frame ∈ machine.frames) (proper : frame.receiver ≠ .null)
    {actual : TypeRef} (typed : machine.memory.typeOf frame.receiver = .ok actual) :
    ∃ header, machine.memory.Lists frame.receiver header ∧ header.type = actual := by
  rcases sound.heapSafe.receivers frame mem with null | ⟨header, lists⟩
  · exact absurd null proper
  · refine ⟨header, lists, ?_⟩
    rcases sound with ⟨pairing, alike⟩
    rcases alike.heaps with ⟨_, _, _, _, heap, _, _⟩
    rcases heap.object_of_lists lists with ⟨object, found, type⟩
    have known := heap.typeOf_eq found
    rw [typed] at known
    cases known
    exact type.symm

theorem Formed.wellFormed {program : Program} {limits : Limits}
    (formed : Formed program limits machine) : WellFormed program limits machine := by
  refine ⟨formed.depth, ?_, ?_, ?_, formed.frames.bare, ?_, ?_⟩
  · intro frame mem
    have shaped := formed.frames.shaped frame mem
    rw [← shaped.capacity]
    exact shaped.stack
  · intro frame mem
    exact (formed.frames.shaped frame mem).slots
  · intro height after lives
    rcases lives.ages with ⟨frame, frame', at_height, at_height', ages⟩
    exact ⟨frame, frame', at_height, at_height', ages.method, ages.args⟩
  · intro frame mem
    exact (formed.frames.received frame mem).owned
  · intro few frame mem method owner known owned
    have received := formed.frames.received frame mem
    rcases received.typed few method owner known owned with ⟨actual, typed, descends⟩
    rcases formed.sound few with ⟨origin, sound⟩
    have proper : frame.receiver ≠ .null := by
      rw [received.owned method known, owned]
      rfl
    rcases sound.lists (List.dropLast_subset _ mem) proper typed with ⟨header, lists, rfl⟩
    exact ⟨header, lists, descends⟩

/-- Whatever is called on a machine, its frames are well formed. -/
theorem performAll_wellFormed {image : Image} {program : Program} {limits : Limits}
    {input : List UInt8} {log : Log} {machine : Machine} (linked : image.link = .ok program)
    (booted : boot program limits input log = .ok machine) {calls : List Call} {after : Machine}
    (done : machine.performAll calls = some after) : WellFormed program limits after := by
  have formed := formed_of_boot (Program.linked_of_link linked) booted
  exact ((invariant_formed linked).performAll formed done).wellFormed

/-- A square has just been asked for its size. -/
theorem performAll_wellFormed_shapeProgram :
    shapeImage.link = .ok shapeProgram ∧
      ∃ machine after, boot shapeProgram ⟨64, 2, 4⟩ [] .off = .ok machine ∧
        machine.performAll [.runMain 3, .step] = some after ∧
        after.receivers = [⟨0⟩, .null] ∧ WellFormed shapeProgram ⟨64, 2, 4⟩ after := by
  have booted : boot shapeProgram ⟨64, 2, 4⟩ [] .off =
      .ok ((boot shapeProgram ⟨64, 2, 4⟩ [] .off).toOption.getD default) :=
    Except.eq_ok_getD (by decide +kernel)
  have returned : (((boot shapeProgram ⟨64, 2, 4⟩ [] .off).toOption.getD default).performAll
      [.runMain 3, .step]).map receivers = some [⟨0⟩, .null] := by decide +kernel
  rcases Option.map_eq_some_iff.mp returned with ⟨after, done, receivers⟩
  exact ⟨link_shapeImage, _, after, booted, done, receivers,
    performAll_wellFormed link_shapeImage booted done⟩

end Machine
end ObjectMachine
