import ObjectMachine.Proofs.CheckedMachines
import ObjectMachine.Proofs.Sessions
import ObjectMachine.Proofs.TypeNames

/-!
# Sessions with checked code

A session starts without frames, and every call leaves frames that fit their methods. So no call
ever ends with an error that linking rules out, every position is in the code of its method or right
behind it, and every branch that is taken leads to an instruction.

A run from the entry of a program needs no receiver to start with, and every method that it calls
has one if it needs one.
-/

namespace ObjectMachine
namespace Machine

variable {watch : Watch} {program : Program} {machine : Machine} {α : Type}

/-!
## Tidy machines
-/

/-- All frames fit their methods, and strings are known if they are watched. -/
structure Tidy (watch : Watch) (program : Program) (machine : Machine) : Prop
    extends Fits watch program machine where
  sound : watch.strings → ∃ origin : Origin program, Sound origin machine

abbrev EndsTidy (watch : Watch) (program : Program) : EStateM.Result Failure Machine α → Prop :=
  Upholds (Failure.Allowed watch program) (Tidy watch program) fun _ => Tidy watch program

theorem Sound.knows {origin : Origin program} (sound : Sound origin machine) :
    ∀ frame ∈ machine.frames, machine.Knows watch frame.stack := by
  rcases sound with ⟨pairing, alike⟩
  intro frame mem _ ref held
  rcases forall₂_exists_of_mem alike.frames mem with ⟨frame', _, same⟩
  rcases forall₂_exists_of_mem same.stack held with ⟨value, _, paired⟩
  cases paired with
  | str texts =>
      rcases texts with ⟨text, found, _⟩
      rw [alike.left_strings, found]
      rfl

namespace Tidy

theorem knows (tidy : Tidy watch program machine) :
    ∀ frame ∈ machine.frames, machine.Knows watch frame.stack := by
  intro frame mem watched
  rcases tidy.sound watched with ⟨origin, sound⟩
  exact sound.knows frame mem watched

theorem upholds {op : Op α} (tidy : Tidy watch program machine)
    (quiet : QuietOn watch program machine op)
    (safe : ∀ origin : Origin program, Sound origin machine → Safe origin (op machine)) :
    EndsTidy watch program (op machine) := by
  unfold QuietOn at quiet
  cases outcome : op machine with
  | ok a after =>
      rw [outcome] at quiet
      refine ⟨quiet, ?_⟩
      intro watched
      rcases tidy.sound watched with ⟨origin, sound⟩
      have safe' := safe origin sound
      rw [outcome] at safe'
      exact ⟨origin, safe'⟩
  | error e after =>
      rw [outcome] at quiet
      refine ⟨quiet.1, quiet.2, ?_⟩
      intro watched
      rcases tidy.sound watched with ⟨origin, sound⟩
      have safe' := safe origin sound
      rw [outcome] at safe'
      exact ⟨origin, safe'.2⟩

theorem with_frames_nil (tidy : Tidy watch program machine) (log : Log) :
    Tidy watch program { machine with log, frames := [] } := by
  refine ⟨⟨tidy.runs, nofun⟩, ?_⟩
  intro watched
  rcases tidy.sound watched with ⟨origin, sound⟩
  exact ⟨origin, sound.with_frames_nil log⟩

/-!
## Calls
-/

theorem step (tidy : Tidy watch program machine) (linked : program.Linked)
    (checkedCode : program.CheckedCode) :
    EndsTidy watch program (step machine) :=
  tidy.upholds (step_quietOn tidy.toFits linked checkedCode tidy.knows) fun _ sound => sound.step

theorem collect (tidy : Tidy watch program machine) :
    EndsTidy watch program (collectGarbage machine) :=
  tidy.upholds (Quiet.collectGarbage machine tidy.toFits) fun _ sound => sound.collect

theorem proceed (tidy : Tidy watch program machine) (linked : program.Linked)
    (checkedCode : program.CheckedCode) (fuel : Nat) :
    EndsTidy watch program (proceed fuel machine) := by
  induction fuel generalizing machine with
  | zero => exact tidy
  | succ fuel ih =>
      rw [Machine.proceed, observe_bind]
      cases machine.frames.isEmpty with
      | true => exact tidy
      | false =>
          refine (tidy.step linked checkedCode).bind fun status after tidy' => ?_
          cases status with
          | some status => exact tidy'
          | none => exact ih tidy'

end Tidy

/-- The first frame takes no arguments. It has no receiver, so it must need none if that is
watched. What the machine was doing before does not matter. -/
theorem start_upholds (runs : machine.program = program)
    (sound : watch.strings → ∃ origin : Origin program, Sound origin machine) {entry : MethodRef}
    (free : watch.receivers → ∀ method, program.method? entry = some method → method.owner = none) :
    Upholds (Failure.Allowed watch program) (· = machine) (fun _ => Tidy watch program)
      (start entry machine) := by
  have safe : ∀ origin : Origin program, Sound origin machine →
      Safe origin (start entry machine) := fun _ sound => sound.start entry
  have started : Upholds (Failure.Allowed watch program) (· = machine) (fun _ => Fits watch program)
      (start entry machine) := by
    unfold start
    rw [observe_bind, runs]
    cases known : program.method? entry with
    | none => exact ⟨Error.allowed_of id nofun nofun, rfl⟩
    | some method =>
        rw [bind_of_ok (orThrow_some method)]
        split
        · exact ⟨Error.allowed_of id nofun nofun, rfl⟩
        · next plain =>
            have bare : method.params = [] := by
              simp only [Bool.or_eq_true, Bool.not_eq_true', not_or, Bool.not_eq_false,
                List.isEmpty_iff] at plain
              exact plain.2
            rcases note_eq .debug (fun machine =>
              .started machine.cycle (program.methodName entry)) machine with ⟨log, noted⟩
            show Upholds _ _ _ ((note .debug _ >>= _) machine)
            rw [bind_of_ok noted]
            refine ⟨runs, ?_⟩
            intro frame mem
            rw [List.mem_singleton.mp mem]
            apply Frame.fits_enter known
            · rw [bare]
              rfl
            · intro watched owned
              rw [free watched method known] at owned
              cases owned
  cases outcome : start entry machine with
  | error e after =>
      rw [outcome] at started
      exact started
  | ok result after =>
      rw [outcome] at started
      refine ⟨started, ?_⟩
      intro watched
      rcases sound watched with ⟨origin, sound⟩
      have safe' := safe origin sound
      rw [outcome] at safe'
      exact ⟨origin, safe'⟩

/-- A run leaves a tidy machine, or the machine it was called on if it could not start. -/
theorem run_upholds (runs : machine.program = program)
    (sound : watch.strings → ∃ origin : Origin program, Sound origin machine)
    (linked : program.Linked) (checkedCode : program.CheckedCode) {entry : MethodRef}
    (free : watch.receivers → ∀ method, program.method? entry = some method → method.owner = none)
    (fuel : Nat) :
    Upholds (Failure.Allowed watch program)
      (fun after => after = machine ∨ Tidy watch program after)
      (fun _ => Tidy watch program) (run fuel entry machine) := by
  have started := start_upholds runs sound free
  unfold run
  cases outcome : start entry machine with
  | error e after =>
      rw [outcome] at started
      exact ⟨started.1, Or.inl started.2⟩
  | ok result after =>
      rw [outcome] at started
      have ran := Tidy.proceed started linked checkedCode fuel
      cases outcome' : proceed fuel after with
      | error failure last =>
          rw [outcome'] at ran
          cases failure with
          | error e =>
              simp only [outcome']
              exact ⟨ran.1, Or.inr (ran.2.with_frames_nil _)⟩
          | endless unsaid =>
              simp only [outcome']
              exact ⟨ran.1, Or.inr ran.2⟩
      | ok status last =>
          rw [outcome'] at ran
          cases status with
          | none =>
              simp only [outcome']
              exact ran
          | some status =>
              simp only [outcome']
              exact Tidy.with_frames_nil ran last.log

/-!
## Sessions
-/

theorem upholds_report {keeps : Machine → Prop} {outcome : EStateM.Result Failure Machine α}
    (upholds : Upholds (Failure.Allowed watch program) keeps (fun _ => keeps) outcome)
    {error : Option Error} {after : Machine} (done : report outcome = some (error, after)) :
    (∀ e ∈ error, e.Allowed watch) ∧ keeps after := by
  cases outcome with
  | ok a machine =>
      cases done
      refine ⟨?_, upholds⟩
      intro other none
      cases none
  | error failure machine =>
      cases failure with
      | error e =>
          cases done
          refine ⟨?_, upholds.2⟩
          intro other same
          cases same
          exact upholds.1
      | endless unsaid => cases done

/-- An operation does not return only if some type has no name. -/
theorem isSome_report {keeps : Machine → Prop} {outcome : EStateM.Result Failure Machine α}
    (upholds : Upholds (Failure.Allowed watch program) keeps (fun _ => keeps) outcome)
    (founded : ∀ ref, program.Founded ref) : (report outcome).isSome := by
  cases outcome with
  | ok a machine => rfl
  | error failure machine =>
      cases failure with
      | error e => rfl
      | endless unsaid =>
          rcases upholds.1 with ⟨ref, unnamed⟩
          have named := Program.isSome_typeName?_iff.mpr (founded ref)
          rw [unnamed] at named
          cases named

namespace Tidy

variable {strings : Prop}

theorem start (tidy : Tidy ⟨strings, False⟩ program machine) (entry : MethodRef) :
    EndsTidy ⟨strings, False⟩ program (start entry machine) := by
  refine (start_upholds tidy.runs tidy.sound nofun).imp (fun _ => id) ?_ fun _ _ => id
  intro after same
  rw [same]
  exact tidy

theorem run (tidy : Tidy ⟨strings, False⟩ program machine) (linked : program.Linked)
    (checkedCode : program.CheckedCode) (fuel : Nat) (entry : MethodRef) :
    EndsTidy ⟨strings, False⟩ program (run fuel entry machine) := by
  refine (run_upholds tidy.runs tidy.sound linked checkedCode nofun fuel).imp (fun _ => id) ?_
    fun _ _ => id
  intro after either
  rcases either with rfl | tidy'
  · exact tidy
  · exact tidy'

/-- Calls end with no forbidden error and leave tidy machines, if receivers are not watched. -/
theorem perform (tidy : Tidy ⟨strings, False⟩ program machine) (linked : program.Linked)
    (checkedCode : program.CheckedCode) {call : Call} {error : Option Error} {after : Machine}
    (done : call.perform machine = some (error, after)) :
    (∀ e ∈ error, e.Allowed ⟨strings, False⟩) ∧ Tidy ⟨strings, False⟩ program after := by
  cases call with
  | start entry => exact upholds_report (tidy.start entry) done
  | step => exact upholds_report (tidy.step linked checkedCode) done
  | run fuel entry => exact upholds_report (tidy.run linked checkedCode fuel entry) done
  | runMain fuel => exact upholds_report (tidy.run linked checkedCode fuel _) done
  | collect => exact upholds_report tidy.collect done

theorem isSome_perform (tidy : Tidy ⟨strings, False⟩ program machine) (linked : program.Linked)
    (checkedCode : program.CheckedCode) (founded : ∀ ref, program.Founded ref) (call : Call) :
    (call.perform machine).isSome := by
  cases call with
  | start entry => exact isSome_report (tidy.start entry) founded
  | step => exact isSome_report (tidy.step linked checkedCode) founded
  | run fuel entry => exact isSome_report (tidy.run linked checkedCode fuel entry) founded
  | runMain fuel => exact isSome_report (tidy.run linked checkedCode fuel _) founded
  | collect => exact isSome_report tidy.collect founded

end Tidy

theorem Reached.tidy (reached : Reached program machine) (linked : program.Linked)
    (checkedCode : program.CheckedCode) : Tidy ⟨program.Tagged, False⟩ program machine := by
  induction reached with
  | boot booted =>
      refine ⟨?_, fun tagged => ⟨_, sound_of_boot linked tagged booted⟩⟩
      rcases Except.bind_eq_ok_iff.mp booted with ⟨memory, _, same⟩
      cases same
      exact ⟨rfl, nofun⟩
  | call call _ done ih => exact (ih.perform linked checkedCode done).2

end Machine

def Frame.branch? (frame : Frame) (insn : Instruction) : Option Int :=
  match insn.opcode, insn.operand, frame.stack with
  | .br, .branch offset, _ => some offset
  | .brtrue, .branch offset, .bool true :: _ => some offset
  | .brfalse, .branch offset, .bool false :: _ => some offset
  | _, _, _ => none

namespace Machine

variable {program : Program} {machine : Machine}

/-- A machine never finds in its program what linking has ruled out. -/
structure Guarded (program : Program) (machine : Machine) : Prop where
  /-- Positions are in the code of their methods or right behind it. -/
  positions : ∀ frame ∈ machine.frames,
    ∃ method, program.method? frame.method = some method ∧ frame.ip ≤ method.code.size
  /-- A branch that is taken leads to an instruction of the method. -/
  branches : ∀ frame rest method insn offset, machine.frames = frame :: rest →
    program.method? frame.method = some method → method.code[frame.ip]? = some insn →
    frame.branch? insn = some offset →
    ∃ (target : Nat) (next : Instruction) (stack : List Value) (after : Machine),
      (target : Int) = frame.ip + 1 + offset ∧ method.code[target]? = some next ∧
      step machine = .ok none after ∧ after.frames = { frame with ip := target, stack } :: rest
  /-- No call ends with an error that linking rules out. -/
  errors : ∀ (call : Call) e after, call.perform machine = some (some e, after) → ¬ e.RuledOut
  /-- Strings are known as long as the 31 bits that a block has for its type tell the types apart,
  with the largest value left to free space. Past that bound, a block read with another type can
  have anything where its strings should be. -/
  strings : program.types.size < 2 ^ 31 - 1 → ∀ (call : Call) ref after,
    call.perform machine ≠ some (some (.code (.unknownString ref)), after)
  /-- A run from the entry never misses a receiver. -/
  receivers : ∀ fuel after,
    (Call.runMain fuel).perform machine ≠ some (some (.nullReference .noReceiver), after)

theorem jump_eq_ok {frame : Frame} {offset : Int} {target : Nat}
    (lands : (target : Int) = frame.ip + offset) :
    jump offset frame = .ok () { frame with ip := target } := by
  unfold jump
  simp only [← lands]
  rw [if_neg (by omega), Int.toNat_natCast]

theorem jumpIf_eq_ok {frame : Frame} {wanted : Bool} {below : List Value}
    (condition : frame.stack = .bool wanted :: below) {offset : Int} {target : Nat}
    (lands : (target : Int) = frame.ip + offset) :
    jumpIf wanted offset frame = .ok () { frame with ip := target, stack := below } := by
  have popped : Frame.popBool frame = .ok wanted { frame with stack := below } := by
    have taken : Frame.pop frame = .ok (.bool wanted) { frame with stack := below } := by
      rw [Frame.pop, condition]
    rw [Frame.popBool, bind_of_ok taken]
    rfl
  rw [jumpIf, bind_of_ok popped, if_pos rfl]
  exact jump_eq_ok lands

/-- A branch that is taken moves the innermost frame to its target, and nothing else. -/
theorem step_of_branch {frame : Frame} {rest : List Frame}
    (top : machine.frames = frame :: rest) {method : MethodDescriptor}
    (known : machine.program.method? frame.method = some method) {insn : Instruction}
    (at_ip : method.code[frame.ip]? = some insn) {offset : Int}
    (taken : frame.branch? insn = some offset) {target : Nat}
    (lands : (target : Int) = frame.ip + 1 + offset) :
    ∃ stack after, step machine = .ok none after ∧
      after.frames = { frame with ip := target, stack } :: rest := by
  rcases note_eq .trace (executingEvent insn) { machine with
    frames := { frame with ip := frame.ip + 1 } :: rest
    cycle := machine.cycle + 1 } with ⟨log, noted⟩
  rw [step, bind_of_ok (fetch_eq top known at_ip), bind_of_ok noted]
  -- All three instructions are operations on the innermost frame.
  have moved : ∀ {op : Frame.Op Unit} {stack : List Value},
      op { frame with ip := frame.ip + 1 } = .ok () { frame with ip := target, stack } →
      ∃ stack after, (onFrame op >>= fun _ => pure (none : Option ExitStatus)) { machine with
          frames := { frame with ip := frame.ip + 1 } :: rest
          cycle := machine.cycle + 1
          log } = .ok none after ∧
        after.frames = { frame with ip := target, stack } :: rest := by
    intro op stack ran
    refine ⟨stack, { machine with
      frames := { frame with ip := target, stack } :: rest
      cycle := machine.cycle + 1
      log }, ?_, rfl⟩
    have ran' : onFrame op { machine with
        frames := { frame with ip := frame.ip + 1 } :: rest
        cycle := machine.cycle + 1
        log } = .ok () { machine with
          frames := { frame with ip := target, stack } :: rest
          cycle := machine.cycle + 1
          log } := by
      refine (onFrame_eq op rfl).trans ?_
      rw [ran]
      rfl
    rw [bind_of_ok ran']
    rfl
  rcases insn with ⟨opcode, operand⟩
  unfold Frame.branch? at taken
  split at taken
  · next isBr isBranch =>
      cases isBr
      cases isBranch
      cases taken
      exact moved (jump_eq_ok lands)
  · next below isBrtrue isBranch condition =>
      cases isBrtrue
      cases isBranch
      cases taken
      have condition' : { frame with ip := frame.ip + 1 }.stack = .bool true :: below := condition
      exact moved (jumpIf_eq_ok condition' lands)
  · next below isBrfalse isBranch condition =>
      cases isBrfalse
      cases isBranch
      cases taken
      have condition' : { frame with ip := frame.ip + 1 }.stack = .bool false :: below := condition
      exact moved (jumpIf_eq_ok condition' lands)
  · cases taken

theorem operand_of_branch? {frame : Frame} {insn : Instruction} {offset : Int}
    (taken : frame.branch? insn = some offset) : insn.operand = .branch offset := by
  rcases insn with ⟨opcode, operand⟩
  unfold Frame.branch? at taken
  split at taken
  · next isBranch => cases taken; exact isBranch
  · next isBranch _ => cases taken; exact isBranch
  · next isBranch _ => cases taken; exact isBranch
  · cases taken

/-- In every session with a linked program, the machine is guarded by what linking has checked. -/
theorem reached_guarded {image : Image} {program : Program} {machine : Machine}
    (linked : image.link = .ok program) (reached : Reached program machine) :
    Guarded program machine := by
  have linked' := Program.linked_of_link linked
  have checkedCode := Program.checkedCode_of_link linked
  have tidy := reached.tidy linked' checkedCode
  constructor
  case positions =>
    intro frame mem
    rcases tidy.frames frame mem with ⟨method, known, fits⟩
    exact ⟨method, known, fits.ip⟩
  case branches =>
    intro frame rest method insn offset top known at_ip taken
    have checked := checkedCode.instructions _ _ _ _ known at_ip
    rcases checked.branch offset (operand_of_branch? taken) with ⟨lower, upper⟩
    rcases Int.eq_ofNat_of_zero_le lower with ⟨target, same⟩
    have inside : target < method.code.size := by omega
    rcases step_of_branch top (by rw [tidy.runs]; exact known) at_ip taken same.symm with
      ⟨stack, after, ran, frames⟩
    exact ⟨target, _, stack, after, same.symm, Array.getElem?_eq_getElem inside, ran, frames⟩
  case errors =>
    intro call e after failed ruledOut
    exact (tidy.perform linked' checkedCode failed).1 e rfl (Or.inl ruledOut)
  case strings =>
    intro few call ref after failed
    exact (tidy.perform linked' checkedCode failed).1 _ rfl (Or.inr (Or.inl ⟨few, ref, rfl⟩))
  case receivers =>
    intro fuel after failed
    have ran : Upholds (Failure.Allowed ⟨False, True⟩ program) (fun _ => True) (fun _ _ => True)
        (run fuel program.entry machine) :=
      (run_upholds tidy.runs False.elim linked' checkedCode (fun _ => checkedCode.entry) fuel).imp
        (fun _ => id) (fun _ _ => trivial) fun _ _ _ => trivial
    rw [← tidy.runs] at ran
    exact (upholds_report ran failed).1 _ rfl (Or.inr (Or.inr ⟨trivial, rfl⟩))

/-- If no array is made of itself, then every call of a session returns. -/
theorem reached_returns {image : Image} {program : Program} {machine : Machine}
    (linked : image.link = .ok program) (founded : ∀ ref, program.Founded ref)
    (reached : Reached program machine) (call : Call) : (call.perform machine).isSome := by
  have linked' := Program.linked_of_link linked
  have checkedCode := Program.checkedCode_of_link linked
  exact (reached.tidy linked' checkedCode).isSome_perform linked' checkedCode founded call

/-- A machine that has made a node and is about to write. -/
theorem reached_guarded_writingMachine :
    nodeImage.link = .ok nodeProgram ∧ Reached nodeProgram writingMachine ∧
      Guarded nodeProgram writingMachine :=
  ⟨link_nodeImage, reached_writingMachine, reached_guarded link_nodeImage reached_writingMachine⟩

end Machine
end ObjectMachine
