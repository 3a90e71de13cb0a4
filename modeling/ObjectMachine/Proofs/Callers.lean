import ObjectMachine.Proofs.CallStacks
import ObjectMachine.Proofs.Sessions

/-!
# Calls and their callers

A call puts a frame on top of the frames of its callers. Until there are as many frames again as
there were before, the frames of the callers are not touched, whatever the method does: it may call
other methods and itself, and blocks may be collected meanwhile. So when the caller goes on, its
frame has lost what the call took from its stack and has got what the method returns.
-/

namespace ObjectMachine
namespace Machine

variable {machine after : Machine}

/-- Cycles and collections that do not fail, up to the first machine with a number of frames. -/
inductive Until (count : Nat) : Machine → Machine → Prop where
  | here {machine : Machine} : machine.frames.length = count → Until count machine machine
  | step {machine next after : Machine} {status : Option ExitStatus} :
      machine.frames.length ≠ count → step machine = .ok status next → Until count next after →
      Until count machine after
  | collect {machine next after : Machine} {report : Report} :
      machine.frames.length ≠ count → collectGarbage machine = .ok report next →
      Until count next after → Until count machine after

end Machine

/-!
## Frames above the callers
-/

/-- Above the callers there is an activation of a method, and above it there may be others. -/
inductive Above (callers : List Frame) (target : MethodRef) : List Frame → Prop where
  | callee {frame : Frame} : frame.method = target → Above callers target (frame :: callers)
  | inner {frame : Frame} {rest : List Frame} : Above callers target rest →
      Above callers target (frame :: rest)

namespace Above

variable {callers rest frames : List Frame} {target : MethodRef} {frame after : Frame}

theorem lt_length (above : Above callers target frames) : callers.length < frames.length := by
  induction above with
  | callee _ => exact Nat.lt_succ_self _
  | inner _ ih => exact Nat.lt_succ_of_lt ih

theorem replace (above : Above callers target (frame :: rest))
    (same : after.method = frame.method) : Above callers target (after :: rest) := by
  cases above with
  | callee runs => exact .callee (same.trans runs)
  | inner above => exact .inner above

theorem ages {frames' : List Frame} (above : Above callers target frames)
    (ages : FramesAge frames frames') : Above callers target frames' := by
  cases ages with
  | none => exact above
  | top ages => exact above.replace ages.method

theorem modifyHead (above : Above callers target frames) {f : Frame → Frame}
    (same : ∀ frame, (f frame).method = frame.method) :
    Above callers target (frames.modifyHead f) := by
  cases frames with
  | nil => exact above
  | cons frame rest => exact above.replace (same frame)

theorem leave (above : Above callers target (frame :: rest)) :
    (frame.method = target ∧ rest = callers) ∨ Above callers target rest := by
  cases above with
  | callee runs => exact Or.inl ⟨runs, rfl⟩
  | inner above => exact Or.inr above

end Above

namespace Machine

variable {machine after : Machine}

/-- A cycle above the callers stays above them, or the method returns to them. -/
theorem step_above {callers : List Frame} {target : MethodRef} {status : Option ExitStatus}
    (above : Above callers target machine.frames) (ran : step machine = .ok status after) :
    after.program = machine.program ∧
      (Above callers target after.frames ∨
        ∃ (method : MethodDescriptor) (results : List Value),
          machine.program.method? target = some method ∧
          results.map Value.kind = method.returns.toList.map machine.program.kindOf ∧
          after.frames =
            callers.modifyHead fun caller => { caller with stack := results ++ caller.stack }) := by
  rcases step_cases machine with ⟨e, failed⟩ | ⟨frame, rest, method, insn, log, top, _, _, executes⟩
  · rw [ran] at failed
    cases failed
  · have turns := turns_step top executes
    rw [ran] at turns
    rw [top] at above
    cases turns with
    | stays within =>
        have frames := within.frames
        rw [top] at frames
        exact ⟨within.program, Or.inl (above.ages frames)⟩
    | enters _ _ enters =>
        refine ⟨enters.program, Or.inl ?_⟩
        rw [enters.frames]
        exact .inner (above.replace rfl)
    | leaves known kinds leaves =>
        refine ⟨leaves.program, ?_⟩
        rw [leaves.frames]
        rcases above.leave with ⟨rfl, rfl⟩ | above
        · exact Or.inr ⟨_, _, known, kinds, rfl⟩
        · exact Or.inl (above.modifyHead fun _ => rfl)

/-- What happens until there are no more frames than those of the callers: the method returns. -/
theorem Until.returns {callers : List Frame} {target : MethodRef}
    (resumed : Until callers.length machine after) (above : Above callers target machine.frames) :
    ∃ (method : MethodDescriptor) (results : List Value),
      machine.program.method? target = some method ∧
      results.map Value.kind = method.returns.toList.map machine.program.kindOf ∧
      after.frames =
        callers.modifyHead fun caller => { caller with stack := results ++ caller.stack } := by
  induction resumed with
  | here same => exact absurd same (Nat.ne_of_gt above.lt_length)
  | step _ ran later ih =>
      rcases step_above above ran with ⟨program, above' | ⟨method, results, known, kinds, frames⟩⟩
      · rw [← program]
        exact ih above'
      · -- There are as many frames as callers, so nothing follows.
        refine ⟨method, results, known, kinds, ?_⟩
        cases later with
        | here _ => exact frames
        | step more _ _ => exact absurd (by rw [frames, List.length_modifyHead]) more
        | collect more _ _ => exact absurd (by rw [frames, List.length_modifyHead]) more
  | @collect machine _ _ _ _ ran _ ih =>
      have within := within_collectGarbage machine
      rw [ran] at within
      rw [← within.program]
      exact ih (above.ages within.frames)

/-- A cycle that adds a frame is a call. When there are as many frames again as before, then those
of the callers are as they were, but for the innermost: its position has moved on, its stack has
lost the arguments and the receiver of the call, and has got a value of the kind that the method
that was entered returns, if it returns one. -/
theorem callers_undisturbed {machine called after : Machine} {caller : Frame} {rest : List Frame}
    {status : Option ExitStatus} (top : machine.frames = caller :: rest)
    (ran : step machine = .ok status called)
    (pushed : called.frames.length = machine.frames.length + 1)
    (resumed : Until machine.frames.length called after) :
    ∃ (code : MethodDescriptor) (insn : Instruction) (method : MethodRef) (entry : Entry)
      (results : List Value),
      machine.program.method? caller.method = some code ∧ code.code[caller.ip]? = some insn ∧
      (insn.opcode = .call ∨ insn.opcode = .callvirt) ∧ insn.operand = .method method ∧
      machine.program.method? method = some entry.named ∧
      entry.args.length = entry.named.params.length ∧
      caller.stack = entry.args.reverse ++ (entry.named.takes entry.receiver ++ entry.below) ∧
      machine.program.method? entry.target = some entry.called ∧
      called.frames = Frame.enter machine.program entry.target entry.receiver entry.args
          machine.limits.stackCapacity ::
        { caller with ip := caller.ip + 1, stack := entry.below } :: rest ∧
      results.map Value.kind = entry.called.returns.toList.map machine.program.kindOf ∧
      after.frames =
        { caller with ip := caller.ip + 1, stack := results ++ entry.below } :: rest := by
  rcases step_cases machine with
    ⟨e, failed⟩ | ⟨frame, rest', code, insn, log, top', known, at_ip, executes⟩
  · rw [ran] at failed
    cases failed
  · rw [top] at top'
    cases top'
    have turns := turns_step top executes
    rw [ran] at turns
    cases turns with
    | stays within =>
        have length : called.frames.length = machine.frames.length := within.frames.length_eq
        omega
    | @enters method isVirtual entry _ opcode operand enters =>
        have above : Above ({ caller with ip := caller.ip + 1, stack := entry.below } :: rest)
            entry.target called.frames := by
          rw [enters.frames]
          exact .callee rfl
        have resumed : Until
            ({ caller with ip := caller.ip + 1, stack := entry.below } :: rest).length
            called after := by
          rw [top] at resumed
          exact resumed
        rcases resumed.returns above with ⟨found, results, known', kinds, frames⟩
        rw [enters.program, enters.called] at known'
        cases known'
        refine ⟨code, insn, method, entry, results, known, at_ip, ?_, operand, enters.named, ?_,
          enters.stack, enters.called, enters.frames, ?_, frames⟩
        · cases isVirtual with
          | true => exact Or.inr opcode
          | false => exact Or.inl opcode
        · simpa using congrArg List.length enters.kinds
        · rw [← enters.program]
          exact kinds
    | leaves _ _ leaves =>
        rw [leaves.frames, List.length_modifyHead, top, List.length_cons] at pushed
        omega

end Machine

/-!
## A virtual call
-/

/-- An image with two classes, one of which overrides a method of the other. -/
def shapeImage : Image where
  types := [.ofClass ⟨"Shape", none, [], [0]⟩, .ofClass ⟨"Square", some 0, [-3], [1]⟩]
  methods := [⟨"scale", some (-3), [-3], [], [⟨.ldcI4, .int 0⟩, ⟨.ret, .none⟩]⟩,
    ⟨"scale", some (-3), [-3], [-1], [⟨.ldarg, .slot 0⟩, ⟨.ret, .none⟩]⟩,
    ⟨"Main", none, [], [], [⟨.ldcB, .bool true⟩, ⟨.newobj, .type 1⟩, ⟨.ldcI4, .int 7⟩,
      ⟨.callvirt, .method 0⟩, ⟨.pop, .none⟩, ⟨.ret, .none⟩]⟩]
  main := 2

def shapeProgram : Program :=
  shapeImage.link.toOption.getD default

theorem link_shapeImage : shapeImage.link = .ok shapeProgram :=
  Except.eq_ok_getD (by decide +kernel)

namespace Machine

def scalingMachine : Machine :=
  (Call.runMain 3).leaves ((boot shapeProgram ⟨64, 2, 4⟩ [] .off).toOption.getD default)

theorem reached_scalingMachine : Reached shapeProgram scalingMachine :=
  .leaves (.runMain 3) (.boot (Except.eq_ok_getD (by decide +kernel)))

theorem step_of_perform {machine : Machine}
    (accepted : (Call.step.perform machine).map Prod.fst = some none) :
    ∃ status, step machine = .ok status (Call.step.leaves machine) := by
  unfold Call.leaves
  unfold Call.perform at accepted ⊢
  cases outcome : step machine with
  | ok status after => exact ⟨status, rfl⟩
  | error failure after =>
      rw [outcome] at accepted
      cases failure <;> cases accepted

/-- A square is asked for its size. -/
theorem callers_undisturbed_scalingMachine :
    shapeImage.link = .ok shapeProgram ∧ Reached shapeProgram scalingMachine ∧
      ∃ called after caller, scalingMachine.frames = [caller] ∧ called.frames.length = 2 ∧
        Until 1 called after ∧
        ∃ (entry : Entry) (results : List Value),
          caller.stack = entry.args.reverse ++ (entry.named.takes entry.receiver ++ entry.below) ∧
          results.map Value.kind =
            entry.called.returns.toList.map scalingMachine.program.kindOf ∧
          after.frames = [{ caller with
            ip := caller.ip + 1
            stack := results ++ entry.below }] := by
  have top : scalingMachine.frames = [scalingMachine.frames.headD default] := by decide +kernel
  have count : scalingMachine.frames.length = 1 := by rw [top]; rfl
  let called := Call.step.leaves scalingMachine
  let loaded := Call.step.leaves called
  have pushed : called.frames.length = 2 := by decide +kernel
  have inside : loaded.frames.length ≠ 1 := by decide +kernel
  have left : (Call.step.leaves loaded).frames.length = 1 := by decide +kernel
  rcases step_of_perform (show (Call.step.perform scalingMachine).map Prod.fst = some none by
    decide +kernel) with ⟨status, ran⟩
  rcases step_of_perform (show (Call.step.perform called).map Prod.fst = some none by
    decide +kernel) with ⟨_, first⟩
  rcases step_of_perform (show (Call.step.perform loaded).map Prod.fst = some none by
    decide +kernel) with ⟨_, second⟩
  have resumed : Until 1 called (Call.step.leaves loaded) :=
    .step (by rw [pushed]; decide) first (.step inside second (.here left))
  rcases callers_undisturbed top ran (by rw [pushed, count]) (by rw [count]; exact resumed) with
    ⟨_, _, _, entry, results, _, _, _, _, _, _, stack, _, _, kinds, frames⟩
  exact ⟨link_shapeImage, reached_scalingMachine, called, _, _, top, pushed, resumed, entry,
    results, stack, kinds, frames⟩

end Machine
end ObjectMachine
