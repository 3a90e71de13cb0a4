import ObjectMachine.Proofs.CallStacks
import ObjectMachine.Proofs.SessionInvariants

/-!
# The lives of frames

A frame is known by its height above the outermost frame. It lives from the call that has put it
there to the return that removes it, unless another method is started before. Whatever is called on
the machine meanwhile, it stays an activation of the same method, and its arguments stay values of
the same kinds.
-/

namespace ObjectMachine

def Call.entry? (program : Program) : Call → Option MethodRef
  | .start entry => some entry
  | .step => none
  | .run _ entry => some entry
  | .runMain _ => some program.entry
  | .collect => none

/-- A call that goes on with the frames that there are. One that starts a method does so only if the
method is refused. -/
def Call.Resumes (call : Call) (machine : Machine) : Prop :=
  ∀ entry, call.entry? machine.program = some entry →
    ∃ e, Machine.start entry machine = .error e machine

/-- The frame at a height, counted from the outermost one, is there all along. -/
inductive Machine.Lives (height : Nat) : Machine → Machine → Prop where
  | now {machine : Machine} : height < machine.frames.length → Lives height machine machine
  | call {machine middle after : Machine} {error : Option Error} (call : Call) :
      Lives height machine middle → call.Resumes middle →
      call.perform middle = some (error, after) → height < after.frames.length →
      Lives height machine after

/-- The same activations, but one may have been entered or left. -/
inductive Continues : List Frame → List Frame → Prop where
  | same {frames after : List Frame} : List.Forall₂ Frame.Ages frames after →
      Continues frames after
  | entered {frame : Frame} {frames after : List Frame} : List.Forall₂ Frame.Ages frames after →
      Continues frames (frame :: after)
  | left {frame : Frame} {frames after : List Frame} : List.Forall₂ Frame.Ages frames after →
      Continues (frame :: frames) after

theorem forall₂_ages (frames : List Frame) : List.Forall₂ Frame.Ages frames frames :=
  List.forall₂_same.mpr fun frame _ => refl_of Frame.Ages frame

namespace Continues

variable {frames after : List Frame} {frame frame' : Frame} {height : Nat}

theorem ages_of_forall₂ (all : List.Forall₂ Frame.Ages frames after)
    (found : frames.reverse[height]? = some frame) (found' : after.reverse[height]? = some frame') :
    frame.Ages frame' := by
  rcases List.getElem?_eq_some_iff.mp found with ⟨inside, rfl⟩
  rcases List.getElem?_eq_some_iff.mp found' with ⟨inside', rfl⟩
  exact (List.forall₂_reverse_iff.mpr all).get inside inside'

theorem ages (continues : Continues frames after) (found : frames.reverse[height]? = some frame)
    (found' : after.reverse[height]? = some frame') : frame.Ages frame' := by
  -- The frame on top is higher than what the other list has.
  have below : ∀ {frames after : List Frame} {top : Frame}, frames.length = after.length →
      (∃ frame, frames.reverse[height]? = some frame) →
      (top :: after).reverse[height]? = after.reverse[height]? := by
    intro frames after top same found
    rcases found with ⟨frame, found⟩
    have inside := (List.getElem?_eq_some_iff.mp found).1
    rw [List.length_reverse, same] at inside
    rw [List.reverse_cons]
    exact List.getElem?_append_left (by rw [List.length_reverse]; exact inside)
  cases continues with
  | same all => exact ages_of_forall₂ all found found'
  | entered all =>
      rw [below all.length_eq ⟨_, found⟩] at found'
      exact ages_of_forall₂ all found found'
  | left all =>
      rw [below all.length_eq.symm ⟨_, found'⟩] at found
      exact ages_of_forall₂ all found found'

theorem of_framesAge (ages : FramesAge frames after) : Continues frames after := by
  cases ages with
  | none => exact .same .nil
  | top ages => exact .same (.cons ages (forall₂_ages _))

end Continues

namespace Machine

variable {machine after : Machine}

theorem Enters.caller_ages {entry : Entry} {method : MethodRef} {isVirtual : Bool} {frame : Frame}
    {rest : List Frame}
    (enters : Enters entry method isVirtual machine { frame with ip := frame.ip + 1 } rest after) :
    frame.Ages { frame with ip := frame.ip + 1, stack := entry.below } := by
  apply Frame.ages_of_shrinks
  have stack : frame.stack = _ := enters.stack
  rw [stack, List.length_append, List.length_append]
  omega

theorem continues_step (machine : Machine) :
    Continues machine.frames (lastState (step machine)).frames := by
  have leave : ∀ {frame : Frame} {rest : List Frame} {results : List Value} {after : Machine},
      Leaves results rest machine after → Continues (frame :: rest) after.frames := by
    intro frame rest results after leaves
    rw [leaves.frames]
    cases rest with
    | nil => exact .left .nil
    | cons caller callers => exact .left (.cons (leaves.ages caller rfl) (forall₂_ages callers))
  rcases step_cases machine with ⟨e, failed⟩ | ⟨frame, rest, _, insn, log, top, _, _, executes⟩
  · rw [failed]
    exact .same (forall₂_ages _)
  · have turns := turns_step top executes
    generalize step machine = outcome at turns ⊢
    cases turns with
    | stays within => exact .of_framesAge within.frames
    | @enters _ _ _ after _ _ enters =>
        show Continues machine.frames after.frames
        rw [top, enters.frames]
        exact .entered (.cons enters.caller_ages (forall₂_ages rest))
    | drops leaves =>
        rw [top]
        exact leave leaves
    | leaves _ _ leaves =>
        rw [top]
        exact leave leaves

theorem continues_perform {call : Call} (resumes : call.Resumes machine) {error : Option Error}
    (done : call.perform machine = some (error, after)) :
    Continues machine.frames after.frames := by
  have same : Continues machine.frames machine.frames := .same (forall₂_ages _)
  have ran : ∀ fuel entry, (∃ e, start entry machine = .error e machine) →
      Continues machine.frames (lastState (run fuel entry machine)).frames := by
    intro fuel entry refused
    rcases refused with ⟨e, refused⟩
    rw [run, refused]
    exact same
  cases call with
  | start entry =>
      rcases resumes entry rfl with ⟨e, refused⟩
      rw [← lastState_of_report done, refused]
      exact same
  | step =>
      rw [← lastState_of_report done]
      exact continues_step machine
  | run fuel entry =>
      rw [← lastState_of_report done]
      exact ran fuel entry (resumes entry rfl)
  | runMain fuel =>
      rw [← lastState_of_report done]
      exact ran fuel _ (resumes _ rfl)
  | collect =>
      rw [← lastState_of_report done]
      exact .of_framesAge (within_collectGarbage machine).frames

/-- A frame that lives on is an activation of the same method, with arguments of the same kinds. -/
theorem Lives.ages {height : Nat} (lives : Lives height machine after) :
    ∃ frame frame', machine.frames.reverse[height]? = some frame ∧
      after.frames.reverse[height]? = some frame' ∧ frame.Ages frame' := by
  have found : ∀ {machine : Machine}, height < machine.frames.length →
      ∃ frame, machine.frames.reverse[height]? = some frame := by
    intro machine inside
    rw [← List.length_reverse] at inside
    exact ⟨_, List.getElem?_eq_getElem inside⟩
  induction lives with
  | now inside =>
      rcases found inside with ⟨frame, at_height⟩
      exact ⟨frame, frame, at_height, at_height, refl_of _ frame⟩
  | call call _ resumes done inside ih =>
      rcases ih with ⟨frame, frame', at_height, at_height', ages⟩
      rcases found inside with ⟨last, at_last⟩
      exact ⟨frame, last, at_height, at_last,
        trans_of _ ages ((continues_perform resumes done).ages at_height' at_last)⟩

end Machine
end ObjectMachine
