import ObjectMachine.Proofs.Activations
import ObjectMachine.Proofs.Sessions

/-!
# Invariants of sessions

A property that the single operations of a machine keep, however they end, is kept by runs, and so
by all calls of a session.
-/

namespace ObjectMachine
namespace Machine

/-- The machine that calls leave behind, one after the other, whether they fail or not. There is
none if one of them does not return. -/
def performAll (machine : Machine) (calls : List Call) : Option Machine :=
  calls.foldlM (fun machine call => (call.perform machine).map Prod.snd) machine

theorem lastState_of_report {α : Type} {outcome : EStateM.Result Failure Machine α}
    {error : Option Error} {after : Machine} (done : report outcome = some (error, after)) :
    lastState outcome = after := by
  cases outcome with
  | ok a machine => cases done; rfl
  | error failure machine =>
      cases failure with
      | error e => cases done; rfl
      | endless unsaid => cases done

theorem Safe.sound {program : Program} {origin : Origin program} {α : Type}
    {outcome : EStateM.Result Failure Machine α} (safe : Safe origin outcome) :
    Sound origin (lastState outcome) := by
  cases outcome with
  | ok a machine => exact safe
  | error e machine => exact safe.2

/-- What the operations of a machine keep. The frames are removed at the end of a run. -/
structure Invariant (holds : Machine → Prop) : Prop where
  start : ∀ machine entry, holds machine → holds (lastState (start entry machine))
  step : ∀ machine, holds machine → holds (lastState (step machine))
  collect : ∀ machine, holds machine → holds (lastState (collectGarbage machine))
  clear : ∀ machine log, holds machine → holds { machine with log, frames := [] }

namespace Invariant

variable {holds : Machine → Prop} {machine : Machine}

theorem proceed (kept : Invariant holds) (before : holds machine) (fuel : Nat) :
    holds (lastState (proceed fuel machine)) := by
  induction fuel generalizing machine with
  | zero => exact before
  | succ fuel ih =>
      have stepped := kept.step machine before
      rw [Machine.proceed, observe_bind]
      cases machine.frames.isEmpty with
      | true => exact before
      | false =>
          show holds (lastState ((Machine.step >>= _) machine))
          cases outcome : Machine.step machine with
          | error e after =>
              rw [outcome] at stepped
              rw [bind_of_error outcome]
              exact stepped
          | ok status after =>
              rw [outcome] at stepped
              rw [bind_of_ok outcome]
              cases status with
              | some status => exact stepped
              | none => exact ih stepped

theorem run (kept : Invariant holds) (before : holds machine) (fuel : Nat) (entry : MethodRef) :
    holds (lastState (run fuel entry machine)) := by
  have started := kept.start machine entry before
  unfold Machine.run
  cases outcome : Machine.start entry machine with
  | error e after =>
      rw [outcome] at started
      exact started
  | ok result after =>
      rw [outcome] at started
      have ran : holds (lastState (Machine.proceed fuel after)) := kept.proceed started fuel
      cases outcome' : Machine.proceed fuel after with
      | error failure last =>
          rw [outcome'] at ran
          cases failure with
          | error e =>
              simp only [outcome']
              exact kept.clear last _ ran
          | endless unsaid =>
              simp only [outcome']
              exact ran
      | ok status last =>
          rw [outcome'] at ran
          cases status with
          | none =>
              simp only [outcome']
              exact ran
          | some status =>
              simp only [outcome']
              exact kept.clear last last.log ran

theorem perform (kept : Invariant holds) (before : holds machine) {call : Call}
    {error : Option Error} {after : Machine} (done : call.perform machine = some (error, after)) :
    holds after := by
  cases call with
  | start entry =>
      rw [← lastState_of_report done]
      exact kept.start machine entry before
  | step =>
      rw [← lastState_of_report done]
      exact kept.step machine before
  | run fuel entry =>
      rw [← lastState_of_report done]
      exact kept.run before fuel entry
  | runMain fuel =>
      rw [← lastState_of_report done]
      exact kept.run before fuel machine.program.entry
  | collect =>
      rw [← lastState_of_report done]
      exact kept.collect machine before

theorem performAll (kept : Invariant holds) (before : holds machine) {calls : List Call}
    {after : Machine} (done : machine.performAll calls = some after) : holds after := by
  induction calls generalizing machine with
  | nil =>
      cases done
      exact before
  | cons call rest ih =>
      rw [Machine.performAll, List.foldlM_cons] at done
      rcases Option.bind_eq_some_iff.mp done with ⟨middle, first, later⟩
      rcases Option.map_eq_some_iff.mp first with ⟨⟨error, _⟩, performed, rfl⟩
      exact ih (kept.perform before performed) later

end Invariant
end Machine
end ObjectMachine
