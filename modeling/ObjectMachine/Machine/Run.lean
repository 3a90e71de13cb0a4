import ObjectMachine.Linking.Events
import ObjectMachine.Machine.Step

/-!
# Runs

A run sets up the call stack for a method and executes instructions until the stack is empty, the
program asks to stop, or an instruction fails. A program need not come to an end, so a run is
given the number of instructions it may execute, and says so if it was not enough.
-/

namespace ObjectMachine
namespace Machine

/-- The call stack is set up for a method without parameters. Nothing is executed yet. -/
def start (entry : MethodRef) : Op Unit := do
  let program ← observe Machine.program
  let descriptor ← orThrow (program.method? entry) (.error (.code (.noMethod entry)))
  if descriptor.builtin.isSome || !descriptor.params.isEmpty then
    fail (.code (.notAnEntry (program.methodName entry)))
  note .debug fun machine => .started machine.cycle (program.methodName entry)
  modify fun machine => { machine with
    frames := [Frame.enter program entry .null [] machine.limits.stackCapacity] }

/-- Instructions are executed until the run ends, but no more than the given number. -/
def proceed : Nat → Op (Option ExitStatus)
  | 0 => return none
  | fuel + 1 => do
      if (← observe fun machine => machine.frames.isEmpty) then
        return some .completed
      match ← step with
      | some status => return some status
      | none => proceed fuel

/-- The events of a run that failed: the error, then the frames from the innermost out. -/
def failureEvents (machine : Machine) (error : Error) : List Event :=
  .failed error :: machine.frames.map fun frame =>
    .unwound (machine.program.methodName frame.method) (frame.ip - 1) frame.receiver

/-- A method is run. Whether it completes, stops or ends with an error, the call stack is empty
afterwards. The result is missing if the number of instructions was not enough. -/
def run (fuel : Nat) (entry : MethodRef) : Op (Option ExitStatus) := fun machine =>
  match start entry machine with
  | .error failure machine => .error failure machine
  | .ok _ machine =>
      match proceed fuel machine with
      | .ok (some status) machine => .ok (some status) { machine with frames := [] }
      | .ok none machine => .ok none machine
      | .error (.error e) machine =>
          .error (.error e) { machine with
            log := machine.log.noteAll (machine.failureEvents e)
            frames := [] }
      | .error (.endless unsaid) machine => .error (.endless unsaid) machine

def runMain (fuel : Nat) : Op (Option ExitStatus) := fun machine =>
  run fuel machine.program.entry machine

end Machine

def Image.boot (image : Image) (limits : Limits) (input : List UInt8) (log : Log) :
    Except Error Machine × Log :=
  let log := log.noteAll image.linkEvents
  match image.link with
  | .error fault => (.error (.image fault), log)
  | .ok program =>
      match Machine.boot program limits input log with
      | .error e => (.error e, log)
      | .ok machine => (.ok machine, machine.log)

structure Outcome where
  /-- How it ended; nothing if the number of instructions was not enough. -/
  result : Except Error (Option ExitStatus)
  output : String
  log : Log

/-- An image is run from its entry on a machine of its own. The outcome is missing if the run does
not return. -/
def Image.run (image : Image) (limits : Limits) (input : List UInt8) (log : Log) (fuel : Nat) :
    Option Outcome :=
  match image.boot limits input log with
  | (.error e, log) => some { result := .error e, output := "", log }
  | (.ok machine, _) =>
      match Machine.runMain fuel machine with
      | .ok status machine =>
          some { result := .ok status, output := machine.console.output, log := machine.log }
      | .error (.error e) machine =>
          some { result := .error e, output := machine.console.output, log := machine.log }
      | .error (.endless _) _ => none

end ObjectMachine
