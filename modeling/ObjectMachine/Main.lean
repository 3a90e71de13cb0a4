import ObjectMachine.Command.Answer

/-!
# The command line

`run IMAGE` runs an image, `convert SOURCE TARGET` converts one. This is the only module that
reads files and streams; what it does with them is decided by the requests and answers of the
commands.
-/

namespace ObjectMachine
namespace Command

def faultOf (error : IO.Error) : IoFault :=
  match error with
  | .noFileOrDirectory _ number _ =>
      .system number.toNat .notFound "No such file or directory"
  | .permissionDenied _ number _ =>
      .system number.toNat .permissionDenied "Permission denied"
  | .inappropriateType _ number _ =>
      .system number.toNat .isDirectory "Is a directory"
  | other => .foreign .other (toString other)

def readFile (path : String) : IO File := do
  try
    let bytes ← IO.FS.readBinFile path
    return .ok bytes.toList
  catch error => return .error (faultOf error)

partial def readAll (stream : IO.FS.Stream) (soFar : ByteArray) : IO ByteArray := do
  let chunk ← stream.read 65536
  if chunk.isEmpty then return soFar else readAll stream (soFar ++ chunk)

def readsInput (program : Program) : Bool :=
  let reads (ref : MethodRef) : Bool :=
    match program.method? ref with
    | some method => method.builtin.any fun builtin => builtin.returns.isSome
    | none => false
  program.methods.any fun method => method.code.any fun insn =>
    match insn.operand with
    | .method ref => reads ref
    | _ => false

/-- The instructions that are executed between two looks at the output. -/
def slice : Nat := 65536

def flushOutput (machine : Machine) : IO Machine := do
  let stdout ← IO.getStdout
  stdout.putStr machine.console.output
  stdout.flush
  return { machine with console := { machine.console with output := "" } }

/-- A run that does not return takes the process with it. -/
def failed (failure : Failure) : IO (Except Error (Option ExitStatus)) :=
  match failure with
  | .error e => return .error e
  | .endless _ => throw (.userError "stack overflow")

partial def drive (machine : Machine) : IO (Except Error (Option ExitStatus)) := do
  match Machine.proceed slice machine with
  | .error failure machine => do
      let _ ← flushOutput machine
      failed failure
  | .ok (some status) machine => do
      let _ ← flushOutput machine
      return .ok (some status)
  | .ok none machine => drive (← flushOutput machine)

def deliver (answer : Answer) : IO UInt32 := do
  (← IO.getStdout).putStr answer.stdout
  (← IO.getStderr).putStr answer.stderr
  return UInt32.ofNat answer.exit

def execute (request : RunRequest) (image : Image) : IO (Except Error (Option ExitStatus)) := do
  let asks := match image.link with
    | .ok program => readsInput program
    | .error _ => false
  let input ← if asks then readAll (← IO.getStdin) .empty else pure .empty
  match (image.boot request.limits input.toList .off).1 with
  | .error e => return .error e
  | .ok machine =>
      match Machine.start machine.program.entry machine with
      | .error failure _ => failed failure
      | .ok _ machine => drive machine

def runCommand (args : List String) : IO UInt32 := do
  match RunRequest.ofArgs? args with
  | none => deliver .usage
  | some request =>
      match readImage (← readFile request.path) with
      | .error e => deliver (request.loadFailure e)
      | .ok image => do
          let result ← execute request image
          let (exit, stderr) := request.conclusion result
          deliver { exit, stdout := "", stderr }

def convertCommand (args : List String) : IO UInt32 := do
  match ConvertRequest.ofArgs? args with
  | none => deliver .usage
  | some request => do
      let conversion := request.convert (← readFile request.source)
      try
        if let some bytes := conversion.saved then
          IO.FS.writeBinFile request.target ⟨bytes.toArray⟩
        deliver conversion.answer
      catch error => deliver (ConvertRequest.failure (.io (faultOf error)))

end Command
end ObjectMachine

def main (args : List String) : IO UInt32 :=
  match args with
  | "run" :: args => ObjectMachine.Command.runCommand args
  | "convert" :: args => ObjectMachine.Command.convertCommand args
  | _ => ObjectMachine.Command.deliver .usage
