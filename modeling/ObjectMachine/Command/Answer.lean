import ObjectMachine.Command.Arguments
import ObjectMachine.Machine.Run

/-!
# Answers of the commands

What a command prints and the code it exits with, as functions of its arguments and the files it
reads. Running an image prints what the program writes; a program that stops itself exits with 2,
one that fails with 1. A conversion prints nothing unless it fails.
-/

namespace ObjectMachine

/-!
## Errors in full
-/

def IoKind.name : IoKind → String
  | .unexpectedEnd => "UnexpectedEof"
  | .invalidData => "InvalidData"
  | .notFound => "NotFound"
  | .permissionDenied => "PermissionDenied"
  | .isDirectory => "IsADirectory"
  | .other => "Other"

def IoFault.inspect : IoFault → String
  | .notUtf8 =>
      "Error \x7b kind: InvalidData, message: " ++ Text.quote (IoFault.message .notUtf8) ++
        " \x7d"
  | .system number kind text =>
      "Os \x7b code: " ++ toString number ++ ", kind: " ++ kind.name ++ ", message: " ++
        Text.quote text ++ " \x7d"
  | fault =>
      "Custom \x7b kind: " ++ fault.kind.name ++ ", error: " ++ Text.quote fault.message ++
        " \x7d"

def Error.inspect : Error → String
  | .image fault => "ImageInvalid(" ++ Text.quote fault.message ++ ")"
  | .code cause => "BytecodeInvalid(" ++ Text.quote cause.message ++ ")"
  | .shortage cause => "ResourceExhausted(" ++ Text.quote cause.message ++ ")"
  | .indexOutOfRange index length =>
      "IndexOutOfRange \x7b index: " ++ Text.showInt32 index ++ ", length: " ++
        toString length ++ " \x7d"
  | .corruption cause => "HeapCorruption(" ++ Text.quote cause.message ++ ")"
  | .nullReference use => "NullReference(" ++ Text.quote use.message ++ ")"
  | .invalidCast source target =>
      "InvalidCast \x7b from: " ++ Text.quote source ++ ", to: " ++ Text.quote target ++ " \x7d"
  | .divisionByZero => "DivideByZero"
  | .io fault => "Io(" ++ fault.inspect ++ ")"

namespace Command

structure Answer where
  exit : Nat
  /-- What goes to the output. -/
  stdout : String
  /-- What goes to the error output. -/
  stderr : String
  deriving DecidableEq, Repr

def Answer.usage : Answer :=
  { exit := 2, stdout := "", stderr := "error: the arguments make no sense\n" }

abbrev File := Except IoFault (List UInt8)

def readImage (file : File) : Except Error Image :=
  match file with
  | .error fault => .error (.io fault)
  | .ok bytes => Image.ofBytes bytes

/-!
## Running
-/

namespace RunRequest

def loadFailure (request : RunRequest) (error : Error) : Answer :=
  { exit := 1
    stdout := ""
    stderr := "Error loading " ++ request.path ++ ": " ++ error.message ++ "\n" }

def conclusion (request : RunRequest) : Except Error (Option ExitStatus) → Nat × String
  | .ok (some (.halted message)) => (2, "Halted: " ++ message ++ "\n")
  | .ok _ => (0, "")
  | .error e => (1, "Error executing " ++ request.path ++ ": " ++ e.message ++ "\n")

def answer (request : RunRequest) (file : File) (stdin : List UInt8) (fuel : Nat) :
    Option Answer :=
  match readImage file with
  | .error e => some (request.loadFailure e)
  | .ok image =>
      (image.run request.limits stdin .off fuel).map fun outcome =>
        let (exit, stderr) := request.conclusion outcome.result
        { exit, stdout := outcome.output, stderr }

end RunRequest

/-!
## Conversion
-/

/-- What a conversion leaves behind: the file it made, perhaps only in part, and its answer. -/
structure Conversion where
  /-- What is in the file, if there is one. -/
  saved : Option (List UInt8)
  answer : Answer
  deriving DecidableEq, Repr

def ConvertRequest.failure (error : Error) : Answer :=
  { exit := 1
    stdout := ""
    stderr := "Error: Compat \x7b error: " ++ error.inspect ++ " \x7d\n" }

/-- What has been written of an image when it is complete or cannot be written on. -/
def savedBytes (format : Image.Format) (image : Image) : List UInt8 :=
  match format with
  | .text => (String.ofList (Image.Source.written image)).toUTF8.toList
  | .binary =>
      match image.toBytes .binary with
      | .ok bytes => bytes
      | .error _ => []

def ConvertRequest.convert (request : ConvertRequest) (file : File) : Conversion :=
  match readImage file with
  | .error e => { saved := none, answer := failure e }
  | .ok image =>
      let saved := some (savedBytes request.format image)
      match image.toBytes request.format with
      | .ok _ => { saved, answer := { exit := 0, stdout := "", stderr := "" } }
      | .error e => { saved, answer := failure e }

end Command
end ObjectMachine
