import ObjectMachine.Image.Load
import ObjectMachine.Machine.Limits
import ObjectMachine.Text.Numeral

/-!
# Command lines

Options start with two dashes and stand anywhere among the other arguments. An option with a
value takes it from behind an equals sign or from the next argument. Each option is given at most
once. Two dashes alone end the options, and a single dash is an ordinary argument.
-/

namespace ObjectMachine
namespace Command

structure Grammar where
  /-- Options with a number. -/
  valued : List String
  /-- Options without a value. -/
  flags : List String

structure Arguments where
  /-- The arguments that are no options, in order. -/
  plain : List String
  /-- The options with a number. -/
  numbers : List (String × Nat)
  /-- The options without a value. -/
  flags : List String
  deriving DecidableEq, Repr

namespace Arguments

def none : Arguments := ⟨[], [], []⟩

def addPlain (args : Arguments) (arg : String) : Option Arguments :=
  if arg.isEmpty then Option.none else some { args with plain := args.plain ++ [arg] }

/-- An unsigned 64-bit number, with an optional plus sign. -/
def readNumber? (text : List Char) : Option Nat :=
  let digits := match text with
    | '+' :: rest => rest
    | _ => text
  match Text.readNat? 10 digits with
  | some n => if n < UInt64.size then some n else Option.none
  | Option.none => Option.none

def addNumber (args : Arguments) (name : String) (text : List Char) : Option Arguments :=
  if (args.numbers.lookup name).isSome then
    Option.none
  else
    (readNumber? text).map fun n => { args with numbers := (name, n) :: args.numbers }

def addFlag (args : Arguments) (name : String) : Option Arguments :=
  if args.flags.contains name then Option.none
  else some { args with flags := name :: args.flags }

def addPlains (args : Arguments) : List String → Option Arguments
  | [] => some args
  | arg :: rest =>
      match args.addPlain arg with
      | some args => addPlains args rest
      | Option.none => Option.none

/-- Arguments are sorted, or they make no sense. -/
def scan (grammar : Grammar) (args : Arguments) : List String → Option Arguments
  | [] => some args
  | arg :: rest =>
      match arg.toList with
      | ['-', '-'] => args.addPlains rest
      | '-' :: '-' :: option =>
          let name := String.ofList (option.takeWhile (· ≠ '='))
          match option.dropWhile (· ≠ '=') with
          | _ :: value =>
              if grammar.valued.contains name then
                match args.addNumber name value with
                | some args => scan grammar args rest
                | Option.none => Option.none
              else
                Option.none
          | [] =>
              if grammar.valued.contains name then
                match rest with
                | value :: rest =>
                    match args.addNumber name value.toList with
                    | some args => scan grammar args rest
                    | Option.none => Option.none
                | [] => Option.none
              else if grammar.flags.contains name then
                match args.addFlag name with
                | some args => scan grammar args rest
                | Option.none => Option.none
              else
                Option.none
      | '-' :: _ :: _ => Option.none
      | _ =>
          match args.addPlain arg with
          | some args => scan grammar args rest
          | Option.none => Option.none

end Arguments

/-!
## Requests
-/

structure RunRequest where
  path : String
  limits : Limits
  deriving DecidableEq, Repr

def RunRequest.ofArgs? (args : List String) : Option RunRequest :=
  let grammar : Grammar := ⟨["heap-size", "max-call-depth", "stack-capacity"], []⟩
  match Arguments.scan grammar .none args with
  | none => none
  | some args =>
      match args.plain with
      | [path] =>
          let number (name : String) (fallback : Nat) : Nat :=
            (args.numbers.lookup name).getD fallback
          let limits : Limits := {
            heapSize := number "heap-size" Limits.default.heapSize
            callDepth := number "max-call-depth" Limits.default.callDepth
            stackCapacity := number "stack-capacity" Limits.default.stackCapacity }
          some { path, limits }
      | _ => none

structure ConvertRequest where
  source : String
  target : String
  format : Image.Format
  deriving DecidableEq, Repr

/-- The request that arguments make. The two formats exclude each other, and text is the
default. -/
def ConvertRequest.ofArgs? (args : List String) : Option ConvertRequest :=
  match Arguments.scan ⟨[], ["binary", "text"]⟩ .none args with
  | none => none
  | some args =>
      match args.plain with
      | [source, target] =>
          let binary := args.flags.contains "binary"
          if binary && args.flags.contains "text" then none
          else some { source, target, format := if binary then .binary else .text }
      | _ => none

end Command
end ObjectMachine
