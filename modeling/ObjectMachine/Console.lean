import ObjectMachine.Error
import ObjectMachine.Text.Blank
import ObjectMachine.Text.Numeral

/-!
# The console

The console hands out the characters of its input one by one, as numbers, or as lines, and
collects what is written. Input comes as bytes and is decoded a line at a time, when the
characters of the line before are used up. A line that is not UTF-8 is dropped, and reported to
whoever wanted to read it.
-/

namespace ObjectMachine

/-- The input that is left, and the output so far. -/
structure Console where
  /-- The bytes that have not been decoded. -/
  input : List UInt8
  /-- The characters that have been decoded and not been handed out. -/
  pending : List Char
  output : String
  deriving DecidableEq, Repr, Inhabited

namespace Console

abbrev Op := EStateM Error Console

def ofInput (input : List UInt8) : Console :=
  { input, pending := [], output := "" }

/-!
## Decoding
-/

def splitLine : List UInt8 → List UInt8 × List UInt8
  | [] => ([], [])
  | b :: rest =>
      if b = 10 then
        ([b], rest)
      else
        let (line, rest) := splitLine rest
        (b :: line, rest)

theorem length_splitLine_le (bytes : List UInt8) :
    (splitLine bytes).2.length ≤ bytes.length := by
  induction bytes with
  | nil => simp [splitLine]
  | cons b rest ih =>
      unfold splitLine
      split
      · simp
      · simpa using Nat.le_succ_of_le ih

theorem length_splitLine_lt {bytes : List UInt8} (nonempty : bytes ≠ []) :
    (splitLine bytes).2.length < bytes.length := by
  cases bytes with
  | nil => exact absurd rfl nonempty
  | cons b rest =>
      unfold splitLine
      split
      · simp
      · simpa using Nat.lt_succ_of_le (length_splitLine_le rest)

def decode? (bytes : List UInt8) : Option (List Char) :=
  (String.fromUTF8? ⟨bytes.toArray⟩).map String.toList

def takeRun (test : Char → Bool) (console : Console) : EStateM.Result Error Console (List Char) :=
  let run := console.pending.takeWhile test
  match console.pending.dropWhile test with
  | c :: rest => .ok run { console with pending := c :: rest }
  | [] =>
      if _h : console.input = [] then
        .ok run { console with pending := [] }
      else
        match decode? (splitLine console.input).1 with
        | none =>
            .error (.io .notUtf8)
              { console with pending := [], input := (splitLine console.input).2 }
        | some line =>
            match takeRun test
              { console with pending := line, input := (splitLine console.input).2 } with
            | .ok more console => .ok (run ++ more) console
            | .error e console => .error e console
termination_by console.input.length
decreasing_by
  exact length_splitLine_lt _h

def peek : Op (Option Char) := fun console =>
  match takeRun (fun _ => false) console with
  | .ok _ console => .ok console.pending.head? console
  | .error e console => .error e console

def skip : Op Unit :=
  modify fun console => { console with pending := console.pending.tail }

/-!
## Reading and writing
-/

def readChar : Op Char := do
  match ← peek with
  | some c => do
      skip
      return c
  | none => return '\x00'

/-- The next integer: blanks are skipped, a sign may follow, then digits. -/
def readInt : Op Int32 := do
  let _ ← takeRun Text.isBlank
  let sign ← do
    match ← peek with
    | some c =>
        if c = '-' ∨ c = '+' then
          skip
          pure [c]
        else
          pure []
    | none => pure []
  let digits ← takeRun Char.isDigit
  let numeral := sign ++ digits
  if numeral.isEmpty then
    throw (.io (.noInteger (← peek).isNone))
  else
    match Text.readInt32? numeral with
    | some value => return value
    | none => throw (.io (.notInt32 (String.ofList numeral)))

/-- A text without one carriage return at its end. -/
def dropReturn (line : List Char) : List Char :=
  if line.getLast? = some '\r' then line.dropLast else line

def readLine : Op String := do
  let line ← takeRun (· ≠ '\n')
  skip
  return String.ofList (dropReturn line)

def write (text : String) : Op Unit :=
  modify fun console => { console with output := console.output ++ text }

end Console
end ObjectMachine
