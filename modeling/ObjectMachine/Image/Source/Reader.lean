import ObjectMachine.Image.Source.Header
import ObjectMachine.Image.Source.Literal

/-!
# Reading text images

A text image is read line by line. Blank lines and lines that start with a semicolon say nothing.
A header line declares a type, opens a method or names the main method. Every other line belongs
to the method that was opened last: a label, written `:name`, or an instruction, a mnemonic
with an operand where it takes one.

A branch names a label or gives an offset relative to the instruction after it. A label may stand
after the branches that name it, so a method is kept as a draft until the next header line, or
the end, closes it.
-/

namespace ObjectMachine
namespace Image
namespace Source

/-!
## Instructions
-/

/-- An operand as it is read: complete, or a branch to a label. -/
inductive DraftOperand where
  | complete (operand : OperandDef)
  | label (name : String)
  deriving DecidableEq, Repr

def fieldOperand? (text : List Char) : Option (List Char × List Char) :=
  let owner := text.takeWhile (· ≠ '.')
  match text.dropWhile (· ≠ '.') with
  | [] => none
  | _ :: index => if isNumber owner && isDigits index then some (owner, index) else none

def readOperand (opcode : Opcode) (text : List Char) : Except LineFault DraftOperand :=
  match opcode.operandKind with
  | .none => .error (.unwantedOperand opcode (String.ofList text))
  | .int => do
      let value ← readInt text
      .ok (.complete (.int value))
  | .char =>
      match unquote? Text.singleQuote text with
      | none => .error .notQuotedChar
      | some body =>
          match unescape body with
          | .error fault => .error (.badEscape fault)
          | .ok [c] => .ok (.complete (.char c))
          | .ok _ => .error (.notOneChar (String.ofList text))
  | .bool =>
      if text = "true".toList then .ok (.complete (.bool true))
      else if text = "false".toList then .ok (.complete (.bool false))
      else .error (.badBool (String.ofList text))
  | .str =>
      match unquote? Text.doubleQuote text with
      | none => .error .notQuotedText
      | some body =>
          match unescape body with
          | .error fault => .error (.badEscape fault)
          | .ok plain => .ok (.complete (.str (String.ofList plain)))
  | .slot => do
      let index ← readUInt text
      .ok (.complete (.slot index))
  | .branch =>
      match text with
      | ':' :: label => .ok (.label (String.ofList label))
      | _ => do
          let offset ← readInt text
          .ok (.complete (.branch offset))
  | .type => do
      let index ← readInt text
      .ok (.complete (.type index))
  | .method => do
      let index ← readInt text
      .ok (.complete (.method index))
  | .field =>
      match fieldOperand? text with
      | none => .error (.badField (String.ofList text))
      | some (owner, index) => do
          let owner ← readInt owner
          let index ← readUInt index
          .ok (.complete (.field owner index))

def isMnemonicChar (c : Char) : Bool :=
  ('a' ≤ c && c ≤ 'z') || c == '_' || ('0' ≤ c && c ≤ '9')

def instruction? (line : List Char) : Option (List Char × Option (List Char)) :=
  let mnemonic := line.takeWhile isMnemonicChar
  let rest := line.dropWhile isMnemonicChar
  if mnemonic.isEmpty then
    none
  else
    match rest with
    | [] => some (mnemonic, none)
    | c :: _ =>
        match Text.trimLeft rest with
        | [] => none
        | operand => if Text.isBlank c then some (mnemonic, some operand) else none

def readInstruction (line : List Char) : Except LineFault (Opcode × DraftOperand) :=
  match instruction? line with
  | none => .error (.unparseable (String.ofList line))
  | some (mnemonic, operand) =>
      match Opcode.ofMnemonic? (String.ofList mnemonic) with
      | none => .error (.unknownInstruction (String.ofList mnemonic))
      | some opcode =>
          match operand with
          | some text => do
              let operand ← readOperand opcode text
              .ok (opcode, operand)
          | none =>
              if opcode.operandKind = .none then .ok (opcode, .complete .none)
              else .error (.missingOperand opcode)

/-- The name on a label line: a letter or underscore, then letters, digits and underscores. -/
def label? (line : List Char) : Option (List Char) :=
  let isStart (c : Char) : Bool := ('A' ≤ c && c ≤ 'Z') || ('a' ≤ c && c ≤ 'z') || c == '_'
  match line with
  | ':' :: c :: rest =>
      if isStart c && rest.all (fun d => isStart d || ('0' ≤ d && d ≤ '9')) then
        some (c :: rest)
      else
        none
  | _ => none

/-!
## Drafts of methods
-/

structure DraftInstruction where
  opcode : Opcode
  operand : DraftOperand
  line : Nat
  deriving DecidableEq, Repr

/-- A method whose lines are being read. -/
structure Draft where
  header : MethodDef
  code : Array DraftInstruction
  /-- The labels so far, each with the number of instructions in front of it. -/
  labels : List (String × Nat)
  deriving DecidableEq, Repr

namespace Draft

def ofHeader (header : MethodDef) : Draft :=
  { header, code := #[], labels := [] }

def position? (draft : Draft) (label : String) : Option Nat :=
  draft.labels.lookup label

def addLabel (draft : Draft) (label : String) : Except LineFault Draft :=
  match draft.position? label with
  | some _ => .error (.repeatedLabel label)
  | none => .ok { draft with labels := (label, draft.code.size) :: draft.labels }

def addInstruction (draft : Draft) (insn : DraftInstruction) : Draft :=
  { draft with code := draft.code.push insn }

/-- The instruction at a position with its label turned into an offset, which counts from the
instruction after it. -/
def closeInstruction (draft : Draft) (insn : DraftInstruction) (position : Nat) :
    Except ImageFault InstructionDef :=
  match insn.operand with
  | .complete operand => .ok { opcode := insn.opcode, operand }
  | .label name =>
      match draft.position? name with
      | none => .error (.line insn.line (.undefinedLabel name))
      | some target =>
          let offset : Int := (target : Int) - ((position : Int) + 1)
          .ok { opcode := insn.opcode, operand := .branch (Int32.ofInt offset) }

def close (draft : Draft) : Except ImageFault MethodDef := do
  let code ← draft.code.toList.zipIdx.mapM fun (insn, position) =>
    draft.closeInstruction insn position
  .ok { draft.header with code }

end Draft

/-!
## Lines
-/

/-- What has been read so far. -/
structure Progress where
  types : Array TypeDef
  /-- The methods that have been closed. -/
  methods : Array MethodDef
  /-- The main method, if it has been named. -/
  main : Option Int32
  /-- The method whose lines are being read. -/
  draft : Option Draft
  deriving DecidableEq, Repr

namespace Progress

def start : Progress :=
  { types := #[], methods := #[], main := none, draft := none }

def closeDraft (progress : Progress) : Except ImageFault Progress :=
  match progress.draft with
  | none => .ok progress
  | some draft => do
      let method ← draft.close
      .ok { progress with methods := progress.methods.push method, draft := none }

def addHeader (progress : Progress) (kind : HeaderKind) (body : List Char) :
    Except LineFault Progress :=
  match kind with
  | .ofClass => do
      let c ← readClassHeader body
      .ok { progress with types := progress.types.push (.ofClass c) }
  | .ofArray => do
      let element ← readNumberHeader .ofArray body
      .ok { progress with types := progress.types.push (.ofArray element) }
  | .ofMethod => do
      let header ← readMethodHeader body
      .ok { progress with draft := some (.ofHeader header) }
  | .ofMain =>
      if !isNumber body then
        .error (.malformedHeader .ofMain)
      else if progress.main.isSome then
        .error .secondMain
      else do
        let main ← readInt body
        .ok { progress with main := some main }

def addBody (progress : Progress) (number : Nat) (line : List Char) :
    Except LineFault Progress :=
  match progress.draft with
  | none => .error .outsideMethod
  | some draft =>
      match label? line with
      | some label => do
          let draft ← draft.addLabel (String.ofList label)
          .ok { progress with draft := some draft }
      | none => do
          let (opcode, operand) ← readInstruction line
          .ok { progress with
            draft := some (draft.addInstruction { opcode, operand, line := number }) }

def addLine (progress : Progress) (number : Nat) (raw : List Char) :
    Except ImageFault Progress :=
  let line := Text.trim raw
  if line.isEmpty || line.head? = some ';' then
    .ok progress
  else
    match header? line with
    | some (kind, body) => do
        let progress ← progress.closeDraft
        (progress.addHeader kind body).mapError (.line number)
    | none => (progress.addBody number line).mapError (.line number)

/-- Lines are added, the first of which has the given number. -/
def addLines (progress : Progress) (number : Nat) : List (List Char) → Except ImageFault Progress
  | [] => .ok progress
  | line :: rest => do
      let progress ← progress.addLine number line
      addLines progress (number + 1) rest

def finish (progress : Progress) : Except ImageFault Image := do
  let progress ← progress.closeDraft
  match progress.main with
  | none => .error .noMain
  | some main =>
      .ok { types := progress.types.toList, methods := progress.methods.toList, main }

end Progress

def read (source : List Char) : Except ImageFault Image := do
  let progress ← Progress.start.addLines 1 (Text.lines source)
  progress.finish

end Source
end Image
end ObjectMachine
