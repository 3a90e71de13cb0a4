import ObjectMachine.Image.Basic
import ObjectMachine.Image.Fault
import ObjectMachine.Text.Blank
import ObjectMachine.Text.DecimalDigit

/-!
# Header lines

A header line stands between exclamation marks and opens with the word for what it declares:

* `!Class: name base: type fields: type ... methods: method ...!`
* `!Array: type!`
* `!Method: name returns: type params: type ... locals: type ...!`
* `!Main: method!`

The sections after a name may be left out, but not reordered. A header is first recognised by
its shape alone; its numbers are read afterwards, from left to right.
-/

namespace ObjectMachine
namespace Image
namespace Source

def after? : List Char → List Char → Option (List Char)
  | [], text => some text
  | _ :: _, [] => none
  | c :: start, d :: text => if c = d then after? start text else none

/-- The inside of a header of a kind: what stands between the colon and the closing mark,
without the blanks around it. -/
def headerBody? (kind : HeaderKind) (line : List Char) : Option (List Char) :=
  match after? ('!' :: kind.name.toList ++ [':']) line with
  | none => none
  | some rest => if rest.getLast? = some '!' then some (Text.trim rest.dropLast) else none

def header? (line : List Char) : Option (HeaderKind × List Char) :=
  [HeaderKind.ofClass, .ofArray, .ofMethod, .ofMain].findSome? fun kind =>
    (headerBody? kind line).map fun body => (kind, body)

/-!
## The shape of numbers
-/

/-- Digits of any script, at least one. -/
def isDigits (word : List Char) : Bool :=
  !word.isEmpty && word.all Text.isDecimalDigit

/-- Digits behind an optional minus sign. -/
def isNumber (word : List Char) : Bool :=
  match word with
  | '-' :: rest => isDigits rest
  | _ => isDigits word

def readInt (word : List Char) : Except LineFault Int32 :=
  match Text.readInt32? (Text.trim word) with
  | some value => .ok value
  | none => .error (.badNumber (String.ofList word))

def readUInt (word : List Char) : Except LineFault UInt32 :=
  match Text.readUInt32? 10 (Text.trim word) with
  | some value => .ok value
  | none => .error (.badNumber (String.ofList word))

/-!
## Sections
-/

/-- A section that holds one number, in the word of its key or in the next. -/
def valueSection (key : List Char) (words : List (List Char)) :
    Option (List Char) × List (List Char) :=
  match words with
  | [] => (none, [])
  | word :: rest =>
      match after? key word with
      | none => (none, words)
      | some [] =>
          match rest with
          | value :: rest => if isNumber value then (some value, rest) else (none, words)
          | [] => (none, words)
      | some value => if isNumber value then (some value, rest) else (none, words)

def listSection (key : List Char) (words : List (List Char)) :
    List (List Char) × List (List Char) :=
  match words with
  | [] => ([], [])
  | word :: rest =>
      if word = key then (rest.takeWhile isNumber, rest.dropWhile isNumber) else ([], words)

/-- The inside of a header that declares something with a name: a name, a section with at most
one number, and two lists. -/
structure Declaration where
  name : List Char
  /-- The number of the first section. -/
  value : Option (List Char)
  /-- The numbers of the second section. -/
  first : List (List Char)
  /-- The numbers of the third section. -/
  second : List (List Char)
  deriving DecidableEq, Repr

def declaration? (valueKey firstKey secondKey : List Char) (body : List Char) :
    Option Declaration :=
  match Text.words body with
  | [] => none
  | name :: words =>
      let (value, words) := valueSection valueKey words
      let (first, words) := listSection firstKey words
      let (second, words) := listSection secondKey words
      if name.contains '!' || !words.isEmpty then none
      else some { name, value, first, second }

def Declaration.read (decl : Declaration) :
    Except LineFault (Option Int32 × List Int32 × List Int32) := do
  let value ← decl.value.mapM readInt
  let first ← decl.first.mapM readInt
  let second ← decl.second.mapM readInt
  .ok (value, first, second)

/-!
## Headers
-/

def readClassHeader (body : List Char) : Except LineFault ClassDef :=
  match declaration? "base:".toList "fields:".toList "methods:".toList body with
  | none => .error (.malformedHeader .ofClass)
  | some decl => do
      let (base, fields, methods) ← decl.read
      .ok { name := String.ofList decl.name, base, fields, methods }

def readMethodHeader (body : List Char) : Except LineFault MethodDef :=
  match declaration? "returns:".toList "params:".toList "locals:".toList body with
  | none => .error (.malformedHeader .ofMethod)
  | some decl => do
      let (returns, params, locals) ← decl.read
      .ok { name := String.ofList decl.name, returns, params, locals, code := [] }

def readNumberHeader (kind : HeaderKind) (body : List Char) : Except LineFault Int32 :=
  if isNumber body then readInt body else .error (.malformedHeader kind)

end Source
end Image
end ObjectMachine
