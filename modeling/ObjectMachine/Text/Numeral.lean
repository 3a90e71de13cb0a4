/-!
# Numerals

Decimal and hexadecimal numerals, read into natural numbers and into 32-bit words, and written
without padding. A numeral is read whole or not at all: an empty one, one with a character that
is no digit, and one whose value does not fit are all refused.
-/

namespace ObjectMachine
namespace Text

/-- The value of an ASCII digit or of a letter from `a` to `f` in either case. -/
def digitValue? (c : Char) : Option Nat :=
  if '0' ≤ c ∧ c ≤ '9' then some (c.toNat - '0'.toNat)
  else if 'a' ≤ c ∧ c ≤ 'f' then some (c.toNat - 'a'.toNat + 10)
  else if 'A' ≤ c ∧ c ≤ 'F' then some (c.toNat - 'A'.toNat + 10)
  else none

/-- The number that digits of a base denote after the digits that made `acc`. -/
def readDigits? (base : Nat) (acc : Nat) : List Char → Option Nat
  | [] => some acc
  | c :: cs =>
      match digitValue? c with
      | some d => if d < base then readDigits? base (acc * base + d) cs else none
      | none => none

def readNat? (base : Nat) : List Char → Option Nat
  | [] => none
  | c :: cs => readDigits? base 0 (c :: cs)

/-- A 32-bit word in the given base, with an optional plus sign. -/
def readUInt32? (base : Nat) (cs : List Char) : Option UInt32 :=
  let digits := match cs with
    | '+' :: rest => rest
    | _ => cs
  match readNat? base digits with
  | some n => if n < UInt32.size then some (UInt32.ofNat n) else none
  | none => none

def readInt32? (cs : List Char) : Option Int32 :=
  let signed := match cs with
    | '-' :: rest => (readNat? 10 rest).map fun n => -(n : Int)
    | '+' :: rest => (readNat? 10 rest).map fun n => (n : Int)
    | _ => (readNat? 10 cs).map fun n => (n : Int)
  match signed with
  | some i =>
      if Int32.minValue.toInt ≤ i ∧ i ≤ Int32.maxValue.toInt then some (Int32.ofInt i) else none
  | none => none

/-!
## Writing
-/

def decimal (n : Nat) : List Char :=
  Nat.toDigits 10 n

def signedDecimal (i : Int) : List Char :=
  if i < 0 then '-' :: decimal i.natAbs else decimal i.natAbs

/-- An integer in decimal, always with its sign. -/
def offsetDecimal (i : Int) : List Char :=
  if i < 0 then '-' :: decimal i.natAbs else '+' :: decimal i.natAbs

def hexLower (n : Nat) : List Char :=
  Nat.toDigits 16 n

def hexUpper (n : Nat) : List Char :=
  (Nat.toDigits 16 n).map Char.toUpper

def showInt32 (i : Int32) : String :=
  String.ofList (signedDecimal i.toInt)

def showHex (n : Nat) : String :=
  String.ofList (hexUpper n)

def showHexByte (b : UInt8) : String :=
  let digits := hexUpper b.toNat
  String.ofList (if digits.length < 2 then '0' :: digits else digits)

end Text
end ObjectMachine
