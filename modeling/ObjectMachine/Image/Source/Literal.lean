import ObjectMachine.Image.Fault
import ObjectMachine.Word

/-!
# Literals

Characters and strings stand in quotes in a text image. Between the quotes a backslash starts an
escape: a letter for a common control character, the backslash or a quote for itself, or a code
point in hexadecimal within braces. Reading takes the escapes out, writing puts in those that
are needed.
-/

namespace ObjectMachine
namespace Image
namespace Source

open Text (backslash)

def openBrace : Char := '\x7b'

def closeBrace : Char := '\x7d'

def shortEscape? (c : Char) : Option Char :=
  if c = 'n' then some '\n'
  else if c = 't' then some '\t'
  else if c = 'r' then some '\r'
  else if c = '0' then some '\x00'
  else if c = backslash ∨ c = Text.singleQuote ∨ c = Text.doubleQuote then some c
  else none

def scalar (digits : List Char) : Except EscapeFault Char :=
  match Text.readUInt32? 16 digits with
  | none => .error (.badHex (String.ofList digits))
  | some code =>
      match Word.toChar? code with
      | some c => .ok c
      | none => .error (.badScalar code.toNat)

def afterBrace (cs : List Char) : List Char :=
  (cs.dropWhile (· ≠ closeBrace)).drop 1

theorem length_afterBrace_le (cs : List Char) : (afterBrace cs).length ≤ cs.length := by
  rw [afterBrace, List.length_drop]
  exact Nat.le_trans (Nat.sub_le _ _) (List.dropWhile_sublist _).length_le

/-- The text that the inside of a literal stands for. The digits of a code point end at the
closing brace, or with the literal if there is none. -/
def unescape : List Char → Except EscapeFault (List Char)
  | [] => .ok []
  | c :: rest =>
      if c ≠ backslash then do
        let tail ← unescape rest
        .ok (c :: tail)
      else
        match rest with
        | [] => .error (.unknown ' ')
        | e :: rest =>
            match shortEscape? e with
            | some plain => do
                let tail ← unescape rest
                .ok (plain :: tail)
            | none =>
                if e ≠ 'u' then
                  .error (.unknown e)
                else
                  match rest with
                  | [] => .error .noBrace
                  | b :: rest =>
                      if b ≠ openBrace then
                        .error .noBrace
                      else do
                        let plain ← scalar (rest.takeWhile (· ≠ closeBrace))
                        let tail ← unescape (afterBrace rest)
                        .ok (plain :: tail)
termination_by cs => cs.length
decreasing_by
  · simp
  · simp only [List.length_cons]
    omega
  · have := length_afterBrace_le rest
    simp only [List.length_cons]
    omega

def escapeChar (quote : Char) (c : Char) : List Char :=
  if c = '\n' then [backslash, 'n']
  else if c = '\t' then [backslash, 't']
  else if c = '\r' then [backslash, 'r']
  else if c = '\x00' then [backslash, '0']
  else if c = backslash then [backslash, backslash]
  else if c = quote then [backslash, quote]
  else if Text.isControl c then Text.codePointEscape c
  else [c]

def literal (quote : Char) (text : List Char) : List Char :=
  quote :: text.flatMap (escapeChar quote) ++ [quote]

def unquote? (quote : Char) : List Char → Option (List Char)
  | [] => none
  | c :: rest =>
      if c = quote ∧ rest.getLast? = some quote then some rest.dropLast else none

end Source
end Image
end ObjectMachine
