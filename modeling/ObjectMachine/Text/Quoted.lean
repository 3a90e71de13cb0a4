import ObjectMachine.Text.Numeral
import ObjectMachine.Text.Printable

/-!
# Quoted text

Messages quote the text and the characters they speak of. A quoted form escapes the backslash,
the quote that encloses it, and every character that would not show; all else stands as itself.
-/

namespace ObjectMachine
namespace Text

def doubleQuote : Char := '\x22'

def singleQuote : Char := '\x27'

def backslash : Char := '\x5c'

def codePointEscape (c : Char) : List Char :=
  [backslash, 'u', '\x7b'] ++ hexLower c.toNat ++ ['\x7d']

def quotedChar (quote : Char) (c : Char) : List Char :=
  if c = '\x00' then [backslash, '0']
  else if c = '\t' then [backslash, 't']
  else if c = '\r' then [backslash, 'r']
  else if c = '\n' then [backslash, 'n']
  else if c = backslash then [backslash, backslash]
  else if c = quote then [backslash, quote]
  else if isExtending c || !isPrintable c then codePointEscape c
  else [c]

def quote (text : String) : String :=
  String.ofList (doubleQuote :: text.toList.flatMap (quotedChar doubleQuote) ++ [doubleQuote])

def quoteChar (c : Char) : String :=
  String.ofList (singleQuote :: quotedChar singleQuote c ++ [singleQuote])

end Text
end ObjectMachine
