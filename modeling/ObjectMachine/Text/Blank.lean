/-!
# Blanks, lines and words

Source text is cut three ways: into lines at line feeds, into words at blanks, and a line is
trimmed of the blanks around it. A blank is a character with the Unicode property
`White_Space`, so the no-break space and the ideographic space count as well.

Everything here works on lists of characters and recurses on the list.
-/

namespace ObjectMachine
namespace Text

/-- A character with the Unicode property `White_Space`. -/
def isBlank (c : Char) : Bool :=
  let n := c.toNat
  (9 ≤ n && n ≤ 13) || n == 0x20 || n == 0x85 || n == 0xA0 || n == 0x1680 ||
    (0x2000 ≤ n && n ≤ 0x200A) || n == 0x2028 || n == 0x2029 || n == 0x202F ||
    n == 0x205F || n == 0x3000

def trimLeft (cs : List Char) : List Char :=
  cs.dropWhile isBlank

def trimRight (cs : List Char) : List Char :=
  (cs.reverse.dropWhile isBlank).reverse

def trim (cs : List Char) : List Char :=
  trimRight (trimLeft cs)

/-!
## Lines
-/

/-- The lines of a text. A line feed ends a line, and the last line need not be ended. -/
def lines : List Char → List (List Char)
  | [] => []
  | c :: cs =>
      if c = '\n' then
        [] :: lines cs
      else
        match lines cs with
        | [] => [[c]]
        | line :: rest => (c :: line) :: rest

/-!
## Words
-/

/-- The word a text starts with, empty if it starts with a blank, and the words after it. -/
def splitWords : List Char → List Char × List (List Char)
  | [] => ([], [])
  | c :: cs =>
      let (word, rest) := splitWords cs
      if isBlank c then
        ([], if word.isEmpty then rest else word :: rest)
      else
        (c :: word, rest)

def words (cs : List Char) : List (List Char) :=
  let (word, rest) := splitWords cs
  if word.isEmpty then rest else word :: rest

end Text
end ObjectMachine
