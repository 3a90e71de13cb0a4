import ObjectMachine.Proofs.CharacterStream
import ObjectMachine.Proofs.Spacing

/-!
# Integers that are written and read

What a console writes for an integer is read back as that integer, behind any blanks and in front of
any text that does not go on with a digit. No character in front of that text is left, and none of
it is taken, wherever the lines end. So integers that are written in turn, with blanks between them,
are read in turn.
-/

namespace ObjectMachine

/-!
## One integer
-/

namespace Text

/-- A text that cannot go on a numeral in front of it. -/
def EndsNumeral (rest : List Char) : Prop :=
  ∀ c ∈ rest.head?, c.isDigit = false

theorem EndsNumeral.cons {c : Char} (other : c.isDigit = false) (rest : List Char) :
    EndsNumeral (c :: rest) := by
  intro first found
  cases found
  exact other

theorem signedDecimal_cases (i : Int) :
    ∃ sign digits, signedDecimal i = sign ++ digits ∧ (sign = [] ∨ sign = ['-']) ∧ digits ≠ [] ∧
      ∀ c ∈ digits, c.isDigit = true := by
  have digits : ∀ c ∈ decimal i.natAbs, c.isDigit = true := fun c mem => isDigit_of_mem_decimal mem
  by_cases negative : i < 0
  · exact ⟨['-'], _, if_pos negative, Or.inr rfl, decimal_ne_nil _, digits⟩
  · exact ⟨[], _, if_neg negative, Or.inl rfl, decimal_ne_nil _, digits⟩

end Text

namespace Stream

theorem signOf_append {sign digits : List Char} (optional : sign = [] ∨ sign = ['-'])
    (some_digit : digits ≠ []) (all : ∀ c ∈ digits, c.isDigit = true) (rest : List Char) :
    signOf (sign ++ digits ++ rest) = sign := by
  rcases optional with rfl | rfl
  · cases digits with
    | nil => exact absurd rfl some_digit
    | cons c later =>
        have digit := all c List.mem_cons_self
        refine if_neg ?_
        intro signed
        rcases signed with rfl | rfl
        · cases digit
        · cases digit
  · rfl

theorem answerInt_of_read {sign digits : List Char} (optional : sign = [] ∨ sign = ['-'])
    (all : ∀ c ∈ digits, c.isDigit = true) {value : Int32}
    (read : Text.readInt32? (sign ++ digits) = some value) (left : List Char) :
    answerInt sign digits left = .ok (.int value) := by
  have optional' : sign = [] ∨ sign = ['-'] ∨ sign = ['+'] := optional.imp_right Or.inl
  rw [Console.readInt32?_eq optional' all] at read
  split at read
  · next fits =>
      rw [← Option.some.inj read]
      exact if_pos fits
  · cases read

theorem readInt_written {blanks rest : List Char} (blank : ∀ c ∈ blanks, Text.isBlank c = true)
    (ends : Text.EndsNumeral rest) (value : Int32) :
    readInt (blanks ++ (Text.signedDecimal value.toInt ++ rest)) =
      { answer := .ok (.int value)
        taken := blanks ++ Text.signedDecimal value.toInt
        left := rest } := by
  have word := Text.isWord_signedDecimal value.toInt
  have read := Text.readInt32?_signedDecimal value
  rcases Text.signedDecimal_cases value.toInt with ⟨sign, digits, parts, optional, some_digit, all⟩
  rw [parts] at word read ⊢
  have front : ∀ c ∈ (sign ++ digits ++ rest).head?, Text.isBlank c = false := by
    intro c first
    rw [List.head?_append_of_ne_nil _ word.1] at first
    exact word.2 c (List.mem_of_mem_head? first)
  have behind : (sign ++ digits ++ rest).drop sign.length = digits ++ rest := by
    rw [List.append_assoc, List.drop_left]
  rcases Text.scan_append blank front with ⟨skipped, numeral⟩
  rcases Text.scan_append all ends with ⟨taken, left⟩
  have signed := signOf_append optional some_digit all rest
  have answer := answerInt_of_read optional all read rest
  rw [readInt]
  simp only [skipped, numeral, signed, behind, taken, left, answer]
  rw [List.append_assoc]

end Stream

/-!
## Integers in turn
-/

namespace Console

def writeInts : List (String × Int32) → Op Unit
  | [] => return ()
  | (blanks, value) :: later => do
      write blanks
      write (Text.showInt32 value)
      writeInts later

def readInts : Nat → Op (List Int32)
  | 0 => return []
  | count + 1 => do
      let value ← readInt
      let later ← readInts count
      return value :: later

/-- There are only blanks between the integers, and at least one between any two. -/
structure Spaced (entries : List (String × Int32)) : Prop where
  blank : ∀ entry ∈ entries, ∀ c ∈ entry.1.toList, Text.isBlank c = true
  between : ∀ entry ∈ entries.tail, entry.1 ≠ ""

def writtenInts (entries : List (String × Int32)) : List Char :=
  entries.flatMap fun entry => entry.1.toList ++ Text.signedDecimal entry.2.toInt

variable {console : Console} {entries : List (String × Int32)} {rest : List Char}

theorem writeInts_eq (entries : List (String × Int32)) (console : Console) :
    writeInts entries console =
      .ok () { console with output := console.output ++ String.ofList (writtenInts entries) } := by
  induction entries generalizing console with
  | nil =>
      rw [writtenInts, List.flatMap_nil, String.ofList_nil, String.append_empty]
      rfl
  | cons entry later ih =>
      rcases entry with ⟨blanks, value⟩
      show writeInts later _ = _
      rw [ih, writtenInts, writtenInts, List.flatMap_cons, String.ofList_append,
        String.ofList_append, String.ofList_toList, Text.showInt32]
      simp only [String.append_assoc]

/-- Blanks, or the end, keep a numeral from going on. -/
theorem Spaced.endsNumeral {entry : String × Int32} (spaced : Spaced (entry :: entries))
    (ends : Text.EndsNumeral rest) : Text.EndsNumeral (writtenInts entries ++ rest) := by
  cases entries with
  | nil => exact ends
  | cons next later =>
      have blanks : next.1.toList ≠ [] := by
        intro empty
        apply spaced.between next List.mem_cons_self
        exact String.toList_eq_nil_iff.mp empty
      intro c first
      rw [writtenInts, List.flatMap_cons, List.append_assoc, List.append_assoc,
        List.head?_append_of_ne_nil _ blanks] at first
      have mem := spaced.blank next (List.mem_cons_of_mem _ List.mem_cons_self) c
        (List.mem_of_mem_head? first)
      rw [Bool.eq_false_iff]
      intro digit
      rw [Text.isBlank_of_isDigit digit] at mem
      cases mem

theorem Spaced.tail {entry : String × Int32} (spaced : Spaced (entry :: entries)) :
    Spaced entries := by
  refine ⟨fun entry mem => spaced.blank entry (List.mem_cons_of_mem _ mem), ?_⟩
  intro entry mem
  exact spaced.between entry (List.mem_of_mem_tail mem)

theorem charsLeft?_ofInput (text : String) :
    (ofInput text.toUTF8.toList).charsLeft? = some text.toList := by
  rw [charsLeft?_eq_some_iff]
  refine ⟨text.toList, ?_, rfl⟩
  rw [← toUTF8_ofList, String.ofList_toList]
  rfl

theorem readInt_of_charsLeft {value : Int32} {blanks : List Char}
    (blank : ∀ c ∈ blanks, Text.isBlank c = true) (ends : Text.EndsNumeral rest)
    (left : console.charsLeft? = some (blanks ++ (Text.signedDecimal value.toInt ++ rest))) :
    ∃ after, readInt console = .ok value after ∧ after.charsLeft? = some rest := by
  have follows := readInt_follows left
  rw [Stream.readInt_written blank ends] at follows
  generalize readInt console = result at follows
  cases follows with
  | @done value' after answer left =>
      cases answer
      exact ⟨after, rfl, left⟩
  | failed answer _ => cases answer

theorem readInts_of_charsLeft (spaced : Spaced entries) (ends : Text.EndsNumeral rest)
    (left : console.charsLeft? = some (writtenInts entries ++ rest)) :
    ∃ after, readInts entries.length console = .ok (entries.map Prod.snd) after ∧
      after.charsLeft? = some rest := by
  induction entries generalizing console with
  | nil => exact ⟨console, rfl, left⟩
  | cons entry later ih =>
      have blank := spaced.blank entry List.mem_cons_self
      rw [writtenInts, List.flatMap_cons, List.append_assoc, List.append_assoc] at left
      rcases readInt_of_charsLeft blank (spaced.endsNumeral ends) left with ⟨next, first, left'⟩
      rcases ih spaced.tail left' with ⟨after, second, left''⟩
      refine ⟨after, ?_, left''⟩
      rw [List.length_cons, readInts, bind_of_ok first, bind_of_ok second]
      rfl

/-- A written integer is read back behind blanks, and leaves the text behind it, if this does not
start with a digit. So are integers that a new console has written with blanks between them. -/
theorem integers_readBack :
    (∀ (value : Int32) (blanks rest : List Char) (console : Console),
      (∀ c ∈ blanks, Text.isBlank c = true) → Text.EndsNumeral rest →
      console.charsLeft? = some (blanks ++ ((Text.showInt32 value).toList ++ rest)) →
      ∃ after, readInt console = .ok value after ∧ after.charsLeft? = some rest) ∧
    ∀ (entries : List (String × Int32)) (rest : String), Spaced entries →
      Text.EndsNumeral rest.toList →
      ∃ written after, writeInts entries (ofInput []) = .ok () written ∧
        readInts entries.length (ofInput (written.output ++ rest).toUTF8.toList) =
          .ok (entries.map Prod.snd) after ∧
        after.charsLeft? = some rest.toList := by
  constructor
  · intro value blanks rest console blank ends left
    rw [Text.showInt32, String.toList_ofList] at left
    exact readInt_of_charsLeft blank ends left
  · intro entries rest spaced ends
    have written := writeInts_eq entries (ofInput [])
    have left := charsLeft?_ofInput (String.ofList (writtenInts entries) ++ rest)
    rw [show (ofInput []).output = "" from rfl, String.empty_append] at written
    rw [String.toList_append, String.toList_ofList] at left
    rcases readInts_of_charsLeft spaced ends left with ⟨after, read, left'⟩
    exact ⟨_, after, written, read, left'⟩

def extremeInts : List (String × Int32) :=
  [("\t", Int32.minValue), (" \n ", Int32.maxValue)]

/-- Both are read back in front of a sign, and the least one alone in front of a letter. -/
theorem integers_readBack_extremeInts :
    (∃ after, readInt (ofInput "\t-2147483648x".toUTF8.toList) = .ok Int32.minValue after ∧
      after.charsLeft? = some ['x']) ∧
    Spaced extremeInts ∧ Text.EndsNumeral ['-'] ∧
      ∃ written after, writeInts extremeInts (ofInput []) = .ok () written ∧
        written.output = "\t-2147483648 \n 2147483647" ∧
        readInts 2 (ofInput (written.output ++ "-").toUTF8.toList) =
          .ok [Int32.minValue, Int32.maxValue] after ∧
        after.charsLeft? = some ['-'] := by
  have blank : ∀ entry ∈ extremeInts, ∀ c ∈ entry.1.toList, Text.isBlank c = true := by
    simp only [← List.all_eq_true]
    decide
  have spaced : Spaced extremeInts := ⟨blank, by decide⟩
  have sign : Text.EndsNumeral ['-'] := .cons rfl []
  have letter : Text.EndsNumeral ['x'] := .cons rfl []
  rcases integers_readBack.2 extremeInts "-" spaced sign with ⟨written, after, ran, read, left⟩
  have output : written.output = "\t-2147483648 \n 2147483647" := by
    rw [writeInts_eq] at ran
    cases ran
    decide
  refine ⟨?_, spaced, sign, written, after, ran, output, read, left⟩
  exact integers_readBack.1 Int32.minValue ['\t'] ['x'] _ (List.forall_mem_singleton.mpr rfl) letter
    (charsLeft?_ofInput "\t-2147483648x")

end Console
end ObjectMachine
