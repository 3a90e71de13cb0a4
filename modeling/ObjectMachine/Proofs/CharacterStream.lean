import Mathlib.Algebra.Group.Int.Defs
import ObjectMachine.Proofs.ConsoleInput
import ObjectMachine.Proofs.Numerals

/-!
# The input as a stream of characters

A reader of characters knows nothing of bytes and of lines that are decoded one at a time: the
input is one sequence of characters, and a call takes some of them from its front. This is what
reading from a console comes to for every input in UTF-8, whatever calls are made and in whatever
order, the calls that fail included.
-/

namespace ObjectMachine

/-!
## Reading from a sequence of characters
-/

inductive Request where
  | int
  | char
  | line
  deriving DecidableEq, Repr

inductive Reply where
  | int (value : Int32)
  | char (c : Char)
  | line (text : String)
  deriving DecidableEq, Repr

/-- What one call comes to: its answer, the characters it takes, and those it leaves. -/
structure Reading where
  answer : Except Error Reply
  taken : List Char
  left : List Char

namespace Stream

def readChar : List Char → Reading
  | [] => { answer := .ok (.char '\x00'), taken := [], left := [] }
  | c :: rest => { answer := .ok (.char c), taken := [c], left := rest }

def chomp : List Char → List Char
  | [] => []
  | ['\r'] => []
  | c :: rest => c :: chomp rest

def readLine (chars : List Char) : Reading :=
  let line := chars.takeWhile (· ≠ '\n')
  let answer := .ok (.line (String.ofList (chomp line)))
  match chars.dropWhile (· ≠ '\n') with
  | [] => { answer, taken := line, left := [] }
  | newline :: rest => { answer, taken := line ++ [newline], left := rest }

def signOf : List Char → List Char
  | [] => []
  | c :: _ => if c = '-' ∨ c = '+' then [c] else []

def magnitude (digits : List Char) : Nat :=
  digits.foldl (fun n c => n * 10 + (c.toNat - '0'.toNat)) 0

def signed (sign digits : List Char) : Int :=
  if sign = ['-'] then -magnitude digits else magnitude digits

/-- The answer to a sign and digits in front of what is left: there must be a digit, and the number
must be one of 32 bits. -/
def answerInt (sign digits left : List Char) : Except Error Reply :=
  let value := signed sign digits
  if digits ≠ [] ∧ -2 ^ 31 ≤ value ∧ value < 2 ^ 31 then
    .ok (.int (Int32.ofInt value))
  else if sign ++ digits = [] then
    .error (.io (.noInteger left.isEmpty))
  else
    .error (.io (.notInt32 (String.ofList (sign ++ digits))))

def readInt (chars : List Char) : Reading :=
  let blanks := chars.takeWhile Text.isBlank
  let numeral := chars.dropWhile Text.isBlank
  let sign := signOf numeral
  let behind := numeral.drop sign.length
  let digits := behind.takeWhile Char.isDigit
  let left := behind.dropWhile Char.isDigit
  { answer := answerInt sign digits left, taken := blanks ++ sign ++ digits, left }

def read : Request → List Char → Reading
  | .int => readInt
  | .char => readChar
  | .line => readLine

theorem taken_append_left (request : Request) (chars : List Char) :
    (read request chars).taken ++ (read request chars).left = chars := by
  cases request with
  | int =>
      have sign : ∀ numeral, signOf numeral ++ numeral.drop (signOf numeral).length = numeral := by
        intro numeral
        cases numeral with
        | nil => rfl
        | cons c rest =>
            by_cases signed : c = '-' ∨ c = '+'
            · rw [signOf, if_pos signed]
              rfl
            · rw [signOf, if_neg signed]
              rfl
      simp only [read, readInt, List.append_assoc, List.takeWhile_append_dropWhile, sign]
  | char => cases chars <;> rfl
  | line =>
      have parts := List.takeWhile_append_dropWhile (p := (· ≠ '\n')) (l := chars)
      show (readLine chars).taken ++ (readLine chars).left = chars
      unfold readLine
      cases ends : chars.dropWhile (· ≠ '\n') with
      | nil =>
          rw [ends] at parts
          exact parts
      | cons newline rest =>
          rw [ends] at parts
          rw [List.append_assoc]
          exact parts

/-- Where a reader stands: the characters that have been consumed, and those that are left. -/
structure Position where
  consumed : List Char
  left : List Char

def start (chars : List Char) : Position :=
  { consumed := [], left := chars }

def call (request : Request) (here : Position) : Except Error Reply × Position :=
  let reading := read request here.left
  (reading.answer, { consumed := here.consumed ++ reading.taken, left := reading.left })

def calls {σ : Type} (call : Request → σ → Except Error Reply × σ) :
    List Request → σ → List (Except Error Reply × σ)
  | [], _ => []
  | request :: later, state =>
      let result := call request state
      result :: calls call later result.2

end Stream

/-!
## Characters that are left in a console
-/

theorem encode_eq_nil_iff {chars : List Char} : encode chars = [] ↔ chars = [] := by
  constructor
  · intro none
    exact encode_inj (none.trans rfl)
  · intro none
    rw [none]
    rfl

namespace Console

/-- Splitting a line off never cuts a character. -/
theorem decode?_splitLine (chars : List Char) :
    ∃ line rest, chars = line ++ rest ∧ decode? (splitLine (encode chars)).1 = some line ∧
      (splitLine (encode chars)).2 = encode rest := by
  by_cases mem : '\n' ∈ chars
  · rcases List.eq_append_cons_of_mem mem with ⟨before, behind, rfl, outside⟩
    have newline : encode ('\n' :: behind) = 10 :: encode behind := rfl
    have split := @splitLine_of_newline _ (encode behind) (mt newline_mem_encode_iff.mp outside)
    rw [encode_append, newline, split]
    refine ⟨before ++ ['\n'], behind, by simp, ?_, rfl⟩
    rw [decode?_eq_some_iff, encode_append]
    rfl
  · rw [splitLine_of_last (mt newline_mem_encode_iff.mp mem)]
    exact ⟨chars, [], by simp, decode?_eq_some_iff.mpr rfl, rfl⟩

/-- The characters that have not been handed out: those that are decoded, then those that the
bytes encode. There are none if the bytes are not UTF-8. -/
def charsLeft? (console : Console) : Option (List Char) :=
  (decode? console.input).map (console.pending ++ ·)

variable {console : Console} {chars : List Char}

theorem charsLeft?_eq_some_iff : console.charsLeft? = some chars ↔
    ∃ later, console.input = encode later ∧ console.pending ++ later = chars := by
  simp only [charsLeft?, Option.map_eq_some_iff, decode?_eq_some_iff]

/-- The characters that are left, of which the first, if there is one, has been decoded. -/
structure Shows (console : Console) (chars : List Char) : Prop where
  left : console.charsLeft? = some chars
  next : console.pending.head? = chars.head?

theorem Shows.skip (shows : console.Shows chars) :
    ({ console with pending := console.pending.tail } : Console).charsLeft? = some chars.tail := by
  rcases charsLeft?_eq_some_iff.mp shows.left with ⟨later, bytes, rfl⟩
  rw [charsLeft?_eq_some_iff]
  refine ⟨later, bytes, ?_⟩
  have next := shows.next
  cases pending : console.pending with
  | nil =>
      rw [pending] at next
      have none : later = [] := List.head?_eq_none_iff.mp next.symm
      rw [none]
      rfl
  | cons c rest => rfl

theorem takeWhile_append_of_stop {test : Char → Bool} {front rest : List Char} {c : Char}
    (stop : front.dropWhile test = c :: rest) (back : List Char) :
    (front ++ back).takeWhile test = front.takeWhile test := by
  have parts := congrArg List.length (List.takeWhile_append_dropWhile (p := test) (l := front))
  rw [stop, List.length_append, List.length_cons] at parts
  rw [List.takeWhile_append, if_neg (by omega)]

/-- A run is taken from the characters that are left, over all the lines it extends to. -/
theorem takeRun_of_charsLeft (test : Char → Bool) (left : console.charsLeft? = some chars) :
    ∃ after, takeRun test console = .ok (chars.takeWhile test) after ∧
      after.Shows (chars.dropWhile test) := by
  rcases charsLeft?_eq_some_iff.mp left with ⟨later, bytes, rfl⟩
  clear left
  induction console using takeRun.induct test generalizing later with
  | case1 console c rest stop =>
      rw [takeRun]
      simp only [stop]
      refine ⟨_, by rw [takeWhile_append_of_stop stop], ?_, ?_⟩
      · rw [charsLeft?_eq_some_iff]
        refine ⟨later, bytes, ?_⟩
        rw [List.dropWhile_append, stop]
        rfl
      · rw [List.dropWhile_append, stop]
        rfl
  | case2 console stop empty =>
      have none : later = [] := encode_eq_nil_iff.mp (bytes.symm.trans empty)
      rw [takeRun]
      simp only [stop, dif_pos empty]
      rw [none, List.append_nil, stop]
      refine ⟨_, rfl, ?_, rfl⟩
      rw [charsLeft?_eq_some_iff]
      exact ⟨[], empty, rfl⟩
  | case3 console stop more bad =>
      rcases decode?_splitLine later with ⟨line, rest, rfl, decoded, behind⟩
      rw [← bytes, bad] at decoded
      cases decoded
  | case4 console stop more line decoded run after ran ih =>
      rcases decode?_splitLine later with ⟨line', rest, rfl, decoded', behind⟩
      rw [← bytes] at decoded' behind
      rw [decoded] at decoded'
      cases decoded'
      rcases ih rest behind with ⟨after', ran', shows⟩
      rw [ran] at ran'
      cases ran'
      -- The decoded characters are in the run, which goes on in the next line.
      have whole := List.takeWhile_append_dropWhile (p := test) (l := console.pending)
      rw [stop, List.append_nil] at whole
      rw [takeRun]
      simp only [stop, dif_neg more, decoded, ran]
      refine ⟨after, ?_, ?_⟩
      · have run := @List.takeWhile_append _ test console.pending (line ++ rest)
        rw [run, if_pos (congrArg List.length whole), whole]
      · rw [List.dropWhile_append, stop]
        exact shows
  | case5 console stop more line decoded e after ran ih =>
      rcases decode?_splitLine later with ⟨line', rest, rfl, decoded', behind⟩
      rw [← bytes] at decoded' behind
      rw [decoded] at decoded'
      cases decoded'
      rcases ih rest behind with ⟨after', ran', shows⟩
      rw [ran] at ran'
      cases ran'

theorem peek_of_charsLeft (left : console.charsLeft? = some chars) :
    ∃ after, peek console = .ok chars.head? after ∧ after.Shows chars := by
  rcases takeRun_of_charsLeft (fun _ => false) left with ⟨after, ran, shows⟩
  have all : chars.dropWhile (fun _ => false) = chars := by
    cases chars <;> rfl
  rw [all] at shows
  refine ⟨after, ?_, shows⟩
  rw [peek, ran, ← shows.next]

/-!
## Calls
-/

inductive Follows {α : Type} (reply : α → Reply) (reading : Reading) :
    EStateM.Result Error Console α → Prop where
  | done {a : α} {after : Console} (answer : reading.answer = .ok (reply a))
      (left : after.charsLeft? = some reading.left) : Follows reply reading (.ok a after)
  | failed {e : Error} {after : Console} (answer : reading.answer = .error e)
      (left : after.charsLeft? = some reading.left) : Follows reply reading (.error e after)

theorem readChar_follows (left : console.charsLeft? = some chars) :
    Follows .char (Stream.readChar chars) (readChar console) := by
  rcases peek_of_charsLeft left with ⟨after, peeked, shows⟩
  rw [readChar, bind_of_ok peeked]
  cases chars with
  | nil => exact .done rfl shows.left
  | cons c rest => exact .done rfl shows.skip

theorem chomp_eq (line : List Char) : Stream.chomp line = dropReturn line := by
  fun_induction Stream.chomp line with
  | case1 => rfl
  | case2 => rfl
  | case3 c rest other ih =>
      rw [ih]
      cases rest with
      | nil =>
          have noReturn : c ≠ '\r' := by
            intro same
            exact other (by rw [same]) rfl
          simp [dropReturn, noReturn]
      | cons d rest =>
          unfold dropReturn
          rw [List.getLast?_cons_cons, List.dropLast_cons_cons]
          split <;> rfl

theorem readLine_follows (left : console.charsLeft? = some chars) :
    Follows .line (Stream.readLine chars) (readLine console) := by
  rcases takeRun_of_charsLeft (· ≠ '\n') left with ⟨after, ran, shows⟩
  have skipped := shows.skip
  rw [readLine, bind_of_ok ran, ← chomp_eq]
  unfold Stream.readLine
  cases ends : chars.dropWhile (· ≠ '\n') with
  | nil =>
      rw [ends] at skipped
      exact .done rfl skipped
  | cons newline rest =>
      rw [ends] at skipped
      exact .done rfl skipped

theorem readDigits?_eq {digits : List Char} (all : ∀ c ∈ digits, c.isDigit = true) (n : Nat) :
    Text.readDigits? 10 n digits =
      some (digits.foldl (fun n c => n * 10 + (c.toNat - '0'.toNat)) n) := by
  induction digits generalizing n with
  | nil => rfl
  | cons c rest ih =>
      have inside : '0' ≤ c ∧ c ≤ '9' := by
        simpa [Char.isDigit, Char.le_def] using all c List.mem_cons_self
      have value : Text.digitValue? c = some (c.toNat - '0'.toNat) := if_pos inside
      have small : c.toNat - '0'.toNat < 10 := by
        have upper : c.toNat ≤ '9'.toNat := inside.2
        have zero : '0'.toNat = 48 := rfl
        have nine : '9'.toNat = 57 := rfl
        omega
      simp only [Text.readDigits?, value, if_pos small]
      exact ih (fun c mem => all c (List.mem_cons_of_mem _ mem)) _

theorem readInt32?_eq {sign digits : List Char} (optional : sign = [] ∨ sign = ['-'] ∨ sign = ['+'])
    (all : ∀ c ∈ digits, c.isDigit = true) :
    Text.readInt32? (sign ++ digits) =
      if digits ≠ [] ∧ -2 ^ 31 ≤ Stream.signed sign digits ∧ Stream.signed sign digits < 2 ^ 31 then
        some (Int32.ofInt (Stream.signed sign digits)) else none := by
  cases digits with
  | nil => rcases optional with rfl | rfl | rfl <;> rfl
  | cons c rest =>
      have range (i : Int) : (Int32.minValue.toInt ≤ i ∧ i ≤ Int32.maxValue.toInt) ↔
          (c :: rest ≠ [] ∧ -2 ^ 31 ≤ i ∧ i < 2 ^ 31) := by
        have lower : Int32.minValue.toInt = -2 ^ 31 := rfl
        have upper : Int32.maxValue.toInt = 2 ^ 31 - 1 := rfl
        simp only [ne_eq, List.cons_ne_nil, not_false_eq_true, true_and]
        omega
      have read : Text.readNat? 10 (c :: rest) = some (Stream.magnitude (c :: rest)) :=
        readDigits?_eq all 0
      simp only [← range]
      rcases optional with rfl | rfl | rfl
      · have unsigned : ∀ sign, sign.isDigit = false → c ≠ sign := by
          intro sign noDigit same
          have digit := all c List.mem_cons_self
          rw [same, noDigit] at digit
          cases digit
        unfold Text.readInt32?
        split
        · next same => exact absurd (List.cons.inj same).1 (unsigned _ (by decide))
        · next same => exact absurd (List.cons.inj same).1 (unsigned _ (by decide))
        · rw [List.nil_append, read]
          rfl
      · rw [List.singleton_append, Text.readInt32?, read]
        rfl
      · rw [List.singleton_append, Text.readInt32?, read]
        rfl

theorem readDigits_follows {sign : List Char} (optional : sign = [] ∨ sign = ['-'] ∨ sign = ['+'])
    (left : console.charsLeft? = some chars) (taken : List Char) :
    Follows .int
      { answer := Stream.answerInt sign (chars.takeWhile Char.isDigit)
          (chars.dropWhile Char.isDigit)
        taken
        left := chars.dropWhile Char.isDigit }
      (readDigits sign console) := by
  rcases takeRun_of_charsLeft Char.isDigit left with ⟨after, ran, shows⟩
  have all : ∀ c ∈ chars.takeWhile Char.isDigit, c.isDigit = true :=
    List.all_eq_true.mp List.all_takeWhile
  rw [readDigits, bind_of_ok ran]
  simp only [readInt32?_eq optional all, List.isEmpty_iff]
  unfold Stream.answerInt
  split
  · next empty =>
      have none := (List.append_eq_nil_iff.mp empty).2
      rcases peek_of_charsLeft shows.left with ⟨last, peeked, shown⟩
      rw [if_neg (fun fits => fits.1 none), bind_of_ok peeked]
      refine .failed ?_ shown.left
      cases chars.dropWhile Char.isDigit <;> rfl
  · split
    · next fits => exact .done (if_pos fits) shows.left
    · next fits => exact .failed (if_neg fits) shows.left

theorem readInt_follows (left : console.charsLeft? = some chars) :
    Follows .int (Stream.readInt chars) (readInt console) := by
  rcases takeRun_of_charsLeft Text.isBlank left with ⟨first, blanks, shown⟩
  rcases peek_of_charsLeft shown.left with ⟨second, peeked, shows⟩
  rw [readInt_eq, bind_of_ok blanks, bind_of_ok peeked]
  unfold Stream.readInt
  cases numeral : chars.dropWhile Text.isBlank with
  | nil =>
      rw [numeral] at shows
      exact readDigits_follows (Or.inl rfl) shows.left _
  | cons c rest =>
      rw [numeral] at shows
      by_cases signed : c = '-' ∨ c = '+'
      · simp only [List.head?_cons, Stream.signOf, if_pos signed]
        have optional : [c] = [] ∨ [c] = ['-'] ∨ [c] = ['+'] := by
          rcases signed with rfl | rfl
          · exact Or.inr (Or.inl rfl)
          · exact Or.inr (Or.inr rfl)
        exact readDigits_follows optional shows.skip _
      · simp only [List.head?_cons, Stream.signOf, if_neg signed]
        exact readDigits_follows (Or.inl rfl) shows.left _

def answered {α : Type} (reply : α → Reply) :
    EStateM.Result Error Console α → Except Error Reply × Console
  | .ok a after => (.ok (reply a), after)
  | .error e after => (.error e, after)

def call : Request → Console → Except Error Reply × Console
  | .int, console => answered .int (readInt console)
  | .char, console => answered .char (readChar console)
  | .line, console => answered .line (readLine console)

theorem Follows.answered {α : Type} {reply : α → Reply} {reading : Reading}
    {result : EStateM.Result Error Console α} (follows : Follows reply reading result) :
    (Console.answered reply result).1 = reading.answer ∧
      (Console.answered reply result).2.charsLeft? = some reading.left := by
  cases follows with
  | done answer left => exact ⟨answer.symm, left⟩
  | failed answer left => exact ⟨answer.symm, left⟩

/-- One call answers like one on the characters that are left, and leaves what that one leaves. -/
theorem call_step (request : Request) (left : console.charsLeft? = some chars) :
    (call request console).1 = (Stream.read request chars).answer ∧
      (call request console).2.charsLeft? = some (Stream.read request chars).left := by
  cases request with
  | int => exact (readInt_follows left).answered
  | char => exact (readChar_follows left).answered
  | line => exact (readLine_follows left).answered

/-- Calls give the same answers, one after the other, and after each of them the consumed characters
and those that are left in the console are the whole sequence. -/
theorem calls_run {whole : List Char} {here : Stream.Position} (requests : List Request)
    (left : console.charsLeft? = some here.left) (parts : here.consumed ++ here.left = whole) :
    List.Forall₂
      (fun given expected => given.1 = expected.1 ∧
        given.2.charsLeft? = some expected.2.left ∧
        expected.2.consumed ++ expected.2.left = whole)
      (Stream.calls call requests console) (Stream.calls Stream.call requests here) := by
  induction requests generalizing console here with
  | nil => exact .nil
  | cons request later ih =>
      rcases call_step request left with ⟨answer, after⟩
      have parts' : here.consumed ++ (Stream.read request here.left).taken ++
          (Stream.read request here.left).left = whole := by
        rw [List.append_assoc, Stream.taken_append_left, parts]
      exact .cons ⟨answer, after, parts'⟩ (ih after parts')

/-- Whatever is asked for, a console on the bytes of a text answers like a reader of its characters.
After each call, it has left what the reader has left, and this is the text without what has been
consumed. -/
theorem calls_eq_stream (text : String) (requests : List Request) :
    List.Forall₂
      (fun given expected => given.1 = expected.1 ∧
        given.2.charsLeft? = some expected.2.left ∧
        expected.2.consumed ++ expected.2.left = text.toList)
      (Stream.calls call requests (ofInput text.toUTF8.toList))
      (Stream.calls Stream.call requests (Stream.start text.toList)) := by
  have bytes : text.toUTF8.toList = encode text.toList := by
    rw [← toUTF8_ofList, String.ofList_toList]
  apply calls_run
  · rw [charsLeft?_eq_some_iff]
    exact ⟨text.toList, bytes, rfl⟩
  · rfl

example :
    (Stream.calls Stream.call [.char, .line, .int, .line, .int, .line, .char]
      (Stream.start "ab 42\r\n  -7 rest\n+\nlast".toList)).map Prod.fst =
    [.ok (.char 'a'), .ok (.line "b 42"), .ok (.int (-7)), .ok (.line " rest"),
      .error (.io (.notInt32 "+")), .ok (.line ""), .ok (.char 'l')] := by
  decide

end Console
end ObjectMachine
