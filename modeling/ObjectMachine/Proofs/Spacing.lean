import ObjectMachine.Proofs.Numerals
import ObjectMachine.Text.Blank
import Mathlib.Data.List.Basic
import Mathlib.Data.List.Induction
import Mathlib.Data.List.TakeWhile

/-!
# Lines and words that are put together and taken apart

Lines that are each ended by a line feed are found again, and so are words that each stand behind a
space. Blanks around a text do not change its words, and a text that neither starts nor ends with a
blank is not changed by trimming.
-/

namespace ObjectMachine
namespace Text

/-- A scan stops where the run of what it looks for ends. -/
theorem scan_append {α : Type} {test : α → Bool} {run rest : List α}
    (inside : ∀ a ∈ run, test a = true) (ends : ∀ a ∈ rest.head?, test a = false) :
    (run ++ rest).takeWhile test = run ∧ (run ++ rest).dropWhile test = rest := by
  rw [List.takeWhile_append_of_pos inside, List.dropWhile_append_of_pos inside]
  cases rest with
  | nil => simp
  | cons a rest => simp [ends a rfl]

/-!
## Blanks
-/

/-- A text that has characters and neither starts nor ends with a blank. -/
structure Tight (cs : List Char) : Prop where
  nonempty : cs ≠ []
  front : ∀ c ∈ cs.head?, isBlank c = false
  back : ∀ c ∈ cs.getLast?, isBlank c = false

theorem trimLeft_of_front {cs : List Char} (front : ∀ c ∈ cs.head?, isBlank c = false) :
    trimLeft cs = cs := by
  cases cs with
  | nil => rfl
  | cons c rest => rw [trimLeft, List.dropWhile_cons_of_neg (by simp [front c rfl])]

theorem trimLeft_cons {c : Char} (blank : isBlank c = true) (cs : List Char) :
    trimLeft (c :: cs) = trimLeft cs := by
  rw [trimLeft, List.dropWhile_cons_of_pos blank, trimLeft]

theorem trimRight_of_back {cs : List Char} (back : ∀ c ∈ cs.getLast?, isBlank c = false) :
    trimRight cs = cs := by
  rw [← List.head?_reverse] at back
  have kept := trimLeft_of_front back
  rw [trimLeft] at kept
  rw [trimRight, kept, List.reverse_reverse]

theorem trimRight_append {c : Char} (blank : isBlank c = true) (cs : List Char) :
    trimRight (cs ++ [c]) = trimRight cs := by
  rw [trimRight, List.reverse_append, List.reverse_singleton, List.singleton_append,
    List.dropWhile_cons_of_pos blank, trimRight]

theorem Tight.trim {cs : List Char} (tight : Tight cs) : trim cs = cs := by
  rw [Text.trim, trimLeft_of_front tight.front, trimRight_of_back tight.back]

theorem Tight.trim_cons {cs : List Char} (tight : Tight cs) {c : Char}
    (blank : isBlank c = true) : Text.trim (c :: cs) = cs := by
  rw [Text.trim, trimLeft_cons blank, ← Text.trim, tight.trim]

theorem trimLeft_append {lead : List Char} (blank : ∀ c ∈ lead, isBlank c = true)
    (cs : List Char) : trimLeft (lead ++ cs) = trimLeft cs :=
  List.dropWhile_append_of_pos blank

theorem trimRight_append_of_blank {trail : List Char} (blank : ∀ c ∈ trail, isBlank c = true)
    (cs : List Char) : trimRight (cs ++ trail) = trimRight cs := by
  have reversed : ∀ c ∈ trail.reverse, isBlank c = true := by
    intro c mem
    exact blank c (List.mem_reverse.mp mem)
  rw [trimRight, List.reverse_append, List.dropWhile_append_of_pos reversed, trimRight]

theorem isBlank_of_head?_trimLeft {cs : List Char} :
    ∀ c ∈ (trimLeft cs).head?, isBlank c = false := by
  intro c first
  have stopped := List.head?_dropWhile_not isBlank cs
  rw [← trimLeft, first] at stopped
  simpa using stopped

theorem exists_trimRight (cs : List Char) :
    ∃ trail, cs = trimRight cs ++ trail ∧ ∀ c ∈ trail, isBlank c = true := by
  refine ⟨(cs.reverse.takeWhile isBlank).reverse, ?_, ?_⟩
  · rw [trimRight, ← List.reverse_append, List.takeWhile_append_dropWhile, List.reverse_reverse]
  · intro c mem
    exact List.mem_takeWhile_imp (List.mem_reverse.mp mem)

/-- Trimming takes off blanks at both ends, and nothing else. -/
theorem exists_trim (cs : List Char) : ∃ lead trail, cs = lead ++ trim cs ++ trail ∧
    (∀ c ∈ lead, isBlank c = true) ∧ ∀ c ∈ trail, isBlank c = true := by
  rcases exists_trimRight (trimLeft cs) with ⟨trail, split, blank⟩
  refine ⟨cs.takeWhile isBlank, trail, ?_, ?_, blank⟩
  · rw [List.append_assoc, trim, ← split, trimLeft, List.takeWhile_append_dropWhile]
  · intro c mem
    exact List.mem_takeWhile_imp mem

theorem tight_trim {cs : List Char} (nonempty : trim cs ≠ []) : Tight (trim cs) := by
  refine ⟨nonempty, ?_, ?_⟩
  · rcases exists_trimRight (trimLeft cs) with ⟨trail, split, _⟩
    have front : (trimLeft cs).head? = (trim cs).head? := by
      rw [split, ← trim, List.head?_append_of_ne_nil _ nonempty]
    rw [← front]
    exact isBlank_of_head?_trimLeft
  · rw [← List.head?_reverse, trim, trimRight, List.reverse_reverse]
    exact isBlank_of_head?_trimLeft

theorem Tight.trim_enclosed {core lead trail : List Char} (tight : Tight core)
    (blank : ∀ c ∈ lead, isBlank c = true) (blank' : ∀ c ∈ trail, isBlank c = true) :
    Text.trim (lead ++ core ++ trail) = core := by
  rw [List.append_assoc, Text.trim, trimLeft_append blank, trimLeft_of_front,
    trimRight_append_of_blank blank', trimRight_of_back tight.back]
  rw [List.head?_append_of_ne_nil _ tight.nonempty]
  exact tight.front

theorem tight_of_forall {cs : List Char} (nonempty : cs ≠ [])
    (none : ∀ c ∈ cs, isBlank c = false) : Tight cs := by
  refine ⟨nonempty, ?_, ?_⟩
  · intro c first
    exact none c (List.mem_of_mem_head? first)
  · intro c last
    exact none c (List.mem_of_getLast? last)

/-- What stands between two such texts may hold blanks. -/
theorem Tight.enclose {front back : List Char} (tight : Tight front) (tight' : Tight back)
    (middle : List Char) : Tight (front ++ middle ++ back) := by
  refine ⟨?_, ?_, ?_⟩
  · simp [tight.nonempty]
  · rw [List.append_assoc, List.head?_append_of_ne_nil _ tight.nonempty]
    exact tight.front
  · rw [List.getLast?_append_of_ne_nil _ tight'.nonempty]
    exact tight'.back

/-!
## Lines
-/

theorem lines_append {line : List Char} (whole : '\n' ∉ line) (rest : List Char) :
    lines (line ++ '\n' :: rest) = line :: lines rest := by
  induction line with
  | nil => rw [List.nil_append, lines, if_pos rfl]
  | cons c line ih =>
      have other : c ≠ '\n' := by
        intro same
        exact whole (same ▸ List.mem_cons_self)
      rw [List.cons_append, lines, if_neg other, ih fun mem => whole (List.mem_cons_of_mem _ mem)]

theorem newline_not_mem_lines {cs line : List Char} (mem : line ∈ lines cs) : '\n' ∉ line := by
  induction cs generalizing line with
  | nil => cases mem
  | cons c cs ih =>
      rw [lines] at mem
      split at mem
      · rcases List.mem_cons.mp mem with rfl | mem
        · exact List.not_mem_nil
        · exact ih mem
      · next other =>
          split at mem
          · cases List.mem_singleton.mp mem
            simpa using Ne.symm other
          · next first rest split =>
              rw [split] at ih
              rcases List.mem_cons.mp mem with rfl | mem
              · have later := ih List.mem_cons_self
                simp [later, Ne.symm other]
              · exact ih (List.mem_cons_of_mem _ mem)

/-!
## Words
-/

theorem words_cons {c : Char} (blank : isBlank c = true) (cs : List Char) :
    words (c :: cs) = words cs := by
  simp [words, splitWords, blank]

theorem splitWords_append {c : Char} (blank : isBlank c = true) (cs : List Char) :
    splitWords (cs ++ [c]) = splitWords cs := by
  induction cs with
  | nil => simp [splitWords, blank]
  | cons d rest ih => rw [List.cons_append, splitWords, splitWords, ih]

theorem words_trimRight (cs : List Char) : words (trimRight cs) = words cs := by
  induction cs using List.reverseRecOn with
  | nil => rfl
  | append_singleton cs c ih =>
      by_cases blank : isBlank c = true
      · rw [trimRight_append blank, ih, words, words, splitWords_append blank]
      · rw [trimRight_of_back]
        intro d last
        rw [List.getLast?_append_of_ne_nil _ (List.cons_ne_nil _ _)] at last
        cases last
        exact Bool.eq_false_iff.mpr blank

theorem words_trimLeft (cs : List Char) : words (trimLeft cs) = words cs := by
  induction cs with
  | nil => rfl
  | cons c rest ih =>
      by_cases blank : isBlank c = true
      · rw [trimLeft_cons blank, ih, words_cons blank]
      · rw [trimLeft, List.dropWhile_cons_of_neg blank]

theorem words_trim (cs : List Char) : words (trim cs) = words cs := by
  rw [trim, words_trimRight, words_trimLeft]

def IsWord (word : List Char) : Prop :=
  word ≠ [] ∧ ∀ c ∈ word, isBlank c = false

theorem isWord_of_any {word : List Char} (nonempty : word ≠ []) (plain : word.any isBlank = false) :
    IsWord word :=
  ⟨nonempty, fun c mem => Bool.eq_false_iff.mpr (List.any_eq_false.mp plain c mem)⟩

theorem IsWord.tight {word : List Char} (isWord : IsWord word) : Tight word :=
  tight_of_forall isWord.1 isWord.2

theorem IsWord.cons {word : List Char} (isWord : IsWord word) {c : Char}
    (plain : isBlank c = false) : IsWord (c :: word) := by
  refine ⟨List.cons_ne_nil _ _, ?_⟩
  intro d mem
  rcases List.mem_cons.mp mem with rfl | mem
  · exact plain
  · exact isWord.2 d mem

theorem IsWord.append {word more : List Char} (isWord : IsWord word) (isWord' : IsWord more) :
    IsWord (word ++ more) := by
  refine ⟨by simp [isWord.1], ?_⟩
  intro d mem
  rcases List.mem_append.mp mem with mem | mem
  · exact isWord.2 d mem
  · exact isWord'.2 d mem

theorem IsWord.newline_not_mem {word : List Char} (isWord : IsWord word) : '\n' ∉ word := by
  intro mem
  cases isWord.2 _ mem

theorem splitWords_word {word : List Char} (none : ∀ c ∈ word, isBlank c = false)
    {rest : List Char} (ends : ∀ c ∈ rest.head?, isBlank c = true) :
    splitWords (word ++ rest) = (word, words rest) := by
  induction word with
  | nil =>
      cases rest with
      | nil => rfl
      | cons c rest =>
          rw [List.nil_append, words_cons (ends c rfl), splitWords, words]
          simp [ends c rfl]
  | cons c word ih =>
      rw [List.cons_append, splitWords, ih fun d mem => none d (List.mem_cons_of_mem _ mem)]
      simp [none c List.mem_cons_self]

theorem words_spaced {ws : List (List Char)} (each : ∀ word ∈ ws, IsWord word) :
    words (ws.flatMap fun word => ' ' :: word) = ws := by
  induction ws with
  | nil => rfl
  | cons word rest ih =>
      have isWord := each word List.mem_cons_self
      have later := ih fun word mem => each word (List.mem_cons_of_mem _ mem)
      have ends : ∀ c ∈ (rest.flatMap fun word => ' ' :: word).head?, isBlank c = true := by
        intro c first
        cases rest with
        | nil => cases first
        | cons word rest =>
            cases first
            rfl
      rw [List.flatMap_cons, List.cons_append, words_cons rfl, words,
        splitWords_word isWord.2 ends, later]
      simp [isWord.1]

/-!
## Numerals
-/

theorem isBlank_of_isDigit {c : Char} (digit : c.isDigit = true) : isBlank c = false := by
  rw [Char.isDigit, Bool.and_eq_true, decide_eq_true_iff, decide_eq_true_iff] at digit
  have lower : 48 ≤ c.toNat := digit.1
  have upper : c.toNat ≤ 57 := digit.2
  unfold isBlank
  simp
  omega

theorem isWord_decimal (n : Nat) : IsWord (decimal n) :=
  ⟨decimal_ne_nil n, fun _ mem => isBlank_of_isDigit (isDigit_of_mem_decimal mem)⟩

theorem isWord_signedDecimal (i : Int) : IsWord (signedDecimal i) := by
  unfold signedDecimal
  split
  · exact (isWord_decimal _).cons rfl
  · exact isWord_decimal _

theorem isWord_offsetDecimal (i : Int) : IsWord (offsetDecimal i) := by
  unfold offsetDecimal
  split
  · exact (isWord_decimal _).cons rfl
  · exact (isWord_decimal _).cons rfl

end Text
end ObjectMachine
