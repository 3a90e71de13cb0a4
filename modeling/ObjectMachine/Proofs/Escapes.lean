import ObjectMachine.Image.Source.Literal
import ObjectMachine.Proofs.Outcomes
import ObjectMachine.Proofs.Spacing

/-!
# Escapes

The inside of a literal is a row of pieces: plain characters, escapes of one letter, and code points
in braces. What stands behind a piece does not change what it means. But the last code point of a
literal may lack its closing brace, and then it is no piece: it takes in whatever is put behind it.
So what can be continued freely is what is made of pieces.
-/

namespace ObjectMachine
namespace Image
namespace Source

open Text (backslash)

/-!
## Pieces
-/

def openCodePoint (digits : List Char) : List Char :=
  backslash :: 'u' :: openBrace :: digits

/-- A plain character or a finished escape, and the character that it stands for. -/
inductive Piece : List Char → Char → Prop where
  | plain {c : Char} : c ≠ backslash → Piece [c] c
  | short {e c : Char} : shortEscape? e = some c → Piece [backslash, e] c
  | codePoint {digits : List Char} {c : Char} : closeBrace ∉ digits → scalar digits = .ok c →
      Piece (openCodePoint (digits ++ [closeBrace])) c

inductive Pieces : List Char → List Char → Prop where
  | none : Pieces [] []
  | cons {piece rest text : List Char} {c : Char} : Piece piece c → Pieces rest text →
      Pieces (piece ++ rest) (c :: text)

/-- A row of pieces, and then a code point that lacks its closing brace. -/
inductive Unfinished : List Char → List Char → Prop where
  | intro {front text digits : List Char} {c : Char} : Pieces front text → closeBrace ∉ digits →
      scalar digits = .ok c → Unfinished (front ++ openCodePoint digits) (text ++ [c])

variable {front back text digits : List Char} {c : Char}

theorem Unfinished.cons {piece : List Char} (first : Piece piece c)
    (unfinished : Unfinished back text) : Unfinished (piece ++ back) (c :: text) := by
  cases unfinished with
  | intro pieces opened read =>
      rw [← List.append_assoc, ← List.cons_append]
      exact .intro (.cons first pieces) opened read

/-!
## Where digits end
-/

theorem ne_closeBrace_of_mem (opened : closeBrace ∉ digits) :
    ∀ d ∈ digits, decide (d ≠ closeBrace) = true := by
  intro d mem
  rw [decide_eq_true_iff]
  intro same
  exact opened (same ▸ mem)

theorem digits_closed (opened : closeBrace ∉ digits) (rest : List Char) :
    (digits ++ closeBrace :: rest).takeWhile (· ≠ closeBrace) = digits ∧
      afterBrace (digits ++ closeBrace :: rest) = rest := by
  have ends : ∀ d ∈ (closeBrace :: rest).head?, decide (d ≠ closeBrace) = false := by
    intro d first
    cases first
    rfl
  rcases Text.scan_append (ne_closeBrace_of_mem opened) ends with ⟨taken, left⟩
  refine ⟨taken, ?_⟩
  rw [afterBrace, left, List.drop_one, List.tail_cons]

theorem digits_open (opened : closeBrace ∉ digits) :
    digits.takeWhile (· ≠ closeBrace) = digits ∧ afterBrace digits = [] := by
  rcases @Text.scan_append _ _ digits [] (ne_closeBrace_of_mem opened) nofun with ⟨taken, left⟩
  rw [List.append_nil] at taken left
  refine ⟨taken, ?_⟩
  rw [afterBrace, left, List.drop_nil]

theorem unescape_openCodePoint (digits : List Char) :
    unescape (openCodePoint digits) =
      scalar (digits.takeWhile (· ≠ closeBrace)) >>= fun c =>
        (unescape (afterBrace digits)).map (c :: ·) := by
  have noShort : shortEscape? 'u' = none := by decide
  rw [openCodePoint, unescape.eq_def]
  simp only [ne_eq, not_true_eq_false, if_false, noShort]
  refine bind_congr fun c => ?_
  cases unescape (afterBrace digits) <;> rfl

/-!
## What pieces mean
-/

theorem Piece.unescape_append (piece : Piece front c) (back : List Char) :
    unescape (front ++ back) = (unescape back).map (c :: ·) := by
  cases piece with
  | plain plain =>
      rw [List.singleton_append, unescape.eq_def]
      simp only [if_pos plain]
      cases unescape back <;> rfl
  | @short e _ short =>
      show unescape (backslash :: e :: back) = _
      rw [unescape.eq_def]
      simp only [ne_eq, not_true_eq_false, if_false, short]
      cases unescape back <;> rfl
  | @codePoint digits _ opened read =>
      have shape : openCodePoint (digits ++ [closeBrace]) ++ back =
          openCodePoint (digits ++ closeBrace :: back) := by
        simp [openCodePoint]
      rcases digits_closed opened back with ⟨taken, left⟩
      rw [shape, unescape_openCodePoint, taken, left, read]
      rfl

theorem Pieces.unescape_append (pieces : Pieces front text) (back : List Char) :
    unescape (front ++ back) = (unescape back).map (text ++ ·) := by
  induction pieces with
  | none =>
      rw [List.nil_append]
      cases unescape back <;> rfl
  | cons first _ ih =>
      rw [List.append_assoc, first.unescape_append, ih]
      cases unescape back <;> rfl

theorem Pieces.unescape_eq (pieces : Pieces front text) : unescape front = .ok text := by
  have read := pieces.unescape_append []
  rw [List.append_nil, unescape] at read
  rw [read]
  exact congrArg Except.ok (List.append_nil text)

theorem Unfinished.unescape_eq (unfinished : Unfinished front text) :
    unescape front = .ok text := by
  cases unfinished with
  | @intro front text digits c pieces opened read =>
      rcases digits_open opened with ⟨taken, left⟩
      rw [pieces.unescape_append, unescape_openCodePoint, taken, left, read, unescape]
      rfl

/-- Any brace finishes the code point, so it does not stand for itself. -/
theorem Unfinished.unescape_append_closeBrace (unfinished : Unfinished front text) :
    unescape (front ++ [closeBrace]) = .ok text := by
  cases unfinished with
  | @intro front text digits c pieces opened read =>
      have last : Pieces (openCodePoint (digits ++ [closeBrace])) [c] := by
        have pieces := Pieces.cons (.codePoint opened read) .none
        rwa [List.append_nil] at pieces
      have shape : front ++ openCodePoint digits ++ [closeBrace] =
          front ++ openCodePoint (digits ++ [closeBrace]) := by
        simp [openCodePoint]
      rw [shape, pieces.unescape_append, last.unescape_eq]
      rfl

/-!
## What is accepted
-/

/-- A code point that is accepted is finished, or nothing stands behind it. -/
theorem openCodePoint_cases {rest : List Char}
    (read : unescape (openCodePoint rest) = .ok text) :
    (∃ digits back c tail, rest = digits ++ closeBrace :: back ∧ closeBrace ∉ digits ∧
      scalar digits = .ok c ∧ unescape back = .ok tail ∧ text = c :: tail) ∨
    ∃ c, closeBrace ∉ rest ∧ scalar rest = .ok c ∧ text = [c] := by
  rw [unescape_openCodePoint] at read
  rcases Except.bind_eq_ok_iff.mp read with ⟨c, first, read⟩
  by_cases closed : closeBrace ∈ rest
  · rcases List.eq_append_cons_of_mem closed with ⟨digits, back, rfl, opened⟩
    rcases digits_closed opened back with ⟨taken, left⟩
    rw [taken] at first
    rw [left] at read
    cases second : unescape back with
    | error e =>
        rw [second] at read
        cases read
    | ok tail =>
        rw [second] at read
        cases read
        exact Or.inl ⟨digits, back, c, tail, rfl, opened, first, second, rfl⟩
  · rcases digits_open closed with ⟨taken, left⟩
    rw [taken] at first
    rw [left, unescape] at read
    cases read
    exact Or.inr ⟨c, closed, first, rfl⟩

/-- What is accepted is made of pieces, but for a code point at its end. -/
theorem pieces_or_unfinished (read : unescape front = .ok text) :
    Pieces front text ∨ Unfinished front text := by
  -- What comes behind a piece is accepted as well.
  have behind : ∀ {piece back : List Char} {c : Char}, Piece piece c →
      (∀ {text}, unescape back = .ok text → Pieces back text ∨ Unfinished back text) →
      ∀ {text}, unescape (piece ++ back) = .ok text →
        Pieces (piece ++ back) text ∨ Unfinished (piece ++ back) text := by
    intro piece back c first later text read
    rw [first.unescape_append] at read
    cases rest : unescape back with
    | error e =>
        rw [rest] at read
        cases read
    | ok tail =>
        rw [rest] at read
        cases read
        exact (later rest).imp (.cons first) (.cons first)
  induction front using unescape.induct generalizing text with
  | case1 =>
      rw [unescape] at read
      cases read
      exact Or.inl .none
  | case2 c rest plain ih => exact behind (.plain plain) ih read
  | case3 slash isSlash =>
      rw [unescape.eq_def] at read
      simp only [if_neg isSlash] at read
      cases read
  | case4 slash isSlash e rest c short ih =>
      rw [not_ne_iff.mp isSlash] at read ⊢
      exact behind (.short short) ih read
  | case5 slash isSlash e rest noShort other =>
      rw [unescape.eq_def] at read
      simp only [if_neg isSlash, noShort, if_pos other] at read
      cases read
  | case6 slash isSlash e noShort isU =>
      rw [unescape.eq_def] at read
      simp only [if_neg isSlash, noShort, if_neg isU] at read
      cases read
  | case7 slash isSlash e noShort isU b rest other =>
      rw [unescape.eq_def] at read
      simp only [if_neg isSlash, noShort, if_neg isU, if_pos other] at read
      cases read
  | case8 slash isSlash e noShort isU b rest isBrace ih =>
      rw [not_ne_iff.mp isSlash, not_ne_iff.mp isU, not_ne_iff.mp isBrace] at read ⊢
      rcases openCodePoint_cases read with
        ⟨digits, back, c, tail, rfl, opened, first, second, rfl⟩ | ⟨c, opened, first, rfl⟩
      · have shape : backslash :: 'u' :: openBrace :: (digits ++ closeBrace :: back) =
            openCodePoint (digits ++ [closeBrace]) ++ back := by
          simp [openCodePoint]
        rw [(digits_closed opened back).2] at ih
        rw [shape]
        exact (ih second).imp (.cons (.codePoint opened first)) (.cons (.codePoint opened first))
      · exact Or.inr (.intro .none opened first)

theorem unescape_eq_ok_iff :
    unescape front = .ok text ↔ Pieces front text ∨ Unfinished front text := by
  constructor
  · exact pieces_or_unfinished
  · intro either
    rcases either with pieces | unfinished
    · exact pieces.unescape_eq
    · exact unfinished.unescape_eq

/-- What is accepted can be continued with everything that is accepted exactly if it is made of
pieces. -/
theorem unescape_composes_iff (read : unescape front = .ok text) :
    (∀ back more, unescape back = .ok more → unescape (front ++ back) = .ok (text ++ more)) ↔
      Pieces front text := by
  constructor
  · intro composes
    rcases unescape_eq_ok_iff.mp read with pieces | unfinished
    · exact pieces
    · have brace : Pieces [closeBrace] [closeBrace] := .cons (.plain (by decide)) .none
      have kept := composes _ _ brace.unescape_eq
      rw [unfinished.unescape_append_closeBrace, Except.ok.injEq, List.self_eq_append_right] at kept
      cases kept
  · intro pieces back more read'
    rw [pieces.unescape_append, read']
    rfl

/-- A code point in braces is a piece, so it stands for the same letter in every context. -/
theorem unescape_composes_letter :
    unescape (openCodePoint ['4', '1', closeBrace]) = .ok ['A'] ∧
      ∀ back more, unescape back = .ok more →
        unescape (openCodePoint ['4', '1', closeBrace] ++ back) = .ok (['A'] ++ more) := by
  have pieces : Pieces (openCodePoint ['4', '1', closeBrace]) ['A'] :=
    .cons (@Piece.codePoint ['4', '1'] 'A' (by decide) (by decide)) .none
  exact ⟨pieces.unescape_eq, (unescape_composes_iff pieces.unescape_eq).mpr pieces⟩

/-- A digit that stands for itself belongs to the code point once it is put behind one. -/
theorem unescape_not_composes :
    ¬ ∀ front back text more, unescape front = .ok text → unescape back = .ok more →
      unescape (front ++ back) = .ok (text ++ more) := by
  intro composes
  have low : unescape (openCodePoint ['4']) = .ok ['\x04'] :=
    Unfinished.unescape_eq (.intro .none (by decide) (by decide))
  have digit : unescape ['1'] = .ok ['1'] :=
    Pieces.unescape_eq (.cons (.plain (by decide)) .none)
  have letter : unescape (openCodePoint ['4'] ++ ['1']) = .ok ['A'] :=
    Unfinished.unescape_eq (@Unfinished.intro [] [] ['4', '1'] 'A' .none (by decide) (by decide))
  have both := composes _ _ _ _ low digit
  rw [letter] at both
  cases both

end Source
end Image
end ObjectMachine
