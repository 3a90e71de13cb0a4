import ObjectMachine.Proofs.Escapes

/-!
# Literals that are written and read

Whatever a text holds, taking the escapes out of its literal gives the text back. A literal stands
on one line, and its quotes keep the blanks of the text from being trimmed.
-/

namespace ObjectMachine
namespace Image
namespace Source

open Text (backslash)

/-!
## Escapes
-/

theorem scalar_hexLower (c : Char) : scalar (Text.hexLower c.toNat) = .ok c := by
  have read : Text.readUInt32? 16 (Text.hexLower c.toNat) = some c.val :=
    Text.readUInt32?_toDigits (by decide) (by decide) c.val
  simp only [scalar, read, Word.toChar?_val]

theorem closeBrace_not_mem_hexLower (n : Nat) : closeBrace ∉ Text.hexLower n := by
  intro mem
  exact Text.ne_of_mem_toDigits (by decide) (by decide) mem (by decide) rfl

theorem piece_codePointEscape (c : Char) : Piece (Text.codePointEscape c) c := by
  have shape : Text.codePointEscape c = openCodePoint (Text.hexLower c.toNat ++ [closeBrace]) := by
    simp [Text.codePointEscape, openCodePoint, openBrace, closeBrace]
  rw [shape]
  exact .codePoint (closeBrace_not_mem_hexLower _) (scalar_hexLower c)

theorem escapeChar_cases {quote : Char}
    (isQuote : quote = Text.singleQuote ∨ quote = Text.doubleQuote) (c : Char) :
    (∃ e, escapeChar quote c = [backslash, e] ∧ shortEscape? e = some c) ∨
      escapeChar quote c = Text.codePointEscape c ∨
      escapeChar quote c = [c] ∧ c ≠ backslash ∧ c ≠ '\n' := by
  unfold escapeChar
  by_cases newline : c = '\n'
  · exact Or.inl ⟨'n', if_pos newline, congrArg some newline.symm⟩
  rw [if_neg newline]
  by_cases tab : c = '\t'
  · exact Or.inl ⟨'t', if_pos tab, congrArg some tab.symm⟩
  rw [if_neg tab]
  by_cases feed : c = '\r'
  · exact Or.inl ⟨'r', if_pos feed, congrArg some feed.symm⟩
  rw [if_neg feed]
  by_cases zero : c = '\x00'
  · exact Or.inl ⟨'0', if_pos zero, congrArg some zero.symm⟩
  rw [if_neg zero]
  by_cases slash : c = backslash
  · exact Or.inl ⟨backslash, if_pos slash, congrArg some slash.symm⟩
  rw [if_neg slash]
  by_cases same : c = quote
  · subst same
    refine Or.inl ⟨c, if_pos rfl, ?_⟩
    rcases isQuote with rfl | rfl
    · rfl
    · rfl
  rw [if_neg same]
  by_cases control : Text.isControl c = true
  · exact Or.inr (Or.inl (if_pos control))
  · exact Or.inr (Or.inr ⟨if_neg control, slash, newline⟩)

theorem piece_escapeChar {quote : Char}
    (isQuote : quote = Text.singleQuote ∨ quote = Text.doubleQuote) (c : Char) :
    Piece (escapeChar quote c) c := by
  rcases escapeChar_cases isQuote c with ⟨e, written, short⟩ | written | ⟨written, plain, _⟩
  · rw [written]
    exact .short short
  · rw [written]
    exact piece_codePointEscape c
  · rw [written]
    exact .plain plain

/-- Taking out the escapes undoes putting them in. -/
theorem unescape_flatMap_escapeChar {quote : Char}
    (isQuote : quote = Text.singleQuote ∨ quote = Text.doubleQuote) (text : List Char) :
    unescape (text.flatMap (escapeChar quote)) = .ok text := by
  have pieces : Pieces (text.flatMap (escapeChar quote)) text := by
    induction text with
    | nil => exact .none
    | cons c rest ih => exact .cons (piece_escapeChar isQuote c) ih
  exact pieces.unescape_eq

/-!
## Quotes
-/

theorem unquote?_literal (quote : Char) (text : List Char) :
    unquote? quote (literal quote text) = some (text.flatMap (escapeChar quote)) := by
  simp [literal, unquote?]

theorem tight_literal {quote : Char} (plain : Text.isBlank quote = false) (text : List Char) :
    Text.Tight (literal quote text) := by
  have tight : Text.Tight [quote] :=
    Text.tight_of_forall (List.cons_ne_nil _ _) fun c mem => List.mem_singleton.mp mem ▸ plain
  exact tight.enclose tight _

theorem newline_not_mem_codePointEscape (c : Char) : '\n' ∉ Text.codePointEscape c := by
  intro mem
  have digit : '\n' ∈ Text.hexLower c.toNat := by
    simpa [Text.codePointEscape, backslash] using mem
  exact Text.ne_of_mem_toDigits (by decide) (by decide) digit (by decide) rfl

theorem newline_not_mem_escapeChar {quote : Char}
    (isQuote : quote = Text.singleQuote ∨ quote = Text.doubleQuote) (c : Char) :
    '\n' ∉ escapeChar quote c := by
  rcases escapeChar_cases isQuote c with ⟨e, written, short⟩ | written | ⟨written, _, other⟩
  · rw [written]
    intro mem
    rcases List.mem_cons.mp mem with same | mem
    · cases same
    · rw [← List.mem_singleton.mp mem] at short
      cases short
  · rw [written]
    exact newline_not_mem_codePointEscape c
  · rw [written]
    intro mem
    exact other (List.mem_singleton.mp mem).symm

theorem newline_not_mem_literal {quote : Char}
    (isQuote : quote = Text.singleQuote ∨ quote = Text.doubleQuote) (text : List Char) :
    '\n' ∉ literal quote text := by
  have other : '\n' ≠ quote := by
    rcases isQuote with rfl | rfl
    · decide
    · decide
  simp only [literal, List.mem_append, List.mem_cons, List.mem_flatMap, List.not_mem_nil, or_false,
    not_or, not_exists, not_and]
  exact ⟨⟨other, fun c _ => newline_not_mem_escapeChar isQuote c⟩, other⟩

end Source
end Image
end ObjectMachine
