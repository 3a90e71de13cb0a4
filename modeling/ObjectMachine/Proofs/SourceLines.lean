import ObjectMachine.Image.Source.Writer
import ObjectMachine.Proofs.Literals
import ObjectMachine.Proofs.Outcomes

/-!
# Lines that are written and read

A header line is recognised by its kind, its words are those that were written into it, and they
fall into the sections that they were written for. An instruction line is its mnemonic, and behind a
space the text of its operand, which is read back by the kind of operand that the opcode takes.
-/

namespace ObjectMachine
namespace Image
namespace Source

/-!
## Numbers
-/

theorem isDigits_decimal (n : Nat) : isDigits (Text.decimal n) = true := by
  rw [isDigits, Bool.and_eq_true, List.all_eq_true]
  constructor
  · simp [Text.decimal_ne_nil]
  · intro c mem
    have digit := Text.isDigit_of_mem_decimal mem
    have ascii : c.toNat < 0x80 := by
      rw [Char.isDigit, Bool.and_eq_true, decide_eq_true_iff, decide_eq_true_iff] at digit
      have upper : c.toNat ≤ 57 := digit.2
      omega
    rw [Text.isDecimalDigit, if_pos ascii, digit]

theorem isNumber_decimal (n : Nat) : isNumber (Text.decimal n) = true := by
  unfold isNumber
  split
  · next rest digits =>
      have mem : '-' ∈ Text.decimal n := digits ▸ List.mem_cons_self
      exact absurd (Text.isDigit_of_mem_decimal mem) (by decide)
  · exact isDigits_decimal n

theorem isNumber_signedDecimal (i : Int) : isNumber (Text.signedDecimal i) = true := by
  unfold Text.signedDecimal
  split
  · exact isDigits_decimal _
  · exact isNumber_decimal _

theorem readInt_signedDecimal (value : Int32) :
    readInt (Text.signedDecimal value.toInt) = .ok value := by
  rw [readInt, (Text.isWord_signedDecimal _).tight.trim, Text.readInt32?_signedDecimal]

theorem readInt_offsetDecimal (value : Int32) :
    readInt (Text.offsetDecimal value.toInt) = .ok value := by
  rw [readInt, (Text.isWord_offsetDecimal _).tight.trim, Text.readInt32?_offsetDecimal]

theorem readUInt_decimal (value : UInt32) : readUInt (Text.decimal value.toNat) = .ok value := by
  have read : Text.readUInt32? 10 (Text.decimal value.toNat) = some value :=
    Text.readUInt32?_toDigits (by decide) (by decide) value
  rw [readUInt, (Text.isWord_decimal _).tight.trim, read]

/-!
## Header lines
-/

theorem header?_of_kind (kind : HeaderKind) (body : List Char) :
    header? ('!' :: kind.name.toList ++ ':' :: body ++ ['!']) = some (kind, Text.trim body) := by
  cases kind <;> simp [header?, headerBody?, HeaderKind.name, after?]

theorem readNumberHeader_signedDecimal (kind : HeaderKind) (value : Int32) :
    readNumberHeader kind (Text.signedDecimal value.toInt) = .ok value := by
  rw [readNumberHeader, if_pos (isNumber_signedDecimal _), readInt_signedDecimal]

def numerals (values : List Int32) : List (List Char) :=
  values.map fun value => Text.signedDecimal value.toInt

theorem mapM_readInt_numerals (values : List Int32) :
    (numerals values).mapM readInt = .ok values := by
  induction values with
  | nil => rfl
  | cons value rest ih =>
      rw [numerals, List.map_cons, List.mapM_cons, readInt_signedDecimal]
      rw [numerals] at ih
      rw [ih]
      rfl

def sectionWords (valueKey firstKey secondKey : List Char) (value : Option Int32)
    (first second : List Int32) : List (List Char) :=
  (match value with
    | some value => [valueKey, Text.signedDecimal value.toInt]
    | none => []) ++ firstKey :: numerals first ++ secondKey :: numerals second

theorem scan_numerals (values : List Int32) {rest : List (List Char)}
    (ends : ∀ word ∈ rest.head?, isNumber word = false) :
    (numerals values ++ rest).takeWhile isNumber = numerals values ∧
      (numerals values ++ rest).dropWhile isNumber = rest := by
  refine Text.scan_append ?_ ends
  intro word mem
  rcases List.mem_map.mp mem with ⟨value, _, rfl⟩
  exact isNumber_signedDecimal _

theorem after?_self (key : List Char) : after? key key = some [] := by
  induction key with
  | nil => rfl
  | cons c rest ih => rw [after?, if_pos rfl, ih]

/-- Keys of sections that can be told apart, the first of them also as it is written. -/
structure SectionKeys (key : String) (valueKey firstKey secondKey : List Char) : Prop where
  spaced : key.toList = ' ' :: valueKey ++ [' ']
  value : Text.IsWord valueKey
  first : Text.IsWord firstKey
  second : Text.IsWord secondKey
  apart : after? valueKey firstKey = none
  noNumber : isNumber secondKey = false

theorem classKeys : SectionKeys " base: " "base:".toList "fields:".toList "methods:".toList :=
  ⟨rfl, Text.isWord_of_any (by decide) rfl, Text.isWord_of_any (by decide) rfl,
    Text.isWord_of_any (by decide) rfl, rfl, rfl⟩

theorem methodKeys :
    SectionKeys " returns: " "returns:".toList "params:".toList "locals:".toList :=
  ⟨rfl, Text.isWord_of_any (by decide) rfl, Text.isWord_of_any (by decide) rfl,
    Text.isWord_of_any (by decide) rfl, rfl, rfl⟩

theorem isName_iff {name : String} :
    isName name = true ↔ name ≠ "" ∧ ∀ c ∈ name.toList, Text.isBlank c = false ∧ c ≠ '!' := by
  simp [isName]

theorem isWord_of_isName {name : String} (isName : isName name = true) :
    Text.IsWord name.toList ∧ '!' ∉ name.toList := by
  rcases isName_iff.mp isName with ⟨nonempty, plain⟩
  refine ⟨⟨?_, fun c mem => (plain c mem).1⟩, fun mem => (plain _ mem).2 rfl⟩
  simpa using nonempty

theorem isWord_numerals {values : List Int32} : ∀ word ∈ numerals values, Text.IsWord word := by
  intro word mem
  rcases List.mem_map.mp mem with ⟨value, _, rfl⟩
  exact Text.isWord_signedDecimal _

theorem flatMap_numerals (values : List Int32) :
    (numerals values).flatMap (fun word => ' ' :: word) = numbers values := by
  rw [numerals, List.flatMap_map, numbers]

namespace SectionKeys

variable {key : String} {valueKey firstKey secondKey : List Char}

theorem words (keys : SectionKeys key valueKey firstKey secondKey) {name : List Char}
    (isWord : Text.IsWord name) (value : Option Int32) (first second : List Int32) :
    Text.words (' ' :: name ++ (optionalSection key value ++ ' ' :: firstKey ++ numbers first ++
        ' ' :: secondKey ++ numbers second)) =
      name :: sectionWords valueKey firstKey secondKey value first second := by
  have text : ' ' :: name ++ (optionalSection key value ++ ' ' :: firstKey ++ numbers first ++
        ' ' :: secondKey ++ numbers second) =
      (name :: sectionWords valueKey firstKey secondKey value first second).flatMap
        fun word => ' ' :: word := by
    cases value <;> simp [sectionWords, optionalSection, keys.spaced, flatMap_numerals]
  rw [text]
  apply Text.words_spaced
  intro word mem
  simp only [sectionWords, List.mem_cons, List.mem_append] at mem
  rcases mem with rfl | (mem | rfl | mem) | rfl | mem
  · exact isWord
  · cases value with
    | none => cases mem
    | some value =>
        simp only [List.mem_cons, List.not_mem_nil, or_false] at mem
        rcases mem with rfl | rfl
        · exact keys.value
        · exact Text.isWord_signedDecimal _
  · exact keys.first
  · exact isWord_numerals word mem
  · exact keys.second
  · exact isWord_numerals word mem

theorem declaration? (keys : SectionKeys key valueKey firstKey secondKey) {name : String}
    (isName : isName name = true) (value : Option Int32) (first second : List Int32) :
    Source.declaration? valueKey firstKey secondKey (Text.trim (' ' :: name.toList ++
        (optionalSection key value ++ ' ' :: firstKey ++ numbers first ++ ' ' :: secondKey ++
          numbers second))) =
      some ⟨name.toList, value.map fun value => Text.signedDecimal value.toInt, numerals first,
        numerals second⟩ := by
  rcases isWord_of_isName isName with ⟨isWord, plain⟩
  have words := keys.words isWord value first second
  rw [← Text.words_trim] at words
  have middle : ∀ word ∈ (secondKey :: numerals second).head?, isNumber word = false := by
    intro word mem
    cases mem
    exact keys.noNumber
  have last : (numerals second).takeWhile isNumber = numerals second ∧
      (numerals second).dropWhile isNumber = [] := by
    have none : ∀ word ∈ ([] : List (List Char)).head?, isNumber word = false := nofun
    have taken := scan_numerals second none
    rwa [List.append_nil] at taken
  rw [Source.declaration?, words]
  cases value with
  | none =>
      simp [sectionWords, valueSection, keys.apart, listSection, scan_numerals first middle,
        last, plain]
  | some value =>
      simp [sectionWords, valueSection, after?_self, isNumber_signedDecimal, listSection,
        scan_numerals first middle, last, plain]

end SectionKeys

theorem read_declaration (name : List Char) (value : Option Int32) (first second : List Int32) :
    Declaration.read ⟨name, value.map fun value => Text.signedDecimal value.toInt, numerals first,
      numerals second⟩ = .ok (value, first, second) := by
  have read : (value.map fun value => Text.signedDecimal value.toInt).mapM readInt = .ok value := by
    cases value with
    | none => rfl
    | some value =>
        rw [Option.map_some, Option.mapM_some, readInt_signedDecimal]
        rfl
  rw [Declaration.read, read, mapM_readInt_numerals, mapM_readInt_numerals]
  rfl

theorem declarationLine_eq_ok_iff {kind : HeaderKind} {name : String} {sections line : List Char} :
    declarationLine kind name sections = .ok line ↔ isName name = true ∧
      line = '!' :: kind.name.toList ++ ':' :: (' ' :: name.toList ++ sections) ++ ['!'] := by
  unfold declarationLine
  split
  · next isName => simp [isName, eq_comm]
  · next other => simp [other]

theorem readClassHeader_of_line {c : ClassDef} {line : List Char}
    (written : typeLine (.ofClass c) = .ok line) :
    ∃ body, line = '!' :: HeaderKind.ofClass.name.toList ++ ':' :: body ++ ['!'] ∧
      readClassHeader (Text.trim body) = .ok c := by
  rcases declarationLine_eq_ok_iff.mp written with ⟨isName, rfl⟩
  refine ⟨_, rfl, ?_⟩
  have first : " fields:".toList = ' ' :: "fields:".toList := rfl
  have second : " methods:".toList = ' ' :: "methods:".toList := rfl
  rw [first, second, readClassHeader, classKeys.declaration? isName]
  simp only [read_declaration, String.ofList_toList]
  rfl

theorem readMethodHeader_of_line {method : MethodDef} {line : List Char}
    (written : methodLine method = .ok line) :
    ∃ body, line = '!' :: HeaderKind.ofMethod.name.toList ++ ':' :: body ++ ['!'] ∧
      readMethodHeader (Text.trim body) = .ok { method with code := [] } := by
  rcases declarationLine_eq_ok_iff.mp written with ⟨isName, rfl⟩
  refine ⟨_, rfl, ?_⟩
  have first : " params:".toList = ' ' :: "params:".toList := rfl
  have second : " locals:".toList = ' ' :: "locals:".toList := rfl
  rw [first, second, readMethodHeader, methodKeys.declaration? isName]
  simp only [read_declaration, String.ofList_toList]
  rfl

/-!
## Operands
-/

theorem mem_signedDecimal {i : Int} {c : Char} (mem : c ∈ Text.signedDecimal i) :
    c = '-' ∨ c.isDigit = true := by
  unfold Text.signedDecimal at mem
  split at mem
  · rcases List.mem_cons.mp mem with same | mem
    · exact Or.inl same
    · exact Or.inr (Text.isDigit_of_mem_decimal mem)
  · exact Or.inr (Text.isDigit_of_mem_decimal mem)

theorem fieldOperand?_written (owner : Int) (index : Nat) :
    fieldOperand? (Text.signedDecimal owner ++ '.' :: Text.decimal index) =
      some (Text.signedDecimal owner, Text.decimal index) := by
  have front : ∀ c ∈ Text.signedDecimal owner, (decide (c ≠ '.')) = true := by
    intro c mem
    rw [decide_eq_true_iff]
    intro same
    subst same
    rcases mem_signedDecimal mem with same | digit
    · cases same
    · cases digit
  have ends : ∀ c ∈ ('.' :: Text.decimal index).head?, (decide (c ≠ '.')) = false := by
    intro c first
    cases first
    rfl
  rcases Text.scan_append front ends with ⟨taken, left⟩
  unfold fieldOperand?
  simp only [taken, left, isNumber_signedDecimal, isDigits_decimal, Bool.and_self, if_true]

theorem readOperand_operandText {opcode : Opcode} {operand : OperandDef}
    (fits : operand.kind = opcode.operandKind) (present : operand ≠ .none) :
    readOperand opcode (operandText operand) = .ok (.complete operand) := by
  unfold readOperand
  rw [← fits]
  cases operand with
  | none => exact absurd rfl present
  | int value =>
      simp only [OperandDef.kind, operandText, readInt_signedDecimal]
      rfl
  | char value =>
      simp only [OperandDef.kind, operandText, unquote?_literal,
        unescape_flatMap_escapeChar (Or.inl rfl)]
  | bool value =>
      cases value with
      | false => rfl
      | true => rfl
  | str text =>
      simp only [OperandDef.kind, operandText, unquote?_literal,
        unescape_flatMap_escapeChar (Or.inr rfl), String.ofList_toList]
  | slot index =>
      simp only [OperandDef.kind, operandText, readUInt_decimal]
      rfl
  | branch offset =>
      simp only [OperandDef.kind, operandText]
      split
      · next label text =>
          unfold Text.offsetDecimal at text
          split at text
          · cases text
          · cases text
      · simp only [readInt_offsetDecimal]
        rfl
  | type index =>
      simp only [OperandDef.kind, operandText, readInt_signedDecimal]
      rfl
  | method index =>
      simp only [OperandDef.kind, operandText, readInt_signedDecimal]
      rfl
  | field owner index =>
      simp only [OperandDef.kind, operandText, fieldOperand?_written, readInt_signedDecimal,
        readUInt_decimal]
      rfl

/-- An operand stands on its line as one piece. -/
theorem operandText_cases {operand : OperandDef} (present : operand ≠ .none) :
    Text.Tight (operandText operand) ∧ '\n' ∉ operandText operand := by
  have word : ∀ {text}, Text.IsWord text → Text.Tight text ∧ '\n' ∉ text :=
    fun isWord => ⟨isWord.tight, isWord.newline_not_mem⟩
  cases operand with
  | none => exact absurd rfl present
  | int value => exact word (Text.isWord_signedDecimal _)
  | char value =>
      exact ⟨tight_literal (by decide) _, newline_not_mem_literal (Or.inl rfl) _⟩
  | bool value =>
      cases value with
      | false => exact word (Text.isWord_of_any (by decide) rfl)
      | true => exact word (Text.isWord_of_any (by decide) rfl)
  | str text =>
      exact ⟨tight_literal (by decide) _, newline_not_mem_literal (Or.inr rfl) _⟩
  | slot index => exact word (Text.isWord_decimal _)
  | branch offset => exact word (Text.isWord_offsetDecimal _)
  | type index => exact word (Text.isWord_signedDecimal _)
  | method index => exact word (Text.isWord_signedDecimal _)
  | field owner index =>
      exact word ((Text.isWord_signedDecimal _).append ((Text.isWord_decimal _).cons (by decide)))

/-!
## Instruction lines
-/

theorem mnemonic_cases (opcode : Opcode) :
    opcode.mnemonic.toList ≠ [] ∧ opcode.mnemonic.toList.all isMnemonicChar = true := by
  cases opcode <;> decide

theorem ofMnemonic?_mnemonic (opcode : Opcode) :
    Opcode.ofMnemonic? opcode.mnemonic = some opcode := by
  cases opcode <;> decide

theorem toNat_of_isMnemonicChar {c : Char} (letter : isMnemonicChar c = true) :
    (97 ≤ c.toNat ∧ c.toNat ≤ 122) ∨ c.toNat = 95 ∨ (48 ≤ c.toNat ∧ c.toNat ≤ 57) := by
  simp only [isMnemonicChar, Bool.or_eq_true, Bool.and_eq_true, decide_eq_true_iff,
    beq_iff_eq] at letter
  rcases letter with (small | rfl) | digit
  · exact Or.inl small
  · exact Or.inr (Or.inl rfl)
  · exact Or.inr (Or.inr digit)

theorem isBlank_of_isMnemonicChar {c : Char} (letter : isMnemonicChar c = true) :
    Text.isBlank c = false := by
  have code := toNat_of_isMnemonicChar letter
  unfold Text.isBlank
  simp
  omega

theorem isWord_mnemonic (opcode : Opcode) : Text.IsWord opcode.mnemonic.toList := by
  rcases mnemonic_cases opcode with ⟨nonempty, letters⟩
  exact ⟨nonempty, fun c mem => isBlank_of_isMnemonicChar (List.all_eq_true.mp letters c mem)⟩

/-- A line that starts with a letter of a mnemonic is neither a header nor a label nor a remark. -/
theorem body_of_isMnemonicChar {c : Char} (letter : isMnemonicChar c = true) (rest : List Char) :
    header? (c :: rest) = none ∧ label? (c :: rest) = none ∧ c ≠ ';' := by
  have other : ∀ d, isMnemonicChar d = false → c ≠ d := by
    intro d noLetter same
    rw [same, noLetter] at letter
    cases letter
  refine ⟨?_, ?_, other ';' (by decide)⟩
  · have bang := other '!' (by decide)
    simp [header?, headerBody?, after?, bang.symm]
  · unfold label?
    split
    · next same =>
        cases same
        exact absurd rfl (other ':' (by decide))
    · rfl

theorem instruction?_bare (opcode : Opcode) :
    instruction? opcode.mnemonic.toList = some (opcode.mnemonic.toList, none) := by
  rcases mnemonic_cases opcode with ⟨nonempty, letters⟩
  have none : ∀ c ∈ ([] : List Char).head?, isMnemonicChar c = false := nofun
  have scanned := Text.scan_append (List.all_eq_true.mp letters) none
  rw [List.append_nil] at scanned
  simp [instruction?, scanned, nonempty]

theorem instruction?_spaced {mnemonic gap text : List Char} (nonempty : mnemonic ≠ [])
    (letters : ∀ c ∈ mnemonic, isMnemonicChar c = true) (spaced : gap ≠ [])
    (blank : ∀ c ∈ gap, Text.isBlank c = true) (tight : Text.Tight text) :
    instruction? (mnemonic ++ gap ++ text) = some (mnemonic, some text) := by
  cases gap with
  | nil => exact absurd rfl spaced
  | cons space gap =>
      have blankSpace := blank space List.mem_cons_self
      have ends : ∀ c ∈ (space :: gap ++ text).head?, isMnemonicChar c = false := by
        intro c first
        cases first
        rw [Bool.eq_false_iff]
        intro letter
        exact absurd (isBlank_of_isMnemonicChar letter) (by rw [blankSpace]; decide)
      rcases Text.scan_append letters ends with ⟨taken, left⟩
      have trimmed : Text.trimLeft (space :: gap ++ text) = text := by
        rw [Text.trimLeft_append blank, Text.trimLeft_of_front tight.front]
      unfold instruction?
      rw [List.append_assoc]
      rw [List.cons_append] at taken left trimmed ⊢
      simp only [taken, left, List.isEmpty_iff, nonempty, if_false, trimmed, blankSpace, if_true]
      cases text with
      | nil => exact absurd rfl tight.nonempty
      | cons c rest => rfl

theorem instruction?_operand (opcode : Opcode) {text : List Char} (tight : Text.Tight text) :
    instruction? (opcode.mnemonic.toList ++ ' ' :: text) =
      some (opcode.mnemonic.toList, some text) := by
  rcases mnemonic_cases opcode with ⟨nonempty, letters⟩
  have blank : ∀ c ∈ [' '], Text.isBlank c = true := List.forall_mem_singleton.mpr rfl
  have found := instruction?_spaced nonempty (List.all_eq_true.mp letters)
    (List.cons_ne_nil ' ' []) blank tight
  rwa [List.append_assoc, List.singleton_append] at found

/-- The text of an operand is what stands behind the blanks that end the mnemonic. -/
theorem instruction?_eq_operand {line mnemonic text : List Char}
    (found : instruction? line = some (mnemonic, some text)) :
    ∃ gap, line = mnemonic ++ gap ++ text ∧ mnemonic ≠ [] ∧
      (∀ c ∈ mnemonic, isMnemonicChar c = true) ∧ gap ≠ [] ∧
      ∀ c ∈ gap, Text.isBlank c = true := by
  unfold instruction? at found
  simp only [List.isEmpty_iff] at found
  split at found
  · cases found
  · next nonempty =>
      split at found
      · cases found
      · next c rest behind =>
          split at found
          · cases found
          · split at found
            · next blank =>
                cases found
                refine ⟨(c :: rest).takeWhile Text.isBlank, ?_, nonempty, ?_, ?_, ?_⟩
                · rw [List.append_assoc, Text.trimLeft, behind, List.takeWhile_append_dropWhile,
                    ← behind, List.takeWhile_append_dropWhile]
                · intro c mem
                  exact List.mem_takeWhile_imp mem
                · rw [List.takeWhile_cons_of_pos blank]
                  exact List.cons_ne_nil _ _
                · intro c mem
                  exact List.mem_takeWhile_imp mem
            · cases found

theorem readInstruction_of_line {method : String} {insn : InstructionDef} {line : List Char}
    (written : instructionLine method insn = .ok line) :
    ∃ text, line = '\t' :: (insn.opcode.mnemonic.toList ++ text) ∧
      Text.Tight (insn.opcode.mnemonic.toList ++ text) ∧ '\n' ∉ text ∧
      readInstruction (insn.opcode.mnemonic.toList ++ text) =
        .ok (insn.opcode, .complete insn.operand) := by
  rcases insn with ⟨opcode, operand⟩
  have isWord := isWord_mnemonic opcode
  unfold instructionLine at written
  split at written
  · cases written
  · next unfit =>
      have fits : operand.kind = opcode.operandKind := by
        simpa [InstructionDef.fits] using unfit
      simp only at written
      split at written
      · cases written
        refine ⟨[], by simp, by simpa using isWord.tight, List.not_mem_nil, ?_⟩
        have kind : opcode.operandKind = .none := fits.symm
        simp [readInstruction, instruction?_bare, ofMnemonic?_mnemonic, kind]
      · next present =>
          cases written
          have text := operandText_cases present
          refine ⟨' ' :: operandText operand, rfl, ?_, ?_, ?_⟩
          · have enclosed := isWord.tight.enclose text.1 [' ']
            simpa using enclosed
          · simpa using text.2
          · simp only [readInstruction, instruction?_operand opcode text.1, String.ofList_toList,
              ofMnemonic?_mnemonic, readOperand_operandText fits present]
            rfl

end Source
end Image
end ObjectMachine
