import ObjectMachine.Image.Load
import ObjectMachine.Proofs.ConsoleInput
import ObjectMachine.Proofs.MethodBodies
import ObjectMachine.Proofs.SourceLines

/-!
# Text images that are written and read

The text of an image exists exactly if the format has a place for its names and its operands. Then
reading the text gives the image back, whatever its strings and characters hold.

Reading goes line by line, so the proof follows what has been read: after the lines of some types
and methods it is these types and these methods, once the last method is closed.
-/

namespace ObjectMachine
namespace Image
namespace Source

theorem numberLine_eq (kind : HeaderKind) (value : Int32) :
    ∃ body, numberLine kind value = '!' :: kind.name.toList ++ ':' :: body ++ ['!'] ∧
      Text.trim body = Text.signedDecimal value.toInt := by
  refine ⟨' ' :: Text.signedDecimal value.toInt, ?_, ?_⟩
  · simp [numberLine]
  · exact (Text.isWord_signedDecimal _).tight.trim_cons rfl

theorem role_of_mnemonic {raw mnemonic rest : List Char} (nonempty : mnemonic ≠ [])
    (letters : ∀ c ∈ mnemonic, isMnemonicChar c = true)
    (trimmed : Text.trim raw = mnemonic ++ rest) : role raw = .instruction (mnemonic ++ rest) := by
  cases mnemonic with
  | nil => exact absurd rfl nonempty
  | cons c mnemonic =>
      rw [List.cons_append] at trimmed ⊢
      rcases body_of_isMnemonicChar (letters c List.mem_cons_self) (mnemonic ++ rest) with
        ⟨noHeader, noLabel, noRemark⟩
      unfold role
      simp only [trimmed, List.isEmpty_cons, List.head?_cons, Bool.false_or, Option.some.injEq,
        noRemark, noHeader, noLabel, decide_false]
      rfl

/-!
## Drafts
-/

def Draft.Holds (draft : Draft) (code : List InstructionDef) : Prop :=
  draft.code.toList.map (fun insn => (insn.opcode, insn.operand)) =
    code.map fun insn => (insn.opcode, DraftOperand.complete insn.operand)

theorem Draft.Holds.addInstruction {draft : Draft} {code : List InstructionDef}
    (holds : draft.Holds code) (insn : InstructionDef) (number : Nat) :
    (draft.addInstruction ⟨insn.opcode, .complete insn.operand, number⟩).Holds
      (code ++ [insn]) := by
  unfold Draft.Holds at holds ⊢
  simp [Draft.addInstruction, holds]

theorem Draft.mapM_closeInstruction (draft : Draft) {insns : List DraftInstruction}
    {code : List InstructionDef} (position : Nat)
    (same : insns.map (fun insn => (insn.opcode, insn.operand)) =
      code.map fun insn => (insn.opcode, DraftOperand.complete insn.operand)) :
    (insns.zipIdx position).mapM (fun entry => draft.closeInstruction entry.1 entry.2) =
      .ok code := by
  induction insns generalizing code position with
  | nil =>
      cases code with
      | nil => rfl
      | cons insn rest => cases same
  | cons insn rest ih =>
      cases code with
      | nil => cases same
      | cons first later =>
          rw [List.map_cons, List.map_cons, List.cons.injEq, Prod.mk.injEq] at same
          rw [List.zipIdx_cons, List.mapM_cons, ih (position + 1) same.2]
          simp only [Draft.closeInstruction, same.1.2, same.1.1]
          rfl

theorem Draft.Holds.close {draft : Draft} {code : List InstructionDef}
    (holds : draft.Holds code) : draft.close = .ok { draft.header with code } := by
  have closed := draft.mapM_closeInstruction 0 holds
  rw [Draft.close]
  exact Except.bind_eq_ok_iff.mpr ⟨code, closed, rfl⟩

/-!
## What has been read
-/

/-- What has been read is the given types, methods and main method, once the last method is
closed. -/
def Progress.Holds (progress : Progress) (types : List TypeDef) (methods : List MethodDef)
    (main : Option Int32) : Prop :=
  progress.closeDraft = .ok ⟨types.toArray, methods.toArray, main, none⟩

namespace Progress

variable {progress : Progress} {types : List TypeDef} {methods : List MethodDef}
  {main : Option Int32} {number : Nat}

theorem holds_start : start.Holds [] [] none := rfl

theorem addLines_append (progress : Progress) (number : Nat) (front back : List (List Char)) :
    progress.addLines number (front ++ back) =
      (progress.addLines number front >>= fun progress =>
        progress.addLines (number + front.length) back) := by
  induction front generalizing progress number with
  | nil => rfl
  | cons line rest ih =>
      rw [List.cons_append, addLines, addLines, bind_assoc]
      congr
      funext progress
      rw [ih, List.length_cons, Nat.succ_add_eq_add_succ]

/-- A header line closes the last method before it says anything. -/
theorem addLine_header {after closed : Progress} {kind : HeaderKind} {body : List Char}
    (closes : progress.closeDraft = .ok closed)
    (added : closed.addHeader kind (Text.trim body) = .ok after) :
    progress.addLine number ('!' :: kind.name.toList ++ ':' :: body ++ ['!']) = .ok after := by
  have bang : Text.Tight ['!'] := (Text.isWord_of_any (by decide) rfl).tight
  have tight : Text.Tight ('!' :: kind.name.toList ++ ':' :: body ++ ['!']) := by
    have enclosed := bang.enclose bang (kind.name.toList ++ ':' :: body)
    simpa using enclosed
  unfold addLine
  simp only [tight.trim, header?_of_kind]
  rw [if_neg (by simp)]
  rw [closes]
  show (closed.addHeader kind (Text.trim body)).mapError _ = _
  rw [added]
  rfl

theorem Holds.addType (holds : progress.Holds types methods main) {type : TypeDef}
    {line : List Char} (written : typeLine type = .ok line) :
    ∃ after, progress.addLine number line = .ok after ∧
      after.Holds (types ++ [type]) methods main := by
  refine ⟨⟨(types ++ [type]).toArray, methods.toArray, main, none⟩, ?_, rfl⟩
  cases type with
  | ofClass c =>
      rcases readClassHeader_of_line written with ⟨body, rfl, read⟩
      apply addLine_header holds
      simp only [addHeader, read, ← List.push_toArray]
      rfl
  | ofArray element =>
      rcases numberLine_eq .ofArray element with ⟨body, shape, trimmed⟩
      cases written
      rw [shape]
      apply addLine_header holds
      simp only [addHeader, trimmed, readNumberHeader_signedDecimal, ← List.push_toArray]
      rfl

theorem Holds.addMain (holds : progress.Holds types methods none) (value : Int32) (number : Nat) :
    ∃ after, progress.addLine number (numberLine .ofMain value) = .ok after ∧
      after.Holds types methods (some value) := by
  refine ⟨⟨types.toArray, methods.toArray, some value, none⟩, ?_, rfl⟩
  rcases numberLine_eq .ofMain value with ⟨body, shape, trimmed⟩
  rw [shape]
  apply addLine_header holds
  simp only [addHeader, trimmed, isNumber_signedDecimal, readInt_signedDecimal]
  rfl

theorem Holds.openMethod (holds : progress.Holds types methods main) {method : MethodDef}
    {line : List Char} (written : methodLine method = .ok line) :
    progress.addLine number line = .ok ⟨types.toArray, methods.toArray, main,
      some (.ofHeader { method with code := [] })⟩ := by
  rcases readMethodHeader_of_line written with ⟨body, rfl, read⟩
  apply addLine_header holds
  simp only [addHeader, read]
  rfl

theorem addLine_instruction {method : String} {insn : InstructionDef} {line : List Char}
    (written : instructionLine method insn = .ok line) {draft : Draft}
    (isOpen : progress.draft = some draft) :
    progress.addLine number line = .ok { progress with
      draft := some (draft.addInstruction ⟨insn.opcode, .complete insn.operand, number⟩) } := by
  rcases readInstruction_of_line written with ⟨text, rfl, tight, _, read⟩
  rcases mnemonic_cases insn.opcode with ⟨nonempty, letters⟩
  have trimmed : Text.trim ('\t' :: (insn.opcode.mnemonic.toList ++ text)) =
      insn.opcode.mnemonic.toList ++ text := tight.trim_cons rfl
  have is := role_of_mnemonic nonempty (List.all_eq_true.mp letters) trimmed
  exact addLine_eq_ok_iff.mpr (is.symm ▸ .instruction isOpen read)

theorem addLines_code {method : String} {code : List InstructionDef} {lines : List (List Char)}
    (written : List.Forall₂ (fun insn line => instructionLine method insn = .ok line) code lines)
    {draft : Draft} (isOpen : progress.draft = some draft) {before : List InstructionDef}
    (holds : draft.Holds before) :
    ∃ drafted : Draft,
      progress.addLines number lines = .ok { progress with draft := some drafted } ∧
      drafted.header = draft.header ∧ drafted.Holds (before ++ code) := by
  induction written generalizing progress draft before number with
  | nil =>
      refine ⟨draft, ?_, rfl, by simpa using holds⟩
      rw [addLines, ← isOpen]
  | @cons insn line rest lines first _ ih =>
      let next := draft.addInstruction ⟨insn.opcode, .complete insn.operand, number⟩
      have ran : ∃ drafted : Draft,
          ({ progress with draft := some next } : Progress).addLines (number + 1) lines =
            .ok { progress with draft := some drafted } ∧
          drafted.header = next.header ∧ drafted.Holds (before ++ [insn] ++ rest) :=
        ih rfl (holds.addInstruction insn number)
      rw [List.append_assoc, List.singleton_append] at ran
      rw [addLines, addLine_instruction first isOpen]
      exact ran

theorem Holds.addMethod (holds : progress.Holds types methods main) {method : MethodDef}
    {lines : List (List Char)} (written : (methodLines method).mapM id = .ok lines) :
    ∃ after, progress.addLines number lines = .ok after ∧
      after.Holds types (methods ++ [method]) main := by
  rw [methodLines, Except.mapM_eq_ok_iff] at written
  cases written with
  | @cons _ line _ codeLines first later =>
      rw [List.forall₂_map_left_iff] at later
      have none : (Draft.ofHeader { method with code := [] }).Holds [] := rfl
      have ran : ∃ drafted : Draft,
          (⟨types.toArray, methods.toArray, main,
            some (.ofHeader { method with code := [] })⟩ : Progress).addLines (number + 1)
              codeLines = .ok ⟨types.toArray, methods.toArray, main, some drafted⟩ ∧
          drafted.header = { method with code := [] } ∧ drafted.Holds ([] ++ method.code) :=
        addLines_code later rfl none
      rcases ran with ⟨drafted, ran, header, holds'⟩
      rw [addLines, holds.openMethod first]
      refine ⟨_, ran, ?_⟩
      have closed := holds'.close
      rw [header] at closed
      simp only [Progress.Holds, closeDraft, closed, ← List.push_toArray]
      rfl

/-!
## Whole texts
-/

theorem Holds.addTypes {more : List TypeDef} {lines : List (List Char)}
    (written : (more.map typeLine).mapM id = .ok lines)
    (holds : progress.Holds types methods main) (number : Nat) :
    ∃ after, progress.addLines number lines = .ok after ∧
      after.Holds (types ++ more) methods main := by
  rw [Except.mapM_eq_ok_iff, List.forall₂_map_left_iff] at written
  induction written generalizing progress types number with
  | nil => exact ⟨progress, rfl, by simpa using holds⟩
  | @cons type line rest lines first _ ih =>
      rcases holds.addType first with ⟨middle, added, holds'⟩
      rcases ih holds' (number + 1) with ⟨after, ran, holds''⟩
      rw [List.append_assoc, List.singleton_append] at holds''
      refine ⟨after, ?_, holds''⟩
      rw [addLines, added]
      exact ran

theorem Holds.addMethods {more : List MethodDef} {lines : List (List Char)}
    (written : (more.flatMap methodLines).mapM id = .ok lines)
    (holds : progress.Holds types methods main) (number : Nat) :
    ∃ after, progress.addLines number lines = .ok after ∧
      after.Holds types (methods ++ more) main := by
  induction more generalizing progress methods number lines with
  | nil =>
      cases written
      exact ⟨progress, rfl, by simpa using holds⟩
  | cons method rest ih =>
      rw [List.flatMap_cons, Except.mapM_append_eq_ok_iff] at written
      rcases written with ⟨first, later, written, written', rfl⟩
      rcases holds.addMethod written with ⟨middle, ran, holds'⟩
      rcases ih written' holds' (number + first.length) with ⟨after, ran', holds''⟩
      rw [List.append_assoc, List.singleton_append] at holds''
      refine ⟨after, ?_, holds''⟩
      rw [addLines_append, ran]
      exact ran'

theorem Holds.finish {value : Int32} (holds : progress.Holds types methods (some value)) :
    progress.finish = .ok ⟨types, methods, value⟩ := by
  rw [Progress.finish, holds]
  rfl

end Progress

theorem lines_joinLines {lines : List (List Char)} (whole : ∀ line ∈ lines, '\n' ∉ line) :
    Text.lines (joinLines lines) = lines := by
  induction lines with
  | nil => rfl
  | cons line rest ih =>
      have later := ih fun line mem => whole line (List.mem_cons_of_mem _ mem)
      rw [joinLines] at later
      rw [joinLines, List.flatMap_cons, List.append_assoc, List.singleton_append,
        Text.lines_append (whole line List.mem_cons_self), later]

/-!
Nothing that is written holds a line feed.
-/

theorem newline_not_mem_numbers (values : List Int32) : '\n' ∉ numbers values := by
  intro mem
  rcases List.mem_flatMap.mp mem with ⟨value, _, mem⟩
  rcases List.mem_cons.mp mem with same | mem
  · cases same
  · exact (Text.isWord_signedDecimal _).newline_not_mem mem

theorem newline_not_mem_optionalSection {key : String} (plain : '\n' ∉ key.toList)
    (value : Option Int32) : '\n' ∉ optionalSection key value := by
  cases value with
  | none => exact List.not_mem_nil
  | some value =>
      intro mem
      rcases List.mem_append.mp mem with mem | mem
      · exact plain mem
      · exact (Text.isWord_signedDecimal _).newline_not_mem mem

theorem newline_not_mem_kind (kind : HeaderKind) : '\n' ∉ kind.name.toList := by
  cases kind <;> decide

theorem newline_not_mem_declarationLine {kind : HeaderKind} {name : String}
    {sections line : List Char} (written : declarationLine kind name sections = .ok line)
    (plain : '\n' ∉ sections) : '\n' ∉ line := by
  rcases declarationLine_eq_ok_iff.mp written with ⟨isName, rfl⟩
  have named := (isWord_of_isName isName).1.newline_not_mem
  simp [newline_not_mem_kind, named, plain]

theorem newline_not_mem_numberLine (kind : HeaderKind) (value : Int32) :
    '\n' ∉ numberLine kind value := by
  have digits := (Text.isWord_signedDecimal value.toInt).newline_not_mem
  simp [numberLine, newline_not_mem_kind, digits]

theorem newline_not_mem_typeLine {type : TypeDef} {line : List Char}
    (written : typeLine type = .ok line) : '\n' ∉ line := by
  cases type with
  | ofArray element =>
      cases written
      exact newline_not_mem_numberLine _ _
  | ofClass c =>
      apply newline_not_mem_declarationLine written
      simp [newline_not_mem_numbers, newline_not_mem_optionalSection]

theorem newline_not_mem_methodLine {method : MethodDef} {line : List Char}
    (written : methodLine method = .ok line) : '\n' ∉ line := by
  apply newline_not_mem_declarationLine written
  simp [newline_not_mem_numbers, newline_not_mem_optionalSection]

theorem newline_not_mem_instructionLine {method : String} {insn : InstructionDef}
    {line : List Char} (written : instructionLine method insn = .ok line) : '\n' ∉ line := by
  rcases readInstruction_of_line written with ⟨text, rfl, _, plain, _⟩
  simp [(isWord_mnemonic insn.opcode).newline_not_mem, plain]

theorem newline_not_mem_imageLines {image : Image} {line : List Char}
    (written : .ok line ∈ imageLines image) : '\n' ∉ line := by
  simp only [imageLines, methodLines, List.mem_append, List.mem_map, List.mem_flatMap,
    List.mem_cons, List.not_mem_nil, or_false] at written
  rcases written with (⟨type, _, written⟩ | ⟨method, _, written | ⟨insn, _, written⟩⟩) | written
  · exact newline_not_mem_typeLine written
  · exact newline_not_mem_methodLine written.symm
  · exact newline_not_mem_instructionLine written
  · cases written
    exact newline_not_mem_numberLine _ _

/-- What is written is read. -/
theorem read_of_write {image : Image} {text : List Char} (written : write image = .ok text) :
    read text = .ok image := by
  rcases Except.bind_eq_ok_iff.mp written with ⟨lines, linesWritten, same⟩
  cases same
  have whole : ∀ line ∈ lines, '\n' ∉ line := by
    intro line mem
    rcases (Except.mem_iff_of_mapM linesWritten).mp mem with ⟨line', mem', same⟩
    rw [id_eq] at same
    subst same
    exact newline_not_mem_imageLines mem'
  rw [imageLines, Except.mapM_append_eq_ok_iff] at linesWritten
  rcases linesWritten with ⟨front, last, frontWritten, main, rfl⟩
  rw [Except.mapM_append_eq_ok_iff] at frontWritten
  rcases frontWritten with ⟨typeLines, methodLines, types, methods, rfl⟩
  have last_eq : last = [numberLine .ofMain image.main] := by
    cases main
    rfl
  subst last_eq
  -- The three parts of the text are read one after the other.
  have start : Progress.start.Holds [] [] none := Progress.holds_start
  rcases start.addTypes types 1 with ⟨first, ran, holds⟩
  rcases holds.addMethods methods (1 + typeLines.length) with ⟨second, ran', holds'⟩
  rcases holds'.addMain image.main (1 + (typeLines ++ methodLines).length) with
    ⟨third, added, holds''⟩
  have all : Progress.start.addLines 1
      (typeLines ++ methodLines ++ [numberLine .ofMain image.main]) = .ok third := by
    rw [Progress.addLines_append, Progress.addLines_append, ran]
    apply Except.bind_eq_ok_iff.mpr
    refine ⟨second, ran', ?_⟩
    rw [Progress.addLines, added]
    rfl
  rw [read, lines_joinLines whole, all]
  exact holds''.finish

/-!
## What can be written
-/

def IsPlain (name : String) : Prop :=
  name ≠ "" ∧ ∀ c ∈ name.toList, Text.isBlank c = false ∧ c ≠ '!'

theorem exists_declarationLine_iff {kind : HeaderKind} {name : String} {sections : List Char} :
    (∃ line, declarationLine kind name sections = .ok line) ↔ IsPlain name := by
  rw [declarationLine, Except.exists_ite_iff, isName_iff, IsPlain]

theorem exists_instructionLine_iff {method : String} {insn : InstructionDef} :
    (∃ line, instructionLine method insn = .ok line) ↔
      insn.operand.kind = insn.opcode.operandKind := by
  unfold instructionLine
  by_cases fits : insn.operand.kind = insn.opcode.operandKind
  · have fits' : ¬ (!insn.fits) = true := by simp [InstructionDef.fits, fits]
    simp only [if_neg fits', fits, iff_true]
    split
    · exact ⟨_, rfl⟩
    · exact ⟨_, rfl⟩
  · have unfit : (!insn.fits) = true := by simp [InstructionDef.fits, fits]
    simp only [if_pos unfit, fits, iff_false]
    intro found
    rcases found with ⟨line, written⟩
    cases written

end Source

/-- The text format has a place for all names of an image, and every operand is of the kind that its
opcode takes. -/
structure Expressible (image : Image) : Prop where
  classes : ∀ c, .ofClass c ∈ image.types → Source.IsPlain c.name
  methods : ∀ method ∈ image.methods, Source.IsPlain method.name
  operands : ∀ method ∈ image.methods, ∀ insn ∈ method.code,
    insn.operand.kind = insn.opcode.operandKind

theorem exists_write_iff {image : Image} :
    (∃ text, Source.write image = .ok text) ↔ image.Expressible := by
  have written_iff : (∃ text, Source.write image = .ok text) ↔
      ∀ line ∈ Source.imageLines image, ∃ text, line = .ok text := by
    simp only [Source.write, Except.exists_bind_iff, Except.ok.injEq, exists_eq', and_true,
      Except.exists_mapM_iff, id_eq]
  rw [written_iff]
  simp only [Source.imageLines, Source.methodLines, List.mem_append, List.mem_map,
    List.mem_flatMap, List.mem_cons, List.not_mem_nil, or_false]
  constructor
  · intro written
    constructor
    · intro c mem
      exact Source.exists_declarationLine_iff.mp
        (written _ (Or.inl (Or.inl ⟨.ofClass c, mem, rfl⟩)))
    · intro method mem
      exact Source.exists_declarationLine_iff.mp
        (written _ (Or.inl (Or.inr ⟨method, mem, Or.inl rfl⟩)))
    · intro method mem insn mem'
      exact Source.exists_instructionLine_iff.mp
        (written _ (Or.inl (Or.inr ⟨method, mem, Or.inr ⟨insn, mem', rfl⟩⟩)))
  · intro expressible line mem
    rcases mem with (⟨type, mem, rfl⟩ | ⟨method, mem, rfl | ⟨insn, mem', rfl⟩⟩) | rfl
    · cases type with
      | ofArray element => exact ⟨_, rfl⟩
      | ofClass c => exact Source.exists_declarationLine_iff.mpr (expressible.classes c mem)
    · exact Source.exists_declarationLine_iff.mpr (expressible.methods method mem)
    · exact Source.exists_instructionLine_iff.mpr (expressible.operands method mem insn mem')
    · exact ⟨_, rfl⟩

/-!
## Bytes
-/

theorem ofTextBytes_toUTF8 (text : List Char) :
    ofTextBytes (String.ofList text).toUTF8.toList = (Source.read text).mapError .image := by
  have decoded := decode?_eq_some_iff.mpr (toUTF8_ofList text)
  rcases Option.map_eq_some_iff.mp decoded with ⟨source, found, rfl⟩
  rw [ofTextBytes, found]

/-- An image has a text exactly if it can be expressed, and then the text, and the bytes of the
text, are read as the image. -/
theorem text_roundtrip (image : Image) :
    ((∃ text, Source.write image = .ok text) ↔ image.Expressible) ∧
      ∀ text, Source.write image = .ok text → Source.read text = .ok image ∧
        ofTextBytes (String.ofList text).toUTF8.toList = .ok image := by
  refine ⟨exists_write_iff, ?_⟩
  intro text written
  have read := Source.read_of_write written
  refine ⟨read, ?_⟩
  rw [ofTextBytes_toUTF8, read]
  rfl

/-- An image whose names and literals look like the marks of the format. -/
def markedImage : Image where
  types := [.ofClass ⟨"base:", none, [], []⟩, .ofClass ⟨";Class:", some 0, [-3, 1], [0]⟩,
    .ofArray (-2147483648)]
  methods := [⟨":fields:", some (-4), [], [-3],
    [⟨.ldstr, .str " \"!Main: 0!\" \n\\ "⟩, ⟨.ldcC, .char Text.singleQuote⟩,
      ⟨.br, .branch (-2)⟩, ⟨.ldfld, .field (-1) 4294967295⟩, ⟨.ret, .none⟩]⟩]
  main := -7

theorem text_roundtrip_markedImage :
    ∃ text, Source.write markedImage = .ok text ∧ Source.read text = .ok markedImage ∧
      ofTextBytes (String.ofList text).toUTF8.toList = .ok markedImage := by
  have expressible : markedImage.Expressible := by
    constructor
    · intro c mem
      simp only [markedImage, List.mem_cons, TypeDef.ofClass.injEq, reduceCtorEq,
        List.not_mem_nil, or_false] at mem
      rcases mem with rfl | rfl
      · exact Source.isName_iff.mp rfl
      · exact Source.isName_iff.mp rfl
    · intro method mem
      cases List.mem_singleton.mp mem
      exact Source.isName_iff.mp rfl
    · intro method mem
      cases List.mem_singleton.mp mem
      decide
  rcases (text_roundtrip markedImage).1.mpr expressible with ⟨text, written⟩
  exact ⟨text, written, (text_roundtrip markedImage).2 text written⟩

end Image
end ObjectMachine
