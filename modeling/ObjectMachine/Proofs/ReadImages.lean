import ObjectMachine.Proofs.BinaryImages

/-!
# Images that have been read

Either reader gives images that can be written. Every name in a text is a word without an
exclamation mark, and every operand, of a text or of bytes, is read as the kind that its opcode
takes; a label that is turned into an offset stands where an offset may stand. Lengths that were
read from four bytes fit into four bytes.
-/

namespace ObjectMachine

namespace Text

theorem splitWords_isWord (cs : List Char) :
    (∀ c ∈ (splitWords cs).1, isBlank c = false) ∧ ∀ word ∈ (splitWords cs).2, IsWord word := by
  induction cs with
  | nil => exact ⟨List.forall_mem_nil _, List.forall_mem_nil _⟩
  | cons c rest ih =>
      rcases ih with ⟨first, later⟩
      rw [splitWords]
      by_cases blank : isBlank c = true
      · simp only [if_pos blank]
        refine ⟨List.forall_mem_nil _, ?_⟩
        intro word mem
        split at mem
        · exact later word mem
        · next nonempty =>
            rcases List.mem_cons.mp mem with rfl | mem
            · exact ⟨fun none => nonempty (List.isEmpty_iff.mpr none), first⟩
            · exact later word mem
      · simp only [if_neg blank]
        refine ⟨?_, later⟩
        intro d mem
        rcases List.mem_cons.mp mem with rfl | mem
        · exact Bool.eq_false_iff.mpr blank
        · exact first d mem

theorem isWord_of_mem_words {cs word : List Char} (mem : word ∈ words cs) : IsWord word := by
  -- The words of a text are those behind its first word, once a space is put in front.
  have spaced : words cs = (splitWords (' ' :: cs)).2 := rfl
  rw [spaced] at mem
  exact (splitWords_isWord (' ' :: cs)).2 word mem

end Text

namespace Image
namespace Source

/-!
## Names in a text
-/

theorem isPlain_of_declaration {valueKey firstKey secondKey body : List Char} {decl : Declaration}
    (found : declaration? valueKey firstKey secondKey body = some decl) :
    IsPlain (String.ofList decl.name) := by
  unfold declaration? at found
  split at found
  · cases found
  · next name words split =>
      simp only at found
      split at found
      · cases found
      · next plain =>
          cases found
          have isWord : Text.IsWord name :=
            Text.isWord_of_mem_words (split ▸ List.mem_cons_self)
          rw [Bool.or_eq_true, not_or] at plain
          refine ⟨by simpa using isWord.1, ?_⟩
          intro c mem
          rw [String.toList_ofList] at mem
          refine ⟨isWord.2 c mem, ?_⟩
          intro bang
          subst bang
          exact plain.1 (List.contains_iff_mem.mpr mem)

theorem isPlain_of_readClassHeader {body : List Char} {c : ClassDef}
    (read : readClassHeader body = .ok c) : IsPlain c.name := by
  unfold readClassHeader at read
  split at read
  · cases read
  · next decl found =>
      rcases Except.bind_eq_ok_iff.mp read with ⟨sections, -, same⟩
      cases same
      exact isPlain_of_declaration found

theorem isPlain_of_readMethodHeader {body : List Char} {header : MethodDef}
    (read : readMethodHeader body = .ok header) : IsPlain header.name := by
  unfold readMethodHeader at read
  split at read
  · cases read
  · next decl found =>
      rcases Except.bind_eq_ok_iff.mp read with ⟨sections, -, same⟩
      cases same
      exact isPlain_of_declaration found

/-!
## Operands in a text
-/

/-- An operand as it is read is of the kind that an opcode takes; a label takes the place of an
offset. -/
def DraftOperand.Fits (opcode : Opcode) : DraftOperand → Prop
  | .complete operand => operand.kind = opcode.operandKind
  | .label _ => opcode.operandKind = .branch

theorem fits_of_number {α : Type} {opcode : Opcode} {number : Except LineFault α}
    {operandOf : α → OperandDef} {operand : DraftOperand}
    (read : (number >>= fun value => .ok (DraftOperand.complete (operandOf value))) = .ok operand)
    (kind : ∀ value, (operandOf value).kind = opcode.operandKind) : operand.Fits opcode := by
  rcases Except.bind_eq_ok_iff.mp read with ⟨value, -, same⟩
  cases same
  exact kind value

theorem fits_of_readOperand {opcode : Opcode} {text : List Char} {operand : DraftOperand}
    (read : readOperand opcode text = .ok operand) : operand.Fits opcode := by
  unfold readOperand at read
  cases kind : opcode.operandKind with
  | none =>
      simp only [kind] at read
      cases read
  | int =>
      simp only [kind] at read
      exact fits_of_number read fun _ => kind.symm
  | char =>
      simp only [kind] at read
      split at read
      · cases read
      · split at read
        · cases read
        · cases read
          exact kind.symm
        · cases read
  | bool =>
      simp only [kind] at read
      split at read
      · cases read
        exact kind.symm
      · split at read
        · cases read
          exact kind.symm
        · cases read
  | str =>
      simp only [kind] at read
      split at read
      · cases read
      · split at read
        · cases read
        · cases read
          exact kind.symm
  | slot =>
      simp only [kind] at read
      exact fits_of_number read fun _ => kind.symm
  | branch =>
      simp only [kind] at read
      split at read
      · cases read
        exact kind
      · exact fits_of_number read fun _ => kind.symm
  | type =>
      simp only [kind] at read
      exact fits_of_number read fun _ => kind.symm
  | method =>
      simp only [kind] at read
      exact fits_of_number read fun _ => kind.symm
  | field =>
      simp only [kind] at read
      split at read
      · cases read
      · rcases Except.bind_eq_ok_iff.mp read with ⟨owner, -, read⟩
        exact fits_of_number read fun _ => kind.symm

theorem fits_of_readInstruction {line : List Char} {opcode : Opcode} {operand : DraftOperand}
    (read : readInstruction line = .ok (opcode, operand)) : operand.Fits opcode := by
  unfold readInstruction at read
  split at read
  · cases read
  · split at read
    · cases read
    · split at read
      · rcases Except.bind_eq_ok_iff.mp read with ⟨operand, found, same⟩
        cases same
        exact fits_of_readOperand found
      · split at read
        · next kind =>
            cases read
            exact kind.symm
        · cases read

/-!
## Drafts
-/

structure Draft.Plain (draft : Draft) : Prop where
  name : IsPlain draft.header.name
  operands : ∀ insn ∈ draft.code.toList, insn.operand.Fits insn.opcode

structure PlainMethod (method : MethodDef) : Prop where
  name : IsPlain method.name
  operands : method.Fits

theorem Draft.plain_ofHeader {header : MethodDef} (named : IsPlain header.name) :
    (Draft.ofHeader header).Plain := by
  refine ⟨named, ?_⟩
  intro insn mem
  exact absurd mem List.not_mem_nil

theorem Draft.Plain.addLabel {draft after : Draft} (plain : draft.Plain) {label : String}
    (added : draft.addLabel label = .ok after) : after.Plain := by
  unfold Draft.addLabel at added
  split at added
  · cases added
  · cases added
    exact ⟨plain.name, plain.operands⟩

theorem Draft.Plain.addInstruction {draft : Draft} (plain : draft.Plain) {insn : DraftInstruction}
    (fits : insn.operand.Fits insn.opcode) : (draft.addInstruction insn).Plain := by
  refine ⟨plain.name, ?_⟩
  intro other mem
  rw [Draft.addInstruction, Array.toList_push] at mem
  rcases List.mem_append.mp mem with mem | mem
  · exact plain.operands other mem
  · cases List.mem_singleton.mp mem
    exact fits

theorem fits_of_closeInstruction {draft : Draft} {insn : DraftInstruction} {position : Nat}
    {closed : InstructionDef} (fits : insn.operand.Fits insn.opcode)
    (done : draft.closeInstruction insn position = .ok closed) :
    closed.operand.kind = closed.opcode.operandKind := by
  unfold Draft.closeInstruction at done
  split at done
  · next operand complete =>
      cases done
      rw [complete] at fits
      exact fits
  · next label waiting =>
      rw [waiting] at fits
      split at done
      · cases done
      · cases done
        exact Eq.symm fits

theorem Draft.Plain.close {draft : Draft} {method : MethodDef} (plain : draft.Plain)
    (closed : draft.close = .ok method) : PlainMethod method := by
  rcases Except.bind_eq_ok_iff.mp closed with ⟨code, closedAll, same⟩
  cases same
  refine ⟨plain.name, ?_⟩
  intro insn mem
  rcases (Except.mem_iff_of_mapM closedAll).mp mem with ⟨⟨drafted, position⟩, mem', done⟩
  have drafted_mem : drafted ∈ draft.code.toList := List.fst_mem_of_mem_zipIdx mem'
  exact fits_of_closeInstruction (plain.operands drafted drafted_mem) done

/-!
## What has been read
-/

/-- All that has been read of an image can be written. -/
structure Progress.Plain (progress : Progress) : Prop where
  classes : ∀ c, .ofClass c ∈ progress.types.toList → IsPlain c.name
  methods : ∀ method ∈ progress.methods.toList, PlainMethod method
  draft : ∀ draft, progress.draft = some draft → draft.Plain

namespace Progress

variable {progress after : Progress}

theorem plain_start : start.Plain :=
  ⟨nofun, nofun, nofun⟩

theorem Plain.closeDraft (plain : progress.Plain) (closed : progress.closeDraft = .ok after) :
    after.Plain := by
  unfold Progress.closeDraft at closed
  split at closed
  · cases closed
    exact plain
  · next draft drafted =>
      rcases Except.bind_eq_ok_iff.mp closed with ⟨method, done, same⟩
      cases same
      refine ⟨plain.classes, ?_, nofun⟩
      intro other mem
      rw [Array.toList_push] at mem
      rcases List.mem_append.mp mem with mem | mem
      · exact plain.methods other mem
      · cases List.mem_singleton.mp mem
        exact (plain.draft draft drafted).close done

theorem Plain.addType (plain : progress.Plain) {type : TypeDef}
    (named : ∀ c, type = .ofClass c → IsPlain c.name) :
    ({ progress with types := progress.types.push type } : Progress).Plain := by
  refine ⟨?_, plain.methods, plain.draft⟩
  intro c mem
  rw [Array.toList_push] at mem
  rcases List.mem_append.mp mem with mem | mem
  · exact plain.classes c mem
  · exact named c (List.mem_singleton.mp mem).symm

theorem Plain.setDraft (plain : progress.Plain) {draft : Draft} (drafted : draft.Plain) :
    ({ progress with draft := some draft } : Progress).Plain := by
  refine ⟨plain.classes, plain.methods, ?_⟩
  intro other same
  cases same
  exact drafted

theorem Plain.addHeader (plain : progress.Plain) {kind : HeaderKind} {body : List Char}
    (added : progress.addHeader kind body = .ok after) : after.Plain := by
  cases kind with
  | ofClass =>
      rcases Except.bind_eq_ok_iff.mp added with ⟨c, read, same⟩
      cases same
      apply plain.addType
      intro c' same
      cases same
      exact isPlain_of_readClassHeader read
  | ofArray =>
      rcases Except.bind_eq_ok_iff.mp added with ⟨element, read, same⟩
      cases same
      exact plain.addType nofun
  | ofMethod =>
      rcases Except.bind_eq_ok_iff.mp added with ⟨header, read, same⟩
      cases same
      exact plain.setDraft (Draft.plain_ofHeader (isPlain_of_readMethodHeader read))
  | ofMain =>
      unfold Progress.addHeader at added
      simp only at added
      split at added
      · cases added
      · split at added
        · cases added
        · rcases Except.bind_eq_ok_iff.mp added with ⟨main, read, same⟩
          cases same
          exact ⟨plain.classes, plain.methods, plain.draft⟩

theorem Plain.addBody (plain : progress.Plain) {number : Nat} {line : List Char}
    (added : progress.addBody number line = .ok after) : after.Plain := by
  unfold Progress.addBody at added
  split at added
  · cases added
  · next draft drafted =>
      split at added
      · rcases Except.bind_eq_ok_iff.mp added with ⟨labelled, done, same⟩
        cases same
        exact plain.setDraft ((plain.draft draft drafted).addLabel done)
      · rcases Except.bind_eq_ok_iff.mp added with ⟨⟨opcode, operand⟩, read, same⟩
        cases same
        apply plain.setDraft
        exact (plain.draft draft drafted).addInstruction (fits_of_readInstruction read)

theorem Plain.addLine (plain : progress.Plain) {number : Nat} {raw : List Char}
    (added : progress.addLine number raw = .ok after) : after.Plain := by
  unfold Progress.addLine at added
  simp only at added
  split at added
  · cases added
    exact plain
  · split at added
    · rcases Except.bind_eq_ok_iff.mp added with ⟨closed, done, added⟩
      exact (plain.closeDraft done).addHeader (Except.mapError_eq_ok_iff.mp added)
    · exact plain.addBody (Except.mapError_eq_ok_iff.mp added)

theorem Plain.addLines (plain : progress.Plain) {number : Nat} {lines : List (List Char)}
    (added : progress.addLines number lines = .ok after) : after.Plain := by
  induction lines generalizing progress number with
  | nil =>
      cases added
      exact plain
  | cons line rest ih =>
      rcases Except.bind_eq_ok_iff.mp added with ⟨next, first, later⟩
      exact ih (plain.addLine first) later

theorem Plain.finish (plain : progress.Plain) {image : Image}
    (finished : progress.finish = .ok image) : image.Expressible := by
  rcases Except.bind_eq_ok_iff.mp finished with ⟨closed, done, finished⟩
  have plain' := plain.closeDraft done
  split at finished
  · cases finished
  · cases finished
    exact ⟨plain'.classes, fun method mem => (plain'.methods method mem).name,
      fun method mem => (plain'.methods method mem).operands⟩

end Progress

/-- Every image that is read from a text has a text. -/
theorem expressible_of_read {text : List Char} {image : Image} (found : read text = .ok image) :
    image.Expressible := by
  rcases Except.bind_eq_ok_iff.mp found with ⟨progress, ran, finished⟩
  exact (Progress.plain_start.addLines ran).finish finished

end Source

/-!
## Images read from bytes
-/

namespace Binary

variable {α β : Type} {P : α → Prop} {Q : β → Prop}

structure Yields (reader : Reader α) (P : α → Prop) : Prop where
  holds : ∀ {input value rest}, reader input = .ok (value, rest) → P value

theorem yields_done {value : α} (holds : P value) : Yields (done value) P := by
  constructor
  intro input found rest same
  cases same
  exact holds

theorem yields_refuse (fault : ByteFault) : Yields (refuse fault) P := by
  constructor
  intro input found rest same
  cases same

theorem yields_any (reader : Reader α) : Yields reader fun _ => True :=
  ⟨fun _ => trivial⟩

theorem Yields.andThen {first : Reader α} {next : α → Reader β} (head : Yields first P)
    (tail : ∀ a, P a → Yields (next a) Q) : Yields (andThen first next) Q := by
  constructor
  intro input value rest found
  rcases Except.bind_eq_ok_iff.mp found with ⟨⟨a, middle⟩, taken, found'⟩
  exact (tail a (head.holds taken)).holds found'

theorem Yields.mono {reader : Reader α} {P' : α → Prop} (yields : Yields reader P)
    (weaker : ∀ value, P value → P' value) : Yields reader P' :=
  ⟨fun found => weaker _ (yields.holds found)⟩

theorem utf8ByteSize_of_decoded {bytes : Bytes} {text : String}
    (decoded : String.fromUTF8? ⟨bytes.toArray⟩ = some text) :
    text.utf8ByteSize = bytes.length := by
  unfold String.fromUTF8? at decoded
  split at decoded
  · cases decoded
    exact List.size_toArray
  · cases decoded

theorem yields_readBody (length : Nat) :
    Yields (readBody length) fun text => text.utf8ByteSize = length := by
  constructor
  intro input text rest found
  unfold readBody at found
  simp only at found
  split at found
  · cases found
  · next whole =>
      split at found
      · next text' decoded =>
          cases found
          rw [utf8ByteSize_of_decoded decoded]
          exact not_not.mp whole
      · cases found

theorem yields_readText : Yields readText fun text => text.utf8ByteSize < 2 ^ 32 := by
  rw [readText_eq]
  apply (yields_any readWord).andThen
  intro length _
  apply (yields_readBody length.toNat).mono
  intro text size
  rw [size]
  exact length.toNat_lt

theorem Yields.readMany {reader : Reader α} (each : Yields reader P) (count : Nat) :
    Yields (readMany reader count) fun values =>
      values.length = count ∧ ∀ value ∈ values, P value := by
  induction count with
  | zero => exact yields_done ⟨rfl, nofun⟩
  | succ count ih =>
      rw [readMany_succ]
      apply each.andThen
      intro value holds
      apply ih.andThen
      intro values all
      apply yields_done
      refine ⟨congrArg (· + 1) all.1, ?_⟩
      intro other mem
      rcases List.mem_cons.mp mem with rfl | mem
      · exact holds
      · exact all.2 other mem

theorem Yields.readList {reader : Reader α} (each : Yields reader P) :
    Yields (readList reader) fun values =>
      values.length < 2 ^ 32 ∧ ∀ value ∈ values, P value := by
  rw [readList_eq]
  apply (yields_any readWord).andThen
  intro count _
  apply (each.readMany count.toNat).mono
  intro values all
  refine ⟨?_, all.2⟩
  rw [all.1]
  exact count.toNat_lt

theorem yields_readInts : Yields (readList readInt) fun values => values.length < 2 ^ 32 :=
  (yields_any readInt).readList.mono fun _ all => all.1

theorem yields_readClass : Yields readClass ClassDef.Sized := by
  rw [readClass_eq]
  apply yields_readText.andThen
  intro name named
  apply (yields_any readOptionalInt).andThen
  intro base _
  apply yields_readInts.andThen
  intro fields few
  apply yields_readInts.andThen
  intro methods few'
  exact yields_done ⟨named, few, few'⟩

theorem yields_readType : Yields readType TypeDef.Sized := by
  rw [readType_eq]
  apply (yields_any readByte).andThen
  intro tag _
  split
  · apply yields_readClass.andThen
    intro c sized
    exact yields_done sized
  · split
    · apply (yields_any readInt).andThen
      intro element _
      exact yields_done trivial
    · exact yields_refuse _

theorem yields_readOperand (kind : OperandKind) :
    Yields (readOperand kind) fun operand => operand.kind = kind ∧ operand.Sized := by
  cases kind with
  | none => exact yields_done ⟨rfl, trivial⟩
  | int => exact (yields_any readInt).andThen fun _ _ => yields_done ⟨rfl, trivial⟩
  | char =>
      rw [readOperand_char]
      apply (yields_any readWord).andThen
      intro code _
      unfold readScalar
      split
      · exact yields_done ⟨rfl, trivial⟩
      · exact yields_refuse _
  | bool => exact (yields_any readFlag).andThen fun _ _ => yields_done ⟨rfl, trivial⟩
  | str => exact yields_readText.andThen fun _ sized => yields_done ⟨rfl, sized⟩
  | slot => exact (yields_any readWord).andThen fun _ _ => yields_done ⟨rfl, trivial⟩
  | branch => exact (yields_any readInt).andThen fun _ _ => yields_done ⟨rfl, trivial⟩
  | type => exact (yields_any readInt).andThen fun _ _ => yields_done ⟨rfl, trivial⟩
  | method => exact (yields_any readInt).andThen fun _ _ => yields_done ⟨rfl, trivial⟩
  | field =>
      rw [readOperand_field]
      exact (yields_any readInt).andThen fun _ _ =>
        (yields_any readWord).andThen fun _ _ => yields_done ⟨rfl, trivial⟩

theorem yields_readInstruction (method : String) :
    Yields (readInstruction method) fun insn =>
      insn.operand.kind = insn.opcode.operandKind ∧ insn.operand.Sized := by
  rw [readInstruction_eq]
  apply (yields_any readByte).andThen
  intro code _
  unfold readAfterCode
  split
  · exact (yields_readOperand _).andThen fun _ fits => yields_done fits
  · exact yields_refuse _

theorem yields_readMethod : Yields readMethod fun method => method.Fits ∧ method.Sized := by
  rw [readMethod_eq]
  apply yields_readText.andThen
  intro name named
  apply (yields_any readOptionalInt).andThen
  intro returns _
  apply yields_readInts.andThen
  intro params few
  apply yields_readInts.andThen
  intro locals few'
  apply (yields_readInstruction name).readList.andThen
  intro code each
  apply yields_done
  refine ⟨fun insn mem => (each.2 insn mem).1, ?_⟩
  exact ⟨named, few, few', each.1, fun insn mem => (each.2 insn mem).2⟩

theorem yields_readImage : Yields readImage fun image =>
    (∀ method ∈ image.methods, method.Fits) ∧ image.Sized := by
  rw [readImage_eq]
  apply (yields_any readPreamble).andThen
  intro _ _
  apply yields_readType.readList.andThen
  intro types each
  apply yields_readMethod.readList.andThen
  intro methods each'
  apply (yields_any readInt).andThen
  intro main _
  apply yields_done
  refine ⟨fun method mem => (each'.2 method mem).1, ?_⟩
  exact ⟨each.1, each.2, each'.1, fun method mem => (each'.2 method mem).2⟩

/-- Every image that is read from bytes has operands that fit, and lengths of four bytes. -/
theorem fits_of_read {bytes : Bytes} {image : Image} (found : read bytes = .ok image) :
    (∀ method ∈ image.methods, method.Fits) ∧ image.Sized := by
  rcases Except.bind_eq_ok_iff.mp found with ⟨⟨image', rest⟩, taken, same⟩
  cases same
  exact yields_readImage.holds taken

end Binary
end Image
end ObjectMachine
