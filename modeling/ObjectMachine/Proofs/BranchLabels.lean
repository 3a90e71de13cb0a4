import ObjectMachine.Proofs.ReadImages
import Mathlib.Data.List.Nodup

/-!
# Labels and offsets

A branch to a label says the same as a branch with the offset from behind it to the place of the
label. So the labels of a text can be left out: each branch that names one gets the offset in its
place, and the lines of the labels themselves are dropped. The two texts are read side by side, each
method up to the end of its body, and give the same image.
-/

namespace ObjectMachine
namespace Image
namespace Source

/-!
## Texts without labels
-/

def withOperand (raw operand : List Char) : List Char :=
  raw.takeWhile (· ≠ ':') ++ operand ++ (raw.reverse.takeWhile Text.isBlank).reverse

def offsetLine (marks : List (String × Nat)) (place : Nat) (raw text : List Char) : List Char :=
  match readInstruction text with
  | .ok (_, .label name) => withOperand raw (Text.offsetDecimal (offsetTo marks place name))
  | _ => raw

/-- The lines without labels, where the given number of instructions stands in front of them in
their method. -/
def offsetLines (marks : List (String × Nat)) (place : Nat) :
    List (List Char) → List (List Char)
  | [] => []
  | raw :: rest =>
      match role raw with
      | .silent => raw :: offsetLines marks place rest
      | .header _ _ => raw :: offsetLines (Source.marks (body rest)) 0 rest
      | .label _ => offsetLines marks place rest
      | .instruction text => offsetLine marks place raw text :: offsetLines marks (place + 1) rest

def unlabelled (source : List Char) : List (List Char) :=
  offsetLines (marks (body (Text.lines source))) 0 (Text.lines source)

def InRange (offset : Int) : Prop :=
  Int32.minValue.toInt ≤ offset ∧ offset ≤ Int32.maxValue.toInt

theorem InRange.toInt_ofInt {offset : Int} (inRange : InRange offset) :
    (Int32.ofInt offset).toInt = offset :=
  Int32.toInt_ofInt_of_le inRange.1 (Int.lt_of_le_of_lt inRange.2 (by decide))

def OffsetsFit (body : List (List Char)) : Prop :=
  ∀ (place : Nat) (text : List Char) (opcode : Opcode) (name : String),
    (instructions body)[place]? = some text →
    readInstruction text = .ok (opcode, .label name) → InRange (offsetTo (marks body) place name)

/-!
## Lines of branches
-/

theorem readOperand_eq_label {opcode : Opcode} {text : List Char} {name : String}
    (read : readOperand opcode text = .ok (.label name)) :
    opcode.operandKind = .branch ∧ text = ':' :: name.toList := by
  have kind : opcode.operandKind = .branch := fits_of_readOperand read
  refine ⟨kind, ?_⟩
  unfold readOperand at read
  simp only [kind] at read
  split at read
  · cases read
    rw [String.toList_ofList]
  · rcases Except.bind_eq_ok_iff.mp read with ⟨offset, _, same⟩
    cases same

structure NamesLabel (text : List Char) (opcode : Opcode) (name : String)
    (mnemonic gap : List Char) : Prop where
  line : text = mnemonic ++ gap ++ ':' :: name.toList
  nonempty : mnemonic ≠ []
  letters : ∀ c ∈ mnemonic, isMnemonicChar c = true
  spaced : gap ≠ []
  blank : ∀ c ∈ gap, Text.isBlank c = true
  known : Opcode.ofMnemonic? (String.ofList mnemonic) = some opcode
  branch : opcode.operandKind = .branch

theorem readInstruction_eq_label {text : List Char} {opcode : Opcode} {name : String}
    (read : readInstruction text = .ok (opcode, .label name)) :
    ∃ mnemonic gap, NamesLabel text opcode name mnemonic gap := by
  unfold readInstruction at read
  cases found : instruction? text with
  | none =>
      simp only [found] at read
      cases read
  | some parts =>
      rcases parts with ⟨mnemonic, operand⟩
      simp only [found] at read
      split at read
      · cases read
      · next opcode' known =>
          split at read
          · next operand =>
              rcases Except.bind_eq_ok_iff.mp read with ⟨label, named, same⟩
              cases same
              rcases readOperand_eq_label named with ⟨branch, rfl⟩
              rcases instruction?_eq_operand found with
                ⟨gap, text, nonempty, letters, spaced, blank⟩
              exact ⟨mnemonic, gap, text, nonempty, letters, spaced, blank, known, branch⟩
          · split at read
            · cases read
            · cases read

namespace NamesLabel

variable {text raw : List Char} {opcode : Opcode} {name : String} {mnemonic gap : List Char}

theorem readInstruction (names : NamesLabel text opcode name mnemonic gap) (offset : Int32) :
    Source.readInstruction (mnemonic ++ gap ++ Text.offsetDecimal offset.toInt) =
      .ok (opcode, .complete (.branch offset)) := by
  have tight := (Text.isWord_offsetDecimal offset.toInt).tight
  have operand : readOperand opcode (Text.offsetDecimal offset.toInt) =
      .ok (.complete (.branch offset)) := by
    have fits : (OperandDef.branch offset).kind = opcode.operandKind := names.branch.symm
    exact readOperand_operandText fits (by simp)
  simp only [Source.readInstruction, names.known, operand,
    instruction?_spaced names.nonempty names.letters names.spaced names.blank tight]
  rfl

theorem tight_offset (names : NamesLabel text opcode name mnemonic gap) (offset : Int) :
    Text.Tight (mnemonic ++ gap ++ Text.offsetDecimal offset) := by
  have isWord : Text.IsWord mnemonic :=
    ⟨names.nonempty, fun c mem => isBlank_of_isMnemonicChar (names.letters c mem)⟩
  exact isWord.tight.enclose (Text.isWord_offsetDecimal offset).tight gap

theorem withOperand (names : NamesLabel text opcode name mnemonic gap) {lead trail : List Char}
    (tight : Text.Tight text) (blank : ∀ c ∈ lead, Text.isBlank c = true)
    (blank' : ∀ c ∈ trail, Text.isBlank c = true) (operand : List Char) :
    Source.withOperand (lead ++ text ++ trail) operand =
      lead ++ (mnemonic ++ gap ++ operand) ++ trail := by
  have noColon : ∀ c ∈ lead ++ (mnemonic ++ gap), decide (c ≠ ':') = true := by
    intro c mem
    rw [decide_eq_true_iff]
    intro colon
    subst colon
    rcases List.mem_append.mp mem with mem | mem
    · exact absurd (blank _ mem) (by decide)
    · rcases List.mem_append.mp mem with mem | mem
      · exact absurd (names.letters _ mem) (by decide)
      · exact absurd (names.blank _ mem) (by decide)
  have colon : ∀ c ∈ (':' :: (name.toList ++ trail)).head?, decide (c ≠ ':') = false := by
    intro c first
    cases first
    rfl
  have front : (lead ++ text ++ trail).takeWhile (· ≠ ':') = lead ++ (mnemonic ++ gap) := by
    have scanned := (Text.scan_append noColon colon).1
    rw [names.line]
    simpa only [List.append_assoc, List.cons_append] using scanned
  have back : (lead ++ text ++ trail).reverse.takeWhile Text.isBlank = trail.reverse := by
    rw [List.reverse_append, List.reverse_append]
    refine (Text.scan_append ?_ ?_).1
    · intro c mem
      exact blank' c (List.mem_reverse.mp mem)
    · intro c first
      rw [List.head?_append_of_ne_nil _ (by simpa using tight.nonempty),
        List.head?_reverse] at first
      exact tight.back c first
  rw [Source.withOperand, front, back, List.reverse_reverse]
  simp only [List.append_assoc]

end NamesLabel

theorem role_eq_instruction {raw text : List Char} (is : role raw = .instruction text) :
    text = Text.trim raw ∧ Text.Tight text := by
  unfold role at is
  simp only at is
  split at is
  · cases is
  · next spoken =>
      split at is
      · cases is
      · split at is
        · cases is
        · cases is
          refine ⟨rfl, Text.tight_trim ?_⟩
          intro nothing
          rw [nothing] at spoken
          exact spoken rfl

/-- The line that takes the place of an instruction is one with its operand settled. -/
theorem role_offsetLine {raw text : List Char} (is : role raw = .instruction text)
    (marks : List (String × Nat)) (place : Nat) :
    ∃ text', role (offsetLine marks place raw text) = .instruction text' ∧
      ∀ opcode operand, readInstruction text = .ok (opcode, operand) →
        (∀ name, operand = .label name → InRange (offsetTo marks place name)) →
        readInstruction text' = .ok (opcode, .complete (settle marks place operand)) := by
  unfold offsetLine
  split
  · next opcode name read =>
      rcases readInstruction_eq_label read with ⟨mnemonic, gap, names⟩
      rcases role_eq_instruction is with ⟨trimmed, tight⟩
      rcases Text.exists_trim raw with ⟨lead, trail, whole, blank, blank'⟩
      rw [← trimmed] at whole
      refine ⟨mnemonic ++ gap ++ Text.offsetDecimal (offsetTo marks place name), ?_, ?_⟩
      · have trimmed' := (names.tight_offset (offsetTo marks place name)).trim_enclosed blank blank'
        rw [whole, names.withOperand tight blank blank']
        rw [List.append_assoc mnemonic] at trimmed' ⊢
        exact role_of_mnemonic names.nonempty names.letters trimmed'
      · intro opcode' operand read' inRange
        cases read.symm.trans read'
        have readBack := names.readInstruction (Int32.ofInt (offsetTo marks place name))
        rwa [(inRange name rfl).toInt_ofInt] at readBack
  · next other =>
      refine ⟨text, is, ?_⟩
      intro opcode operand read _
      cases operand with
      | complete operand => exact read
      | label name => exact absurd read (other opcode name)

/-!
## Texts side by side
-/

/-- What has been read of a text, the given lines of a body among it, and of the same text without
labels. -/
inductive Alike (whole lines : List (List Char)) (progress : Progress) : Progress → Prop where
  | closed : progress.draft = none → Alike whole lines progress progress
  | opened {draft draft' : Draft} : progress.draft = some draft → draft.Follows lines →
      draft'.header = draft.header → draft'.Holds (draft.settled (marks whole)) →
      Alike whole lines progress { progress with draft := some draft' }

namespace Alike

variable {whole lines consumed rest : List (List Char)} {progress progress' closed after : Progress}
  {number : Nat} {raw text : List Char}

theorem closeDraft (alike : Alike whole whole progress progress')
    (closes : progress.closeDraft = .ok closed) : progress'.closeDraft = .ok closed := by
  cases alike with
  | closed => exact closes
  | @opened draft draft' isOpen follows header holds =>
      unfold Progress.closeDraft at closes ⊢
      rw [isOpen] at closes
      rcases Except.bind_eq_ok_iff.mp closes with ⟨method, done, same⟩
      have done' : draft'.close = .ok method := by
        rw [holds.close, header, (follows.close done).1]
      exact Except.bind_eq_ok_iff.mpr ⟨method, done', same⟩

theorem header (alike : Alike whole whole progress progress') {kind : HeaderKind}
    (is : role raw = .header kind text) (closes : progress.closeDraft = .ok closed)
    (added : closed.addHeader kind text = .ok after) (number' : Nat)
    (whole' : List (List Char)) :
    progress'.addLine number' raw = .ok after ∧ Alike whole' [] after after := by
  refine ⟨addLine_eq_ok_iff.mpr (is.symm ▸ .header (alike.closeDraft closes) added), ?_⟩
  rcases (Progress.addHeader_cases added).2 with ⟨_, header, isOpen⟩ | ⟨_, same⟩
  · have alike : Alike whole' [] after { after with draft := some (.ofHeader header) } :=
      .opened isOpen (.ofHeader header) rfl rfl
    rwa [← isOpen] at alike
  · exact .closed (same.trans (Progress.draft_of_closeDraft closes))

theorem silent (alike : Alike whole lines progress progress') (is : role raw = .silent) :
    Alike whole (lines ++ [raw]) progress progress' := by
  cases alike with
  | closed none => exact .closed none
  | opened isOpen follows header holds => exact .opened isOpen (follows.silent is) header holds

theorem addLabel (alike : Alike whole lines progress progress') {draft labelled : Draft}
    {name : String} (isOpen : progress.draft = some draft) (is : role raw = .label name)
    (added : draft.addLabel name = .ok labelled) :
    Alike whole (lines ++ [raw]) { progress with draft := some labelled } progress' := by
  cases alike with
  | closed none =>
      rw [isOpen] at none
      cases none
  | @opened draft draft' isOpen' follows header holds =>
      cases isOpen.symm.trans isOpen'
      have kept : labelled.header = draft.header ∧ labelled.code = draft.code := by
        unfold Draft.addLabel at added
        split at added
        · cases added
        · cases added
          exact ⟨rfl, rfl⟩
      have alike : Alike whole (lines ++ [raw]) { progress with draft := some labelled }
          { progress with draft := some draft' } := by
        refine .opened rfl (follows.addLabel is added) (header.trans kept.1.symm) ?_
        rw [Draft.settled, kept.2]
        exact holds
      exact alike

theorem addInstruction (alike : Alike whole lines progress progress') {draft : Draft}
    {opcode : Opcode} {operand : DraftOperand} (isOpen : progress.draft = some draft)
    (is : role raw = .instruction text) (read : readInstruction text = .ok (opcode, operand))
    (inRange : ∀ name, operand = .label name →
      InRange (offsetTo (marks whole) (instructions lines).length name)) (number' : Nat) :
    ∃ after', progress'.addLine number'
        (offsetLine (marks whole) (instructions lines).length raw text) = .ok after' ∧
      Alike whole (lines ++ [raw])
        { progress with draft := some (draft.addInstruction ⟨opcode, operand, number⟩) }
        after' := by
  cases alike with
  | closed none =>
      rw [isOpen] at none
      cases none
  | @opened draft draft' isOpen' follows header holds =>
      cases isOpen.symm.trans isOpen'
      rcases role_offsetLine is (marks whole) (instructions lines).length with ⟨text', is', settled⟩
      have read' := settled opcode operand read inRange
      refine ⟨_, addLine_eq_ok_iff.mpr (is'.symm ▸ Adds.instruction rfl read'), ?_⟩
      refine .opened rfl (follows.addInstruction is read number) header ?_
      rw [Draft.settled_addInstruction, ← follows.length]
      exact holds.addInstruction ⟨opcode, settle (marks whole) _ operand⟩ number'

/-- Line by line the text without labels is read as the text with them. -/
theorem run (alike : Alike (consumed ++ body rest) consumed progress progress')
    (fit : ∀ body' ∈ progress.pending (consumed ++ body rest) ++ methodBodies rest,
      OffsetsFit body')
    (ran : progress.addLines number rest = .ok after) {image : Image}
    (finished : after.finish = .ok image) (number' : Nat) :
    ∃ after', progress'.addLines number'
        (offsetLines (marks (consumed ++ body rest)) (instructions consumed).length rest) =
          .ok after' ∧ after'.finish = .ok image := by
  induction rest generalizing consumed progress progress' number number' with
  | nil =>
      cases ran
      rcases Except.bind_eq_ok_iff.mp finished with ⟨closed, closes, named⟩
      refine ⟨progress', rfl, Except.bind_eq_ok_iff.mpr ⟨closed, ?_, named⟩⟩
      rw [body, List.takeWhile_nil, List.append_nil] at alike
      exact alike.closeDraft closes
  | cons raw rest ih =>
      rcases Except.bind_eq_ok_iff.mp ran with ⟨next, added, ran⟩
      have adds := addLine_eq_ok_iff.mp added
      rw [offsetLines]
      cases is : role raw with
      | silent =>
          have plain : (role raw).isHeader = false := by rw [is]; rfl
          have noInstruction : instructionOn raw = [] := by rw [instructionOn, is]
          rw [body_of_role plain] at alike fit ⊢
          rw [methodBodies_of_role plain] at fit
          rw [is] at adds
          cases adds
          rcases ih (alike.silent is) fit ran (number' + 1) with ⟨after', ran', finished'⟩
          rw [instructions_append_singleton, noInstruction, List.append_nil] at ran'
          have added' : progress'.addLine number' raw = .ok progress' :=
            addLine_eq_ok_iff.mpr (is.symm ▸ .silent)
          exact ⟨after', Except.bind_eq_ok_iff.mpr ⟨progress', added', ran'⟩, finished'⟩
      | header kind text =>
          rw [is] at adds
          cases adds with
          | @header _ _ closed _ closes opened =>
              have ended : body (raw :: rest) = [] := by
                rw [body_cons, is]
                rfl
              rw [ended, List.append_nil] at alike
              have none := Progress.draft_of_closeDraft closes
              rw [(Progress.pending_addHeader is none opened rest).2] at fit
              rcases alike.header is closes opened number' ([] ++ body rest) with ⟨added', alike'⟩
              have fit' : ∀ body' ∈ next.pending ([] ++ body rest) ++ methodBodies rest,
                  OffsetsFit body' :=
                fun body' mem => fit body' (List.mem_append_right _ mem)
              rcases ih alike' fit' ran (number' + 1) with ⟨after', ran', finished'⟩
              exact ⟨after', Except.bind_eq_ok_iff.mpr ⟨next, added', ran'⟩, finished'⟩
      | label name =>
          have plain : (role raw).isHeader = false := by rw [is]; rfl
          have noInstruction : instructionOn raw = [] := by rw [instructionOn, is]
          rw [body_of_role plain] at alike fit ⊢
          rw [methodBodies_of_role plain] at fit
          rw [is] at adds
          cases adds with
          | label isOpen done =>
              rw [Progress.pending_of_draft isOpen] at fit
              rcases ih (alike.addLabel isOpen is done) fit ran number' with
                ⟨after', ran', finished'⟩
              rw [instructions_append_singleton, noInstruction, List.append_nil] at ran'
              exact ⟨after', ran', finished'⟩
      | instruction text =>
          have plain : (role raw).isHeader = false := by rw [is]; rfl
          have instruction : instructionOn raw = [text] := by rw [instructionOn, is]
          rw [body_of_role plain] at alike fit ⊢
          rw [methodBodies_of_role plain] at fit
          rw [is] at adds
          cases adds with
          | @instruction draft _ opcode operand isOpen read =>
              rw [Progress.pending_of_draft isOpen] at fit
              have inRange : ∀ name, operand = .label name → InRange
                  (offsetTo (marks (consumed ++ [raw] ++ body rest)) (instructions consumed).length
                    name) := by
                intro name waiting
                subst waiting
                refine fit _ List.mem_cons_self _ text opcode name ?_ read
                rw [instructions_append, instructions_append_singleton, instruction]
                simp
              rcases alike.addInstruction isOpen is read inRange number' with
                ⟨next', added', alike'⟩
              rcases ih alike' fit ran (number' + 1) with ⟨after', ran', finished'⟩
              rw [instructions_append_singleton, instruction, List.length_append] at ran'
              exact ⟨after', Except.bind_eq_ok_iff.mpr ⟨next', added', ran'⟩, finished'⟩

end Alike

/-!
## Whole texts
-/

theorem exists_of_mem_offsetLines {marks : List (String × Nat)} {place : Nat}
    {lines : List (List Char)} {line : List Char} (mem : line ∈ offsetLines marks place lines) :
    ∃ raw ∈ lines, (line = raw ∧ ∀ name, role raw ≠ .label name) ∨
      ∃ marks place text, role raw = .instruction text ∧
        line = offsetLine marks place raw text := by
  induction lines generalizing marks place with
  | nil => cases mem
  | cons raw rest ih =>
      have later : ∀ {marks place}, line ∈ offsetLines marks place rest →
          ∃ raw' ∈ raw :: rest, (line = raw' ∧ ∀ name, role raw' ≠ .label name) ∨
            ∃ marks place text, role raw' = .instruction text ∧
              line = offsetLine marks place raw' text := by
        intro marks place mem
        rcases ih mem with ⟨raw', mem, kept⟩
        exact ⟨raw', List.mem_cons_of_mem _ mem, kept⟩
      rw [offsetLines] at mem
      cases is : role raw with
      | silent =>
          rw [is] at mem
          rcases List.mem_cons.mp mem with rfl | mem
          · exact ⟨line, List.mem_cons_self, Or.inl ⟨rfl, by simp [is]⟩⟩
          · exact later mem
      | header kind text =>
          rw [is] at mem
          rcases List.mem_cons.mp mem with rfl | mem
          · exact ⟨line, List.mem_cons_self, Or.inl ⟨rfl, by simp [is]⟩⟩
          · exact later mem
      | label name =>
          rw [is] at mem
          exact later mem
      | instruction text =>
          rw [is] at mem
          rcases List.mem_cons.mp mem with rfl | mem
          · exact ⟨raw, List.mem_cons_self, Or.inr ⟨marks, place, text, is, rfl⟩⟩
          · exact later mem

theorem role_of_mem_unlabelled {source line : List Char} (mem : line ∈ unlabelled source)
    (name : String) : role line ≠ .label name := by
  rcases exists_of_mem_offsetLines mem with ⟨raw, _, ⟨rfl, other⟩ | ⟨marks, place, text, is, rfl⟩⟩
  · exact other name
  · rcases role_offsetLine is marks place with ⟨text', is', _⟩
    rw [is']
    exact nofun

theorem newline_not_mem_offsetLine {marks : List (String × Nat)} {place : Nat}
    {raw text : List Char} (whole : '\n' ∉ raw) : '\n' ∉ offsetLine marks place raw text := by
  unfold offsetLine
  split
  · next name _ =>
      intro mem
      rcases List.mem_append.mp mem with mem | mem
      · rcases List.mem_append.mp mem with mem | mem
        · exact whole ((List.takeWhile_sublist _).mem mem)
        · exact (Text.isWord_offsetDecimal _).newline_not_mem mem
      · have mem' := (List.takeWhile_sublist _).mem (List.mem_reverse.mp mem)
        exact whole (List.mem_reverse.mp mem')
  · exact whole

theorem lines_unlabelled (source : List Char) :
    Text.lines (joinLines (unlabelled source)) = unlabelled source := by
  apply lines_joinLines
  intro line mem
  rcases exists_of_mem_offsetLines mem with ⟨raw, kept, ⟨rfl, _⟩ | ⟨marks, place, text, _, rfl⟩⟩
  · exact Text.newline_not_mem_lines kept
  · exact newline_not_mem_offsetLine (Text.newline_not_mem_lines kept)

theorem settles_of_read {source : List Char} {image : Image} (done : read source = .ok image) :
    List.Forall₂ Settles (methodBodies (Text.lines source)) image.methods := by
  rcases Except.bind_eq_ok_iff.mp done with ⟨after, ran, finished⟩
  have follows : Progress.start.Follows [] := nofun
  rcases follows.settles ran finished with ⟨later, methods, settles⟩
  have all : image.methods = later := methods
  rw [all]
  exact settles

/-- Any text with the lines of one without its labels is read as the same image. -/
theorem read_unlabelled {source text : List Char} {image : Image} (done : read source = .ok image)
    (fit : ∀ body ∈ methodBodies (Text.lines source), OffsetsFit body)
    (lines : Text.lines text = unlabelled source) : read text = .ok image := by
  rcases Except.bind_eq_ok_iff.mp done with ⟨after, ran, finished⟩
  have alike : Alike ([] ++ body (Text.lines source)) [] Progress.start Progress.start :=
    .closed rfl
  rcases alike.run fit ran finished 1 with ⟨after', ran', finished'⟩
  refine Except.bind_eq_ok_iff.mpr ⟨after', ?_, finished'⟩
  rw [lines]
  exact ran'

/-!
## Branches
-/

/-- A method has the instructions of its body, where each label stands on one line, and a branch to
a label has the way from behind the branch to that line as its offset. -/
structure Placed (body : List (List Char)) (method : MethodDef) : Prop where
  distinct : (labelNames body).Nodup
  length : method.code.length = (instructions body).length
  plain : ∀ (place : Nat) (text : List Char) (opcode : Opcode) (operand : OperandDef),
    (instructions body)[place]? = some text →
    readInstruction text = .ok (opcode, .complete operand) →
      method.code[place]? = some ⟨opcode, operand⟩
  known : ∀ text ∈ instructions body, ∀ opcode name,
    readInstruction text = .ok (opcode, .label name) →
      ∃ front line back, body = front ++ line :: back ∧ role line = .label name
  branch : ∀ (place : Nat) (text : List Char) (opcode : Opcode) (name : String),
    (instructions body)[place]? = some text →
    readInstruction text = .ok (opcode, .label name) →
    ∀ front line back, body = front ++ line :: back → role line = .label name →
      ∃ offset : Int32, offset.toInt = (instructions front).length - ((place : Int) + 1) ∧
        method.code[place]? = some ⟨opcode, .branch offset⟩

theorem lookup_marks {body : List (List Char)} (distinct : (labelNames body).Nodup) {name : String}
    {target : Nat} (mem : (name, target) ∈ marks body) :
    (marks body).lookup name = some target := by
  cases found : (marks body).lookup name with
  | none =>
      exact absurd (List.mem_map.mpr ⟨_, mem, rfl⟩) (lookup_marks_eq_none_iff.mp found)
  | some other =>
      have same := List.inj_on_of_nodup_map distinct (mem_of_lookup found) mem rfl
      cases same
      rfl

theorem Settles.placed {body : List (List Char)} {method : MethodDef}
    (settles : Settles body method) (fit : OffsetsFit body) : Placed body method := by
  refine ⟨settles.distinct, settles.length, ?_, ?_, ?_⟩
  · intro place text opcode operand here read
    exact settles.code place text opcode (.complete operand) here read
  · intro text mem opcode name read
    rcases List.mem_map.mp (settles.known text mem opcode name read) with ⟨⟨_, target⟩, mark, rfl⟩
    rcases mem_marksFrom_iff.mp mark with ⟨front, line, back, split, is, _⟩
    exact ⟨front, line, back, split, is⟩
  · intro place text opcode name here read front line back split is
    have mark : (name, (instructions front).length) ∈ marks body :=
      mem_marksFrom_iff.mpr ⟨front, line, back, split, is, (Nat.zero_add _).symm⟩
    have way : offsetTo (marks body) place name =
        (instructions front).length - ((place : Int) + 1) := by
      rw [offsetTo, lookup_marks settles.distinct mark]
      rfl
    refine ⟨Int32.ofInt (offsetTo (marks body) place name), ?_,
      settles.code place text opcode (.label name) here read⟩
    rw [(fit place text opcode name here read).toInt_ofInt, way]

/-- The reader has no method for such a body: a label stands on two of its lines, or an instruction
names one that stands on none. -/
def Mislabelled (body : List (List Char)) : Prop :=
  ¬ (labelNames body).Nodup ∨ ∃ text ∈ instructions body, ∃ opcode name,
    readInstruction text = .ok (opcode, .label name) ∧ name ∉ labelNames body

theorem Settles.not_mislabelled {body : List (List Char)} {method : MethodDef}
    (settles : Settles body method) : ¬ Mislabelled body := by
  intro mislabelled
  rcases mislabelled with repeated | ⟨text, mem, opcode, name, read, unknown⟩
  · exact repeated settles.distinct
  · exact unknown (settles.known text mem opcode name read)

theorem error_of_mislabelled {source : List Char} {body : List (List Char)}
    (mem : body ∈ methodBodies (Text.lines source)) (mislabelled : Mislabelled body) :
    ∃ fault, read source = .error fault := by
  cases done : read source with
  | error fault => exact ⟨fault, rfl⟩
  | ok image =>
      have labelled := (settles_of_read done).imp fun _ _ settles =>
        And.intro settles.not_mislabelled settles
      exact absurd mislabelled (((List.forall₂_and_left _ _).mp labelled).1 body mem)

/-!
No label of a text is out of reach, unless the text is longer than any offset.
-/

theorem length_instructions_le (lines : List (List Char)) :
    (instructions lines).length ≤ lines.length := by
  induction lines with
  | nil => exact le_rfl
  | cons raw rest ih =>
      have one : (instructionOn raw).length ≤ 1 := by
        unfold instructionOn
        split
        · exact le_rfl
        · exact Nat.zero_le 1
      rw [instructions_cons, List.length_append, List.length_cons]
      omega

theorem length_le_of_mem_methodBodies {lines body : List (List Char)}
    (mem : body ∈ methodBodies lines) : body.length ≤ lines.length := by
  induction lines with
  | nil => cases mem
  | cons raw rest ih =>
      rw [List.length_cons]
      rw [methodBodies] at mem
      split at mem
      · rcases List.mem_cons.mp mem with rfl | mem
        · exact Nat.le_succ_of_le (List.takeWhile_sublist _).length_le
        · exact Nat.le_succ_of_le (ih mem)
      · exact Nat.le_succ_of_le (ih mem)

theorem getD_lookup_marks_le (body : List (List Char)) (name : String) :
    ((marks body).lookup name).getD 0 ≤ body.length := by
  cases found : (marks body).lookup name with
  | none => exact Nat.zero_le _
  | some target =>
      rcases mem_marksFrom_iff.mp (mem_of_lookup found) with ⟨front, line, back, rfl, _, rfl⟩
      have instructions_le := length_instructions_le front
      rw [List.length_append]
      simp only [Option.getD_some]
      omega

theorem offsetsFit_of_length {lines body : List (List Char)} (short : lines.length < 2 ^ 31)
    (mem : body ∈ methodBodies lines) : OffsetsFit body := by
  intro place text opcode name here _
  have inside : place < (instructions body).length := (List.getElem?_eq_some_iff.mp here).1
  have instructions_le := length_instructions_le body
  have body_le := length_le_of_mem_methodBodies mem
  have target_le := getD_lookup_marks_le body name
  have least : Int32.minValue.toInt = -2 ^ 31 := rfl
  have greatest : Int32.maxValue.toInt = 2 ^ 31 - 1 := rfl
  rw [InRange, offsetTo, least, greatest]
  omega

/-- Labels are offsets. In the image of a text each branch to a label leads to the line of that
label in its method, and a text without the labels, with the offsets in their place, has the same
image. A text is refused if a label stands twice in a method or stands in none where a branch names
it. -/
theorem read_labels (source : List Char) :
    (∀ image, read source = .ok image →
      (∀ body ∈ methodBodies (Text.lines source), OffsetsFit body) →
        List.Forall₂ Placed (methodBodies (Text.lines source)) image.methods ∧
        (∀ raw ∈ unlabelled source, ∀ name, role raw ≠ .label name) ∧
        read (joinLines (unlabelled source)) = .ok image ∧
        ∀ text, Text.lines text = unlabelled source → read text = .ok image) ∧
      ((∃ body ∈ methodBodies (Text.lines source), Mislabelled body) →
        ∃ fault, read source = .error fault ∧
          ofTextBytes (String.ofList source).toUTF8.toList = .error (.image fault)) := by
  constructor
  · intro image done fit
    refine ⟨?_, ?_, read_unlabelled done fit (lines_unlabelled source), ?_⟩
    · have settles := (List.forall₂_and_left _ _).mpr ⟨fit, settles_of_read done⟩
      exact settles.imp fun _ _ both => both.2.placed both.1
    · intro raw mem name
      exact role_of_mem_unlabelled mem name
    · intro text lines
      exact read_unlabelled done fit lines
  · intro found
    rcases found with ⟨body, mem, mislabelled⟩
    rcases error_of_mislabelled mem mislabelled with ⟨fault, refused⟩
    refine ⟨fault, refused, ?_⟩
    rw [ofTextBytes_toUTF8, refused]
    rfl

/-- A text with labels in front of and behind their branches, two at one place, and one name in two
methods. -/
def loopText : List Char :=
  ("!Method: count!\n:top\n\tldc_b true\n\tbrtrue :end\n; once more\n  br  :top \n:out\n:end\n" ++
    "!Method: main!\n\tbr :end\n\tpop\n:end\n\tret\n!Main: 1!").toList

def loopImage : Image where
  types := []
  methods :=
    [⟨"count", none, [], [], [⟨.ldcB, .bool true⟩, ⟨.brtrue, .branch 1⟩, ⟨.br, .branch (-3)⟩]⟩,
      ⟨"main", none, [], [], [⟨.br, .branch 1⟩, ⟨.pop, .none⟩, ⟨.ret, .none⟩]⟩]
  main := 1

def strayText : List Char :=
  "!Method: count!\n:top\n!Method: main!\n\tbr :top\n!Main: 1!".toList

theorem read_loopText : read loopText = .ok loopImage := by
  decide +kernel

theorem read_labels_loopText :
    List.Forall₂ Placed (methodBodies (Text.lines loopText)) loopImage.methods ∧
      read (joinLines (unlabelled loopText)) = .ok loopImage ∧
        ∃ fault, read strayText = .error fault := by
  have short : (Text.lines loopText).length < 2 ^ 31 := by decide +kernel
  rcases read_labels loopText with ⟨accepted, -⟩
  rcases read_labels strayText with ⟨-, refused⟩
  rcases accepted _ read_loopText fun _ mem => offsetsFit_of_length short mem with
    ⟨placed, -, same, -⟩
  refine ⟨placed, same, ?_⟩
  have stray : ∃ body ∈ methodBodies (Text.lines strayText), Mislabelled body := by
    refine ⟨["\tbr :top".toList], by decide +kernel, Or.inr ⟨"br :top".toList, ?_, .br, "top", ?_⟩⟩
    · decide +kernel
    · decide +kernel
  rcases refused stray with ⟨fault, unread, -⟩
  exact ⟨fault, unread⟩

end Source
end Image
end ObjectMachine
