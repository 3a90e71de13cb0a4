import ObjectMachine.Image.Source.Reader
import ObjectMachine.Proofs.Outcomes

/-!
# Bodies of methods

The lines between the header of a method and the next header are its body. A draft follows the body
line by line: it holds the instructions in their order, and each label with the number of
instructions in front of it. A label may stand behind a branch that names it, so only the whole body
says where that branch leads.
-/

namespace ObjectMachine
namespace Image
namespace Source

/-!
## Lines
-/

inductive Role where
  | silent
  | header (kind : HeaderKind) (body : List Char)
  | label (name : String)
  | instruction (text : List Char)

def Role.isHeader : Role → Bool
  | .header _ _ => true
  | _ => false

def role (raw : List Char) : Role :=
  let line := Text.trim raw
  if line.isEmpty || line.head? = some ';' then
    .silent
  else
    match header? line with
    | some (kind, body) => .header kind body
    | none =>
        match label? line with
        | some name => .label (String.ofList name)
        | none => .instruction line

inductive Adds (progress : Progress) (number : Nat) : Role → Progress → Prop where
  | silent : Adds progress number .silent progress
  | header {kind : HeaderKind} {body : List Char} {closed after : Progress} :
      progress.closeDraft = .ok closed → closed.addHeader kind body = .ok after →
      Adds progress number (.header kind body) after
  | label {draft labelled : Draft} {name : String} : progress.draft = some draft →
      draft.addLabel name = .ok labelled →
      Adds progress number (.label name) { progress with draft := some labelled }
  | instruction {draft : Draft} {text : List Char} {opcode : Opcode} {operand : DraftOperand} :
      progress.draft = some draft → readInstruction text = .ok (opcode, operand) →
      Adds progress number (.instruction text)
        { progress with draft := some (draft.addInstruction ⟨opcode, operand, number⟩) }

theorem addLine_eq_ok_iff {progress after : Progress} {number : Nat} {raw : List Char} :
    progress.addLine number raw = .ok after ↔ Adds progress number (role raw) after := by
  unfold Progress.addLine role
  simp only
  split
  · constructor
    · intro added
      cases added
      exact .silent
    · intro adds
      cases adds
      rfl
  · cases header? (Text.trim raw) with
    | some header =>
        rcases header with ⟨kind, body⟩
        simp only [Except.bind_eq_ok_iff, Except.mapError_eq_ok_iff]
        constructor
        · intro added
          rcases added with ⟨closed, closes, added⟩
          exact .header closes added
        · intro adds
          cases adds with
          | header closes added => exact ⟨_, closes, added⟩
    | none =>
        simp only [Except.mapError_eq_ok_iff]
        unfold Progress.addBody
        cases drafted : progress.draft with
        | none =>
            constructor
            · intro added
              cases added
            · intro adds
              split at adds
              · cases adds with
                | label isOpen _ => rw [drafted] at isOpen; cases isOpen
              · cases adds with
                | instruction isOpen _ => rw [drafted] at isOpen; cases isOpen
        | some draft =>
            cases label? (Text.trim raw) with
            | some name =>
                simp only [Except.bind_eq_ok_iff]
                constructor
                · intro added
                  rcases added with ⟨labelled, done, same⟩
                  cases same
                  exact .label drafted done
                · intro adds
                  cases adds with
                  | label isOpen done =>
                      cases drafted.symm.trans isOpen
                      exact ⟨_, done, rfl⟩
            | none =>
                simp only [Except.bind_eq_ok_iff]
                constructor
                · intro added
                  rcases added with ⟨⟨opcode, operand⟩, read, same⟩
                  cases same
                  exact .instruction drafted read
                · intro adds
                  cases adds with
                  | instruction isOpen read =>
                      cases drafted.symm.trans isOpen
                      exact ⟨_, read, rfl⟩

/-!
## Bodies
-/

def body (lines : List (List Char)) : List (List Char) :=
  lines.takeWhile fun raw => !(role raw).isHeader

theorem body_cons (raw : List Char) (rest : List (List Char)) :
    body (raw :: rest) = if (role raw).isHeader then [] else raw :: body rest := by
  rw [body, List.takeWhile_cons]
  cases (role raw).isHeader with
  | true => rfl
  | false => rfl

theorem body_of_role {raw : List Char} (is : (role raw).isHeader = false)
    (consumed rest : List (List Char)) :
    consumed ++ body (raw :: rest) = consumed ++ [raw] ++ body rest := by
  rw [body_cons, is, if_neg Bool.false_ne_true, List.append_assoc, List.singleton_append]

def methodBodies : List (List Char) → List (List (List Char))
  | [] => []
  | raw :: rest =>
      match role raw with
      | .header .ofMethod _ => body rest :: methodBodies rest
      | _ => methodBodies rest

theorem methodBodies_of_role {raw : List Char} (is : (role raw).isHeader = false)
    (rest : List (List Char)) : methodBodies (raw :: rest) = methodBodies rest := by
  rw [methodBodies]
  cases named : role raw with
  | header kind text =>
      rw [named] at is
      cases is
  | silent => rfl
  | label name => rfl
  | instruction text => rfl

def instructionOn (raw : List Char) : List (List Char) :=
  match role raw with
  | .instruction text => [text]
  | _ => []

def markOn (place : Nat) (raw : List Char) : List (String × Nat) :=
  match role raw with
  | .label name => [(name, place)]
  | _ => []

def instructions (lines : List (List Char)) : List (List Char) :=
  lines.flatMap instructionOn

/-- The labels on lines with a number of instructions in front, each with the number of those in
front of it. -/
def marksFrom (place : Nat) : List (List Char) → List (String × Nat)
  | [] => []
  | raw :: rest => markOn place raw ++ marksFrom (place + (instructionOn raw).length) rest

def marks (body : List (List Char)) : List (String × Nat) :=
  marksFrom 0 body

def labelNames (body : List (List Char)) : List String :=
  (marks body).map Prod.fst

theorem instructions_append (front back : List (List Char)) :
    instructions (front ++ back) = instructions front ++ instructions back :=
  List.flatMap_append

theorem instructions_append_singleton (lines : List (List Char)) (raw : List Char) :
    instructions (lines ++ [raw]) = instructions lines ++ instructionOn raw := by
  rw [instructions, List.flatMap_append, List.flatMap_singleton, instructions]

theorem instructions_cons (raw : List Char) (rest : List (List Char)) :
    instructions (raw :: rest) = instructionOn raw ++ instructions rest :=
  List.flatMap_cons

theorem marksFrom_append (place : Nat) (front back : List (List Char)) :
    marksFrom place (front ++ back) =
      marksFrom place front ++ marksFrom (place + (instructions front).length) back := by
  induction front generalizing place with
  | nil => rfl
  | cons raw rest ih =>
      rw [List.cons_append, marksFrom, ih, marksFrom, List.append_assoc, instructions_cons,
        List.length_append, Nat.add_assoc]

theorem marks_append_singleton (lines : List (List Char)) (raw : List Char) :
    marks (lines ++ [raw]) = marks lines ++ markOn (instructions lines).length raw := by
  rw [marks, marksFrom_append, marksFrom, marksFrom, List.append_nil, Nat.zero_add, marks]

theorem mem_markOn_iff {place target : Nat} {name : String} {raw : List Char} :
    (name, target) ∈ markOn place raw ↔ role raw = .label name ∧ target = place := by
  unfold markOn
  cases role raw with
  | label other => simp [eq_comm]
  | silent => simp
  | header kind body => simp
  | instruction text => simp

theorem mem_marksFrom_iff {place target : Nat} {name : String} {lines : List (List Char)} :
    (name, target) ∈ marksFrom place lines ↔ ∃ front raw back, lines = front ++ raw :: back ∧
      role raw = .label name ∧ target = place + (instructions front).length := by
  constructor
  · intro mem
    induction lines generalizing place with
    | nil => cases mem
    | cons raw rest ih =>
        rcases List.mem_append.mp mem with mem | mem
        · rcases mem_markOn_iff.mp mem with ⟨is, rfl⟩
          exact ⟨[], raw, rest, rfl, is, rfl⟩
        · rcases ih mem with ⟨front, raw', back, rfl, is, rfl⟩
          refine ⟨raw :: front, raw', back, rfl, is, ?_⟩
          rw [instructions_cons, List.length_append, Nat.add_assoc]
  · intro found
    rcases found with ⟨front, raw, back, rfl, is, rfl⟩
    rw [marksFrom_append, List.mem_append]
    exact Or.inr (List.mem_append_left _ (mem_markOn_iff.mpr ⟨is, rfl⟩))

theorem lookup_marks_eq_none_iff {body : List (List Char)} {name : String} :
    (marks body).lookup name = none ↔ name ∉ labelNames body := by
  rw [List.lookup_eq_none_iff, labelNames, List.mem_map]
  constructor
  · intro other mem
    rcases mem with ⟨mark, mem, same⟩
    simpa [same] using other mark mem
  · intro other mark mem
    rw [bne_iff_ne]
    intro same
    exact other ⟨mark, mem, same.symm⟩

theorem mem_of_lookup {marks : List (String × Nat)} {name : String} {target : Nat}
    (found : marks.lookup name = some target) : (name, target) ∈ marks := by
  rcases List.lookup_eq_some_iff.mp found with ⟨front, back, rfl, _⟩
  exact List.mem_append_right _ List.mem_cons_self

/-!
## Drafts
-/

structure Draft.Follows (draft : Draft) (lines : List (List Char)) : Prop where
  code : (instructions lines).map readInstruction =
    draft.code.toList.map fun insn => .ok (insn.opcode, insn.operand)
  position : ∀ name, draft.position? name = (marks lines).lookup name
  distinct : (labelNames lines).Nodup

namespace Draft.Follows

variable {draft labelled : Draft} {lines : List (List Char)} {raw text : List Char} {name : String}
  {opcode : Opcode} {operand : DraftOperand}

theorem length (follows : draft.Follows lines) : (instructions lines).length = draft.code.size := by
  have same := congrArg List.length follows.code
  rwa [List.length_map, List.length_map, Array.length_toList] at same

theorem ofHeader (header : MethodDef) : (Draft.ofHeader header).Follows [] :=
  ⟨rfl, fun _ => rfl, List.nodup_nil⟩

theorem silent (follows : draft.Follows lines) (is : role raw = .silent) :
    draft.Follows (lines ++ [raw]) := by
  have noInstruction : instructionOn raw = [] := by rw [instructionOn, is]
  have noMark : ∀ place, markOn place raw = [] := by intro place; rw [markOn, is]
  refine ⟨?_, ?_, ?_⟩
  · rw [instructions_append_singleton, noInstruction, List.append_nil, follows.code]
  · intro name
    rw [marks_append_singleton, noMark, List.append_nil, follows.position]
  · rw [labelNames, marks_append_singleton, noMark, List.append_nil]
    exact follows.distinct

theorem addLabel (follows : draft.Follows lines) (is : role raw = .label name)
    (added : draft.addLabel name = .ok labelled) : labelled.Follows (lines ++ [raw]) := by
  have noInstruction : instructionOn raw = [] := by rw [instructionOn, is]
  have mark : ∀ place, markOn place raw = [(name, place)] := by intro place; rw [markOn, is]
  unfold Draft.addLabel at added
  split at added
  · cases added
  · next fresh =>
      cases added
      rw [follows.position] at fresh
      refine ⟨?_, ?_, ?_⟩
      · rw [instructions_append_singleton, noInstruction, List.append_nil, follows.code]
      · intro other
        rw [marks_append_singleton, mark, List.lookup_append, ← follows.position, follows.length]
        unfold Draft.position?
        by_cases same : other = name
        · subst same
          have unknown : draft.labels.lookup other = none := (follows.position other).trans fresh
          simp [unknown]
        · have differs : (other == name) = false := by simpa using same
          simp [List.lookup_cons, differs]
      · rw [labelNames, marks_append_singleton, mark, List.map_append, List.nodup_append]
        refine ⟨follows.distinct, List.pairwise_singleton _ _, ?_⟩
        intro other mem other' mem' same
        cases List.mem_singleton.mp mem'
        cases same
        exact lookup_marks_eq_none_iff.mp fresh mem

theorem addInstruction (follows : draft.Follows lines) (is : role raw = .instruction text)
    (read : readInstruction text = .ok (opcode, operand)) (number : Nat) :
    (draft.addInstruction ⟨opcode, operand, number⟩).Follows (lines ++ [raw]) := by
  have instruction : instructionOn raw = [text] := by rw [instructionOn, is]
  have noMark : ∀ place, markOn place raw = [] := by intro place; rw [markOn, is]
  refine ⟨?_, ?_, ?_⟩
  · rw [instructions_append_singleton, instruction, List.map_append, follows.code,
      Draft.addInstruction, Array.toList_push, List.map_append]
    simp [read]
  · intro name
    rw [marks_append_singleton, noMark, List.append_nil]
    exact follows.position name
  · rw [labelNames, marks_append_singleton, noMark, List.append_nil]
    exact follows.distinct

end Draft.Follows

/-!
## Methods
-/

/-- The way from behind the instruction at a place to a label. -/
def offsetTo (marks : List (String × Nat)) (place : Nat) (name : String) : Int :=
  ((marks.lookup name).getD 0 : Nat) - ((place : Int) + 1)

def settle (marks : List (String × Nat)) (place : Nat) : DraftOperand → OperandDef
  | .complete operand => operand
  | .label name => .branch (Int32.ofInt (offsetTo marks place name))

def Draft.settled (draft : Draft) (marks : List (String × Nat)) : List InstructionDef :=
  draft.code.toList.zipIdx.map fun entry => ⟨entry.1.opcode, settle marks entry.2 entry.1.operand⟩

theorem Draft.settled_addInstruction (draft : Draft) (marks : List (String × Nat))
    (insn : DraftInstruction) : (draft.addInstruction insn).settled marks =
      draft.settled marks ++ [⟨insn.opcode, settle marks draft.code.size insn.operand⟩] := by
  simp [settled, addInstruction, List.zipIdx_append]

theorem closeInstruction_eq_ok {draft : Draft} {marks : List (String × Nat)}
    (position : ∀ name, draft.position? name = marks.lookup name) {insn : DraftInstruction}
    {place : Nat} {closed : InstructionDef}
    (done : draft.closeInstruction insn place = .ok closed) :
    closed = ⟨insn.opcode, settle marks place insn.operand⟩ ∧
      ∀ name, insn.operand = .label name → ∃ target, marks.lookup name = some target := by
  unfold Draft.closeInstruction at done
  split at done
  · next operand complete =>
      cases done
      refine ⟨by rw [complete]; rfl, ?_⟩
      intro name waiting
      rw [complete] at waiting
      cases waiting
  · next name waiting =>
      rw [position] at done
      cases found : marks.lookup name with
      | none =>
          rw [found] at done
          cases done
      | some target =>
          rw [found] at done
          cases done
          refine ⟨?_, ?_⟩
          · rw [waiting, settle, offsetTo, found]
            rfl
          · intro other waiting'
            cases waiting.symm.trans waiting'
            exact ⟨target, found⟩

theorem Draft.Follows.close {draft : Draft} {body : List (List Char)} {method : MethodDef}
    (follows : draft.Follows body) (closed : draft.close = .ok method) :
    method = { draft.header with code := draft.settled (marks body) } ∧
      ∀ insn ∈ draft.code.toList, ∀ name, insn.operand = .label name →
        ∃ target, (marks body).lookup name = some target := by
  rcases Except.bind_eq_ok_iff.mp closed with ⟨code, closedAll, same⟩
  cases same
  refine ⟨?_, ?_⟩
  · have settled : code = draft.settled (marks body) := by
      apply Except.eq_map_of_mapM closedAll
      intro entry insn done
      exact (closeInstruction_eq_ok follows.position done).1
    rw [settled]
  · intro insn mem
    rcases List.getElem?_of_mem mem with ⟨place, found⟩
    have entry : (insn, place) ∈ draft.code.toList.zipIdx := by
      apply List.mem_of_getElem? (i := place)
      rw [List.getElem?_zipIdx, found, Option.map_some, Nat.zero_add]
    rcases Except.exists_mapM_iff.mp ⟨code, closedAll⟩ _ entry with ⟨insn', done⟩
    exact (closeInstruction_eq_ok follows.position done).2

/-- A method has the instructions of its body, with every label that an operand names taken from
that body, where it stands once. -/
structure Settles (body : List (List Char)) (method : MethodDef) : Prop where
  distinct : (labelNames body).Nodup
  known : ∀ text ∈ instructions body, ∀ opcode name,
    readInstruction text = .ok (opcode, .label name) → name ∈ labelNames body
  length : method.code.length = (instructions body).length
  code : ∀ (place : Nat) (text : List Char) (opcode : Opcode) (operand : DraftOperand),
    (instructions body)[place]? = some text → readInstruction text = .ok (opcode, operand) →
      method.code[place]? = some (⟨opcode, settle (marks body) place operand⟩ : InstructionDef)

theorem Draft.Follows.getElem? {draft : Draft} {body : List (List Char)}
    (follows : draft.Follows body) {place : Nat} {text : List Char} {opcode : Opcode}
    {operand : DraftOperand} (here : (instructions body)[place]? = some text)
    (read : readInstruction text = .ok (opcode, operand)) :
    ∃ insn, draft.code.toList[place]? = some insn ∧ insn.opcode = opcode ∧
      insn.operand = operand := by
  have drafted := congrArg (·[place]?) follows.code
  simp only [List.getElem?_map, here, Option.map_some, read] at drafted
  rcases Option.map_eq_some_iff.mp drafted.symm with ⟨insn, found, same⟩
  simp only [Except.ok.injEq, Prod.mk.injEq] at same
  exact ⟨insn, found, same⟩

theorem Draft.Follows.settles {draft : Draft} {body : List (List Char)} {method : MethodDef}
    (follows : draft.Follows body) (closed : draft.close = .ok method) : Settles body method := by
  rcases follows.close closed with ⟨rfl, defined⟩
  refine ⟨follows.distinct, ?_, ?_, ?_⟩
  · intro text mem opcode name read
    rcases List.getElem?_of_mem mem with ⟨place, here⟩
    rcases follows.getElem? here read with ⟨insn, found, _, waiting⟩
    rcases defined insn (List.mem_of_getElem? found) name waiting with ⟨target, known⟩
    exact List.mem_map.mpr ⟨_, mem_of_lookup known, rfl⟩
  · rw [follows.length]
    simp [Draft.settled]
  · intro place text opcode operand here read
    rcases follows.getElem? here read with ⟨insn, found, rfl, rfl⟩
    simp only [Draft.settled, List.getElem?_map, List.getElem?_zipIdx, found, Option.map_some,
      Nat.zero_add]

namespace Progress

variable {progress closed after : Progress} {consumed rest : List (List Char)}

def pending (progress : Progress) (body : List (List Char)) : List (List (List Char)) :=
  progress.draft.toList.map fun _ => body

theorem pending_of_draft {draft : Draft} (isOpen : progress.draft = some draft)
    (body : List (List Char)) : progress.pending body = [body] := by
  rw [pending, isOpen]
  rfl

def Follows (progress : Progress) (lines : List (List Char)) : Prop :=
  ∀ draft, progress.draft = some draft → draft.Follows lines

theorem draft_of_closeDraft (closes : progress.closeDraft = .ok closed) : closed.draft = none := by
  unfold closeDraft at closes
  split at closes
  · next none =>
      cases closes
      exact none
  · rcases Except.bind_eq_ok_iff.mp closes with ⟨method, _, same⟩
    cases same
    rfl

theorem Follows.closeDraft (follows : progress.Follows consumed)
    (closes : progress.closeDraft = .ok closed) :
    ∃ later, closed.methods.toList = progress.methods.toList ++ later ∧
      List.Forall₂ Settles (progress.pending consumed) later := by
  unfold Progress.closeDraft at closes
  unfold pending
  split at closes
  · next none =>
      cases closes
      refine ⟨[], (List.append_nil _).symm, ?_⟩
      rw [none]
      exact .nil
  · next draft drafted =>
      rcases Except.bind_eq_ok_iff.mp closes with ⟨method, done, same⟩
      cases same
      refine ⟨[method], Array.toList_push, ?_⟩
      rw [drafted]
      exact .cons ((follows draft drafted).settles done) .nil

/-- Only the header of a method opens one. -/
theorem addHeader_cases {kind : HeaderKind} {body : List Char}
    (added : progress.addHeader kind body = .ok after) :
    after.methods = progress.methods ∧
      ((kind = .ofMethod ∧ ∃ header, after.draft = some (.ofHeader header)) ∨
        (kind ≠ .ofMethod ∧ after.draft = progress.draft)) := by
  cases kind with
  | ofClass =>
      rcases Except.bind_eq_ok_iff.mp added with ⟨c, _, same⟩
      cases same
      exact ⟨rfl, Or.inr ⟨by decide, rfl⟩⟩
  | ofArray =>
      rcases Except.bind_eq_ok_iff.mp added with ⟨element, _, same⟩
      cases same
      exact ⟨rfl, Or.inr ⟨by decide, rfl⟩⟩
  | ofMethod =>
      rcases Except.bind_eq_ok_iff.mp added with ⟨header, _, same⟩
      cases same
      exact ⟨rfl, Or.inl ⟨rfl, header, rfl⟩⟩
  | ofMain =>
      unfold Progress.addHeader at added
      simp only at added
      split at added
      · cases added
      · split at added
        · cases added
        · rcases Except.bind_eq_ok_iff.mp added with ⟨main, _, same⟩
          cases same
          exact ⟨rfl, Or.inr ⟨by decide, rfl⟩⟩

theorem pending_addHeader {kind : HeaderKind} {text raw : List Char}
    (is : role raw = .header kind text) (none : closed.draft = none)
    (added : closed.addHeader kind text = .ok after) (rest : List (List Char)) :
    after.Follows [] ∧
      methodBodies (raw :: rest) = after.pending (body rest) ++ methodBodies rest := by
  rw [methodBodies, is, pending]
  rcases (addHeader_cases added).2 with ⟨rfl, header, opened⟩ | ⟨other, same⟩
  · refine ⟨?_, by rw [opened]; rfl⟩
    intro draft drafted
    cases opened.symm.trans drafted
    exact .ofHeader header
  · rw [none] at same
    refine ⟨?_, ?_⟩
    · intro draft drafted
      rw [same] at drafted
      cases drafted
    · rw [same]
      cases kind with
      | ofMethod => exact absurd rfl other
      | ofClass => rfl
      | ofArray => rfl
      | ofMain => rfl

/-- The methods that are read are those that were complete, the one that is open, and those of the
headers to come, each settled by its body. -/
theorem Follows.settles (follows : progress.Follows consumed) {number : Nat} {image : Image}
    (ran : progress.addLines number rest = .ok after) (finished : after.finish = .ok image) :
    ∃ later, image.methods = progress.methods.toList ++ later ∧
      List.Forall₂ Settles (progress.pending (consumed ++ body rest) ++ methodBodies rest)
        later := by
  induction rest generalizing progress consumed number with
  | nil =>
      cases ran
      rcases Except.bind_eq_ok_iff.mp finished with ⟨closed, closes, finished⟩
      rcases follows.closeDraft closes with ⟨later, methods, settles⟩
      refine ⟨later, ?_, by simpa [body, methodBodies] using settles⟩
      split at finished
      · cases finished
      · cases finished
        exact methods
  | cons raw rest ih =>
      rcases Except.bind_eq_ok_iff.mp ran with ⟨next, added, ran⟩
      have adds := addLine_eq_ok_iff.mp added
      cases is : role raw with
      | silent =>
          have plain : (role raw).isHeader = false := by rw [is]; rfl
          rw [is] at adds
          cases adds
          rw [body_of_role plain, methodBodies_of_role plain]
          exact ih (fun draft drafted => (follows draft drafted).silent is) ran
      | header kind text =>
          rw [is] at adds
          cases adds with
          | @header _ _ closed _ closes added =>
              rcases follows.closeDraft closes with ⟨first, methods, settles⟩
              rcases pending_addHeader is (draft_of_closeDraft closes) added rest with
                ⟨follows', bodies⟩
              rcases ih follows' ran with ⟨later, methods', settles'⟩
              refine ⟨first ++ later, ?_, ?_⟩
              · rw [methods', (addHeader_cases added).1, methods, List.append_assoc]
              · have ended : body (raw :: rest) = [] := by
                  rw [body_cons, is]
                  rfl
                rw [ended, List.append_nil, bodies]
                exact List.rel_append settles settles'
      | label name =>
          have plain : (role raw).isHeader = false := by rw [is]; rfl
          rw [is] at adds
          rw [body_of_role plain, methodBodies_of_role plain]
          cases adds with
          | label isOpen done =>
              rw [pending_of_draft isOpen]
              apply ih _ ran
              intro draft drafted
              cases drafted
              exact (follows _ isOpen).addLabel is done
      | instruction text =>
          have plain : (role raw).isHeader = false := by rw [is]; rfl
          rw [is] at adds
          rw [body_of_role plain, methodBodies_of_role plain]
          cases adds with
          | instruction isOpen read =>
              rw [pending_of_draft isOpen]
              apply ih _ ran
              intro draft drafted
              cases drafted
              exact (follows _ isOpen).addInstruction is read number

end Progress
end Source
end Image
end ObjectMachine
