import ObjectMachine.Image.Load
import ObjectMachine.Proofs.Outcomes

/-!
# Readers that know where they end

A reader takes a value from the front of its input. It is self-delimiting if the bytes that it took
make up the value whatever follows them, and if no shorter part of them is enough: a part is refused
because it ends too early, and for no other reason. Whatever it refuses, it refuses for a fault of
the image.

Numbers and texts are read by self-delimiting readers, and readers that are put one after the other,
as often as a number says, are self-delimiting again. So binary images are self-delimiting.
-/

namespace ObjectMachine

def ImageFault.IsShort (fault : ImageFault) : Prop :=
  fault = .undecodable IoFault.unfilled.message ∨ fault = .bytes .shortText

namespace Image
namespace Binary

variable {α β : Type}

/-- A reader finds a value in front of anything. -/
def Reads (reader : Reader α) (bytes : Bytes) (value : α) : Prop :=
  ∀ rest, reader (bytes ++ rest) = .ok (value, rest)

/-- A reader finds a value in some bytes, and finds that it has too few in a part of them. -/
structure Delimits (reader : Reader α) (bytes : Bytes) (value : α) : Prop where
  reads : Reads reader bytes value
  short : ∀ part missing, bytes = part ++ missing → missing ≠ [] →
    ∃ fault, reader part = .error (.image fault) ∧ fault.IsShort

/-- What a reader takes from its input is delimited, and what it refuses is a faulty image. -/
structure SelfDelimiting (reader : Reader α) : Prop where
  delimits : ∀ {input value rest}, reader input = .ok (value, rest) →
    ∃ bytes, input = bytes ++ rest ∧ Delimits reader bytes value
  faulty : ∀ {input e}, reader input = .error e → ∃ fault, e = .image fault

/-!
## Readers one after the other
-/

def done (value : α) : Reader α := fun input => .ok (value, input)

def refuse (fault : ByteFault) : Reader α := fun _ => .error (malformed fault)

def andThen (first : Reader α) (next : α → Reader β) : Reader β := fun input => do
  let (value, rest) ← first input
  next value rest

theorem andThen_of_ok {first : Reader α} {next : α → Reader β} {input rest : Bytes} {value : α}
    (found : first input = .ok (value, rest)) : andThen first next input = next value rest := by
  rw [andThen, found]
  rfl

theorem andThen_of_error {first : Reader α} {next : α → Reader β} {input : Bytes} {e : Error}
    (refused : first input = .error e) : andThen first next input = .error e := by
  rw [andThen, refused]
  rfl

theorem reads_done (value : α) : Reads (done value) [] value :=
  fun _ => rfl

theorem Reads.andThen {first : Reader α} {next : α → Reader β} {bytes more : Bytes} {a : α} {b : β}
    (head : Reads first bytes a) (tail : Reads (next a) more b) :
    Reads (andThen first next) (bytes ++ more) b := by
  intro rest
  rw [List.append_assoc, andThen_of_ok (head (more ++ rest))]
  exact tail rest

theorem Reads.map {reader : Reader α} {bytes : Bytes} {a : α} (reads : Reads reader bytes a)
    (f : α → β) : Reads (Binary.andThen reader fun value => done (f value)) bytes (f a) := by
  intro rest
  rw [andThen_of_ok (reads rest)]
  rfl

theorem selfDelimiting_done (value : α) : SelfDelimiting (done value) := by
  constructor
  · intro input found rest same
    cases same
    refine ⟨[], rfl, reads_done value, ?_⟩
    intro part missing whole more
    exact absurd (List.nil_eq_append_iff.mp whole).2 more
  · intro input e refused
    cases refused

theorem selfDelimiting_refuse (fault : ByteFault) :
    SelfDelimiting (refuse fault : Reader α) := by
  constructor
  · intro input value rest same
    cases same
  · intro input e refused
    cases refused
    exact ⟨_, rfl⟩

theorem Delimits.andThen {first : Reader α} {next : α → Reader β} {bytes more : Bytes} {a : α}
    {b : β} (head : Delimits first bytes a) (tail : Delimits (next a) more b) :
    Delimits (andThen first next) (bytes ++ more) b := by
  refine ⟨head.reads.andThen tail.reads, ?_⟩
  intro part missing whole lacking
  -- The part ends in the bytes of the first reader or in those of the second.
  rcases List.append_eq_append_iff.mp whole with ⟨front, rfl, split⟩ | ⟨back, split, rfl⟩
  · rcases tail.short front missing split lacking with ⟨fault, refused, short⟩
    exact ⟨fault, by rw [andThen_of_ok (head.reads front)]; exact refused, short⟩
  · by_cases none : back = []
    · subst none
      rw [List.append_nil] at split
      rw [List.nil_append] at lacking
      subst split
      rcases tail.short [] more rfl lacking with ⟨fault, refused, short⟩
      have found : first bytes = .ok (a, []) := by
        simpa using head.reads []
      exact ⟨fault, by rw [andThen_of_ok found]; exact refused, short⟩
    · rcases head.short part back split none with ⟨fault, refused, short⟩
      exact ⟨fault, andThen_of_error refused, short⟩

theorem SelfDelimiting.andThen {first : Reader α} {next : α → Reader β}
    (head : SelfDelimiting first) (tail : ∀ a, SelfDelimiting (next a)) :
    SelfDelimiting (andThen first next) := by
  constructor
  · intro input value rest found
    rcases Except.bind_eq_ok_iff.mp found with ⟨⟨a, middle⟩, taken, found'⟩
    rcases head.delimits taken with ⟨bytes, rfl, delimits⟩
    rcases (tail a).delimits found' with ⟨more, rfl, delimits'⟩
    exact ⟨bytes ++ more, (List.append_assoc _ _ _).symm, delimits.andThen delimits'⟩
  · intro input e refused
    cases outcome : first input with
    | error e' =>
        rw [andThen_of_error outcome] at refused
        cases refused
        exact head.faulty outcome
    | ok result =>
        rw [andThen_of_ok outcome] at refused
        exact (tail result.1).faulty refused

theorem SelfDelimiting.map {reader : Reader α} (each : SelfDelimiting reader) (f : α → β) :
    SelfDelimiting (Binary.andThen reader fun value => done (f value)) :=
  each.andThen fun value => selfDelimiting_done (f value)

/-!
## The readers of images

Each reader of a part of an image is made of the readers of its parts.
-/

theorem eq_andThen {reader : Reader β} {first : Reader α} {next : α → Reader β}
    (refused : ∀ input e, first input = .error e → reader input = .error e)
    (found : ∀ input value rest, first input = .ok (value, rest) →
      reader input = next value rest) : reader = andThen first next := by
  funext input
  cases outcome : first input with
  | error e => rw [andThen_of_error outcome, refused input e outcome]
  | ok result => rw [andThen_of_ok outcome, found input _ _ outcome]

theorem readInt_eq : readInt = andThen readWord fun word => done word.toInt32 := rfl

theorem readFlag_eq : readFlag = andThen readByte fun b =>
    if b = 0 then done false else if b = 1 then done true else refuse (.badFlag b) := by
  apply eq_andThen
  · intro input e outcome
    rw [readFlag, outcome]
    rfl
  · intro input b rest outcome
    rw [readFlag, outcome, ite_apply, ite_apply]
    rfl

theorem readOptionalInt_eq : readOptionalInt = andThen readFlag fun present =>
    andThen readInt fun index => done (if present then some index else none) := rfl

def readBody (length : Nat) : Reader String := fun input =>
  let body := input.take length
  if body.length ≠ length then
    .error (malformed .shortText)
  else
    match String.fromUTF8? ⟨body.toArray⟩ with
    | some text => .ok (text, input.drop length)
    | none => .error (malformed .textNotUtf8)

theorem readText_eq : readText = andThen readWord fun length => readBody length.toNat := rfl

theorem readMany_succ (reader : Reader α) (count : Nat) :
    readMany reader (count + 1) = andThen reader fun value =>
      andThen (readMany reader count) fun values => done (value :: values) := rfl

theorem readList_eq (reader : Reader α) :
    readList reader = andThen readWord fun count => readMany reader count.toNat := rfl

theorem readClass_eq : readClass = andThen readText fun name => andThen readOptionalInt fun base =>
    andThen (readList readInt) fun fields => andThen (readList readInt) fun methods =>
      done { name, base, fields, methods } := rfl

theorem readType_eq : readType = andThen readByte fun tag =>
    if tag = classTag then andThen readClass fun c => done (.ofClass c)
    else if tag = arrayTag then andThen readInt fun element => done (.ofArray element)
    else refuse (.unknownTypeKind tag) := by
  apply eq_andThen
  · intro input e outcome
    rw [readType, outcome]
    rfl
  · intro input tag rest outcome
    rw [readType, outcome, ite_apply, ite_apply]
    rfl

def readScalar (code : UInt32) : Reader OperandDef :=
  match Word.toChar? code with
  | some c => done (.char c)
  | none => refuse (.badChar code.toNat)

theorem readOperand_char : readOperand .char = andThen readWord readScalar := by
  apply eq_andThen
  · intro input e outcome
    rw [readOperand, outcome]
    rfl
  · intro input code rest outcome
    simp only [readOperand, outcome, bind, Except.bind, readScalar]
    cases Word.toChar? code <;> rfl

theorem readOperand_field : readOperand .field = andThen readInt fun owner =>
    andThen readWord fun index => done (.field owner index) := rfl

def readAfterCode (method : String) (code : UInt8) : Reader InstructionDef :=
  match Opcode.ofCode? code with
  | some opcode => andThen (readOperand opcode.operandKind) fun operand => done { opcode, operand }
  | none => refuse (.unknownOpcode code method)

theorem readInstruction_eq (method : String) :
    readInstruction method = andThen readByte (readAfterCode method) := by
  apply eq_andThen
  · intro input e outcome
    rw [readInstruction, outcome]
    rfl
  · intro input code rest outcome
    simp only [readInstruction, outcome, bind, Except.bind, readAfterCode]
    cases Opcode.ofCode? code <;> rfl

theorem readMethod_eq : readMethod = andThen readText fun name =>
    andThen readOptionalInt fun returns => andThen (readList readInt) fun params =>
      andThen (readList readInt) fun locals => andThen (readList (readInstruction name)) fun code =>
        done { name, returns, params, locals, code } := rfl

def readMagic : Reader Unit := fun input =>
  if input.length < magic.length then
    .error unfilled
  else if input.take magic.length ≠ magic then
    .error (malformed .badMagic)
  else
    .ok ((), input.drop magic.length)

theorem readPreamble_eq : readPreamble = andThen readMagic fun _ => andThen readHalf fun found =>
    if found = version then done () else refuse (.unsupportedVersion found) := by
  funext input
  unfold readPreamble
  by_cases few : input.length < magic.length
  · rw [if_pos few, andThen_of_error (if_pos few)]
  · by_cases other : input.take magic.length ≠ magic
    · have refused : readMagic input = .error (malformed .badMagic) :=
        (if_neg few).trans (if_pos other)
      rw [if_neg few, if_pos other, andThen_of_error refused]
    · have found : readMagic input = .ok ((), input.drop magic.length) :=
        (if_neg few).trans (if_neg other)
      rw [if_neg few, if_neg other, andThen_of_ok found]
      cases outcome : readHalf (input.drop magic.length) with
      | error e =>
          rw [andThen_of_error outcome]
          rfl
      | ok result =>
          rw [andThen_of_ok outcome, ite_apply]
          rfl

theorem readImage_eq : readImage = andThen readPreamble fun _ =>
    andThen (readList readType) fun types => andThen (readList readMethod) fun methods =>
      andThen readInt fun main => done { types, methods, main } := rfl

/-!
## Numbers, texts and lists
-/

theorem selfDelimiting_of_width {reader : Reader α} (width : Nat) (fault : ImageFault)
    (short : fault.IsShort)
    (few : ∀ input, input.length < width → reader input = .error (.image fault))
    (enough : ∀ bytes, bytes.length = width → (∃ value, Reads reader bytes value) ∨
      ∃ fault, ∀ rest, reader (bytes ++ rest) = .error (malformed fault)) :
    SelfDelimiting reader := by
  have outcomes : ∀ input, reader input = .error (.image fault) ∨
      (∃ value, width ≤ input.length ∧ Reads reader (input.take width) value) ∨
      ∃ fault, reader input = .error (malformed fault) := by
    intro input
    by_cases length : input.length < width
    · exact Or.inl (few input length)
    · have enough' := enough _ (List.length_take_of_le (Nat.le_of_not_lt length))
      rcases enough' with ⟨value, reads⟩ | ⟨fault', refused⟩
      · exact Or.inr (Or.inl ⟨value, Nat.le_of_not_lt length, reads⟩)
      · have refused' := refused (input.drop width)
        rw [List.take_append_drop] at refused'
        exact Or.inr (Or.inr ⟨fault', refused'⟩)
  constructor
  · intro input value rest found
    rcases outcomes input with refused | ⟨value', length, reads⟩ | ⟨fault', refused⟩
    · rw [refused] at found
      cases found
    · have found' := reads (input.drop width)
      rw [List.take_append_drop, found] at found'
      cases found'
      refine ⟨input.take width, (List.take_append_drop width input).symm, reads, ?_⟩
      intro part missing whole lacking
      refine ⟨fault, few part ?_, short⟩
      have total := congrArg List.length whole
      have positive := List.length_pos_iff.mpr lacking
      rw [List.length_take_of_le length, List.length_append] at total
      omega
    · rw [refused] at found
      cases found
  · intro input e refused
    rcases outcomes input with refused' | ⟨value, -, reads⟩ | ⟨fault', refused'⟩
    · rw [refused'] at refused
      cases refused
      exact ⟨fault, rfl⟩
    · have found := reads (input.drop width)
      rw [List.take_append_drop, refused] at found
      cases found
    · rw [refused'] at refused
      cases refused
      exact ⟨_, rfl⟩

theorem selfDelimiting_of_unfilled {reader : Reader α} (width : Nat)
    (few : ∀ input, input.length < width → reader input = .error unfilled)
    (enough : ∀ bytes, bytes.length = width → (∃ value, Reads reader bytes value) ∨
      ∃ fault, ∀ rest, reader (bytes ++ rest) = .error (malformed fault)) :
    SelfDelimiting reader :=
  selfDelimiting_of_width width (.undecodable IoFault.unfilled.message) (Or.inl rfl) few enough

theorem selfDelimiting_readByte : SelfDelimiting readByte := by
  apply selfDelimiting_of_unfilled 1
  · intro input few
    match input, few with
    | [], _ => rfl
  · intro bytes length
    match bytes, length with
    | [b], _ => exact Or.inl ⟨b, fun _ => rfl⟩

theorem selfDelimiting_readHalf : SelfDelimiting readHalf := by
  apply selfDelimiting_of_unfilled 2
  · intro input few
    match input, few with
    | [], _ => rfl
    | [_], _ => rfl
  · intro bytes length
    match bytes, length with
    | [_, _], _ => exact Or.inl ⟨_, fun _ => rfl⟩

theorem selfDelimiting_readWord : SelfDelimiting readWord := by
  apply selfDelimiting_of_unfilled 4
  · intro input few
    match input, few with
    | [], _ => rfl
    | [_], _ => rfl
    | [_, _], _ => rfl
    | [_, _, _], _ => rfl
  · intro bytes length
    match bytes, length with
    | [_, _, _, _], _ => exact Or.inl ⟨_, fun _ => rfl⟩

theorem selfDelimiting_readInt : SelfDelimiting readInt := by
  rw [readInt_eq]
  exact .map selfDelimiting_readWord _

theorem selfDelimiting_readFlag : SelfDelimiting readFlag := by
  rw [readFlag_eq]
  apply SelfDelimiting.andThen selfDelimiting_readByte
  intro b
  split
  · exact selfDelimiting_done _
  · split
    · exact selfDelimiting_done _
    · exact selfDelimiting_refuse _

theorem selfDelimiting_readOptionalInt : SelfDelimiting readOptionalInt := by
  rw [readOptionalInt_eq]
  exact .andThen selfDelimiting_readFlag fun _ => .map selfDelimiting_readInt _

theorem readBody_append {length : Nat} {body : Bytes} (whole : body.length = length)
    (rest : Bytes) : readBody length (body ++ rest) =
      match String.fromUTF8? ⟨body.toArray⟩ with
      | some text => .ok (text, rest)
      | none => .error (malformed .textNotUtf8) := by
  subst whole
  simp [readBody]

theorem readBody_of_short {length : Nat} {input : Bytes} (few : input.length < length) :
    readBody length input = .error (malformed .shortText) := by
  have short : (input.take length).length ≠ length := by
    rw [List.length_take]
    omega
  exact if_pos short

theorem selfDelimiting_readBody (length : Nat) : SelfDelimiting (readBody length) := by
  apply selfDelimiting_of_width length (.bytes .shortText) (Or.inr rfl)
  · intro input few
    exact readBody_of_short few
  · intro bytes whole
    cases decoded : String.fromUTF8? ⟨bytes.toArray⟩ with
    | some text =>
        refine Or.inl ⟨text, fun rest => ?_⟩
        simp only [readBody_append whole, decoded]
    | none =>
        refine Or.inr ⟨.textNotUtf8, fun rest => ?_⟩
        simp only [readBody_append whole, decoded]

theorem selfDelimiting_readText : SelfDelimiting readText := by
  rw [readText_eq]
  exact .andThen selfDelimiting_readWord fun _ => selfDelimiting_readBody _

theorem SelfDelimiting.readMany {reader : Reader α} (each : SelfDelimiting reader) (count : Nat) :
    SelfDelimiting (readMany reader count) := by
  induction count with
  | zero => exact selfDelimiting_done []
  | succ count ih =>
      rw [readMany_succ]
      exact each.andThen fun _ => ih.map _

theorem SelfDelimiting.readList {reader : Reader α} (each : SelfDelimiting reader) :
    SelfDelimiting (readList reader) := by
  rw [readList_eq]
  exact .andThen selfDelimiting_readWord fun _ => each.readMany _

/-!
## Types and methods
-/

theorem selfDelimiting_readClass : SelfDelimiting readClass := by
  rw [readClass_eq]
  exact .andThen selfDelimiting_readText fun _ => .andThen selfDelimiting_readOptionalInt fun _ =>
    .andThen (.readList selfDelimiting_readInt) fun _ =>
      .map (.readList selfDelimiting_readInt) _

theorem selfDelimiting_readType : SelfDelimiting readType := by
  rw [readType_eq]
  apply SelfDelimiting.andThen selfDelimiting_readByte
  intro tag
  split
  · exact .map selfDelimiting_readClass _
  · split
    · exact .map selfDelimiting_readInt _
    · exact selfDelimiting_refuse _

theorem selfDelimiting_readScalar (code : UInt32) : SelfDelimiting (readScalar code) := by
  unfold readScalar
  split
  · exact selfDelimiting_done _
  · exact selfDelimiting_refuse _

theorem selfDelimiting_readOperand (kind : OperandKind) : SelfDelimiting (readOperand kind) := by
  cases kind with
  | none => exact selfDelimiting_done OperandDef.none
  | int => exact .map selfDelimiting_readInt OperandDef.int
  | char =>
      rw [readOperand_char]
      exact .andThen selfDelimiting_readWord selfDelimiting_readScalar
  | bool => exact .map selfDelimiting_readFlag OperandDef.bool
  | str => exact .map selfDelimiting_readText OperandDef.str
  | slot => exact .map selfDelimiting_readWord OperandDef.slot
  | branch => exact .map selfDelimiting_readInt OperandDef.branch
  | type => exact .map selfDelimiting_readInt OperandDef.type
  | method => exact .map selfDelimiting_readInt OperandDef.method
  | field =>
      rw [readOperand_field]
      exact .andThen selfDelimiting_readInt fun _ => .map selfDelimiting_readWord _

theorem selfDelimiting_readInstruction (method : String) :
    SelfDelimiting (readInstruction method) := by
  rw [readInstruction_eq]
  apply SelfDelimiting.andThen selfDelimiting_readByte
  intro code
  unfold readAfterCode
  split
  · exact .map (selfDelimiting_readOperand _) _
  · exact selfDelimiting_refuse _

theorem selfDelimiting_readMethod : SelfDelimiting readMethod := by
  rw [readMethod_eq]
  exact .andThen selfDelimiting_readText fun name =>
    .andThen selfDelimiting_readOptionalInt fun _ =>
      .andThen (.readList selfDelimiting_readInt) fun _ =>
        .andThen (.readList selfDelimiting_readInt) fun _ =>
          .map (.readList (selfDelimiting_readInstruction name)) _

/-!
## Images
-/

theorem readMagic_append {bytes : Bytes} (length : bytes.length = magic.length) (rest : Bytes) :
    readMagic (bytes ++ rest) =
      if bytes ≠ magic then .error (malformed .badMagic) else .ok ((), rest) := by
  have enough : ¬ (bytes ++ rest).length < magic.length := by
    rw [List.length_append]
    omega
  rw [readMagic, if_neg enough, ← length, List.take_left, List.drop_left]

theorem selfDelimiting_readMagic : SelfDelimiting readMagic := by
  apply selfDelimiting_of_unfilled magic.length
  · intro input few
    exact if_pos few
  · intro bytes length
    by_cases other : bytes ≠ magic
    · refine Or.inr ⟨.badMagic, fun rest => ?_⟩
      rw [readMagic_append length, if_pos other]
    · refine Or.inl ⟨(), fun rest => ?_⟩
      rw [readMagic_append length, if_neg other]

theorem selfDelimiting_readPreamble : SelfDelimiting readPreamble := by
  rw [readPreamble_eq]
  apply SelfDelimiting.andThen selfDelimiting_readMagic
  intro _
  apply SelfDelimiting.andThen selfDelimiting_readHalf
  intro found
  split
  · exact selfDelimiting_done _
  · exact selfDelimiting_refuse _

theorem selfDelimiting_readImage : SelfDelimiting readImage := by
  rw [readImage_eq]
  exact .andThen selfDelimiting_readPreamble fun _ =>
    .andThen (.readList selfDelimiting_readType) fun _ =>
      .andThen (.readList selfDelimiting_readMethod) fun _ => .map selfDelimiting_readInt _

end Binary

theorem ofBinaryBytes_of_ok {bytes rest : List UInt8} {image : Image}
    (found : Binary.readImage bytes = .ok (image, rest)) : ofBinaryBytes bytes = .ok image := by
  rw [ofBinaryBytes, Binary.read, found]
  rfl

theorem ofBinaryBytes_of_error {bytes : List UInt8} {e : Error}
    (refused : Binary.readImage bytes = .error e) : ofBinaryBytes bytes = .error e := by
  rw [ofBinaryBytes, Binary.read, refused]
  rfl

/-- Bytes hold a binary image, or there is something wrong with them. If they hold an image, then
some number of bytes in front is all that matters: with these bytes every input holds the same
image, and with fewer of them the input ends too early. -/
theorem ofBinaryBytes_delimited (bytes : List UInt8) :
    ((∃ image, ofBinaryBytes bytes = .ok image) ∨
      ∃ fault, ofBinaryBytes bytes = .error (.image fault)) ∧
    ∀ image, ofBinaryBytes bytes = .ok image →
      ∃ size ≤ bytes.length,
        (∀ other : List UInt8, other.take size = bytes.take size →
          ofBinaryBytes other = .ok image) ∧
        ∀ fewer < size, ∃ fault : ImageFault, fault.IsShort ∧
          ofBinaryBytes (bytes.take fewer) = .error (.image fault) := by
  cases outcome : Binary.readImage bytes with
  | error e =>
      rcases Binary.selfDelimiting_readImage.faulty outcome with ⟨fault, rfl⟩
      have refused := ofBinaryBytes_of_error outcome
      refine ⟨Or.inr ⟨fault, refused⟩, ?_⟩
      intro image found
      rw [refused] at found
      cases found
  | ok result =>
      rcases result with ⟨image, rest⟩
      have found := ofBinaryBytes_of_ok outcome
      refine ⟨Or.inl ⟨image, found⟩, ?_⟩
      intro image' found'
      rw [found] at found'
      cases found'
      rcases Binary.selfDelimiting_readImage.delimits outcome with ⟨taken, rfl, delimits⟩
      refine ⟨taken.length, ?_, ?_, ?_⟩
      · rw [List.length_append]
        exact Nat.le_add_right _ _
      · intro other same
        rw [List.take_left] at same
        rw [← List.take_append_drop taken.length other, same]
        exact ofBinaryBytes_of_ok (delimits.reads _)
      · intro fewer less
        have missing : taken.drop fewer ≠ [] := by
          rw [Ne, List.drop_eq_nil_iff]
          omega
        rcases delimits.short (taken.take fewer) (taken.drop fewer)
          (List.take_append_drop fewer taken).symm missing with ⟨fault, refused, short⟩
        rw [List.take_append_of_le_length (Nat.le_of_lt less)]
        exact ⟨fault, short, ofBinaryBytes_of_error refused⟩

def bareBytes : List UInt8 :=
  [0x4F, 0x4F, 0x56, 0x4D, 0, 1, 0, 0, 0, 0, 0, 0, 0, 0, 255, 255, 255, 249, 32]

theorem ofBinaryBytes_bareBytes : ofBinaryBytes bareBytes = .ok ⟨[], [], -7⟩ := by
  decide

theorem ofBinaryBytes_delimited_bareBytes :
    ∃ size ≤ 19,
      (∀ other : List UInt8, other.take size = bareBytes.take size →
        ofBinaryBytes other = .ok ⟨[], [], -7⟩) ∧
      ∀ fewer < size, ∃ fault : ImageFault, fault.IsShort ∧
        ofBinaryBytes (bareBytes.take fewer) = .error (.image fault) :=
  (ofBinaryBytes_delimited bareBytes).2 ⟨[], [], -7⟩ ofBinaryBytes_bareBytes

end Image
end ObjectMachine
