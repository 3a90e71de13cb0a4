import Mathlib.Algebra.GroupWithZero.Nat
import ObjectMachine.Proofs.ByteReaders
import ObjectMachine.Proofs.SourceText

/-!
# Binary images that are written and read

The bytes of an image exist exactly if its operands are of the kinds that its opcodes take. Then
the bytes are read as the image, whatever follows them, so no two images have the same bytes.

Lengths are written in four bytes, so this is about images whose texts and lists are not too long.
-/

namespace ObjectMachine

/-!
## Images with lengths of four bytes
-/

structure ClassDef.Sized (c : ClassDef) : Prop where
  name : c.name.utf8ByteSize < 2 ^ 32
  fields : c.fields.length < 2 ^ 32
  methods : c.methods.length < 2 ^ 32

def TypeDef.Sized : TypeDef → Prop
  | .ofClass c => c.Sized
  | .ofArray _ => True

def OperandDef.Sized : OperandDef → Prop
  | .str text => text.utf8ByteSize < 2 ^ 32
  | _ => True

structure MethodDef.Sized (method : MethodDef) : Prop where
  name : method.name.utf8ByteSize < 2 ^ 32
  params : method.params.length < 2 ^ 32
  locals : method.locals.length < 2 ^ 32
  code : method.code.length < 2 ^ 32
  operands : ∀ insn ∈ method.code, insn.operand.Sized

structure Image.Sized (image : Image) : Prop where
  types : image.types.length < 2 ^ 32
  eachType : ∀ type ∈ image.types, type.Sized
  methods : image.methods.length < 2 ^ 32
  eachMethod : ∀ method ∈ image.methods, method.Sized

/-- Every operand is of the kind that its opcode takes. -/
def MethodDef.Fits (method : MethodDef) : Prop :=
  ∀ insn ∈ method.code, insn.operand.kind = insn.opcode.operandKind

theorem Opcode.ofCode?_code (opcode : Opcode) : ofCode? opcode.code = some opcode := by
  cases opcode <;> decide

namespace Image
namespace Binary

variable {α : Type}

/-!
## Numbers, texts and lists
-/

theorem reads_byte (b : UInt8) : Reads readByte [b] b :=
  fun _ => rfl

theorem reads_word (word : UInt32) : Reads readWord (Word.bytes word) word := by
  intro rest
  show Except.ok (Word.ofBytes _ _ _ _, rest) = _
  rw [Word.ofBytes_byte]

theorem reads_int (value : Int32) : Reads readInt (writeInt value) value := by
  rw [readInt_eq]
  exact (reads_word value.toUInt32).map UInt32.toInt32

theorem reads_flag (value : Bool) : Reads readFlag (writeFlag value) value := by
  intro rest
  cases value <;> rfl

theorem reads_optionalInt (index : Option Int32) :
    Reads readOptionalInt (writeOptionalInt index) index := by
  rw [readOptionalInt_eq]
  apply (reads_flag index.isSome).andThen
  cases index with
  | none => exact (reads_int 0).map _
  | some value => exact (reads_int value).map _

theorem reads_text {text : String} (sized : text.utf8ByteSize < 2 ^ 32) :
    Reads readText (writeText text) text := by
  have length : text.toUTF8.toList.length = text.utf8ByteSize := by
    rw [toList_byteArray]
    rfl
  have count : (UInt32.ofNat text.toUTF8.toList.length).toNat = text.toUTF8.toList.length := by
    rw [UInt32.toNat_ofNat', length, Nat.mod_eq_of_lt sized]
  have decoded : String.fromUTF8? ⟨text.toUTF8.toList.toArray⟩ = some text := by
    rw [toList_byteArray]
    exact dif_pos text.isValidUTF8
  rw [readText_eq]
  apply (reads_word _).andThen
  intro rest
  rw [readBody_append count.symm, decoded]

theorem reads_many {reader : Reader α} {writer : α → Bytes} {values : List α}
    (each : ∀ value ∈ values, Reads reader (writer value) value) :
    Reads (readMany reader values.length) (values.flatMap writer) values := by
  induction values with
  | nil => exact reads_done []
  | cons value rest ih =>
      have later := ih fun value mem => each value (List.mem_cons_of_mem _ mem)
      rw [List.length_cons, readMany_succ, List.flatMap_cons]
      exact (each value List.mem_cons_self).andThen (later.map _)

theorem reads_list {reader : Reader α} {writer : α → Bytes} {values : List α}
    (sized : values.length < 2 ^ 32)
    (each : ∀ value ∈ values, Reads reader (writer value) value) :
    Reads (readList reader) (writeList writer values) values := by
  have count : (UInt32.ofNat values.length).toNat = values.length := by
    rw [UInt32.toNat_ofNat', Nat.mod_eq_of_lt sized]
  rw [readList_eq]
  apply (reads_word _).andThen
  rw [count]
  exact reads_many each

theorem reads_ints {values : List Int32} (sized : values.length < 2 ^ 32) :
    Reads (readList readInt) (writeList writeInt values) values :=
  reads_list sized fun value _ => reads_int value

/-!
## Types and methods
-/

theorem reads_class {c : ClassDef} (sized : c.Sized) :
    Reads readClass (writeText c.name ++ (writeOptionalInt c.base ++
      (writeList writeInt c.fields ++ writeList writeInt c.methods))) c := by
  rw [readClass_eq]
  exact (reads_text sized.name).andThen ((reads_optionalInt c.base).andThen
    ((reads_ints sized.fields).andThen ((reads_ints sized.methods).map _)))

theorem reads_type {type : TypeDef} (sized : type.Sized) :
    Reads readType (writeType type) type := by
  rw [readType_eq]
  cases type with
  | ofClass c =>
      simp only [writeType, List.append_assoc]
      exact (reads_byte classTag).andThen ((reads_class sized).map _)
  | ofArray element => exact (reads_byte arrayTag).andThen ((reads_int element).map TypeDef.ofArray)

theorem reads_operand {operand : OperandDef} (sized : operand.Sized) :
    Reads (readOperand operand.kind) (writeOperand operand) operand := by
  cases operand with
  | none => exact reads_done OperandDef.none
  | int value => exact (reads_int value).map OperandDef.int
  | char value =>
      rw [OperandDef.kind, readOperand_char]
      intro rest
      rw [writeOperand, andThen_of_ok (reads_word value.val rest), readScalar, Word.toChar?_val]
      rfl
  | bool value => exact (reads_flag value).map OperandDef.bool
  | str text => exact (reads_text sized).map OperandDef.str
  | slot index => exact (reads_word index).map OperandDef.slot
  | branch offset => exact (reads_int offset).map OperandDef.branch
  | type index => exact (reads_int index).map OperandDef.type
  | method index => exact (reads_int index).map OperandDef.method
  | field owner index =>
      rw [OperandDef.kind, readOperand_field]
      exact (reads_int owner).andThen ((reads_word index).map _)

theorem reads_instruction {insn : InstructionDef} (method : String)
    (fits : insn.operand.kind = insn.opcode.operandKind) (sized : insn.operand.Sized) :
    Reads (readInstruction method) (writeInstruction insn) insn := by
  have operand := reads_operand sized
  rw [fits] at operand
  rw [readInstruction_eq]
  apply (reads_byte insn.opcode.code).andThen
  rw [readAfterCode, Opcode.ofCode?_code]
  exact operand.map _

theorem reads_method {method : MethodDef} (fits : method.Fits) (sized : method.Sized) :
    Reads readMethod (writeMethod method) method := by
  have code : Reads (readList (readInstruction method.name))
      (writeList writeInstruction method.code) method.code :=
    reads_list sized.code fun insn mem =>
      reads_instruction method.name (fits insn mem) (sized.operands insn mem)
  simp only [readMethod_eq, writeMethod, List.append_assoc]
  exact (reads_text sized.name).andThen ((reads_optionalInt method.returns).andThen
    ((reads_ints sized.params).andThen ((reads_ints sized.locals).andThen (code.map _))))

/-!
## Images
-/

theorem reads_preamble : Reads readPreamble (magic ++ [0, UInt8.ofNat version]) () := by
  rw [readPreamble_eq]
  have start : Reads readMagic magic () := fun rest => readMagic_append rfl rest
  have half : Reads readHalf [0, UInt8.ofNat version] version := fun _ => rfl
  apply start.andThen
  intro rest
  rw [andThen_of_ok (half rest), if_pos rfl]
  rfl

theorem reads_image {image : Image} (fits : ∀ method ∈ image.methods, method.Fits)
    (sized : image.Sized) : Reads readImage (imageBytes image) image := by
  have types := reads_list sized.types fun type mem => reads_type (sized.eachType type mem)
  have methods := reads_list sized.methods fun method mem =>
    reads_method (fits method mem) (sized.eachMethod method mem)
  simp only [readImage_eq, imageBytes, List.append_assoc]
  rw [← List.append_assoc]
  exact reads_preamble.andThen (types.andThen (methods.andThen ((reads_int image.main).map _)))

end Binary

theorem misfit?_eq_none_iff {image : Image} :
    image.misfit? = none ↔ ∀ method ∈ image.methods, method.Fits := by
  rw [misfit?, List.findSome?_eq_none_iff]
  simp only [Option.map_eq_none_iff, List.find?_eq_none, InstructionDef.fits, Bool.not_eq_true',
    beq_eq_false_iff_ne, ne_eq, not_not]
  rfl

theorem write_eq_ok_iff {image : Image} {bytes : List UInt8} :
    Binary.write image = .ok bytes ↔
      (∀ method ∈ image.methods, method.Fits) ∧ Binary.imageBytes image = bytes := by
  rw [Binary.write, ← misfit?_eq_none_iff]
  cases image.misfit? with
  | none => simp
  | some fault => simp

theorem read_of_write {image : Image} (sized : image.Sized) {bytes : List UInt8}
    (written : Binary.write image = .ok bytes) (rest : List UInt8) :
    Binary.read (bytes ++ rest) = .ok image := by
  rcases write_eq_ok_iff.mp written with ⟨fits, rfl⟩
  rw [Binary.read, Binary.reads_image fits sized rest]
  rfl

/-- An image has bytes exactly if its operands fit, the bytes are read as the image whatever follows
them, and other images have other bytes. -/
theorem binary_roundtrip (image : Image) (sized : image.Sized) :
    ((∃ bytes, Binary.write image = .ok bytes) ↔ ∀ method ∈ image.methods, ∀ insn ∈ method.code,
      insn.operand.kind = insn.opcode.operandKind) ∧
    (∀ bytes, Binary.write image = .ok bytes →
      ∀ rest, Binary.read (bytes ++ rest) = .ok image) ∧
    ∀ (other : Image) (bytes : List UInt8), other.Sized →
      Binary.write image = .ok bytes → Binary.write other = .ok bytes → image = other := by
  refine ⟨?_, ?_, ?_⟩
  · constructor
    · intro written
      rcases written with ⟨bytes, written⟩
      exact (write_eq_ok_iff.mp written).1
    · intro fits
      exact ⟨_, write_eq_ok_iff.mpr ⟨fits, rfl⟩⟩
  · intro bytes written
    exact read_of_write sized written
  · intro other bytes sized' written written'
    have first := read_of_write sized written []
    have second := read_of_write sized' written' []
    rw [first] at second
    cases second
    rfl

theorem binary_roundtrip_markedImage :
    ∃ bytes, Binary.write markedImage = .ok bytes ∧
      ∀ rest, Binary.read (bytes ++ rest) = .ok markedImage := by
  have sized : markedImage.Sized := by
    constructor
    · decide
    · intro type mem
      simp only [markedImage, List.mem_cons, List.not_mem_nil, or_false] at mem
      rcases mem with rfl | rfl | rfl
      · exact ⟨by decide, by decide, by decide⟩
      · exact ⟨by decide, by decide, by decide⟩
      · trivial
    · decide
    · intro method mem
      cases List.mem_singleton.mp mem
      refine ⟨by decide, by decide, by decide, by decide, ?_⟩
      intro insn mem
      simp only [List.mem_cons, List.not_mem_nil, or_false] at mem
      rcases mem with rfl | rfl | rfl | rfl | rfl
      · show String.utf8ByteSize _ < _
        decide
      all_goals trivial
  rcases binary_roundtrip markedImage sized with ⟨writable, readable, -⟩
  rcases writable.mpr (by decide) with ⟨bytes, written⟩
  exact ⟨bytes, written, readable bytes written⟩

end Image
end ObjectMachine
