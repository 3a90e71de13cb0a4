import ObjectMachine.Proofs.ReadImages

/-!
# Conversion between the formats

An image that has been read, in whichever format, can be saved in binary. It can be saved as text if
it was read as text, or else if the text format has a place for its names. What is saved is
recognised as what it is: bytes start with the magic, a text starts with an exclamation mark. So
it is read as the image that was saved.
-/

namespace ObjectMachine
namespace Image

def Names (image : Image) (name : String) : Prop :=
  (∃ c, .ofClass c ∈ image.types ∧ c.name = name) ∨ ∃ method ∈ image.methods, method.name = name

/-!
## Texts
-/

namespace Source

theorem mem_imageLines_of_error {image : Image} {fault : ImageFault}
    (refused : write image = .error fault) : .error fault ∈ imageLines image := by
  have first : ∀ lines : List Line, lines.mapM id = .error fault → .error fault ∈ lines := by
    intro lines failed
    induction lines with
    | nil => cases failed
    | cons line rest ih =>
        cases line with
        | error fault' =>
            cases failed
            exact List.mem_cons_self
        | ok text =>
            rw [List.mapM_cons] at failed
            cases later : rest.mapM id with
            | error fault' =>
                rw [later] at failed
                cases failed
                exact List.mem_cons_of_mem _ (ih later)
            | ok texts =>
                rw [later] at failed
                cases failed
  apply first
  cases written : (imageLines image).mapM id with
  | error fault' =>
      rw [write, written] at refused
      cases refused
      rfl
  | ok lines =>
      rw [write, written] at refused
      cases refused

theorem declarationLine_eq_error {kind : HeaderKind} {name : String} {sections : List Char}
    {fault : ImageFault} (refused : declarationLine kind name sections = .error fault) :
    fault = .unwritableName name ∧
      (name = "" ∨ ∃ c ∈ name.toList, Text.isBlank c = true ∨ c = '!') := by
  unfold declarationLine at refused
  split at refused
  · cases refused
  · next noName =>
      cases refused
      refine ⟨rfl, ?_⟩
      rw [isName_iff] at noName
      by_cases empty : name = ""
      · exact Or.inl empty
      · right
        by_contra none
        apply noName
        refine ⟨empty, ?_⟩
        intro c mem
        constructor
        · exact Bool.eq_false_iff.mpr fun blank => none ⟨c, mem, Or.inl blank⟩
        · exact fun bang => none ⟨c, mem, Or.inr bang⟩

/-- Where all operands fit, a name is all that the format may have no place for. -/
theorem write_eq_error {image : Image} (fits : ∀ method ∈ image.methods, method.Fits)
    {fault : ImageFault} (refused : write image = .error fault) :
    ∃ name, fault = .unwritableName name ∧ image.Names name ∧
      (name = "" ∨ ∃ c ∈ name.toList, Text.isBlank c = true ∨ c = '!') := by
  have mem := mem_imageLines_of_error refused
  simp only [imageLines, methodLines, List.mem_append, List.mem_map, List.mem_flatMap,
    List.mem_cons, List.not_mem_nil, or_false] at mem
  rcases mem with (⟨type, mem, line⟩ | ⟨method, mem, line | ⟨insn, mem', line⟩⟩) | line
  · cases type with
    | ofArray element => cases line
    | ofClass c =>
        rcases declarationLine_eq_error line with ⟨same, noName⟩
        exact ⟨c.name, same, Or.inl ⟨c, mem, rfl⟩, noName⟩
  · rcases declarationLine_eq_error line.symm with ⟨same, noName⟩
    exact ⟨method.name, same, Or.inr ⟨method, mem, rfl⟩, noName⟩
  · rcases exists_instructionLine_iff.mpr (fits method mem insn mem') with ⟨text, written⟩
    rw [line] at written
    cases written
  · cases line

theorem exists_imageLines_eq (image : Image) :
    ∃ first later, imageLines image = first :: later ∧
      ∀ line, first = .ok line → line.head? = some '!' := by
  have declaration : ∀ kind name sections line,
      declarationLine kind name sections = .ok line → line.head? = some '!' := by
    intro kind name sections line written
    rcases declarationLine_eq_ok_iff.mp written with ⟨-, rfl⟩
    rfl
  unfold imageLines
  cases image.types with
  | cons type types =>
      refine ⟨_, _, rfl, ?_⟩
      intro line written
      cases type with
      | ofArray element =>
          cases written
          rfl
      | ofClass c => exact declaration _ _ _ line written
  | nil =>
      cases image.methods with
      | cons method methods => exact ⟨_, _, rfl, declaration _ _ _⟩
      | nil =>
          refine ⟨_, _, rfl, ?_⟩
          intro line written
          cases written
          rfl

theorem head?_of_write {image : Image} {text : List Char} (written : write image = .ok text) :
    text.head? = some '!' := by
  rcases Except.bind_eq_ok_iff.mp written with ⟨lines, linesWritten, same⟩
  cases same
  rcases exists_imageLines_eq image with ⟨first, later, shape, header⟩
  rw [shape, Except.mapM_eq_ok_iff] at linesWritten
  cases linesWritten with
  | @cons _ line _ rest head _ =>
      have start := header line head
      cases line with
      | nil => cases start
      | cons c line =>
          cases start
          rfl

end Source

/-!
## Formats
-/

theorem formatOf_eq_binary_iff {bytes : List UInt8} :
    formatOf bytes = .binary ↔ encode "OOVM".toList <+: bytes := by
  have magic : encode "OOVM".toList = Binary.magic := by decide
  rw [magic, ← List.isPrefixOf_iff_prefix, formatOf, Binary.hasMagic]
  split
  · next start => simp [start]
  · next start => simp [start]

theorem formatOf_of_write {image : Image} {text : List Char}
    (written : Source.write image = .ok text) : formatOf (encode text) = .text := by
  cases text with
  | nil => cases Source.head?_of_write written
  | cons c rest =>
      cases Source.head?_of_write written
      rfl

theorem formatOf_imageBytes (image : Image) : formatOf (Binary.imageBytes image) = .binary := by
  unfold Binary.imageBytes
  simp only [List.append_assoc]
  rfl

/-!
## Saving what has been read
-/

variable {bytes saved : List UInt8} {image : Image}

theorem read_of_ofBytes (loaded : ofBytes bytes = .ok image) :
    (formatOf bytes = .text ∧ image.Expressible) ∨ (formatOf bytes = .binary ∧
      (∀ method ∈ image.methods, method.Fits) ∧ image.Sized) := by
  unfold ofBytes at loaded
  cases format : formatOf bytes with
  | binary =>
      rw [format] at loaded
      exact Or.inr ⟨rfl, Binary.fits_of_read loaded⟩
  | text =>
      rw [format] at loaded
      unfold ofTextBytes at loaded
      simp only at loaded
      split at loaded
      · cases loaded
      · exact Or.inl ⟨rfl, Source.expressible_of_read (Except.mapError_eq_ok_iff.mp loaded)⟩

theorem fits_of_ofBytes (loaded : ofBytes bytes = .ok image) :
    ∀ method ∈ image.methods, method.Fits := by
  rcases read_of_ofBytes loaded with ⟨-, expressible⟩ | ⟨-, fits, -⟩
  · exact expressible.operands
  · exact fits

theorem toBytes_binary_eq_ok_iff : toBytes .binary image = .ok saved ↔
    (∀ method ∈ image.methods, method.Fits) ∧ Binary.imageBytes image = saved := by
  rw [toBytes, Except.mapError_eq_ok_iff, write_eq_ok_iff]

theorem toBytes_text_eq_ok_iff : toBytes .text image = .ok saved ↔
    ∃ text, Source.write image = .ok text ∧ encode text = saved := by
  unfold toBytes
  cases Source.write image with
  | ok text => simp only [toUTF8_ofList, Except.ok.injEq, exists_eq_left']
  | error fault => simp

theorem ofBytes_saved_text (done : toBytes .text image = .ok saved) :
    formatOf saved = .text ∧ ofBytes saved = .ok image := by
  rcases toBytes_text_eq_ok_iff.mp done with ⟨text, written, rfl⟩
  have format := formatOf_of_write written
  refine ⟨format, ?_⟩
  simp only [ofBytes, format]
  rw [← toUTF8_ofList, ofTextBytes_toUTF8, Source.read_of_write written]
  rfl

theorem ofBytes_saved_binary (sized : image.Sized) (done : toBytes .binary image = .ok saved) :
    formatOf saved = .binary ∧ ofBytes saved = .ok image := by
  rcases toBytes_binary_eq_ok_iff.mp done with ⟨fits, rfl⟩
  have format := formatOf_imageBytes image
  have read := read_of_write sized (write_eq_ok_iff.mpr ⟨fits, rfl⟩) []
  refine ⟨format, ?_⟩
  rw [List.append_nil] at read
  rw [ofBytes, format]
  exact read

/-- Bytes that hold an image are binary exactly if they start with the magic. The image can be saved
in binary; it can be saved as text if it was text, and if it was not, then a name is the only thing
that may be in the way. What has been saved is recognised and holds the same image. The lengths of
a binary image are small enough to be saved; those of a text must be. -/
theorem conversion_lossless (bytes : List UInt8) (image : Image)
    (loaded : ofBytes bytes = .ok image) :
    (formatOf bytes = .binary ↔ encode "OOVM".toList <+: bytes) ∧
    (∃ saved, toBytes .binary image = .ok saved) ∧
    (formatOf bytes = .text → ∃ saved, toBytes .text image = .ok saved) ∧
    (∀ error, toBytes .text image = .error error → ∃ name,
      error = .image (.unwritableName name) ∧ image.Names name ∧
        (name = "" ∨ ∃ c ∈ name.toList, Text.isBlank c = true ∨ c = '!')) ∧
    (∀ saved, toBytes .text image = .ok saved →
      formatOf saved = .text ∧ ofBytes saved = .ok image) ∧
    (formatOf bytes = .binary ∨ image.Sized → ∀ saved, toBytes .binary image = .ok saved →
      formatOf saved = .binary ∧ ofBytes saved = .ok image) := by
  have fits := fits_of_ofBytes loaded
  refine ⟨formatOf_eq_binary_iff, ?_, ?_, ?_, ?_, ?_⟩
  · exact ⟨_, toBytes_binary_eq_ok_iff.mpr ⟨fits, rfl⟩⟩
  · intro format
    rcases read_of_ofBytes loaded with ⟨-, expressible⟩ | ⟨other, -⟩
    · rcases exists_write_iff.mpr expressible with ⟨text, written⟩
      exact ⟨_, toBytes_text_eq_ok_iff.mpr ⟨text, written, rfl⟩⟩
    · rw [format] at other
      cases other
  · intro error refused
    unfold toBytes at refused
    simp only at refused
    split at refused
    · cases refused
    · next fault failed =>
        cases refused
        rcases Source.write_eq_error fits failed with ⟨name, rfl, named⟩
        exact ⟨name, rfl, named⟩
  · intro saved written
    exact ofBytes_saved_text written
  · intro small saved written
    have sized : image.Sized := by
      rcases read_of_ofBytes loaded with ⟨format, -⟩ | ⟨-, -, sized⟩
      · rcases small with binary | sized
        · rw [format] at binary
          cases binary
        · exact sized
      · exact sized
    exact ofBytes_saved_binary sized written

def labelledText : List Char :=
  "!Class: Node base: 0 fields: -1!\n!Method: run!\n\tbr :end\n\tpop\n:end\n\tret\n!Main: 0!".toList

def labelledImage : Image where
  types := [.ofClass ⟨"Node", some 0, [-1], []⟩]
  methods := [⟨"run", none, [], [], [⟨.br, .branch 1⟩, ⟨.pop, .none⟩, ⟨.ret, .none⟩]⟩]
  main := 0

theorem ofBytes_labelledText : ofBytes (encode labelledText) = .ok labelledImage := by
  decide +kernel

theorem ofBytes_bareBytes : ofBytes bareBytes = .ok ⟨[], [], -7⟩ :=
  ofBinaryBytes_bareBytes

theorem conversion_lossless_labelledText :
    (∃ saved, toBytes .text labelledImage = .ok saved ∧
      formatOf saved = .text ∧ ofBytes saved = .ok labelledImage) ∧
    ∃ saved, toBytes .binary ⟨[], [], -7⟩ = .ok saved ∧
      formatOf saved = .binary ∧ ofBytes saved = .ok ⟨[], [], -7⟩ := by
  rcases conversion_lossless _ _ ofBytes_labelledText with ⟨-, -, writable, -, readable, -⟩
  rcases conversion_lossless _ _ ofBytes_bareBytes with ⟨-, writable', -, -, -, readable'⟩
  rcases writable (by decide) with ⟨text, written⟩
  rcases writable' with ⟨saved, written'⟩
  exact ⟨⟨text, written, readable text written⟩,
    saved, written', readable' (Or.inl (by decide)) saved written'⟩

end Image
end ObjectMachine
