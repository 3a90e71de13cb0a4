import ObjectMachine.Proofs.CheckedCode
import ObjectMachine.Proofs.OutlinedImages

/-!
# Valid images

An image is valid if its numbers name what they should, no class descends from itself, no method is
listed twice, every instruction has an operand that suits it, and the method to start with needs
nothing. This is said of the image alone, without following how it is linked.

Linking accepts the valid images and no others. Beyond the outline and the table of types, the code
is linked exactly if every operand is good, and a program has a method to start with exactly if its
image names one.
-/

namespace ObjectMachine

def MethodDef.slotCount (method : MethodDef) : Opcode → Nat
  | .ldarg | .starg => method.params.length
  | _ => method.locals.length

namespace Image

/-!
## Validity
-/

def Lists (image : Image) (place : Nat) : Prop :=
  ∃ index ∈ image.allListed, index.toInt = place

/-- The instances of the class at a place have so many fields, inherited ones included. -/
inductive FieldCount (image : Image) : Nat → Nat → Prop where
  | top {place : Nat} {c : ClassDef} : image.types[place]? = some (.ofClass c) → c.base = none →
      FieldCount image place c.fields.length
  | derived {place above count : Nat} {c : ClassDef} {base : Int32} :
      image.types[place]? = some (.ofClass c) → c.base = some base → base.toInt = above →
      FieldCount image above count → FieldCount image place (count + c.fields.length)

/-- The operand of an opcode, at a position of the method at a place, names what there is. -/
def GoodOperand (image : Image) (place : Nat) (method : MethodDef) (ip : Nat) (opcode : Opcode) :
    OperandDef → Prop
  | .none => opcode = .ldthis → image.Lists place
  | .slot index => index.toNat < method.slotCount opcode
  | .branch offset => 0 ≤ ip + 1 + offset.toInt ∧ ip + 1 + offset.toInt < method.code.length
  | .type index =>
      if opcode = .newarr then ∃ element, image.typeAt? index = some (.ofArray element)
      else ∃ c, image.typeAt? index = some (.ofClass c)
  | .method index => -7 ≤ index.toInt ∧ index.toInt < image.methods.length
  | .field owner index =>
      ∃ above count : Nat, owner.toInt = above ∧ image.FieldCount above count ∧
        index.toNat < count
  | .int _ | .char _ | .bool _ | .str _ => True

/-- An image keeps the rules. -/
structure Valid (image : Image) : Prop where
  /-- Numbers of types name types. -/
  fields : ∀ c, .ofClass c ∈ image.types → ∀ index ∈ c.fields, image.HasType index
  elements : ∀ element, .ofArray element ∈ image.types → image.HasType element
  returns : ∀ method ∈ image.methods, ∀ index, method.returns = some index → image.HasType index
  params : ∀ method ∈ image.methods, ∀ index ∈ method.params, image.HasType index
  locals : ∀ method ∈ image.methods, ∀ index ∈ method.locals, image.HasType index
  /-- Bases are classes, and no class descends from itself. -/
  bases : ∀ c, .ofClass c ∈ image.types → ∀ base, c.base = some base →
    ∃ b, image.typeAt? base = some (.ofClass b)
  acyclic : ∀ place, ¬ Relation.TransGen image.Extends place place
  /-- Classes list declared methods, and none of them twice. -/
  methods : ∀ c, .ofClass c ∈ image.types → ∀ index ∈ c.methods, image.Declares index
  once : image.allListed.Nodup
  /-- All instructions are good. -/
  code : ∀ (place : Nat) method (ip : Nat) insn, image.methods[place]? = some method →
    method.code[ip]? = some insn → insn.operand.kind = insn.opcode.operandKind ∧
      image.GoodOperand place method ip insn.opcode insn.operand
  /-- The method to start with is declared, belongs to no class, and takes and returns nothing. -/
  main : ∃ (place : Nat) (method : MethodDef), image.main.toInt = place ∧
    image.methods[place]? = some method ∧ ¬ image.Lists place ∧ method.params = [] ∧
    method.returns = none

end Image

namespace Image

variable {image : Image} {outline : Outline} {claims : Claims}

/-!
## Fields
-/

theorem FieldCount.exists_class {place count : Nat} (counted : image.FieldCount place count) :
    ∃ c, image.types[place]? = some (.ofClass c) := by
  cases counted with
  | top found _ => exact ⟨_, found⟩
  | derived found _ _ _ => exact ⟨_, found⟩

theorem FieldCount.unique {place count count' : Nat} (counted : image.FieldCount place count)
    (counted' : image.FieldCount place count') : count = count' := by
  induction counted generalizing count' with
  | top found none =>
      cases counted' with
      | top found' none' =>
          rw [found] at found'
          cases found'
          rfl
      | derived found' has _ _ =>
          rw [found] at found'
          cases found'
          rw [none] at has
          cases has
  | derived found has same _ ih =>
      cases counted' with
      | top found' none =>
          rw [found] at found'
          cases found'
          rw [none] at has
          cases has
      | derived found' has' same' counted' =>
          rw [found] at found'
          cases found'
          rw [has] at has'
          cases has'
          have above := Int.ofNat_inj.mp (same.symm.trans same')
          rw [ih (above ▸ counted')]

theorem length_of_typeRefs {indices : List Int32} {refs : List TypeRef}
    (resolved : image.typeRefs indices = .ok refs) : refs.length = indices.length :=
  (Except.mapM_eq_ok_iff.mp resolved).length_eq.symm

end Image

theorem Layout.length_extend (base : Layout) (nameOf : MethodRef → String) (c : ClassOutline) :
    (base.extend nameOf c).fields.length = base.fields.length + c.ownFields.length := by
  rcases base.fields_extend nameOf c with ⟨own, fields, types⟩
  rw [fields, List.length_append, ← types, List.length_map]

namespace Image

variable {image : Image} {outline : Outline} {claims : Claims}

/-- The layout of a class has the fields that its chain of bases counts. -/
theorem Outlines.fieldCount_of_chained (outlines : Outlines image outline claims) {place : Nat}
    {c : ClassDef} (found : image.types[place]? = some (.ofClass c))
    {chain : List (TypeRef × ClassOutline)}
    (chained : outline.Chained ⟨primitiveCount + place⟩ chain) :
    image.FieldCount place (outline.layoutOf chain).fields.length := by
  have own : ∀ {place : Nat} {c : ClassDef} {o : ClassOutline},
      image.types[place]? = some (.ofClass c) →
      outline.class? ⟨primitiveCount + place⟩ = some o → o.ownFields.length = c.fields.length ∧
        (o.base = none → c.base = none) := by
    intro place c o found known
    rw [← typeDef?_add_primitiveCount] at found
    rcases outlines.class?_of_class found with ⟨o', known', same⟩
    rw [known] at known'
    cases known'
    cases same with
    | ofClass based resolved _ =>
        refine ⟨length_of_typeRefs resolved, ?_⟩
        intro none
        rcases baseRef_eq_ok_iff.mp based with ⟨none', _⟩ | ⟨_, _, _, some', _⟩
        · exact none'
        · cases none.symm.trans some'
  generalize at_place : TypeRef.mk (primitiveCount + place) = ref at chained
  induction chained generalizing place c with
  | outside outside =>
      subst at_place
      rw [← typeDef?_add_primitiveCount] at found
      rcases outlines.class?_of_class found with ⟨o, known, _⟩
      rw [outside] at known
      cases known
  | top known none =>
      subst at_place
      rcases own found known with ⟨length, top⟩
      rw [Outline.layoutOf, List.foldr_cons, List.foldr_nil, Layout.length_extend, length]
      have counted := FieldCount.top found (top none)
      rwa [← Nat.zero_add c.fields.length] at counted
  | link known has _ ih =>
      subst at_place
      rcases outlines.extends_of_base known has with ⟨above, b, rfl, at_above, extending⟩
      rcases extending with ⟨c', base, found', declared, same⟩
      rw [Outline.layoutOf, List.foldr_cons, Layout.length_extend, (own found' known).1]
      exact .derived found' declared same (ih at_above rfl)

/-!
## Operands
-/

theorem Outlines.owner_iff_lists (outlines : Outlines image outline claims) {place : Nat}
    {method : MethodOutline} (at_place : outline.methods[place]? = some method) :
    method.owner.isSome ↔ image.Lists place := by
  rw [outlines.owner_iff at_place]
  constructor
  · intro owned
    rcases owned with ⟨owner, o, known, listed⟩
    rcases outlines.class_of_class? known with ⟨c, found, same⟩
    rcases same.mem_methods_iff.mp ⟨o, rfl, listed⟩ with ⟨index, mem, resolved⟩
    refine ⟨index, List.mem_flatMap.mpr ⟨.ofClass c, ?_, mem⟩, ?_⟩
    · rcases Outline.class?_eq_some_iff.mp known with ⟨i, _, rfl⟩
      rw [typeDef?_add_primitiveCount] at found
      exact List.mem_of_getElem? found
    · rw [toInt_of_methodRef resolved (Nat.le_add_right _ _), Nat.add_sub_cancel_left]
  · intro lists
    rcases lists with ⟨index, mem, same⟩
    rcases List.mem_flatMap.mp mem with ⟨type, mem, listed⟩
    cases type with
    | ofArray element => cases listed
    | ofClass c =>
        rcases List.getElem?_of_mem mem with ⟨i, at_i⟩
        rw [← typeDef?_add_primitiveCount] at at_i
        rcases outlines.class?_of_class at_i with ⟨o, known, outlined⟩
        have inside : place < image.methods.length := by
          rw [← outlines.methods_length]
          exact (List.getElem?_eq_some_iff.mp at_place).1
        have resolved : image.methodRef index = .ok ⟨builtinCount + place⟩ := by
          rw [methodRef_eq_ok_iff, placeOf?_eq_some_iff]
          simp only
          omega
        rcases outlined.mem_methods_iff.mpr ⟨index, listed, resolved⟩ with ⟨o', same', mem'⟩
        cases same'
        exact ⟨_, o, known, mem'⟩

theorem exists_typeRef_of_typeAt? {index : Int32} {type : TypeDef}
    (found : image.typeAt? index = some type) : ∃ ref, image.typeRef index = .ok ref := by
  rcases typeAt?_eq_some_iff.mp found with ⟨place, same, found⟩
  rw [exists_typeRef_iff, HasType]
  have inside := (List.getElem?_eq_some_iff.mp found).1
  omega

theorem isArray_iff {index : Int32} {ref : TypeRef} (resolved : image.typeRef index = .ok ref) :
    image.isArray ref = true ↔ ∃ element, image.typeAt? index = some (.ofArray element) := by
  rw [← typeDef?_eq_typeAt? resolved]
  unfold isArray
  split
  · next element found => simp [found]
  · next other =>
      simp only [Bool.false_eq_true, false_iff, not_exists]
      exact other

section Contexts

variable {types : Array TypeDescriptor} {place length : Nat} {outlined : MethodOutline}
  {source : MethodDef} {strings : StringTable}

theorem Outlines.fieldCount_of_fields? (outlines : Outlines image outline claims)
    (made : outline.typeTable = .ok types) {ref : TypeRef} {fields : List FieldSlot}
    (found : CodeContext.fields? ⟨image, types, outlined, length⟩ ref = some fields) :
    ∃ above, ref = ⟨primitiveCount + above⟩ ∧ image.FieldCount above fields.length := by
  unfold CodeContext.fields? at found
  split at found
  · next c at_ref =>
      cases found
      rcases Outline.class_cases made at_ref with ⟨o, chain, known, chained, rfl⟩
      rcases Outline.class?_eq_some_iff.mp known with ⟨above, _, rfl⟩
      rcases outlines.class_of_class? known with ⟨c, at_above, _⟩
      rw [typeDef?_add_primitiveCount] at at_above
      exact ⟨above, rfl, outlines.fieldCount_of_chained at_above chained⟩
  · cases found

theorem Outlines.fields?_of_fieldCount (outlines : Outlines image outline claims)
    (made : outline.typeTable = .ok types) {above count : Nat}
    (counted : image.FieldCount above count) :
    ∃ fields, CodeContext.fields? ⟨image, types, outlined, length⟩ ⟨primitiveCount + above⟩ =
      some fields ∧ fields.length = count := by
  rcases counted.exists_class with ⟨c, at_above⟩
  have at_above' := at_above
  rw [← typeDef?_add_primitiveCount] at at_above'
  rcases outlines.class?_of_class at_above' with ⟨o, known, _⟩
  rcases Outline.exists_chained_of_typeTable made known with ⟨chain, chained, found⟩
  refine ⟨(outline.layoutOf chain).fields, ?_, ?_⟩
  · simp only [CodeContext.fields?, found]
    rfl
  · exact (outlines.fieldCount_of_chained at_above chained).unique counted

theorem Outlines.exists_linkField_iff (outlines : Outlines image outline claims)
    (made : outline.typeTable = .ok types) {owner : Int32} {index : UInt32} :
    (∃ operand, CodeContext.linkField ⟨image, types, outlined, length⟩ owner index = .ok operand) ↔
      ∃ above count : Nat, owner.toInt = above ∧ image.FieldCount above count ∧
        index.toNat < count := by
  simp only [CodeContext.linkField, Except.exists_bind_iff, Except.mapError_eq_ok_iff]
  constructor
  · intro found
    rcases found with ⟨ref, resolved, operand, found⟩
    split at found
    · cases found
    · next fields known =>
        split at found
        · cases found
        · next slot at_index =>
            rcases outlines.fieldCount_of_fields? made known with ⟨above, rfl, counted⟩
            have place := placeOf?_eq_some_iff.mp (typeRef_eq_ok_iff.mp resolved)
            refine ⟨above, _, ?_, counted, (List.getElem?_eq_some_iff.mp at_index).1⟩
            simp only at place
            omega
  · intro given
    rcases given with ⟨above, count, same, counted, inside⟩
    rcases outlines.fields?_of_fieldCount made counted with ⟨fields, known, rfl⟩
    rcases counted.exists_class with ⟨c, at_above⟩
    rcases exists_typeRef_of_typeAt? (typeAt?_eq_some_iff.mpr ⟨above, same, at_above⟩) with
      ⟨ref, resolved⟩
    refine ⟨ref, resolved, ?_⟩
    rw [index_of_typeRef resolved same, known]
    simp only [List.getElem?_eq_getElem inside]
    exact ⟨_, rfl⟩

theorem exists_suits_iff {opcode : Opcode} {index : Int32} :
    (∃ ref, image.typeRef index = .ok ref ∧
        CodeContext.suits ⟨image, types, outlined, length⟩ opcode ref = true) ↔
      if opcode = .newarr then ∃ element, image.typeAt? index = some (.ofArray element)
      else ∃ c, image.typeAt? index = some (.ofClass c) := by
  by_cases isNewarr : opcode = .newarr
  · subst isNewarr
    rw [if_pos rfl]
    constructor
    · intro found
      rcases found with ⟨ref, resolved, suits⟩
      exact (isArray_iff resolved).mp suits
    · intro found
      rcases found with ⟨element, found⟩
      rcases exists_typeRef_of_typeAt? found with ⟨ref, resolved⟩
      exact ⟨ref, resolved, (isArray_iff resolved).mpr ⟨element, found⟩⟩
  · have suits_eq : ∀ ref, CodeContext.suits ⟨image, types, outlined, length⟩ opcode ref =
        image.isClass ref := by
      intro ref
      unfold CodeContext.suits
      split
      · exact absurd rfl isNewarr
      · rfl
    simp only [if_neg isNewarr, suits_eq]
    constructor
    · intro found
      rcases found with ⟨ref, resolved, isClass⟩
      exact (isClass_iff resolved).mp isClass
    · intro found
      rcases found with ⟨c, found⟩
      rcases exists_typeRef_of_typeAt? found with ⟨ref, resolved⟩
      exact ⟨ref, resolved, (isClass_iff resolved).mpr ⟨c, found⟩⟩

/-- An instruction is linked exactly if its operand is good, whatever strings are known. -/
theorem Outlines.exists_linkOperand_iff (outlines : Outlines image outline claims)
    (made : outline.typeTable = .ok types) (at_place : outline.methods[place]? = some outlined)
    (at_place' : image.methods[place]? = some source) {ip : Nat} {insn : InstructionDef} :
    (∃ result, CodeContext.linkOperand ⟨image, types, outlined, source.code.length⟩ ip insn
        strings = .ok result) ↔
      insn.operand.kind = insn.opcode.operandKind ∧
        image.GoodOperand place source ip insn.opcode insn.operand := by
  rcases insn with ⟨opcode, operand⟩
  unfold CodeContext.linkOperand
  by_cases fits : operand.kind = opcode.operandKind
  · have fits' : ¬ (!InstructionDef.fits ⟨opcode, operand⟩) = true := by
      simp [InstructionDef.fits, fits]
    simp only [if_neg fits', fits, true_and]
    cases operand with
    | none =>
        simp only [GoodOperand, ← outlines.owner_iff_lists at_place]
        rw [← ite_not, Except.exists_ite_iff]
        simp [Option.isSome_iff_ne_none]
    | int value | char value | bool value | str text => simp [GoodOperand]
    | slot index =>
        have method := outlines.methods place _ _ at_place' at_place
        have count : CodeContext.slotCount ⟨image, types, outlined, source.code.length⟩ opcode =
            source.slotCount opcode := by
          cases opcode <;> first
            | exact length_of_typeRefs method.params
            | exact length_of_typeRefs method.locals
        simp only [GoodOperand, count, Except.exists_ite_iff]
    | branch offset => simp only [GoodOperand, Except.exists_ite_iff]
    | type index =>
        simp only [GoodOperand, Except.exists_bind_iff, Except.mapError_eq_ok_iff,
          Except.exists_ite_iff]
        exact exists_suits_iff
    | method index =>
        simp only [GoodOperand, Except.exists_bind_iff, Except.mapError_eq_ok_iff,
          ← exists_methodRef_iff, Except.ok.injEq, exists_eq', and_true]
    | field owner index =>
        simp only [Except.exists_bind_iff, Except.ok.injEq, exists_eq', and_true]
        exact outlines.exists_linkField_iff made
  · have unfit : (!InstructionDef.fits ⟨opcode, operand⟩) = true := by
      simp [InstructionDef.fits, fits]
    simp only [if_pos unfit, fits, false_and, iff_false]
    intro found
    rcases found with ⟨result, linked⟩
    cases linked

end Contexts

/-!
## Code
-/

end Image

namespace CodeContext

variable {context : CodeContext}

/-- Code is linked if its instructions are, when that does not depend on the strings. -/
theorem exists_linkCode_iff {good : Nat → InstructionDef → Prop}
    (linked_iff : ∀ ip insn strings,
      (∃ result, context.linkOperand ip insn strings = .ok result) ↔ good ip insn)
    {ip : Nat} {code : List InstructionDef} {strings : StringTable} :
    (∃ result, context.linkCode ip code strings = .ok result) ↔
      ∀ (i : Nat) insn, code[i]? = some insn → good (ip + i) insn := by
  induction code generalizing ip strings with
  | nil => simp [linkCode]
  | cons insn rest ih =>
      simp only [linkCode, Except.exists_bind_iff, Except.mapError_eq_ok_iff]
      constructor
      · intro found
        rcases found with ⟨⟨operand, middle⟩, first, ⟨later, last⟩, second, _⟩
        intro i insn' at_i
        cases i with
        | zero =>
            cases at_i
            exact (linked_iff ip insn strings).mp ⟨_, first⟩
        | succ i =>
            rw [← Nat.succ_add_eq_add_succ]
            exact ih.mp ⟨_, second⟩ i insn' at_i
      · intro goods
        rcases (linked_iff ip insn strings).mpr (goods 0 insn rfl) with ⟨⟨operand, middle⟩, first⟩
        have second : ∃ result, context.linkCode (ip + 1) rest middle = .ok result := by
          apply ih.mpr
          intro i insn' at_i
          rw [Nat.succ_add_eq_add_succ]
          exact goods (i + 1) insn' at_i
        rcases second with ⟨⟨later, last⟩, second⟩
        exact ⟨(operand, middle), first, (later, last), second, _, rfl⟩

end CodeContext

namespace Image

variable {image : Image} {outline : Outline} {claims : Claims} {types : Array TypeDescriptor}

theorem exists_linkMethods_iff {good : Nat → Prop} {sources : List (MethodOutline × MethodDef)}
    {strings : StringTable}
    (linked_iff : ∀ (i : Nat) outlined source, sources[i]? = some (outlined, source) → ∀ strings,
      (∃ result, CodeContext.linkCode ⟨image, types, outlined, source.code.length⟩ 0 source.code
        strings = .ok result) ↔ good i) :
    (∃ result, image.linkMethods types sources strings = .ok result) ↔
      ∀ i < sources.length, good i := by
  induction sources generalizing good strings with
  | nil => simp [linkMethods]
  | cons entry rest ih =>
      rcases entry with ⟨outlined, source⟩
      have first_iff := linked_iff 0 outlined source rfl
      have rest_iff : ∀ {strings}, (∃ result, image.linkMethods types rest strings = .ok result) ↔
          ∀ i < rest.length, good (i + 1) :=
        ih fun i outlined source at_i => linked_iff (i + 1) outlined source at_i
      simp only [linkMethods, Except.exists_bind_iff]
      constructor
      · intro found
        rcases found with ⟨⟨code, middle⟩, first, ⟨later, last⟩, second, _⟩
        intro i inside
        cases i with
        | zero => exact (first_iff strings).mp ⟨_, first⟩
        | succ i => exact rest_iff.mp ⟨_, second⟩ i (Nat.lt_of_succ_lt_succ inside)
      · intro goods
        rcases (first_iff strings).mpr (goods 0 (Nat.zero_lt_succ _)) with ⟨⟨code, middle⟩, first⟩
        have second : ∃ result, image.linkMethods types rest middle = .ok result :=
          rest_iff.mpr fun i inside => goods (i + 1) (Nat.succ_lt_succ inside)
        rcases second with ⟨⟨later, last⟩, second⟩
        exact ⟨(code, middle), first, (later, last), second, _, rfl⟩

namespace Outlines

theorem exists_linkMethods_iff (outlines : Outlines image outline claims)
    (made : outline.typeTable = .ok types) :
    (∃ result, image.linkMethods types (outline.methods.zip image.methods) .empty = .ok result) ↔
      ∀ (place : Nat) method (ip : Nat) insn, image.methods[place]? = some method →
        method.code[ip]? = some insn → insn.operand.kind = insn.opcode.operandKind ∧
          image.GoodOperand place method ip insn.opcode insn.operand := by
  have code_iff : ∀ (place : Nat) outlined source,
      (outline.methods.zip image.methods)[place]? = some (outlined, source) → ∀ strings,
      (∃ result, CodeContext.linkCode ⟨image, types, outlined, source.code.length⟩ 0 source.code
        strings = .ok result) ↔
      ∀ method (ip : Nat) insn, image.methods[place]? = some method →
        method.code[ip]? = some insn → insn.operand.kind = insn.opcode.operandKind ∧
          image.GoodOperand place method ip insn.opcode insn.operand := by
    intro place outlined source at_place strings
    rw [List.getElem?_zip_eq_some] at at_place
    rw [CodeContext.exists_linkCode_iff fun ip insn strings =>
      outlines.exists_linkOperand_iff made at_place.1 at_place.2]
    constructor
    · intro goods method ip insn at_place' at_ip
      rw [at_place.2] at at_place'
      cases at_place'
      have good := goods ip insn at_ip
      rwa [Nat.zero_add] at good
    · intro goods ip insn at_ip
      rw [Nat.zero_add]
      exact goods source ip insn at_place.2 at_ip
  rw [Image.exists_linkMethods_iff code_iff, List.length_zip, outlines.methods_length,
    Nat.min_self]
  constructor
  · intro goods place method ip insn at_place
    exact goods place (List.getElem?_eq_some_iff.mp at_place).1 method ip insn at_place
  · intro goods place _
    exact goods place

theorem exists_entryRef_iff (outlines : Outlines image outline claims) :
    (∃ entry, image.entryRef outline = .ok entry) ↔
      ∃ (place : Nat) (method : MethodDef), image.main.toInt = place ∧
        image.methods[place]? = some method ∧ ¬ image.Lists place ∧ method.params = [] ∧
        method.returns = none := by
  -- A method and its outline agree on what a method to start with must not have.
  have plain_iff : ∀ {place : Nat} {outlined : MethodOutline} {method : MethodDef},
      outline.methods[place]? = some outlined → image.methods[place]? = some method →
      (outlined.params = [] ∧ outlined.returns = none ∧ outlined.owner = none ↔
        ¬ image.Lists place ∧ method.params = [] ∧ method.returns = none) := by
    intro place outlined method at_place at_place'
    have same := outlines.methods place _ _ at_place' at_place
    have params : outlined.params = [] ↔ method.params = [] := by
      rw [← List.length_eq_zero_iff, ← List.length_eq_zero_iff, length_of_typeRefs same.params]
    have returns : outlined.returns = none ↔ method.returns = none := by
      have resolved := same.returns
      cases declared : method.returns with
      | none =>
          rw [declared] at resolved
          simp [← Except.ok.inj resolved]
      | some index =>
          rw [declared] at resolved
          rcases Except.bind_eq_ok_iff.mp resolved with ⟨ref, _, found⟩
          simp [← Except.ok.inj found]
    rw [← outlines.owner_iff_lists at_place, params, returns, Option.not_isSome_iff_eq_none]
    constructor
    · intro plain
      exact ⟨plain.2.2, plain.1, plain.2.1⟩
    · intro plain
      exact ⟨plain.2.1, plain.2.2, plain.1⟩
  simp only [entryRef_eq_ok_iff]
  constructor
  · intro started
    rcases started with ⟨entry, positive, resolved, outlined, at_place, plain⟩
    have inside : entry.index - builtinCount < image.methods.length := by
      rw [← outlines.methods_length]
      exact (List.getElem?_eq_some_iff.mp at_place).1
    have at_place' := List.getElem?_eq_getElem inside
    have place := placeOf?_eq_some_iff.mp (methodRef_eq_ok_iff.mp resolved)
    exact ⟨_, _, by omega, at_place', (plain_iff at_place at_place').mp plain⟩
  · intro named
    rcases named with ⟨place, method, same, at_place', plain⟩
    have inside : place < outline.methods.length := by
      rw [outlines.methods_length]
      exact (List.getElem?_eq_some_iff.mp at_place').1
    have at_place := List.getElem?_eq_getElem inside
    refine ⟨⟨builtinCount + place⟩, by omega, ?_, _, ?_, (plain_iff at_place at_place').mpr plain⟩
    · rw [methodRef_eq_ok_iff, placeOf?_eq_some_iff, ← outlines.methods_length]
      simp only
      omega
    · rw [Nat.add_sub_cancel_left]
      exact at_place

end Outlines

/-!
## Linking
-/

theorem exists_baseRef_iff {className : String} {place : Nat} {base : Option Int32} :
    (∃ found, image.baseRef className ⟨primitiveCount + place⟩ base = .ok found) ↔
      ∀ index, base = some index →
        (∃ b, image.typeAt? index = some (.ofClass b)) ∧ index.toInt ≠ place := by
  simp only [baseRef_eq_ok_iff]
  constructor
  · intro found index given
    rcases found with ⟨found, ⟨none, _⟩ | ⟨index', ref, given', _, resolved, isClass, other⟩⟩
    · rw [given] at none
      cases none
    · rw [given] at given'
      cases given'
      exact ⟨(isClass_iff resolved).mp isClass, fun same => other (index_of_typeRef resolved same)⟩
  · intro suits
    cases base with
    | none => exact ⟨none, Or.inl ⟨rfl, rfl⟩⟩
    | some index =>
        rcases suits index rfl with ⟨⟨b, found⟩, other⟩
        rcases exists_typeRef_of_typeAt? found with ⟨ref, resolved⟩
        refine ⟨some ref, Or.inr ⟨index, ref, rfl, rfl, resolved, ?_, ?_⟩⟩
        · exact (isClass_iff resolved).mpr ⟨b, found⟩
        · intro same
          have places := placeOf?_eq_some_iff.mp (typeRef_eq_ok_iff.mp resolved)
          rw [same] at places
          simp only at places
          omega

theorem Valid.exists_outline (valid : image.Valid) : ∃ outline, image.outline = .ok outline := by
  apply exists_outline_iff.mpr
  refine ⟨?_, valid.once, ?_⟩
  · intro place type at_place
    cases type with
    | ofArray element => exact valid.elements element (List.mem_of_getElem? at_place)
    | ofClass c =>
        have mem := List.mem_of_getElem? at_place
        refine ⟨exists_baseRef_iff.mpr ?_, valid.fields c mem, valid.methods c mem⟩
        intro base declared
        refine ⟨valid.bases c mem base declared, ?_⟩
        -- A class that extends itself is the shortest cycle.
        intro same
        exact valid.acyclic place (.single ⟨c, base, at_place, declared, same⟩)
  · intro method mem
    exact ⟨valid.returns method mem, valid.params method mem, valid.locals method mem⟩

/-- Linking accepts the valid images and no others. -/
theorem link_iff_valid (image : Image) :
    (∃ program, image.link = .ok program) ↔ image.Valid := by
  simp only [link, Except.exists_bind_iff]
  constructor
  · intro linked
    rcases linked with
      ⟨outline, outlined, types, made, ⟨methods, strings⟩, coded, entry, started, _⟩
    rcases outline_cases outlined with ⟨claims, outlines⟩
    rcases exists_outline_iff.mp ⟨outline, outlined⟩ with ⟨goods, once, signatures⟩
    have classes : ∀ c, .ofClass c ∈ image.types →
        ∃ place : Nat, image.GoodType ⟨primitiveCount + place⟩ (.ofClass c) := by
      intro c mem
      rcases List.getElem?_of_mem mem with ⟨place, at_place⟩
      exact ⟨place, goods place _ at_place⟩
    constructor
    · intro c mem
      rcases classes c mem with ⟨_, _, fields, _⟩
      exact fields
    · intro element mem
      rcases List.getElem?_of_mem mem with ⟨place, at_place⟩
      exact goods place _ at_place
    · exact fun method mem => (signatures method mem).returns
    · exact fun method mem => (signatures method mem).params
    · exact fun method mem => (signatures method mem).locals
    · intro c mem base declared
      rcases classes c mem with ⟨_, based, _⟩
      exact (exists_baseRef_iff.mp based base declared).1
    · exact outlines.exists_typeTable_iff.mp ⟨types, made⟩
    · intro c mem
      rcases classes c mem with ⟨_, _, _, methods⟩
      exact methods
    · exact once
    · exact (outlines.exists_linkMethods_iff made).mp ⟨_, coded⟩
    · exact outlines.exists_entryRef_iff.mp ⟨entry, started⟩
  · intro valid
    rcases valid.exists_outline with ⟨outline, outlined⟩
    rcases outline_cases outlined with ⟨claims, outlines⟩
    rcases outlines.exists_typeTable_iff.mpr valid.acyclic with ⟨types, made⟩
    rcases (outlines.exists_linkMethods_iff made).mpr valid.code with ⟨⟨methods, strings⟩, coded⟩
    rcases outlines.exists_entryRef_iff.mpr valid.main with ⟨entry, started⟩
    exact ⟨outline, outlined, types, made, (methods, strings), coded, entry, started, _, rfl⟩

end Image
end ObjectMachine
