import ObjectMachine.Proofs.Interning
import ObjectMachine.Proofs.Layouts

/-!
# Linked code

What linking checks need not be checked again when the code runs: a field operand names a field of
its class, a string operand a literal of the program, the built-in methods are at their places, and
virtual calls reach declared methods only.
-/

namespace ObjectMachine

/-!
## Operands
-/

structure Instruction.Suits (types : Array TypeDescriptor) (strings : StringTable)
    (insn : Instruction) : Prop where
  field : ∀ ref, insn.operand = .field ref →
    ∃ c, types[ref.owner.index]? = some (.ofClass c) ∧ c.fields[ref.index]? = some ref.slot
  literal : ∀ ref, insn.operand = .str ref → (strings.get? ref).isSome

theorem Instruction.Suits.extends {types : Array TypeDescriptor} {strings more : StringTable}
    {insn : Instruction} (suits : insn.Suits types strings) (grown : strings.Extends more) :
    insn.Suits types more := by
  refine ⟨suits.field, ?_⟩
  intro ref operand
  rcases Option.isSome_iff_exists.mp (suits.literal ref operand) with ⟨text, found⟩
  rw [grown.get? found]
  rfl

namespace CodeContext

variable {context : CodeContext} {strings strings' : StringTable}

theorem linkField_eq_ok {owner : Int32} {index : UInt32} {operand : Operand}
    (linked : context.linkField owner index = .ok operand) :
    ∃ (type : TypeRef) (c : ClassDescriptor) (slot : FieldSlot),
      operand = .field ⟨type, index.toNat, slot⟩ ∧ context.image.typeRef owner = .ok type ∧
      context.types[type.index]? = some (.ofClass c) ∧ c.fields[index.toNat]? = some slot := by
  rcases Except.bind_eq_ok_iff.mp linked with ⟨type, resolved, linked⟩
  cases found : context.fields? type with
  | none =>
      rw [found] at linked
      cases linked
  | some fields =>
      rw [found] at linked
      cases slot : fields[index.toNat]? with
      | none =>
          simp only [slot] at linked
          cases linked
      | some slot' =>
          simp only [slot] at linked
          cases linked
          unfold fields? at found
          split at found
          · next c known =>
              cases found
              exact ⟨type, c, slot', rfl, Except.mapError_eq_ok_iff.mp resolved, known, slot⟩
          · cases found

inductive LinksTo (context : CodeContext) (ip : Nat) (opcode : Opcode) (strings : StringTable) :
    OperandDef → Operand → StringTable → Prop where
  | none : (opcode = .ldthis → context.method.owner.isSome) →
      LinksTo context ip opcode strings .none .none strings
  | int (value : Int32) : LinksTo context ip opcode strings (.int value) (.int value) strings
  | char (value : Char) : LinksTo context ip opcode strings (.char value) (.char value) strings
  | bool (value : Bool) : LinksTo context ip opcode strings (.bool value) (.bool value) strings
  | str (text : String) : LinksTo context ip opcode strings (.str text)
      (.str (strings.intern text).1) (strings.intern text).2
  | slot {index : UInt32} : index.toNat < context.slotCount opcode →
      LinksTo context ip opcode strings (.slot index) (.slot index.toNat) strings
  | branch {offset : Int32} : 0 ≤ ip + 1 + offset.toInt ∧ ip + 1 + offset.toInt < context.length →
      LinksTo context ip opcode strings (.branch offset) (.branch offset.toInt) strings
  | type {index : Int32} {ref : TypeRef} : context.image.typeRef index = .ok ref →
      context.suits opcode ref = true →
      LinksTo context ip opcode strings (.type index) (.type ref) strings
  | method {index : Int32} {ref : MethodRef} : context.image.methodRef index = .ok ref →
      LinksTo context ip opcode strings (.method index) (.method ref) strings
  | field {owner : Int32} {index : UInt32} {type : TypeRef} {slot : FieldSlot}
      {c : ClassDescriptor} : context.image.typeRef owner = .ok type →
      context.types[type.index]? = some (.ofClass c) → c.fields[index.toNat]? = some slot →
      LinksTo context ip opcode strings (.field owner index) (.field ⟨type, index.toNat, slot⟩)
        strings

theorem linkOperand_cases {ip : Nat} {insn : InstructionDef} {operand : Operand}
    (linked : context.linkOperand ip insn strings = .ok (operand, strings')) :
    insn.operand.kind = insn.opcode.operandKind ∧
      context.LinksTo ip insn.opcode strings insn.operand operand strings' := by
  unfold linkOperand at linked
  split at linked
  · cases linked
  · next unfit =>
      refine ⟨by simpa [InstructionDef.fits] using unfit, ?_⟩
      cases source : insn.operand with
      | none =>
          simp only [source] at linked
          split at linked
          · cases linked
          · next allowed =>
              cases linked
              refine .none ?_
              intro isThis
              rw [← Option.not_isNone, Bool.not_eq_true']
              exact Bool.eq_false_iff.mpr fun absent => allowed ⟨isThis, absent⟩
      | int value | char value | bool value | str text =>
          simp only [source] at linked
          cases linked
          constructor
      | slot index =>
          simp only [source] at linked
          split at linked
          · next inside =>
              cases linked
              exact .slot inside
          · cases linked
      | branch offset =>
          simp only [source] at linked
          split at linked
          · next inside =>
              cases linked
              exact .branch inside
          · cases linked
      | type index =>
          simp only [source] at linked
          rcases Except.bind_eq_ok_iff.mp linked with ⟨ref, resolved, linked⟩
          split at linked
          · next suits =>
              cases linked
              exact .type (Except.mapError_eq_ok_iff.mp resolved) suits
          · cases linked
      | method index =>
          simp only [source] at linked
          rcases Except.bind_eq_ok_iff.mp linked with ⟨ref, resolved, linked⟩
          cases linked
          exact .method (Except.mapError_eq_ok_iff.mp resolved)
      | field owner index =>
          simp only [source] at linked
          rcases Except.bind_eq_ok_iff.mp linked with ⟨operand', found, linked⟩
          cases linked
          rcases linkField_eq_ok found with ⟨type, c, slot, rfl, resolved, known, at_i⟩
          exact .field resolved known at_i

/-- Linking an operand adds at most a literal to the table of strings. -/
theorem linkOperand_eq_ok {ip : Nat} {insn : InstructionDef} {operand : Operand}
    (linked : context.linkOperand ip insn strings = .ok (operand, strings')) :
    strings.Grows strings' ∧
      Instruction.Suits context.types strings' ⟨insn.opcode, operand⟩ := by
  rcases linkOperand_cases linked with ⟨_, links⟩
  generalize insn.operand = source at links
  cases links with
  | str text =>
      refine ⟨strings.grows_intern text, nofun, ?_⟩
      intro ref equal
      cases equal
      exact strings.isSome_get?_intern text
  | field _ known at_i =>
      refine ⟨refl_of StringTable.Grows strings, ?_, nofun⟩
      intro ref equal
      cases equal
      exact ⟨_, known, at_i⟩
  | _ => exact ⟨refl_of StringTable.Grows strings, nofun, nofun⟩

theorem linkCode_eq_ok {ip : Nat} {source : List InstructionDef} {code : List Instruction}
    (linked : context.linkCode ip source strings = .ok (code, strings')) :
    strings.Grows strings' ∧
      ∀ insn ∈ code, insn.Suits context.types strings' := by
  induction source generalizing ip strings code with
  | nil =>
      cases linked
      refine ⟨refl_of StringTable.Grows _, ?_⟩
      intro insn mem
      cases mem
  | cons insn rest ih =>
      rcases Except.bind_eq_ok_iff.mp linked with ⟨⟨operand, middle⟩, first, linked⟩
      rcases Except.bind_eq_ok_iff.mp linked with ⟨⟨later, last⟩, second, linked⟩
      cases linked
      rcases linkOperand_eq_ok (Except.mapError_eq_ok_iff.mp first) with ⟨grown, suits⟩
      rcases ih second with ⟨grown', suits'⟩
      refine ⟨trans_of StringTable.Grows grown grown', ?_⟩
      intro other mem
      cases mem with
      | head => exact suits.extends grown'.keeps
      | tail _ mem => exact suits' other mem

theorem length_linkCode {ip : Nat} {source : List InstructionDef} {code : List Instruction}
    (linked : context.linkCode ip source strings = .ok (code, strings')) :
    code.length = source.length := by
  induction source generalizing ip strings code with
  | nil =>
      cases linked
      rfl
  | cons insn rest ih =>
      rcases Except.bind_eq_ok_iff.mp linked with ⟨⟨operand, middle⟩, _, linked⟩
      rcases Except.bind_eq_ok_iff.mp linked with ⟨⟨later, last⟩, second, linked⟩
      cases linked
      rw [List.length_cons, List.length_cons, ih second]

/-- Every instruction has been linked, with a table that has only grown since. -/
theorem links_of_linkCode {ip : Nat} {source : List InstructionDef} {code : List Instruction}
    (linked : context.linkCode ip source strings = .ok (code, strings')) {i : Nat}
    {insn : Instruction} (at_i : code[i]? = some insn) :
    ∃ operand before after, source[i]? = some ⟨insn.opcode, operand⟩ ∧
      operand.kind = insn.opcode.operandKind ∧
      context.LinksTo (ip + i) insn.opcode before operand insn.operand after ∧
      after.Extends strings' := by
  induction source generalizing ip strings code i with
  | nil =>
      cases linked
      cases at_i
  | cons first rest ih =>
      rcases Except.bind_eq_ok_iff.mp linked with ⟨⟨operand, middle⟩, front, linked⟩
      rcases Except.bind_eq_ok_iff.mp linked with ⟨⟨later, last⟩, back, linked⟩
      cases linked
      cases i with
      | zero =>
          cases at_i
          rcases linkOperand_cases (Except.mapError_eq_ok_iff.mp front) with ⟨fits, links⟩
          exact ⟨first.operand, strings, middle, rfl, fits, links, (linkCode_eq_ok back).1.keeps⟩
      | succ i =>
          rcases ih back at_i with ⟨operand, before, after, at_i', fits, links, grown⟩
          rw [Nat.succ_add_eq_add_succ] at links
          exact ⟨operand, before, after, at_i', fits, links, grown⟩

end CodeContext

theorem Image.linkMethods_eq_ok {image : Image} {types : Array TypeDescriptor}
    {sources : List (MethodOutline × MethodDef)} {methods : List MethodDescriptor}
    {strings strings' : StringTable}
    (linked : image.linkMethods types sources strings = .ok (methods, strings')) :
    strings.Grows strings' ∧
      ∀ method ∈ methods, method.builtin = none ∧
        ∀ insn ∈ method.code, insn.Suits types strings' := by
  induction sources generalizing strings methods with
  | nil =>
      cases linked
      exact ⟨refl_of StringTable.Grows _, nofun⟩
  | cons source rest ih =>
      rcases Except.bind_eq_ok_iff.mp linked with ⟨⟨code, middle⟩, first, linked⟩
      rcases Except.bind_eq_ok_iff.mp linked with ⟨⟨later, last⟩, second, linked⟩
      cases linked
      rcases CodeContext.linkCode_eq_ok first with ⟨grown, suits⟩
      rcases ih second with ⟨grown', suits'⟩
      refine ⟨trans_of StringTable.Grows grown grown', ?_⟩
      intro method mem
      cases mem with
      | head =>
          refine ⟨rfl, ?_⟩
          intro insn mem
          exact (suits insn (List.mem_toArray.mp mem)).extends grown'.keeps
      | tail _ mem => exact suits' method mem

/-!
## Methods of classes
-/

namespace Image

variable {image : Image}

theorem claimMethods_eq_ok {className : String} {this : TypeRef} {indices : List Int32}
    {claims claims' : Claims} {methods : List MethodRef}
    (claimed : image.claimMethods className this indices claims = .ok (methods, claims')) :
    ∀ method ∈ methods, builtinCount ≤ method.index := by
  induction indices generalizing claims methods with
  | nil =>
      cases claimed
      exact nofun
  | cons index rest ih =>
      rcases Except.bind_eq_ok_iff.mp claimed with ⟨method, _, claimed⟩
      split at claimed
      · cases claimed
      · next declared =>
          split at claimed
          · cases claimed
          · rcases Except.bind_eq_ok_iff.mp claimed with ⟨⟨later, claims''⟩, second, claimed⟩
            cases claimed
            intro other mem
            cases mem with
            | head => exact Nat.le_of_not_lt declared
            | tail _ mem => exact ih second other mem

theorem outlineTypes_eq_ok {place : Nat} {types : List TypeDef} {claims claims' : Claims}
    {outlines : List TypeOutline}
    (outlined : image.outlineTypes place types claims = .ok (outlines, claims')) :
    ∀ c, .ofClass c ∈ outlines → ∀ method ∈ c.methods, builtinCount ≤ method.index := by
  induction types generalizing place claims outlines with
  | nil =>
      cases outlined
      exact nofun
  | cons type rest ih =>
      rcases Except.bind_eq_ok_iff.mp outlined with ⟨⟨first, middle⟩, here, outlined⟩
      rcases Except.bind_eq_ok_iff.mp outlined with ⟨⟨later, last⟩, second, outlined⟩
      cases outlined
      intro c mem
      rcases List.mem_cons.mp mem with same | mem
      · subst same
        cases type with
        | ofArray element =>
            rcases Except.bind_eq_ok_iff.mp here with ⟨_, _, here⟩
            cases here
        | ofClass source =>
            rcases Except.bind_eq_ok_iff.mp here with ⟨base, _, here⟩
            rcases Except.bind_eq_ok_iff.mp here with ⟨ownFields, _, here⟩
            rcases Except.bind_eq_ok_iff.mp here with ⟨⟨methods, claims''⟩, claimed, here⟩
            cases here
            exact claimMethods_eq_ok claimed
      · exact ih second c mem

theorem outline_eq_ok {outline : Outline} (outlined : image.outline = .ok outline)
    {ref : TypeRef} {c : ClassOutline} (found : outline.class? ref = some c) :
    ∀ method ∈ c.methods, builtinCount ≤ method.index := by
  rcases Except.bind_eq_ok_iff.mp outlined with ⟨⟨types, claims⟩, first, outlined⟩
  rcases Except.bind_eq_ok_iff.mp outlined with ⟨methods, _, outlined⟩
  cases outlined
  unfold Outline.class? at found
  split at found
  · cases found
  · split at found
    · next known =>
        cases found
        exact outlineTypes_eq_ok first c (List.mem_of_getElem? known)
    · cases found

end Image

/-!
## Linked programs
-/

/-- What a program promises to those who run it. -/
structure Program.Linked (program : Program) : Prop where
  orderly : program.Orderly
  /-- Fields keep their places in descendants. -/
  inherits : ∀ derived ref b, program.isSubclass derived ref = true → program.class? ref = some b →
    ∃ c, program.class? derived = some c ∧ b.fields <+: c.fields
  /-- Operands name what there is. -/
  suits : ∀ ref (method : MethodDescriptor) (ip : Nat) insn, program.method? ref = some method →
    method.code[ip]? = some insn → insn.Suits program.types program.strings
  /-- A method that is built in takes what it should, and no receiver. -/
  builtins : ∀ ref method builtin, program.method? ref = some method →
    method.builtin = some builtin → method = builtin.descriptor
  /-- Virtual calls reach declared methods. -/
  dispatch : ∀ type name ref method, program.resolveVirtual? type name = some ref →
    program.method? ref = some method → method.builtin = none
  /-- The primitive types are at their places. -/
  primitives : ∀ p : Primitive, program.kindOf p.ref = p.kind
  distinct : program.strings.Distinct
  empty : program.strings.get? .empty = some ""

namespace Program

variable {image : Image} {program : Program}

theorem method_cases {methods : List MethodDescriptor} {ref : MethodRef}
    {method : MethodDescriptor}
    (made : program.methods = (Builtin.all.map Builtin.descriptor ++ methods).toArray)
    (found : program.method? ref = some method) :
    (ref.index < Image.builtinCount ∧ ∃ builtin, method = Builtin.descriptor builtin) ∨
      (Image.builtinCount ≤ ref.index ∧
        methods[ref.index - Image.builtinCount]? = some method) := by
  have count : (Builtin.all.map Builtin.descriptor).length = Image.builtinCount := rfl
  rw [method?, made, List.getElem?_toArray] at found
  by_cases front : ref.index < Image.builtinCount
  · left
    rw [List.getElem?_append_left (by rw [count]; exact front), List.getElem?_map] at found
    rcases Option.map_eq_some_iff.mp found with ⟨builtin, _, rfl⟩
    exact ⟨front, builtin, rfl⟩
  · right
    rw [List.getElem?_append_right (by rw [count]; omega), count] at found
    exact ⟨Nat.le_of_not_lt front, found⟩

/-- A program that came from an image keeps these promises. -/
theorem linked_of_link (linked : image.link = .ok program) : program.Linked := by
  rcases Image.link_cases linked with ⟨outline, methods, outlined, made, coded, table⟩
  rcases Image.linkMethods_eq_ok coded with ⟨grown, declared⟩
  refine ⟨orderly_of_link linked, fun _ _ _ => prefix_of_isSubclass linked, ?_, ?_, ?_, ?_, ?_, ?_⟩
  · intro ref method ip insn found at_ip
    rcases method_cases table found with ⟨_, builtin, rfl⟩ | ⟨_, at_i⟩
    · simp [Builtin.descriptor] at at_ip
    · exact (declared method (List.mem_of_getElem? at_i)).2 insn (Array.mem_of_getElem? at_ip)
  · intro ref method builtin found isBuiltin
    rcases method_cases table found with ⟨_, builtin', rfl⟩ | ⟨_, at_i⟩
    · cases isBuiltin
      rfl
    · rw [(declared method (List.mem_of_getElem? at_i)).1] at isBuiltin
      cases isBuiltin
  · intro type name ref method resolved found
    rcases Option.bind_eq_some_iff.mp resolved with ⟨c, known, entry⟩
    rcases Outline.class_cases made (class?_eq_some_iff.mp known) with
      ⟨o, chain, _, chained, rfl⟩
    rcases Outline.listed_of_lookup entry with ⟨link, mem', names⟩
    have on_chain := chained.classes mem'
    have late := Image.outline_eq_ok outlined on_chain ref names
    rcases method_cases table found with ⟨early, _⟩ | ⟨_, at_i⟩
    · omega
    · exact (declared method (List.mem_of_getElem? at_i)).1
  · intro p
    have at_p : Primitive.all[p.ref.index]? = some p := by cases p <;> rfl
    rw [kindOf, type?, (Outline.declares_of_typeTable made).primitive at_p]
    rfl
  · exact grown.distinct StringTable.distinct_empty
  · exact grown.keeps.get? rfl

end Program
end ObjectMachine
