import ObjectMachine.Proofs.Outlines

/-!
# Checked code

An instruction of a linked program has an operand of the kind that its opcode takes. Slots are those
of its method, branches stay in its code, and types are what the opcode makes or tests. A method
that needs a receiver belongs to a class, whose descendants all have a method of its name; and the
method that a program starts with belongs to none.

So the machine never finds what linking has ruled out.
-/

namespace ObjectMachine

/-!
## Operands
-/

def Operand.kind : Operand → OperandKind
  | .none => .none
  | .int _ => .int
  | .char _ => .char
  | .bool _ => .bool
  | .str _ => .str
  | .slot _ => .slot
  | .branch _ => .branch
  | .type _ => .type
  | .method _ => .method
  | .field _ => .field

def MethodDescriptor.slotCount (method : MethodDescriptor) : Opcode → Nat
  | .ldarg | .starg => method.params.length
  | _ => method.locals.length

/-- The instruction at a position of a method has passed the checks of linking. -/
structure Instruction.Checked (program : Program) (method : MethodDescriptor) (ip : Nat)
    (insn : Instruction) : Prop where
  kind : insn.operand.kind = insn.opcode.operandKind
  receiver : insn.opcode = .ldthis → method.owner.isSome
  slot : ∀ index, insn.operand = .slot index → index < method.slotCount insn.opcode
  branch : ∀ offset : Int, insn.operand = .branch offset →
    0 ≤ ip + 1 + offset ∧ ip + 1 + offset < method.code.size
  isArray : ∀ ref, insn.operand = .type ref → insn.opcode = .newarr → (program.array? ref).isSome
  isClass : ∀ ref, insn.operand = .type ref → insn.opcode ≠ .newarr → (program.class? ref).isSome

namespace CodeContext

structure Passes (context : CodeContext) (ip : Nat) (insn : Instruction) : Prop where
  kind : insn.operand.kind = insn.opcode.operandKind
  receiver : insn.opcode = .ldthis → context.method.owner.isSome
  slot : ∀ index, insn.operand = .slot index → index < context.slotCount insn.opcode
  branch : ∀ offset : Int, insn.operand = .branch offset →
    0 ≤ ip + 1 + offset ∧ ip + 1 + offset < context.length
  type : ∀ ref, insn.operand = .type ref → context.suits insn.opcode ref = true

variable {context : CodeContext} {strings strings' : StringTable}

theorem LinksTo.passes {ip : Nat} {opcode : Opcode} {source : OperandDef} {operand : Operand}
    (links : context.LinksTo ip opcode strings source operand strings')
    (fits : source.kind = opcode.operandKind) : context.Passes ip ⟨opcode, operand⟩ := by
  -- Only an instruction without an operand can ask for a receiver.
  have noThis : source.kind ≠ .none → opcode = .ldthis → context.method.owner.isSome := by
    intro other isThis
    rw [fits, isThis] at other
    exact absurd rfl other
  cases links with
  | none owned => exact ⟨fits, owned, nofun, nofun, nofun⟩
  | slot inside =>
      refine ⟨fits, noThis nofun, ?_, nofun, nofun⟩
      intro index same
      cases same
      exact inside
  | branch inside =>
      refine ⟨fits, noThis nofun, nofun, ?_, nofun⟩
      intro offset same
      cases same
      exact inside
  | type _ suits =>
      refine ⟨fits, noThis nofun, nofun, nofun, ?_⟩
      intro ref same
      cases same
      exact suits
  | _ => exact ⟨fits, noThis nofun, nofun, nofun, nofun⟩

theorem passes_of_linkCode {ip : Nat} {source : List InstructionDef} {code : List Instruction}
    (linked : context.linkCode ip source strings = .ok (code, strings')) {i : Nat}
    {insn : Instruction} (at_i : code[i]? = some insn) : context.Passes (ip + i) insn := by
  rcases links_of_linkCode linked at_i with ⟨_, _, _, _, fits, links, _⟩
  exact links.passes fits

end CodeContext

/-!
## Methods
-/

theorem Image.getElem?_linkMethods {image : Image} {types : Array TypeDescriptor}
    {sources : List (MethodOutline × MethodDef)} {methods : List MethodDescriptor}
    {strings strings' : StringTable}
    (linked : image.linkMethods types sources strings = .ok (methods, strings')) {i : Nat}
    {method : MethodDescriptor} (at_i : methods[i]? = some method) :
    ∃ outlined source code before after, sources[i]? = some (outlined, source) ∧
      method = outlined.descriptor code ∧
      CodeContext.linkCode ⟨image, types, outlined, source.code.length⟩ 0 source.code before =
        .ok (code, after) ∧ after.Extends strings' := by
  induction sources generalizing strings methods i with
  | nil =>
      cases linked
      cases at_i
  | cons entry rest ih =>
      rcases entry with ⟨outlined, source⟩
      rcases Except.bind_eq_ok_iff.mp linked with ⟨⟨code, middle⟩, first, linked⟩
      rcases Except.bind_eq_ok_iff.mp linked with ⟨⟨later, last⟩, second, linked⟩
      cases linked
      cases i with
      | zero =>
          cases at_i
          exact ⟨outlined, source, code, strings, middle, rfl, rfl, first,
            (linkMethods_eq_ok second).1.keeps⟩
      | succ i => exact ih second at_i

theorem Image.length_linkMethods {image : Image} {types : Array TypeDescriptor}
    {sources : List (MethodOutline × MethodDef)} {methods : List MethodDescriptor}
    {strings strings' : StringTable}
    (linked : image.linkMethods types sources strings = .ok (methods, strings')) :
    methods.length = sources.length := by
  induction sources generalizing strings methods with
  | nil =>
      cases linked
      rfl
  | cons entry rest ih =>
      rcases Except.bind_eq_ok_iff.mp linked with ⟨⟨code, middle⟩, _, linked⟩
      rcases Except.bind_eq_ok_iff.mp linked with ⟨⟨later, last⟩, second, linked⟩
      cases linked
      rw [List.length_cons, List.length_cons, ih second]

theorem Image.entryRef_eq_ok_iff {image : Image} {outline : Outline} {entry : MethodRef} :
    image.entryRef outline = .ok entry ↔ 0 ≤ image.main.toInt ∧
      image.methodRef image.main = .ok entry ∧
      ∃ method, outline.methods[entry.index - builtinCount]? = some method ∧
        method.params = [] ∧ method.returns = none ∧ method.owner = none := by
  unfold entryRef
  by_cases negative : image.main.toInt < 0
  · rw [if_pos negative]
    constructor
    · intro started
      cases started
    · intro declared
      omega
  · rw [if_neg negative, Except.bind_eq_ok_iff]
    simp only [Except.mapError_eq_ok_iff]
    constructor
    · intro started
      rcases started with ⟨ref, resolved, started⟩
      split at started
      · cases started
      · next method at_i =>
          split at started
          · cases started
          · next plain =>
              split at started
              · cases started
              · next free =>
                  cases started
                  refine ⟨by omega, resolved, method, at_i, ?_⟩
                  simpa [and_assoc] using And.intro plain free
    · intro given
      rcases given with ⟨_, resolved, method, at_i, params, returns, owner⟩
      refine ⟨entry, resolved, ?_⟩
      simp [at_i, params, returns, owner]

/-!
## Linked programs
-/

structure Program.CheckedCode (program : Program) : Prop where
  instructions : ∀ ref method (ip : Nat) insn, program.method? ref = some method →
    method.code[ip]? = some insn → insn.Checked program method ip
  /-- Descendants of the class of a method have a method of its name. -/
  overridden : ∀ ref method owner actual, program.method? ref = some method →
    method.owner = some owner → program.isSubclass actual owner = true →
    (program.resolveVirtual? actual method.name).isSome
  /-- The program starts with a method that needs no receiver. -/
  entry : ∀ method, program.method? program.entry = some method → method.owner = none

namespace Program

variable {image : Image} {program : Program} {outline : Outline} {claims : Claims}

theorem class?_of_outline (made : outline.typeTable = .ok program.types) {ref : TypeRef}
    {o : ClassOutline} (known : outline.class? ref = some o) :
    ∃ chain, outline.Chained ref chain ∧
      program.class? ref = some (outline.describeClass o chain) := by
  rcases Outline.exists_chained_of_typeTable made known with ⟨chain, chained, found⟩
  exact ⟨chain, chained, class?_eq_some_iff.mpr found⟩

theorem isSome_class? (outlines : Image.Outlines image outline claims)
    (made : outline.typeTable = .ok program.types) {ref : TypeRef}
    (isClass : image.isClass ref = true) : (program.class? ref).isSome := by
  unfold Image.isClass at isClass
  split at isClass
  · next c found =>
      rcases outlines.class?_of_class found with ⟨o, known, _⟩
      rcases class?_of_outline made known with ⟨chain, _, found'⟩
      rw [found']
      rfl
  · cases isClass

theorem isSome_array? (outlines : Image.Outlines image outline claims)
    (made : outline.typeTable = .ok program.types) {ref : TypeRef}
    (isArray : image.isArray ref = true) : (program.array? ref).isSome := by
  unfold Image.isArray at isArray
  split at isArray
  · next element found =>
      rcases outlines.type found with ⟨outlined, at_i, late, same⟩
      cases same with
      | ofArray resolved =>
          have at_i' := (Outline.declares_of_typeTable made).array at_i
          rw [Nat.add_sub_of_le late] at at_i'
          rw [array?_eq_some_iff.mpr at_i']
          rfl
  · cases isArray

theorem checked_of_passes (outlines : Image.Outlines image outline claims)
    (made : outline.typeTable = .ok program.types) {outlined : MethodOutline}
    {code : List Instruction} {ip : Nat} {insn : Instruction}
    (passes : CodeContext.Passes ⟨image, program.types, outlined, code.length⟩ ip insn) :
    insn.Checked program (outlined.descriptor code) ip := by
  refine ⟨passes.kind, passes.receiver, ?_, passes.branch, ?_, ?_⟩
  · intro index same
    have inside := passes.slot index same
    cases opcode : insn.opcode <;> rw [opcode] at inside <;> exact inside
  · intro ref same isNewarr
    have suits := passes.type ref same
    rw [isNewarr] at suits
    exact isSome_array? outlines made suits
  · intro ref same notNewarr
    have suits := passes.type ref same
    have isClass : image.isClass ref = true := by
      cases opcode : insn.opcode <;> rw [opcode] at suits notNewarr <;>
        first | exact suits | exact absurd rfl notNewarr
    exact isSome_class? outlines made isClass

theorem method?_of_outline {methods : List MethodDescriptor} {strings : StringTable}
    (outlines : Image.Outlines image outline claims)
    (coded : image.linkMethods program.types (outline.methods.zip image.methods) .empty =
      .ok (methods, strings))
    (table : program.methods = (Builtin.all.map Builtin.descriptor ++ methods).toArray) {i : Nat}
    {outlined : MethodOutline} (at_i : outline.methods[i]? = some outlined) :
    ∃ source code before after, image.methods[i]? = some source ∧
      program.method? ⟨Image.builtinCount + i⟩ = some (outlined.descriptor code) ∧
      CodeContext.linkCode ⟨image, program.types, outlined, source.code.length⟩ 0 source.code
        before = .ok (code, after) ∧ after.Extends strings := by
  have inside : i < methods.length := by
    have inside' := (List.getElem?_eq_some_iff.mp at_i).1
    rw [Image.length_linkMethods coded, List.length_zip, outlines.methods_length, Nat.min_self,
      ← outlines.methods_length]
    exact inside'
  have at_i' := List.getElem?_eq_getElem inside
  rcases Image.getElem?_linkMethods coded at_i' with
    ⟨outlined', source, code, before, after, at_i'', same, coded', grown⟩
  rw [List.getElem?_zip_eq_some, at_i] at at_i''
  cases at_i''.1
  refine ⟨source, code, before, after, at_i''.2, ?_, coded', grown⟩
  have count : (Builtin.all.map Builtin.descriptor).length = Image.builtinCount := rfl
  rw [method?, table, List.getElem?_toArray,
    List.getElem?_append_right (by rw [count]; exact Nat.le_add_right _ _), count,
    Nat.add_sub_cancel_left, at_i', same]

theorem isSome_lookup_of_listed
    (made : outline.typeTable = .ok program.types) {owner : TypeRef} {o : ClassOutline}
    (known : outline.class? owner = some o) {ref : MethodRef} (listed : ref ∈ o.methods) :
    ∃ c, program.class? owner = some c ∧ (c.vtable.lookup (outline.methodName ref)).isSome := by
  rcases class?_of_outline made known with ⟨chain, chained, found⟩
  refine ⟨_, found, ?_⟩
  rcases chained.head known with ⟨above, rfl⟩
  have own : (outline.lastNamed? (outline.methodName ref) o).isSome := by
    rw [Outline.lastNamed?, List.getLast?_isSome]
    exact List.ne_nil_of_mem (List.mem_filter.mpr ⟨listed, beq_self_eq_true _⟩)
  show ((outline.layoutOf ((owner, o) :: above)).vtable.lookup _).isSome
  rw [Outline.lookup_layoutOf, List.findSome?_isSome_iff]
  exact ⟨_, List.mem_cons_self, own⟩

theorem entry_of_link (linked : image.link = .ok program) :
    ∃ outline, image.outline = .ok outline ∧ image.entryRef outline = .ok program.entry := by
  rcases Except.bind_eq_ok_iff.mp linked with ⟨outline, outlined, linked⟩
  rcases Except.bind_eq_ok_iff.mp linked with ⟨types, _, linked⟩
  rcases Except.bind_eq_ok_iff.mp linked with ⟨⟨methods, strings⟩, _, linked⟩
  rcases Except.bind_eq_ok_iff.mp linked with ⟨entry, started, same⟩
  cases same
  exact ⟨outline, outlined, started⟩

theorem checkedCode_of_link (linked : image.link = .ok program) : program.CheckedCode := by
  rcases Image.link_cases linked with ⟨outline, methods, outlined, made, coded, table⟩
  rcases Image.outline_cases outlined with ⟨claims, outlines⟩
  -- What is not built in has an outline at its place.
  have declared : ∀ ref method, program.method? ref = some method →
      (∃ builtin, method = Builtin.descriptor builtin) ∨
      ∃ i outlined code, ref = ⟨Image.builtinCount + i⟩ ∧ outline.methods[i]? = some outlined ∧
        method = outlined.descriptor code ∧ ∀ (ip : Nat) insn, code[ip]? = some insn →
          CodeContext.Passes ⟨image, program.types, outlined, code.length⟩ ip insn := by
    intro ref method found
    rcases method_cases table found with ⟨_, builtin⟩ | ⟨late, at_i⟩
    · exact Or.inl builtin
    · rcases Image.getElem?_linkMethods coded at_i with
        ⟨outlined, source, code, _, _, at_i', same, coded', _⟩
      rw [List.getElem?_zip_eq_some] at at_i'
      refine Or.inr ⟨_, outlined, code, ?_, at_i'.1, same, ?_⟩
      · rw [Nat.add_sub_of_le late]
      · intro ip insn at_ip
        have passed := CodeContext.passes_of_linkCode coded' at_ip
        rwa [Nat.zero_add, ← CodeContext.length_linkCode coded'] at passed
  constructor
  · intro ref method ip insn found at_ip
    rcases declared ref method found with ⟨builtin, rfl⟩ | ⟨i, outlined, code, _, _, rfl, passes⟩
    · simp [Builtin.descriptor] at at_ip
    · have at_ip' : code[ip]? = some insn := by simpa [MethodOutline.descriptor] using at_ip
      exact checked_of_passes outlines made (passes ip insn at_ip')
  · intro ref method owner actual found owned descends
    rcases declared ref method found with ⟨builtin, rfl⟩ | ⟨i, outlined, code, rfl, at_i, rfl, _⟩
    · cases owned
    · rcases outlines.listed_by_owner at_i owned with ⟨o, known, listed⟩
      rcases isSome_lookup_of_listed made known listed with ⟨c, found', entered⟩
      have named : outline.methodName ⟨Image.builtinCount + i⟩ = outlined.name := by
        simp [Outline.methodName, at_i]
      rw [named] at entered
      have inherits : ∃ c, program.class? actual = some c ∧
          (c.vtable.lookup outlined.name).isSome := by
        refine of_isSubclass linked ?_ descends found' entered
        intro c b nameOf source same entered
        have tables : c.vtable = (b.layout.extend nameOf source).vtable :=
          congrArg Layout.vtable same
        rw [tables, Layout.lookup_extend, Option.isSome_or, Bool.or_eq_true]
        exact Or.inr entered
      rcases inherits with ⟨c', known', entered'⟩
      simpa [resolveVirtual?, known', MethodOutline.descriptor] using entered'
  · intro method found
    rcases entry_of_link linked with ⟨outline', outlined', started⟩
    rw [outlined] at outlined'
    cases outlined'
    rcases declared _ method found with ⟨builtin, rfl⟩ | ⟨i, outlined, code, place, at_i, rfl, _⟩
    · rfl
    · rcases Image.entryRef_eq_ok_iff.mp started with ⟨_, _, method, at_i', _, _, free⟩
      rw [place, Nat.add_sub_cancel_left, at_i] at at_i'
      cases at_i'
      exact free

end Program
end ObjectMachine
