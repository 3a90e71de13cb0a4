import ObjectMachine.Proofs.ClassLayouts

/-!
# What linking keeps of an image

A linked program is the image that it came from. Behind the built-in types and methods it has those
of the image in their order, under the same names, and every number stands for the same entry as
before, also where it names one that is declared later. The code is the same code instruction by
instruction, and the table of strings has the literals in the order in which they first occur.
-/

namespace ObjectMachine

/-!
## Numbers
-/

namespace Image

variable {image : Image}

/-- The place that a number stands for: a negative number counts through the built-in entries, any
other through the declared ones behind them. -/
def place (builtins : Nat) (index : Int32) : Nat :=
  if index.toInt < 0 then (-1 - index.toInt).toNat else builtins + index.toInt.toNat

def typePlace (index : Int32) : TypeRef :=
  ⟨place 4 index⟩

def methodPlace (index : Int32) : MethodRef :=
  ⟨place 7 index⟩

theorem place_of_placeOf? {builtins declared found : Nat} {index : Int32}
    (resolved : placeOf? builtins declared index = some found) : found = place builtins index := by
  unfold place
  rcases placeOf?_eq_some_iff.mp resolved with ⟨negative, _, _⟩ | ⟨positive, _, _⟩
  · rw [if_pos negative]
    omega
  · rw [if_neg (by omega)]
    omega

theorem eq_typePlace {index : Int32} {ref : TypeRef} (resolved : image.typeRef index = .ok ref) :
    ref = typePlace index := by
  have found : ref.index = place 4 index := place_of_placeOf? (typeRef_eq_ok_iff.mp resolved)
  rw [typePlace, ← found]

theorem eq_methodPlace {index : Int32} {ref : MethodRef}
    (resolved : image.methodRef index = .ok ref) : ref = methodPlace index := by
  have found : ref.index = place 7 index := place_of_placeOf? (methodRef_eq_ok_iff.mp resolved)
  rw [methodPlace, ← found]

theorem methodPlace_of_toInt {index : Int32} {i : Nat} (same : index.toInt = i) :
    methodPlace index = ⟨7 + i⟩ := by
  rw [methodPlace, place, if_neg (by omega), same, Int.toNat_natCast]

theorem eq_map_typePlace {indices : List Int32} {refs : List TypeRef}
    (resolved : image.typeRefs indices = .ok refs) : refs = indices.map typePlace :=
  Except.eq_map_of_mapM resolved fun _ _ => eq_typePlace

theorem map_typePlace_of_mapM {index : Option Int32} {ref : Option TypeRef}
    (resolved : index.mapM image.typeRef = .ok ref) : ref = index.map typePlace := by
  cases index with
  | none =>
      cases resolved
      rfl
  | some index =>
      rcases Except.bind_eq_ok_iff.mp resolved with ⟨found, resolved', same⟩
      cases same
      rw [eq_typePlace resolved']
      rfl

theorem map_typePlace_of_baseRef {className : String} {this : TypeRef} {base : Option Int32}
    {found : Option TypeRef} (based : image.baseRef className this base = .ok found) :
    found = base.map typePlace := by
  rcases baseRef_eq_ok_iff.mp based with ⟨rfl, rfl⟩ | ⟨index, ref, rfl, rfl, resolved, _, _⟩
  · rfl
  · rw [eq_typePlace resolved]
    rfl

end Image

/-!
## Literals
-/

def OperandDef.literals : OperandDef → List String
  | .str text => [text]
  | _ => []

def MethodDef.literals (method : MethodDef) : List String :=
  method.code.flatMap fun insn => insn.operand.literals

/-- The literals of an image as they occur, method by method. -/
def Image.literals (image : Image) : List String :=
  image.methods.flatMap MethodDef.literals

namespace CodeContext

variable {context : CodeContext} {strings strings' : StringTable} {seen : List String}

theorem LinksTo.toList {ip : Nat} {opcode : Opcode} {source : OperandDef} {operand : Operand}
    (links : context.LinksTo ip opcode strings source operand strings')
    (held : strings.toList = seen.eraseDups) :
    strings'.toList = (seen ++ source.literals).eraseDups := by
  cases links with
  | str text => exact StringTable.toList_intern held text
  | _ => simpa only [OperandDef.literals, List.append_nil] using held

theorem toList_linkCode {ip : Nat} {source : List InstructionDef} {code : List Instruction}
    (linked : context.linkCode ip source strings = .ok (code, strings'))
    (held : strings.toList = seen.eraseDups) :
    strings'.toList = (seen ++ source.flatMap fun insn => insn.operand.literals).eraseDups := by
  induction source generalizing ip strings code seen with
  | nil =>
      cases linked
      rw [List.flatMap_nil, List.append_nil]
      exact held
  | cons insn rest ih =>
      rcases Except.bind_eq_ok_iff.mp linked with ⟨⟨operand, middle⟩, first, linked⟩
      rcases Except.bind_eq_ok_iff.mp linked with ⟨⟨later, last⟩, second, same⟩
      cases same
      rcases linkOperand_cases (Except.mapError_eq_ok_iff.mp first) with ⟨_, links⟩
      have further := ih second (links.toList held)
      rwa [List.append_assoc] at further

end CodeContext

theorem Image.toList_linkMethods {image : Image} {types : Array TypeDescriptor}
    {sources : List (MethodOutline × MethodDef)} {methods : List MethodDescriptor}
    {strings strings' : StringTable} {seen : List String}
    (linked : image.linkMethods types sources strings = .ok (methods, strings'))
    (held : strings.toList = seen.eraseDups) :
    strings'.toList = (seen ++ (sources.map Prod.snd).flatMap MethodDef.literals).eraseDups := by
  induction sources generalizing strings methods seen with
  | nil =>
      cases linked
      rw [List.map_nil, List.flatMap_nil, List.append_nil]
      exact held
  | cons source rest ih =>
      rcases Except.bind_eq_ok_iff.mp linked with ⟨⟨code, middle⟩, first, linked⟩
      rcases Except.bind_eq_ok_iff.mp linked with ⟨⟨later, last⟩, second, same⟩
      cases same
      have further := ih second (CodeContext.toList_linkCode first held)
      rwa [List.append_assoc] at further

/-!
## Operands
-/

/-- An operand of a program does what the operand of the image says: numbers have become places, a
field comes with its slot in the layout of its class, and a literal has become the index of its
place in the table. An index is a word, so it stands for the literal wherever the place fits in one.
-/
inductive Program.Translates (program : Program) : OperandDef → Operand → Prop where
  | none : Translates program .none .none
  | int (value : Int32) : Translates program (.int value) (.int value)
  | char (value : Char) : Translates program (.char value) (.char value)
  | bool (value : Bool) : Translates program (.bool value) (.bool value)
  | slot (index : UInt32) : Translates program (.slot index) (.slot index.toNat)
  | branch (offset : Int32) : Translates program (.branch offset) (.branch offset.toInt)
  | type (index : Int32) : Translates program (.type index) (.type (Image.typePlace index))
  | method (index : Int32) : Translates program (.method index) (.method (Image.methodPlace index))
  | field {owner : Int32} {index : UInt32} {c : ClassDescriptor} {slot : FieldSlot} :
      program.class? (Image.typePlace owner) = some c → c.fields[index.toNat]? = some slot →
      Translates program (.field owner index)
        (.field ⟨Image.typePlace owner, index.toNat, slot⟩)
  | str {text : String} {place : Nat} : program.strings.toList[place]? = some text →
      (place < 2 ^ 32 → program.strings.get? ⟨UInt32.ofNat place⟩ = some text) →
      Translates program (.str text) (.str ⟨UInt32.ofNat place⟩)

theorem CodeContext.LinksTo.translates {program : Program} {context : CodeContext}
    {ip : Nat} {opcode : Opcode} {strings strings' : StringTable} {source : OperandDef}
    {operand : Operand} (links : context.LinksTo ip opcode strings source operand strings')
    (types : context.types = program.types) (grown : strings'.Extends program.strings) :
    program.Translates source operand := by
  cases links with
  | none _ => exact .none
  | int value => exact .int value
  | char value => exact .char value
  | bool value => exact .bool value
  | slot _ => exact .slot _
  | branch _ => exact .branch _
  | type resolved _ =>
      rw [Image.eq_typePlace resolved]
      exact .type _
  | method resolved =>
      rw [Image.eq_methodPlace resolved]
      exact .method _
  | field resolved known at_i =>
      rw [Image.eq_typePlace resolved, types] at known
      rw [Image.eq_typePlace resolved]
      exact .field (Program.class?_eq_some_iff.mpr known) at_i
  | str text =>
      rcases strings.exists_place_of_intern text with ⟨place, same, at_place⟩
      have at_place' : program.strings.toList[place]? = some text := by
        rcases grown with ⟨more, whole⟩
        have whole' : (strings.intern text).2.toList ++ more = program.strings.toList := whole
        rw [← whole', List.getElem?_append_left (List.getElem?_eq_some_iff.mp at_place).1]
        exact at_place
      rw [same]
      exact .str at_place' fun small => StringTable.get?_of_place small at_place'

/-!
## Images
-/

/-- A program has the types and the methods of an image, and nothing else but what is built in. -/
structure Image.KeptBy (image : Image) (program : Program) : Prop where
  types_size : program.types.size = 4 + image.types.length
  methods_size : program.methods.size = 7 + image.methods.length
  primitives : ∀ i p, Primitive.all[i]? = some p → program.type? ⟨i⟩ = some (.primitive p)
  builtins : ∀ i b, Builtin.all[i]? = some b → program.method? ⟨i⟩ = some b.descriptor
  classes : ∀ (i : Nat) c, image.types[i]? = some (.ofClass c) →
    ∃ d, program.class? ⟨4 + i⟩ = some d ∧ d.name = c.name ∧ d.base = c.base.map typePlace ∧
      d.ownFields = c.fields.map typePlace ∧ d.methods = c.methods.map methodPlace
  arrays : ∀ (i : Nat) element, image.types[i]? = some (.ofArray element) →
    ∃ type, program.type? (typePlace element) = some type ∧
      program.array? ⟨4 + i⟩ = some ⟨typePlace element, type.kind⟩
  methods : ∀ (i : Nat) source, image.methods[i]? = some source →
    ∃ method, program.method? ⟨7 + i⟩ = some method ∧ method.name = source.name ∧
      method.builtin = none ∧ method.returns = source.returns.map typePlace ∧
      method.params = source.params.map typePlace ∧ method.locals = source.locals.map typePlace ∧
      method.code.size = source.code.length ∧
      ∀ (ip : Nat) insn, method.code[ip]? = some insn →
        ∃ operand, source.code[ip]? = some ⟨insn.opcode, operand⟩ ∧
          program.Translates operand insn.operand
  /-- A method belongs to the class that lists its number. -/
  owners : ∀ (i : Nat) method owner, program.method? ⟨7 + i⟩ = some method →
    (method.owner = some owner ↔ ∃ (above : Nat) (c : ClassDef), owner = ⟨4 + above⟩ ∧
      image.types[above]? = some (.ofClass c) ∧ ∃ index ∈ c.methods, index.toInt = i)
  entry : program.entry = methodPlace image.main
  strings : program.strings.toList = "" :: (image.literals.filter (· != "")).eraseDups

namespace Program

variable {image : Image} {program : Program} {outline : Outline} {claims : Claims}

theorem class_kept (outlines : Image.Outlines image outline claims)
    (made : outline.typeTable = .ok program.types) {i : Nat} {c : ClassDef}
    (at_i : image.types[i]? = some (.ofClass c)) :
    ∃ d, program.class? ⟨4 + i⟩ = some d ∧ d.name = c.name ∧
      d.base = c.base.map Image.typePlace ∧ d.ownFields = c.fields.map Image.typePlace ∧
      d.methods = c.methods.map Image.methodPlace := by
  have found : image.typeDef? ⟨4 + i⟩ = some (.ofClass c) :=
    (image.typeDef?_add_primitiveCount i).trans at_i
  rcases outlines.class?_of_class found with ⟨o, known, same⟩
  rcases class?_of_outline made known with ⟨chain, _, found'⟩
  refine ⟨_, found', ?_⟩
  cases same with
  | ofClass based resolved resolved' =>
      exact ⟨rfl, Image.map_typePlace_of_baseRef based, Image.eq_map_typePlace resolved,
        Except.eq_map_of_mapM resolved' fun _ _ => Image.eq_methodPlace⟩

theorem array_kept (outlines : Image.Outlines image outline claims)
    (made : outline.typeTable = .ok program.types) {i : Nat} {element : Int32}
    (at_i : image.types[i]? = some (.ofArray element)) :
    ∃ type, program.type? (Image.typePlace element) = some type ∧
      program.array? ⟨4 + i⟩ = some ⟨Image.typePlace element, type.kind⟩ := by
  have inside : i < outline.types.length := by
    rw [outlines.types_length]
    exact (List.getElem?_eq_some_iff.mp at_i).1
  have at_i' := List.getElem?_eq_getElem inside
  have same := outlines.types i _ _ at_i at_i'
  generalize outline.types[i] = outlined at at_i' same
  cases same with
  | ofArray resolved =>
      have at_i'' := (Outline.declares_of_typeTable made).array at_i'
      rcases type?_of_typeRef outlines made resolved with ⟨type, found, kind⟩
      rw [Image.eq_typePlace resolved] at found kind at_i''
      refine ⟨type, found, array?_eq_some_iff.mpr ?_⟩
      rw [kind]
      exact at_i''

theorem method_kept (outlines : Image.Outlines image outline claims)
    {methods : List MethodDescriptor}
    (coded : image.linkMethods program.types (outline.methods.zip image.methods) .empty =
      .ok (methods, program.strings))
    (table : program.methods = (Builtin.all.map Builtin.descriptor ++ methods).toArray) {i : Nat}
    {source : MethodDef} (at_i : image.methods[i]? = some source) :
    ∃ method, program.method? ⟨7 + i⟩ = some method ∧ method.name = source.name ∧
      method.builtin = none ∧ method.returns = source.returns.map Image.typePlace ∧
      method.params = source.params.map Image.typePlace ∧
      method.locals = source.locals.map Image.typePlace ∧
      method.code.size = source.code.length ∧
      ∀ (ip : Nat) insn, method.code[ip]? = some insn →
        ∃ operand, source.code[ip]? = some ⟨insn.opcode, operand⟩ ∧
          program.Translates operand insn.operand := by
  have inside : i < outline.methods.length := by
    rw [outlines.methods_length]
    exact (List.getElem?_eq_some_iff.mp at_i).1
  have at_i' := List.getElem?_eq_getElem inside
  have same := outlines.methods i _ _ at_i at_i'
  rcases method?_of_outline outlines coded table at_i' with
    ⟨source', code, before, after, at_i'', known, linked, grown⟩
  rw [at_i] at at_i''
  cases at_i''
  refine ⟨_, known, same.name, rfl, Image.map_typePlace_of_mapM same.returns,
    Image.eq_map_typePlace same.params, Image.eq_map_typePlace same.locals, ?_, ?_⟩
  · exact List.size_toArray.trans (CodeContext.length_linkCode linked)
  · intro ip insn at_ip
    have at_ip' : code[ip]? = some insn := by simpa [MethodOutline.descriptor] using at_ip
    rcases CodeContext.links_of_linkCode linked at_ip' with
      ⟨operand, _, _, at_ip'', _, links, grown'⟩
    exact ⟨operand, at_ip'', links.translates rfl (grown'.trans grown)⟩

theorem owner_kept (linked : image.link = .ok program) {i : Nat} {method : MethodDescriptor}
    (known : program.method? ⟨7 + i⟩ = some method) {owner : TypeRef} :
    method.owner = some owner ↔ ∃ (above : Nat) (c : ClassDef), owner = ⟨4 + above⟩ ∧
      image.types[above]? = some (.ofClass c) ∧ ∃ index ∈ c.methods, index.toInt = i := by
  rcases Image.link_cases linked with ⟨outline, _, outlined, made, _⟩
  rcases Image.outline_cases outlined with ⟨claims, outlines⟩
  rw [owner_eq_some_iff linked known]
  constructor
  · intro lists
    rcases lists with ⟨d, found, listed⟩
    rcases class_cases made found with ⟨o, _, known', _, rfl⟩
    rcases outlines.class_of_class? known' with ⟨c, found', same⟩
    rcases Outline.class?_eq_some_iff.mp known' with ⟨above, _, rfl⟩
    rw [Image.typeDef?_add_primitiveCount] at found'
    cases same with
    | ofClass _ _ resolved =>
        rcases (Except.mem_iff_of_mapM resolved).mp listed with ⟨index, mem, resolved'⟩
        refine ⟨above, c, rfl, found', index, mem, ?_⟩
        have same := Image.toInt_of_methodRef resolved' (Nat.le_add_right 7 i)
        rw [same]
        exact congrArg Nat.cast (Nat.add_sub_cancel_left 7 i)
  · intro lists
    rcases lists with ⟨above, c, rfl, at_above, index, mem, same⟩
    rcases class_kept outlines made at_above with ⟨d, found, _, _, _, methods⟩
    refine ⟨d, found, ?_⟩
    rw [methods, ← Image.methodPlace_of_toInt same]
    exact List.mem_map_of_mem mem

/-- Linking keeps the image. -/
theorem link_keeps (linked : image.link = .ok program) : image.KeptBy program := by
  rcases Image.link_cases linked with ⟨outline, methods, outlined, made, coded, table⟩
  rcases Image.outline_cases outlined with ⟨claims, outlines⟩
  have zipped : (outline.methods.zip image.methods).length = image.methods.length := by
    rw [List.length_zip, outlines.methods_length, Nat.min_self]
  refine ⟨?_, ?_, ?_, ?_, ?_, ?_, ?_, ?_, ?_, ?_⟩
  · rw [(Outline.declares_of_typeTable made).size_eq, outlines.types_length]
    rfl
  · rw [table, List.size_toArray, List.length_append, Image.length_linkMethods coded, zipped]
    rfl
  · exact fun i p at_i => (Outline.declares_of_typeTable made).primitive at_i
  · intro i b at_i
    have inside : i < (Builtin.all.map Builtin.descriptor).length := by
      rw [List.length_map]
      exact (List.getElem?_eq_some_iff.mp at_i).1
    rw [method?, table, List.getElem?_toArray, List.getElem?_append_left inside,
      List.getElem?_map, at_i]
    rfl
  · exact fun i c at_i => class_kept outlines made at_i
  · exact fun i element at_i => array_kept outlines made at_i
  · exact fun i source at_i => method_kept outlines coded table at_i
  · exact fun i method owner known => owner_kept linked known
  · rcases entry_of_link linked with ⟨outline', _, started⟩
    rcases Image.entryRef_eq_ok_iff.mp started with ⟨_, resolved, _⟩
    exact Image.eq_methodPlace resolved
  · have held : StringTable.empty.toList = [""].eraseDups := rfl
    have texts := Image.toList_linkMethods coded held
    rw [List.map_snd_zip (Nat.le_of_eq outlines.methods_length.symm), List.singleton_append,
      List.eraseDups_cons] at texts
    exact texts

/-- The array that is declared first holds references to squares, which are declared after it, and
the two texts of the methods are told apart and kept once. -/
theorem link_keeps_drawing :
    drawingImage.link = .ok drawingProgram ∧
      drawingImage.literals = ["shape", "", "square", "shape"] ∧
      drawingProgram.strings.toList = ["", "shape", "square"] ∧
      drawingProgram.array? ⟨4⟩ = some ⟨⟨5⟩, .ref⟩ ∧
      drawingImage.KeptBy drawingProgram :=
  ⟨link_drawingImage, by decide, by decide +kernel, by decide +kernel,
    link_keeps link_drawingImage⟩

end Program
end ObjectMachine
