import ObjectMachine.Proofs.TypedStore
import ObjectMachine.Proofs.WellFormedFrames

/-!
# String values

A string is an index into the table of the machine, wherever it is: in a frame, in an object or in
the code. It comes from a literal of the image, it is the default of a field or a variable, or it
was read. The table grows and never changes what an index stands for, so a string stands for one
text from then on, and since no text is in the table twice, strings are equal if their texts are.
-/

namespace ObjectMachine

/-!
## Literals
-/

/-- A string in the code of a program stands for the literal at its place in the image. -/
theorem Program.literal_of_link {image : Image} {program : Program}
    (linked : image.link = .ok program) (small : program.strings.size ≤ 2 ^ 32) {ref : MethodRef}
    {method : MethodDescriptor} (known : program.method? ref = some method) {ip : Nat}
    {opcode : Opcode} {literal : StrRef} (at_ip : method.code[ip]? = some ⟨opcode, .str literal⟩) :
    ∃ source text, image.methods[ref.index - Image.builtinCount]? = some source ∧
      source.code[ip]? = some ⟨opcode, .str text⟩ ∧
      program.strings.get? literal = some text := by
  rcases Image.link_cases linked with ⟨outline, methods, _, _, coded, table⟩
  rcases method_cases table known with ⟨_, builtin, rfl⟩ | ⟨_, at_i⟩
  · simp [Builtin.descriptor] at at_ip
  · rcases Image.getElem?_linkMethods coded at_i with
      ⟨outlined, source, code, _, after, at_i', rfl, linked', grown⟩
    rw [List.getElem?_zip_eq_some] at at_i'
    have at_ip' : code[ip]? = some ⟨opcode, .str literal⟩ := by
      simpa [MethodOutline.descriptor] using at_ip
    rcases CodeContext.links_of_linkCode linked' at_ip' with
      ⟨operand, before, between, at_ip, _, links, grown'⟩
    cases links with
    | str text =>
        have whole := grown'.trans grown
        exact ⟨source, text, at_i'.2, at_ip,
          whole.get? (StringTable.get?_intern (Nat.le_trans whole.size_le small))⟩

/-!
## Strings in objects
-/

namespace Store

def Spelled (table : StringTable) (store : Store) : Prop :=
  ∀ addr object, store addr = some object →
    ∀ ref, .str ref ∈ object.values → (table.get? ref).isSome

variable {table more : StringTable} {roots : List Addr} {store store' : Store}

theorem Spelled.extends (spelled : store.Spelled table) (grown : table.Extends more) :
    store.Spelled more := by
  intro addr object found ref mem
  rcases Option.isSome_iff_exists.mp (spelled addr object found ref mem) with ⟨text, entry⟩
  rw [grown.get? entry]
  rfl

theorem Spelled.set (spelled : store.Spelled table) {addr : Addr} {object : Object}
    (known : ∀ ref, .str ref ∈ object.values → (table.get? ref).isSome) :
    (store.set addr object).Spelled table := by
  intro other object' found ref mem
  by_cases here : other = addr
  · subst here
    rw [set_same] at found
    cases found
    exact known ref mem
  · rw [set_other _ _ here] at found
    exact spelled other object' found ref mem

theorem Changes.spelled (changes : store.Changes table roots store')
    (empty : table.get? .empty = some "") (spelled : store.Spelled table) :
    store'.Spelled table := by
  cases changes with
  | put i found known =>
      apply spelled.set
      intro ref mem
      rcases List.mem_or_eq_of_mem_set mem with mem | same
      · exact spelled _ _ found ref mem
      · exact known ref same.symm
  | new type descriptor length _ =>
      apply spelled.set
      intro ref mem
      rcases List.mem_map.mp mem with ⟨slot, _, same⟩
      cases kind : slot.kind with
      | str =>
          rw [kind] at same
          cases same
          rw [empty]
          rfl
      | _ =>
          rw [kind] at same
          cases same
  | trim =>
      intro addr object found ref mem
      exact spelled addr object (trim_eq_some_iff.mp found).2 ref mem

end Store

namespace Machine

variable {program : Program} {origin : Origin program} {machine after : Machine}
  {table : StringTable}

theorem Changes.spelled (changes : Changes program table machine after)
    (empty : table.get? .empty = some "")
    (spelled : (machine.memory.objects program).Spelled table) :
    (after.memory.objects program).Spelled table := by
  induction changes with
  | reads within =>
      rw [within.memory id]
      exact spelled
  | writes rep _ changes rep' =>
      rw [rep.objects_eq] at spelled
      rw [rep'.objects_eq]
      exact changes.spelled empty spelled
  | trans _ _ first second => exact second (first spelled)

/-!
## Tables of sessions

Only reading a line changes the table of a machine, and it interns the line.
-/

theorem grows_start (entry : MethodRef) (machine : Machine) :
    machine.strings.Grows (lastState (Machine.start entry machine)).strings := by
  rcases start_cases entry machine with ⟨cause, refused⟩ | ⟨log, started⟩
  · rw [refused]
    exact refl_of StringTable.Grows machine.strings
  · rw [started]
    exact refl_of StringTable.Grows machine.strings

theorem grows_step (machine : Machine) :
    machine.strings.Grows (lastState (Machine.step machine)).strings := by
  rcases step_cases machine with
    ⟨e, failed⟩ | ⟨frame, rest, method, insn, log, top, known, at_ip, executes⟩
  · rw [failed]
    exact refl_of StringTable.Grows machine.strings
  · have turns := turns_step top executes
    generalize Machine.step machine = outcome at turns ⊢
    cases turns with
    | stays within => exact within.strings
    | enters _ _ enters =>
        rw [lastState, enters.strings]
        exact refl_of StringTable.Grows machine.strings
    | drops leaves =>
        rw [lastState, leaves.strings]
        exact refl_of StringTable.Grows machine.strings
    | leaves _ _ leaves =>
        rw [lastState, leaves.strings]
        exact refl_of StringTable.Grows machine.strings

theorem grows_collect (machine : Machine) :
    machine.strings.Grows (lastState (collectGarbage machine)).strings :=
  (within_collectGarbage machine).strings

theorem invariant_grows (table : StringTable) :
    Invariant fun machine => table.Grows machine.strings where
  start machine entry grown := trans_of StringTable.Grows grown (grows_start entry machine)
  step machine grown := trans_of StringTable.Grows grown (grows_step machine)
  collect machine grown := trans_of StringTable.Grows grown (grows_collect machine)
  clear _ _ grown := grown

theorem Reached.grows (reached : Reached program machine) :
    program.strings.Grows machine.strings := by
  induction reached with
  | boot booted =>
      rcases Except.bind_eq_ok_iff.mp booted with ⟨memory, _, same⟩
      cases same
      exact refl_of StringTable.Grows program.strings
  | call call _ done ih => exact (invariant_grows program.strings).perform ih done

/-!
## Sound machines
-/

namespace Sound

theorem grown (sound : Sound origin machine) : origin.strings.Extends machine.strings := by
  rcases sound with ⟨pairing, alike⟩
  rw [alike.left_strings]
  exact alike.left_grown

theorem empty (sound : Sound origin machine) : machine.strings.get? .empty = some "" :=
  (origin.literals.trans sound.grown).get? origin.linked.empty

theorem spelled_step (sound : Sound origin machine)
    (spelled : (machine.memory.objects program).Spelled machine.strings) :
    ((lastState (Machine.step machine)).memory.objects program).Spelled
      (lastState (Machine.step machine)).strings := by
  refine Store.Spelled.extends ?_ (grows_step machine).keeps
  rcases step_cases machine with
    ⟨e, failed⟩ | ⟨frame, rest, method, insn, log, top, known, at_ip, executes⟩
  · rw [failed]
    exact spelled
  · have changes := sound.changes_step top known at_ip executes
    have turns := turns_step top executes
    generalize Machine.step machine = outcome at changes turns ⊢
    -- Calls and returns leave the memory alone.
    cases turns with
    | stays within => exact (changes within).spelled sound.empty spelled
    | enters _ _ enters =>
        rw [lastState, enters.memory]
        exact spelled
    | drops leaves =>
        rw [lastState, leaves.memory]
        exact spelled
    | leaves _ _ leaves =>
        rw [lastState, leaves.memory]
        exact spelled

theorem spelled_collect (sound : Sound origin machine)
    (spelled : (machine.memory.objects program).Spelled machine.strings) :
    ((lastState (collectGarbage machine)).memory.objects program).Spelled
      (lastState (collectGarbage machine)).strings := by
  have empty := sound.empty
  rcases sound with ⟨pairing, alike⟩
  exact (alike.changes_collect.spelled empty spelled).extends (grows_collect machine).keeps

end Sound

structure Spelled (program : Program) (machine : Machine) : Prop where
  sound : ∃ origin : Origin program, Sound origin machine
  objects : (machine.memory.objects program).Spelled machine.strings

theorem spelled_of_boot (linked : program.Linked) (tagged : program.Tagged) {limits : Limits}
    {input : List UInt8} {log : Log} (booted : boot program limits input log = .ok machine) :
    Spelled program machine := by
  refine ⟨⟨_, sound_of_boot linked tagged booted⟩, ?_⟩
  rcases Except.bind_eq_ok_iff.mp booted with ⟨memory, made, same⟩
  cases same
  show (memory.objects program).Spelled _
  rw [Memory.objects_new made]
  exact nofun

theorem invariant_spelled (program : Program) : Invariant (Spelled program) where
  start machine entry spelled := by
    rcases spelled.sound with ⟨origin, sound⟩
    refine ⟨⟨origin, (sound.start entry).sound⟩, ?_⟩
    rcases start_cases entry machine with ⟨cause, refused⟩ | ⟨log, started⟩
    · rw [refused]
      exact spelled.objects
    · rw [started]
      exact spelled.objects
  step machine spelled := by
    rcases spelled.sound with ⟨origin, sound⟩
    exact ⟨⟨origin, sound.step.sound⟩, sound.spelled_step spelled.objects⟩
  collect machine spelled := by
    rcases spelled.sound with ⟨origin, sound⟩
    exact ⟨⟨origin, sound.collect.sound⟩, sound.spelled_collect spelled.objects⟩
  clear machine log spelled := by
    rcases spelled.sound with ⟨origin, sound⟩
    exact ⟨⟨origin, sound.with_frames_nil log⟩, spelled.objects⟩

/-!
## Instructions on strings
-/

variable {frame : Frame} {rest : List Frame}

theorem push_of_room (value : Value) (top : machine.frames = frame :: rest)
    (room : frame.stack.length < frame.capacity) :
    push value machine =
      .ok () { machine with frames := { frame with stack := value :: frame.stack } :: rest } := by
  rw [push, onFrame_eq _ top, Frame.push, if_pos room]
  rfl

theorem equality_eq {left right : Value} {below : List Value} (wanted : Bool)
    (stack : frame.stack = right :: left :: below) (kinds : right.kind = left.kind)
    (room : below.length < frame.capacity) :
    equality wanted frame =
      .ok () { frame with stack := .bool (decide (left = right) = wanted) :: below } := by
  have first : Frame.pop frame = .ok right { frame with stack := left :: below } := by
    rw [Frame.pop, stack]
  have second : Frame.pop { frame with stack := left :: below } =
      .ok left { frame with stack := below } := rfl
  rw [equality, bind_of_ok first, bind_of_ok second, Value.check, if_pos kinds]
  exact if_pos room

/-- Strings are compared by their indices, and that is as good as comparing their texts. -/
theorem step_equality {left right : StrRef} {text text' : String} {below : List Value}
    {operand : Operand} {wanted : Bool} (distinct : machine.strings.Distinct)
    (here : machine.At frame rest ⟨if wanted then .ceq else .cne, operand⟩)
    (stack : frame.stack = .str right :: .str left :: below)
    (room : frame.stack.length ≤ frame.capacity)
    (found : machine.strings.get? left = some text)
    (found' : machine.strings.get? right = some text') :
    ∃ log, step machine = .ok none (machine.fetched
      { frame with stack := .bool (decide (text = text') = wanted) :: below } rest log) := by
  have same : Value.str left = .str right ↔ text = text' := by
    rw [Value.str.injEq]
    exact distinct.eq_iff found found'
  rcases here.step_eq with ⟨log, executes⟩
  refine ⟨log, ?_⟩
  have room' : below.length < frame.capacity := by
    rw [stack] at room
    exact Nat.lt_of_succ_lt room
  have compared : equality wanted { frame with ip := frame.ip + 1 } = .ok () { frame with
      ip := frame.ip + 1
      stack := .bool (decide (text = text') = wanted) :: below } := by
    rw [← decide_eq_decide.mpr same]
    exact equality_eq wanted stack rfl room'
  have done : onFrame (equality wanted) (machine.fetched frame rest log) = .ok ()
      (machine.fetched { frame with
        stack := .bool (decide (text = text') = wanted) :: below } rest log) := by
    simp only [onFrame, fetched, compared]
  rw [executes]
  cases wanted with
  | true => exact bind_of_ok done
  | false => exact bind_of_ok done

theorem step_literal {ref : StrRef} (here : machine.At frame rest ⟨.ldstr, .str ref⟩)
    (room : frame.stack.length < frame.capacity) :
    ∃ log, step machine = .ok none (machine.fetched
      { frame with stack := .str ref :: frame.stack } rest log) := by
  rcases here.step_eq with ⟨log, executes⟩
  refine ⟨log, ?_⟩
  have top : (machine.fetched frame rest log).frames = { frame with ip := frame.ip + 1 } :: rest :=
    rfl
  rw [executes]
  exact bind_of_ok (push_of_room _ top room)

theorem callBuiltin_readString {line : String} {console : Console}
    (top : machine.frames = frame :: rest) (room : frame.stack.length < frame.capacity)
    (read : Console.readLine machine.console = .ok line console) :
    ∃ log, callBuiltin .readString [] machine = .ok none { machine.interned line with
      console
      log
      frames := { frame with
        stack := .str (machine.strings.intern line).1 :: frame.stack } :: rest } := by
  unfold callBuiltin
  rcases note_eq .debug (fun machine => .builtinCalled machine.cycle machine.frames.length
    Builtin.readString.name []) machine with ⟨log, noted⟩
  refine ⟨log, ?_⟩
  rw [bind_of_ok noted]
  have done : onConsole Console.readLine { machine with log } =
      .ok line { machine with log, console } := by
    rw [onConsole_eq, read]
    rfl
  have updates (update : Machine → StrRef × Machine) (before : Machine) :
      (modifyGet update : Op StrRef) before = .ok (update before).1 (update before).2 := rfl
  have pushed : push (.str (machine.strings.intern line).1)
      { machine with log, console, strings := (machine.strings.intern line).2 } = _ :=
    push_of_room _ top room
  dsimp only
  rw [bind_of_ok done, bind_of_ok (updates _ _)]
  exact (bind_of_ok pushed).trans rfl

theorem step_readString {target : MethodRef} {line : String} {console : Console}
    (here : machine.At frame rest ⟨.call, .method target⟩)
    (known : machine.program.method? target = some Builtin.readString.descriptor)
    (read : Console.readLine machine.console = .ok line console)
    (room : frame.stack.length < frame.capacity) :
    ∃ after, step machine = .ok none after ∧ after.strings = (machine.strings.intern line).2 ∧
      after.frames = { frame with
        ip := frame.ip + 1
        stack := .str (machine.strings.intern line).1 :: frame.stack } :: rest := by
  rcases here.step_eq with ⟨log, executes⟩
  have called : call target false (machine.fetched frame rest log) =
      callBuiltin .readString [] (machine.fetched frame rest log) := by
    have known' : (machine.fetched frame rest log).program.method? target =
        some Builtin.readString.descriptor := known
    have taken : onFrame (Frame.popAll (Builtin.readString.descriptor.params.map
        (machine.fetched frame rest log).program.kindOf)) (machine.fetched frame rest log) =
      .ok [] (machine.fetched frame rest log) := rfl
    have free : popReceiver target Builtin.readString.descriptor false
        (machine.fetched frame rest log) = .ok .null (machine.fetched frame rest log) := rfl
    rw [call_eq, observe_bind, known', bind_of_ok (orThrow_some _), bind_of_ok taken,
      bind_of_ok free, if_neg Bool.false_ne_true, callTarget, known', bind_of_ok (orThrow_some _)]
    rfl
  have top : (machine.fetched frame rest log).frames = { frame with ip := frame.ip + 1 } :: rest :=
    rfl
  rcases callBuiltin_readString top room read with ⟨log', ran⟩
  rw [← called] at ran
  rw [executes]
  exact ⟨_, ran, rfl, rfl⟩

/-!
## Sessions
-/

/-- The strings of a machine stand for texts, and are compared as such. What comes from an object is
what was put there if the tag of its type, in 31 bits the largest of which marks free space, is that
of no other. -/
structure DenotesTexts (image : Image) (program : Program) (machine : Machine) : Prop where
  /-- All strings are in the table: those in frames, in fields and elements, and in the code. -/
  frames : program.types.size < 2 ^ 31 - 1 → ∀ frame ∈ machine.frames, ∀ ref,
    .str ref ∈ frame.args ++ frame.locals ++ frame.stack → (machine.strings.get? ref).isSome
  fields : program.types.size < 2 ^ 31 - 1 → ∀ addr header c slot ref,
    machine.memory.Lists addr header → program.class? header.type = some c → slot ∈ c.fields →
    machine.memory.getField addr slot = .ok (.str ref) → (machine.strings.get? ref).isSome
  elements : program.types.size < 2 ^ 31 - 1 → ∀ addr header a index ref,
    machine.memory.Lists addr header → program.array? header.type = some a →
    machine.memory.getElement addr a.elementKind index = .ok (.str ref) →
    (machine.strings.get? ref).isSome
  operands : ∀ target method (ip : Nat) insn ref, program.method? target = some method →
    method.code[ip]? = some insn → insn.operand = .str ref → (machine.strings.get? ref).isSome
  /-- The table has every text once, its index is the inverse, and no call changes what is there. -/
  distinct : machine.strings.Distinct
  inverse : machine.strings.size ≤ 2 ^ 32 → ∀ ref text,
    machine.strings.find? text = some ref ↔ machine.strings.get? ref = some text
  stays : ∀ calls after ref text, machine.performAll calls = some after →
    machine.strings.get? ref = some text → after.strings.get? ref = some text
  /-- A comparison of strings says whether their texts are equal, or whether they are not. -/
  compares : ∀ frame rest (wanted : Bool) operand left right below text text',
    machine.At frame rest ⟨if wanted then .ceq else .cne, operand⟩ →
    frame.stack = .str right :: .str left :: below →
    machine.strings.get? left = some text → machine.strings.get? right = some text' →
    ∃ log, step machine = .ok none (machine.fetched
      { frame with stack := .bool (decide (text = text') = wanted) :: below } rest log)
  /-- A literal stands for its text in the image, a default for the empty text, and what is read for
  the line that was read. -/
  literals : machine.strings.size ≤ 2 ^ 32 → ∀ frame rest ref,
    machine.At frame rest ⟨.ldstr, .str ref⟩ → frame.stack.length < frame.capacity →
    ∃ source text log,
      image.methods[frame.method.index - Image.builtinCount]? = some source ∧
      source.code[frame.ip]? = some ⟨.ldstr, .str text⟩ ∧
      machine.strings.get? ref = some text ∧
      step machine = .ok none (machine.fetched
        { frame with stack := .str ref :: frame.stack } rest log)
  defaults : ∀ ref, Kind.str.default = .str ref → machine.strings.get? ref = some ""
  reads : machine.strings.size < 2 ^ 32 → ∀ frame rest target method line console,
    machine.At frame rest ⟨.call, .method target⟩ → program.method? target = some method →
    method.builtin = some .readString → Console.readLine machine.console = .ok line console →
    frame.stack.length < frame.capacity →
    ∃ ref after, step machine = .ok none after ∧ after.strings.get? ref = some line ∧
      after.frames = { frame with
        ip := frame.ip + 1
        stack := .str ref :: frame.stack } :: rest

theorem Reached.spelled (reached : Reached program machine) (linked : program.Linked)
    (tagged : program.Tagged) : Spelled program machine := by
  induction reached with
  | boot booted => exact spelled_of_boot linked tagged booted
  | call call _ done ih => exact (invariant_spelled program).perform ih done

theorem Reached.formed {image : Image} (reached : Reached program machine)
    (linked : image.link = .ok program) : ∃ limits, Formed program limits machine := by
  induction reached with
  | boot booted => exact ⟨_, formed_of_boot (Program.linked_of_link linked) booted⟩
  | call call _ done ih =>
      rcases ih with ⟨limits, formed⟩
      exact ⟨limits, (invariant_formed linked).perform formed done⟩

namespace Sound

theorem frames_spelled (sound : Sound origin machine) (mem : frame ∈ machine.frames) {ref : StrRef}
    (held : .str ref ∈ frame.args ++ frame.locals ++ frame.stack) :
    (machine.strings.get? ref).isSome := by
  rcases sound with ⟨pairing, alike⟩
  rcases forall₂_exists_of_mem alike.frames mem with ⟨frame', _, same⟩
  have among : ∀ {values values' : List Value}, ValuesAlike pairing values values' →
      .str ref ∈ values → (machine.strings.get? ref).isSome := by
    intro values values' both mem
    rcases forall₂_exists_of_mem both mem with ⟨value', _, both⟩
    exact alike.known both rfl
  rcases List.mem_append.mp held with held | held
  · rcases List.mem_append.mp held with held | held
    · exact among same.args held
    · exact among same.locals held
  · exact among same.stack held

end Sound

namespace Spelled

theorem heap (spelled : Spelled program machine) : program.Orderly ∧
    ∃ tiles store, Heap program machine.memory tiles store ∧ store.Spelled machine.strings := by
  rcases spelled.sound with ⟨origin, pairing, alike⟩
  rcases alike.heaps with ⟨tiles, _, store, _, heap, _, _⟩
  have objects := spelled.objects
  rw [heap.objects_eq] at objects
  exact ⟨origin.linked.orderly, tiles, store, heap, objects⟩

theorem fields (spelled : Spelled program machine) {addr : Addr} {header : Header}
    {c : ClassDescriptor} {slot : FieldSlot} {ref : StrRef}
    (lists : machine.memory.Lists addr header) (known : program.class? header.type = some c)
    (mem : slot ∈ c.fields) (read : machine.memory.getField addr slot = .ok (.str ref)) :
    (machine.strings.get? ref).isSome := by
  rcases spelled.heap with ⟨orderly, tiles, store, heap, objects⟩
  rcases heap.object_of_lists lists with ⟨object, found, typed⟩
  rw [← typed] at known
  rcases List.getElem?_of_mem mem with ⟨i, at_i⟩
  rcases heap.getField_eq orderly found known at_i with ⟨value, held, read'⟩
  rw [read] at read'
  cases read'
  exact objects addr object found ref (List.mem_of_getElem? held)

theorem elements (spelled : Spelled program machine) {addr : Addr} {header : Header}
    {a : ArrayDescriptor} {index : Int32} {ref : StrRef}
    (lists : machine.memory.Lists addr header) (known : program.array? header.type = some a)
    (read : machine.memory.getElement addr a.elementKind index = .ok (.str ref)) :
    (machine.strings.get? ref).isSome := by
  rcases spelled.heap with ⟨orderly, tiles, store, heap, objects⟩
  rcases heap.object_of_lists lists with ⟨object, found, typed⟩
  rw [← typed] at known
  by_cases outside : index.toInt < 0 ∨ (object.values.length : Int) ≤ index.toInt
  · rw [heap.getElement_out_of_range found known outside] at read
    cases read
  · have lower : 0 ≤ index.toInt := by omega
    have upper : index.toInt < object.values.length := by omega
    rcases heap.getElement_eq orderly found known lower upper with ⟨value, held, read'⟩
    rw [read] at read'
    cases read'
    exact objects addr object found ref (List.mem_of_getElem? held)

end Spelled

/-- In every session strings stand for texts, and are equal if their texts are. -/
theorem reached_denotesTexts {image : Image} {program : Program} {machine : Machine}
    (linked : image.link = .ok program) (reached : Reached program machine) :
    DenotesTexts image program machine := by
  have promises := Program.linked_of_link linked
  have spelled := fun few => reached.spelled promises few
  rcases reached.formed linked with ⟨limits, formed⟩
  have literals := reached.grows.keeps
  have distinct := reached.grows.distinct promises.distinct
  constructor
  case frames =>
    intro few frame mem ref held
    rcases (spelled few).sound with ⟨origin, sound⟩
    exact sound.frames_spelled mem held
  case fields =>
    intro few addr header c slot ref lists known mem read
    exact (spelled few).fields lists known mem read
  case elements =>
    intro few addr header a index ref lists known read
    exact (spelled few).elements lists known read
  case operands =>
    intro target method ip insn ref known at_ip operand
    have suits := (promises.suits target method ip insn known at_ip).extends literals
    exact suits.literal ref operand
  case distinct => exact distinct
  case inverse =>
    intro small ref text
    exact distinct.find?_eq_some_iff small
  case stays =>
    intro calls after ref text done found
    have before := refl_of StringTable.Grows machine.strings
    exact ((invariant_grows machine.strings).performAll before done).keeps.get? found
  case compares =>
    intro frame rest wanted operand left right below text text' here stack found found'
    have shaped := formed.frames.shaped frame (by rw [here.top]; exact List.mem_cons_self)
    exact step_equality distinct here stack shaped.stack found found'
  case literals =>
    intro small frame rest ref here room
    rcases step_literal here room with ⟨log, pushed⟩
    rcases here.next with ⟨method, known, at_ip⟩
    rw [formed.runs] at known
    rcases Program.literal_of_link linked (Nat.le_trans literals.size_le small) known at_ip with
      ⟨source, text, declared, at_ip', found⟩
    exact ⟨source, text, log, declared, at_ip', literals.get? found, pushed⟩
  case defaults =>
    intro ref same
    cases same
    exact literals.get? promises.empty
  case reads =>
    intro small frame rest target method line console here known builtin read room
    rw [promises.builtins target method .readString known builtin, ← formed.runs] at known
    rcases step_readString here known read room with ⟨after, ran, strings, frames⟩
    refine ⟨_, after, ran, ?_, frames⟩
    rw [strings]
    exact StringTable.get?_intern (Nat.le_trans (machine.strings.size_intern_le line) small)

end Machine

/-- An image that keeps a line in an object and compares it to a literal. -/
def wordImage : Image where
  types := [.ofClass ⟨"Word", none, [-4], []⟩]
  methods := [⟨"Main", none, [], [0],
    [⟨.newobj, .type 0⟩, ⟨.stloc, .slot 0⟩, ⟨.ldloc, .slot 0⟩, ⟨.call, .method (-7)⟩,
      ⟨.stfld, .field 0 0⟩, ⟨.ldloc, .slot 0⟩, ⟨.ldfld, .field 0 0⟩, ⟨.ldstr, .str "yes"⟩,
      ⟨.ceq, .none⟩, ⟨.pop, .none⟩, ⟨.ret, .none⟩]⟩]
  main := 0

def wordProgram : Program :=
  wordImage.link.toOption.getD default

theorem link_wordImage : wordImage.link = .ok wordProgram :=
  Except.eq_ok_getD (by decide +kernel)

namespace Machine

def comparingMachine : Machine :=
  (Call.runMain 8).leaves
    ((boot wordProgram ⟨64, 2, 4⟩ "yes\n".toUTF8.toList .off).toOption.getD default)

theorem reached_comparingMachine : Reached wordProgram comparingMachine :=
  .leaves (.runMain 8) (.boot (Except.eq_ok_getD (by decide +kernel)))

theorem reached_denotesTexts_comparingMachine :
    wordImage.link = .ok wordProgram ∧ wordProgram.types.size < 2 ^ 31 - 1 ∧
      Reached wordProgram comparingMachine ∧
      comparingMachine.frames.map Frame.stack = [[.str ⟨1⟩, .str ⟨1⟩]] ∧
      DenotesTexts wordImage wordProgram comparingMachine :=
  ⟨link_wordImage, by decide +kernel, reached_comparingMachine, by decide +kernel,
    reached_denotesTexts link_wordImage reached_comparingMachine⟩

end Machine
end ObjectMachine
