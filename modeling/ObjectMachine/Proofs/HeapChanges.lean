import ObjectMachine.Proofs.CallStacks

/-!
# Changes of the heap

Four instructions write to the memory, and between them they do three things to the objects in it: a
value from the stack is put into one of them, a new one is made, and those that cannot be reached
are removed. What these three keep is kept by every instruction, and by every collection.
-/

namespace ObjectMachine

/-- What an instruction can do to a store at once. The strings that it puts there are in a table. -/
inductive Store.Changes (table : StringTable) (roots : List Addr) : Store → Store → Prop where
  | put {store : Store} {addr : Addr} {object : Object} {value : Value} (i : Nat) :
      store addr = some object →
      (∀ ref, value = .str ref → (table.get? ref).isSome) →
      Changes table roots store (store.set addr (object.put i value))
  | new {store : Store} {addr : Addr} (type : TypeRef) (descriptor : TypeDescriptor)
      (length : Nat) : store addr = none →
      Changes table roots store (store.set addr ⟨type, descriptor.defaults length⟩)
  | trim (store : Store) : Changes table roots store (store.trim roots)

namespace Machine

inductive Changes (program : Program) (table : StringTable) : Machine → Machine → Prop where
  | reads {machine after : Machine} : Within False machine after →
      Changes program table machine after
  | writes {machine : Machine} {tiles tiles' : List Tile} {store store' : Store} {memory : Memory}
      {log : Log} : Memory.Represents program machine.memory tiles store →
      store.Roots machine.roots → store.Changes table machine.roots store' →
      Memory.Represents program memory tiles' store' →
      Changes program table machine { machine with memory, log }
  | trans {machine between after : Machine} : Changes program table machine between →
      Changes program table between after → Changes program table machine after

variable {program : Program} {origin origin' : Origin program} {pairing : Pairing}
  {machine other : Machine} {table : StringTable} {α β : Type}

theorem Changes.refl (machine : Machine) : Changes program table machine machine :=
  .reads (refl_of (Within False) machine)

theorem changes_bind {done : α → α → Machine → Machine → Prop} {failed : Machine → Machine → Prop}
    {x : Op α} {f : α → Op β} (within : Leads (Within False) x)
    (agree : Agree done failed Never (x machine) (x machine))
    (rest : ∀ a after, done a a after after → Changes program table after (lastState (f a after))) :
    Changes program table machine (lastState ((x >>= f) machine)) := by
  have reads := within machine
  cases outcome : x machine with
  | ok a after =>
      rw [outcome] at reads agree
      rw [bind_of_ok outcome]
      cases agree with
      | done related => exact .trans (.reads reads) (rest a after related)
  | error e after =>
      rw [outcome] at reads
      rw [bind_of_error outcome]
      exact .reads reads

theorem Changes.bind {x : Op α} {f : α → Op β}
    (first : Changes program table machine (lastState (x machine)))
    (rest : ∀ a, Leads (Within False) (f a)) :
    Changes program table machine (lastState ((x >>= f) machine)) := by
  cases outcome : x machine with
  | ok a after =>
      rw [outcome] at first
      rw [bind_of_ok outcome]
      exact .trans first (.reads (rest a after))
  | error e after =>
      rw [outcome] at first
      rw [bind_of_error outcome]
      exact first

namespace Alike

/-!
## Writes
-/

theorem known (alike : Alike origin origin' pairing machine other) {value value' : Value}
    (same : Value.Alike pairing value value') {ref : StrRef} (isString : value = .str ref) :
    (machine.strings.get? ref).isSome := by
  subst isString
  cases same with
  | str texts =>
      rcases texts with ⟨text, found, _⟩
      rw [alike.left_strings, found]
      rfl

theorem changes_storeField (alike : Alike origin origin pairing machine machine) {field : FieldRef}
    {c : ClassDescriptor} (known : program.class? field.owner = some c)
    (at_index : c.fields[field.index]? = some field.slot) :
    Changes program pairing.left machine (lastState (Machine.storeField field machine)) := by
  apply changes_bind (within_onFrame (Frame.ages_popKind _))
    (alike.onFrame fun frames => frames.popKind field.slot.kind)
  intro value machine both
  rcases both with ⟨⟨held, kind⟩, alike⟩
  apply changes_bind (within_onFrame Frame.ages_popRef) alike.popRef
  intro addr machine both
  rcases both with ⟨same, alike⟩
  apply changes_bind (within_checkInstance _ _ _) (alike.checkInstance .stfld same field.owner)
  intro _ after both
  rcases both with ⟨rfl, _, paired, actual, typed, descends⟩
  rcases origin.linked.field_place known at_index descends with ⟨d, known', place⟩
  rcases alike.objects paired typed with ⟨_, _, _, _, _, _, heap, _, joins, found, _, type, _, _⟩
  rw [← type] at known'
  rcases heap.putField_eq origin.linked.orderly found known' place kind with ⟨after, ran, _, _, rep⟩
  rw [onMemory_of_ok ran]
  refine .writes heap.toRepresents (alike.rooted joins) (.put _ found ?_) rep
  intro ref isString
  rw [← alike.left_strings]
  exact alike.known held isString

theorem changes_storeElement (alike : Alike origin origin pairing machine machine) :
    Changes program pairing.left machine (lastState (Machine.storeElement machine)) := by
  apply changes_bind (within_onFrame Frame.ages_pop) (alike.onFrame Frame.Alike.pop)
  intro value machine both
  rcases both with ⟨held, alike⟩
  apply changes_bind (within_onFrame Frame.ages_popInt) (alike.onFrame Frame.Alike.popInt)
  intro index machine both
  rcases both with ⟨_, alike⟩
  apply changes_bind (within_onFrame Frame.ages_popRef) alike.popRef
  intro addr machine both
  rcases both with ⟨same, alike⟩
  apply changes_bind (within_elementKind _ _) (alike.elementKind .stelem same)
  intro _ after both
  rcases both with ⟨_, rfl, _, paired, actual, array, typed, known, rfl⟩
  by_cases kind : value.kind = array.elementKind
  · rw [Value.check, if_pos kind]
    show Changes program pairing.left _
      (lastState (onMemory (Memory.putElement addr _ index value) _))
    rcases alike.objects paired typed with
      ⟨_, _, _, _, object, _, heap, _, joins, found, _, type, _, _⟩
    rw [← type] at known
    by_cases outside : index.toInt < 0 ∨ (object.values.length : Int) ≤ index.toInt
    · rw [onMemory_eq, heap.putElement_out_of_range found known value outside]
      exact .refl _
    · have lower : 0 ≤ index.toInt := by omega
      have upper : index.toInt < object.values.length := by omega
      rcases heap.putElement_eq origin.linked.orderly found known lower upper kind with
        ⟨after, ran, _, _, rep⟩
      rw [onMemory_of_ok ran]
      refine .writes heap.toRepresents (alike.rooted joins) (.put _ found ?_) rep
      intro ref isString
      rw [← alike.left_strings]
      exact alike.known held isString
  · rw [Value.check, if_neg kind]
    exact .refl _

/-!
## Collections and allocations
-/

theorem changes_collect (alike : Alike origin origin' pairing machine other) :
    Changes program table machine (lastState (collectGarbage machine)) := by
  rcases alike.heaps with ⟨_, _, store, _, heap, _, joins⟩
  have rooted := alike.rooted joins
  rcases collectGarbage_eq heap alike.left_program origin.linked.orderly rooted with
    ⟨report, memory, log, swept, ran, collected⟩
  rw [ran]
  exact .writes heap.toRepresents rooted (.trim store) collected.represents

variable {attempt : Memory.Op (Option Addr)} {type : TypeRef} {descriptor : TypeDescriptor}
  {length : Nat}

theorem changes_attempt (alike : Alike origin origin' pairing machine other)
    (requests : Requests program attempt type descriptor length) :
    Changes program table machine (lastState (onMemory attempt machine)) := by
  rcases alike.heaps with ⟨_, _, _, _, heap, _, joins⟩
  rcases requests _ _ _ heap with ⟨full, _⟩ | ⟨addr, after, _, ran, created⟩
  · rw [onMemory_of_ok full]
    exact .refl _
  · rw [onMemory_of_ok ran]
    exact .writes heap.toRepresents (alike.rooted joins) (.new type descriptor length created.fresh)
      created.represents

theorem changes_allocate (alike : Alike origin origin pairing machine machine)
    (requests : Requests program attempt type descriptor length)
    (shortage : Machine → Option Shortage) :
    Changes program table machine (lastState (Machine.allocate attempt shortage machine)) := by
  rcases alike.heaps with ⟨_, _, _, _, heap, _, _⟩
  rcases requests _ _ _ heap with ⟨full, _⟩ | ⟨addr, after, _, ran, _⟩
  · have collects : Changes program table machine (lastState (collectGarbage machine)) :=
      alike.changes_collect
    rcases alike.collect with ⟨report, memory, log, pairing', ran, alike'⟩
    rw [ran] at collects
    rw [Machine.allocate, bind_of_ok (onMemory_of_ok full)]
    show Changes program table _ (lastState ((collectGarbage >>= _) machine))
    rw [bind_of_ok ran]
    refine .trans collects ((alike'.changes_attempt requests).bind ?_)
    intro found
    cases found with
    | some addr => exact .of_pure _
    | none => exact (within_observe _).bind fun _ => .of_throw _
  · have attempts : Changes program table machine (lastState (Machine.onMemory attempt machine)) :=
      alike.changes_attempt requests
    rw [onMemory_of_ok ran] at attempts
    rw [Machine.allocate, bind_of_ok (onMemory_of_ok ran)]
    exact attempts

theorem changes_makeObject (alike : Alike origin origin pairing machine machine) (type : TypeRef) :
    Changes program table machine (lastState (Machine.makeObject type machine)) := by
  refine Changes.bind ?_ fun _ => within_push _
  rw [allocateObject, observe_bind, alike.left_program]
  cases known : program.class? type with
  | none => exact .refl machine
  | some c => exact alike.changes_allocate (requests_newObject origin known) _

theorem changes_makeArray (alike : Alike origin origin pairing machine machine) (type : TypeRef) :
    Changes program table machine (lastState (Machine.makeArray type machine)) := by
  apply changes_bind (within_onFrame Frame.ages_popInt) (alike.onFrame Frame.Alike.popInt)
  intro length machine both
  rcases both with ⟨_, alike⟩
  by_cases negative : length.toInt < 0
  · rw [if_pos negative]
    exact .refl machine
  · rw [if_neg negative]
    refine Changes.bind ?_ fun _ => within_push _
    rw [allocateArray, observe_bind, alike.left_program]
    cases known : program.array? type with
    | none => exact .refl machine
    | some array => exact alike.changes_allocate (requests_newArray origin known _) _

/-!
## Instructions
-/

theorem changes_execute (alike : Alike origin origin pairing machine machine) {insn : Instruction}
    (suits : insn.Suits program.types program.strings) (writes : insn.opcode.Writes) :
    Changes program machine.strings machine (lastState (Machine.execute insn machine)) := by
  rw [alike.left_strings]
  have last : ∀ {op : Op Unit}, Changes program pairing.left machine (lastState (op machine)) →
      Changes program pairing.left machine
        (lastState ((op >>= fun _ => pure (none : Option ExitStatus)) machine)) :=
    fun changes => changes.bind fun _ => .of_pure _
  rcases insn with ⟨opcode, operand⟩
  cases opcode with
  | stfld =>
      cases operand with
      | field field =>
          rcases suits.field field rfl with ⟨c, known, place⟩
          have known' := Program.class?_eq_some_iff.mpr known
          exact last (alike.changes_storeField known' place)
      | _ => exact .refl machine
  | newobj =>
      cases operand with
      | type type => exact last (alike.changes_makeObject type)
      | _ => exact .refl machine
  | newarr =>
      cases operand with
      | type type => exact last (alike.changes_makeArray type)
      | _ => exact .refl machine
  | stelem => exact last alike.changes_storeElement
  | _ => exact absurd writes id

end Alike

/-- A cycle that leaves the frames in place changes the heap in these ways only. -/
theorem Sound.changes_step (sound : Sound origin machine) {frame : Frame} {rest : List Frame}
    {method : MethodDescriptor} {insn : Instruction} {log : Log}
    (top : machine.frames = frame :: rest)
    (known : machine.program.method? frame.method = some method)
    (at_ip : method.code[frame.ip]? = some insn)
    (executes : Machine.step machine = execute insn (machine.fetched frame rest log))
    (within : Within insn.opcode.Writes machine (lastState (Machine.step machine))) :
    Changes program machine.strings machine (lastState (Machine.step machine)) := by
  by_cases writes : insn.opcode.Writes
  · rcases sound with ⟨pairing, alike⟩
    have frames := alike.frames
    rw [top] at frames
    rcases List.forall₂_cons.mp frames with ⟨same, rests⟩
    have alike' : Alike origin origin pairing (machine.fetched frame rest log)
        (machine.fetched frame rest log) := { alike with
      frames := .cons ⟨rfl, rfl, same.receiver, same.args, same.locals, same.stack⟩ rests }
    rw [alike.left_program] at known
    rw [executes]
    exact .trans (.reads (within_fetched top log))
      (alike'.changes_execute (origin.linked.suits _ _ _ _ known at_ip) writes)
  · exact .reads { within with memory := fun _ => within.memory writes }

end Machine
end ObjectMachine
