import ObjectMachine.Proofs.AlikeMachines

/-!
# Instructions on the heap

An instruction that reads or writes an object checks its type first, and the check is what makes the
access safe: a field that was found in the layout of a class lies at the same place in every object
that passes. So on alike machines the same checks succeed, corresponding values are read, and
corresponding values are written at the same places.
-/

namespace ObjectMachine

theorem Program.Linked.field_place {program : Program} (linked : program.Linked) {field : FieldRef}
    {c : ClassDescriptor} (known : program.class? field.owner = some c)
    (at_index : c.fields[field.index]? = some field.slot) {actual : TypeRef}
    (descends : program.isSubclass actual field.owner = true) :
    ∃ d, program.class? actual = some d ∧ d.fields[field.index]? = some field.slot := by
  rcases linked.inherits actual field.owner c descends known with ⟨d, known', more, same⟩
  refine ⟨d, known', ?_⟩
  rw [← same]
  exact List.getElem?_append_left (List.getElem?_eq_some_iff.mp at_index).1 ▸ at_index

theorem Value.Alike.storable {pairing : Pairing} {store other : Store} {value value' : Value}
    (alike : Value.Alike pairing value value') (joins : pairing.Joins store other) :
    Memory.Storable store value := by
  intro addr equal proper
  subst equal
  cases alike with
  | ref same =>
      rcases same with ⟨null, _⟩ | paired
      · exact absurd null proper
      · rcases joins _ _ paired with ⟨object, _, found, _⟩
        rw [found]
        rfl

namespace Machine

variable {program : Program} {origin origin' : Origin program} {pairing : Pairing}
  {machine other : Machine} {a a' : Addr}

theorem observe_bind {α β : Type} (look : Machine → α) (f : α → Op β) :
    (observe look >>= f) machine = f (look machine) machine := rfl

theorem onMemory_of_ok {α : Type} {op : Memory.Op α} {result : α} {after : Memory}
    (ran : op machine.memory = .ok result after) :
    onMemory op machine = .ok result { machine with memory := after } := by
  rw [onMemory_eq, ran]
  rfl

theorem onMemory_query_of_ok {α : Type} {look : Memory → Except Error α} {result : α}
    (found : look machine.memory = .ok result) :
    onMemory (Memory.query look) machine = .ok result machine := by
  rw [onMemory_eq, Memory.query, found]
  rfl

theorem onMemory_query_of_error {α : Type} {look : Memory → Except Error α} {e : Error}
    (failed : look machine.memory = .error e) :
    onMemory (Memory.query look) machine = .error (.error e) machine := by
  rw [onMemory_eq, Memory.query, failed]
  rfl

namespace Alike

/-!
## Checks
-/

theorem objects (alike : Alike origin origin' pairing machine other) (paired : pairing.addr a a')
    {actual : TypeRef} (typed : machine.memory.typeOf a = .ok actual) :
    ∃ tiles tiles' store store' object object', Heap program machine.memory tiles store ∧
      Heap program other.memory tiles' store' ∧ pairing.Joins store store' ∧
      store a = some object ∧ store' a' = some object' ∧ object.type = actual ∧
      object'.type = actual ∧ ValuesAlike pairing object.values object'.values := by
  rcases alike.heaps with ⟨tiles, tiles', store, store', heap, heap', joins⟩
  rcases joins a a' paired with ⟨object, object', found, found', same⟩
  have known := heap.typeOf_eq found
  rw [typed] at known
  cases known
  exact ⟨tiles, tiles', store, store', object, object', heap, heap', joins, found, found', rfl,
    same.type, same.values⟩

theorem typeOf_eq (alike : Alike origin origin' pairing machine other)
    (paired : pairing.addr a a') :
    ∃ type, machine.memory.typeOf a = .ok type ∧ other.memory.typeOf a' = .ok type := by
  rcases alike.heaps with ⟨_, _, store, store', heap, heap', joins⟩
  rcases joins a a' paired with ⟨object, object', found, found', same⟩
  refine ⟨object.type, heap.typeOf_eq found, ?_⟩
  rw [heap'.typeOf_eq found', same.type]

theorem typeOf (alike : Alike origin origin' pairing machine other)
    (paired : pairing.addr a a') :
    Agree (fun type type' after after' => type = type' ∧ after = machine ∧ after' = other ∧
        machine.memory.typeOf a = .ok type)
      (Corresponds origin origin') Never (typeOf a machine) (Machine.typeOf a' other) := by
  rcases alike.typeOf_eq paired with ⟨type, left, right⟩
  rw [Machine.typeOf, onMemory_query_of_ok left, Machine.typeOf, onMemory_query_of_ok right]
  exact .done ⟨rfl, rfl, rfl, left⟩

theorem checkInstance (alike : Alike origin origin' pairing machine other) (opcode : Opcode)
    (same : pairing.ref a a') (owner : TypeRef) :
    Agree (fun _ _ after after' => after = machine ∧ after' = other ∧ pairing.addr a a' ∧
        ∃ actual, machine.memory.typeOf a = .ok actual ∧ program.isSubclass actual owner = true)
      (Corresponds origin origin') Never (checkInstance opcode a owner machine)
      (Machine.checkInstance opcode a' owner other) := by
  unfold Machine.checkInstance
  rw [Pairing.ref_isNull same]
  cases isNull : a.isNull with
  | true => exact .failed id ⟨pairing, alike⟩
  | false =>
      have paired := Pairing.addr_of_ref same isNull
      apply (alike.typeOf paired).bind
      intro actual _ _ _ both
      rcases both with ⟨rfl, rfl, rfl, typed⟩
      rw [observe_bind, observe_bind, alike.left_program, alike.right_program]
      cases descends : program.isSubclass actual owner with
      | true => exact .done ⟨rfl, rfl, paired, actual, typed, descends⟩
      | false => exact .failed (Failure.sound_ofCode _) ⟨pairing, alike⟩

theorem elementKind (alike : Alike origin origin' pairing machine other) (opcode : Opcode)
    (same : pairing.ref a a') :
    Agree (fun kind kind' after after' => kind = kind' ∧ after = machine ∧ after' = other ∧
        pairing.addr a a' ∧ ∃ actual array, machine.memory.typeOf a = .ok actual ∧
          program.array? actual = some array ∧ array.elementKind = kind)
      (Corresponds origin origin') Never (elementKind opcode a machine)
      (Machine.elementKind opcode a' other) := by
  unfold Machine.elementKind
  rw [Pairing.ref_isNull same]
  cases isNull : a.isNull with
  | true => exact .failed id ⟨pairing, alike⟩
  | false =>
      have paired := Pairing.addr_of_ref same isNull
      apply (alike.typeOf paired).bind
      intro actual _ _ _ both
      rcases both with ⟨rfl, rfl, rfl, typed⟩
      rw [observe_bind, observe_bind, alike.left_program, alike.right_program]
      cases known : program.array? actual with
      | some array => exact .done ⟨rfl, rfl, rfl, paired, actual, array, typed, known, rfl⟩
      | none => exact .failed (Failure.sound_ofCode _) ⟨pairing, alike⟩

/-!
## Fields and elements
-/

theorem getField (alike : Alike origin origin' pairing machine other) (paired : pairing.addr a a')
    {actual : TypeRef} (typed : machine.memory.typeOf a = .ok actual) {c : ClassDescriptor}
    (known : program.class? actual = some c) {i : Nat} {field : FieldSlot}
    (at_i : c.fields[i]? = some field) :
    ∃ value value', machine.memory.getField a field = .ok value ∧
      other.memory.getField a' field = .ok value' ∧ Value.Alike pairing value value' := by
  rcases alike.objects paired typed with
    ⟨_, _, _, _, object, object', heap, heap', _, found, found', type, type', same⟩
  have known' := known
  rw [← type] at known
  rw [← type'] at known'
  rcases heap.getField_eq origin.linked.orderly found known at_i with ⟨value, at_value, read⟩
  rcases heap'.getField_eq origin.linked.orderly found' known' at_i with
    ⟨value', at_value', read'⟩
  exact ⟨value, value', read, read', same.of_getElem? at_value at_value'⟩

theorem putField (alike : Alike origin origin' pairing machine other) (paired : pairing.addr a a')
    {actual : TypeRef} (typed : machine.memory.typeOf a = .ok actual) {c : ClassDescriptor}
    (known : program.class? actual = some c) {i : Nat} {field : FieldSlot}
    (at_i : c.fields[i]? = some field) {value value' : Value}
    (same : Value.Alike pairing value value') (kind : value.kind = field.kind) :
    ∃ after after', Memory.putField a field value machine.memory = .ok () after ∧
      Memory.putField a' field value' other.memory = .ok () after' ∧
      Alike origin origin' pairing { machine with memory := after }
        { other with memory := after' } := by
  rcases alike.objects paired typed with
    ⟨_, _, _, _, object, object', heap, heap', joins, found, found', type, type', _⟩
  have known' := known
  rw [← type] at known
  rw [← type'] at known'
  rcases heap.putField_eq origin.linked.orderly found known at_i kind with
    ⟨after, ran, _, _, rep⟩
  rcases heap'.putField_eq origin.linked.orderly found' known' at_i (same.kind_eq.trans kind) with
    ⟨after', ran', _, _, rep'⟩
  refine ⟨after, after', ran, ran', { alike with heaps := ?_ }⟩
  exact ⟨_, _, _, _, heap.put found (same.storable joins) rep,
    heap'.put found' (same.swap.storable joins.swap) rep',
    joins.put paired found found' same i⟩

theorem arrayLength (alike : Alike origin origin' pairing machine other)
    (paired : pairing.addr a a') {actual : TypeRef}
    (typed : machine.memory.typeOf a = .ok actual) {array : ArrayDescriptor}
    (known : program.array? actual = some array) :
    ∃ length, machine.memory.arrayLength a = .ok length ∧
      other.memory.arrayLength a' = .ok length := by
  rcases alike.objects paired typed with
    ⟨_, _, _, _, object, object', heap, heap', _, found, found', type, type', same⟩
  have known' := known
  rw [← type] at known
  rw [← type'] at known'
  refine ⟨object.values.length, heap.arrayLength_eq found known, ?_⟩
  rw [heap'.arrayLength_eq found' known', same.length_eq]

theorem getElement (alike : Alike origin origin' pairing machine other)
    (paired : pairing.addr a a') {actual : TypeRef}
    (typed : machine.memory.typeOf a = .ok actual) {array : ArrayDescriptor}
    (known : program.array? actual = some array) (index : Int32) :
    (∃ length, machine.memory.arrayLength a = .ok length ∧
      (index.toInt < 0 ∨ (length : Int) ≤ index.toInt) ∧
      machine.memory.getElement a array.elementKind index =
        .error (.indexOutOfRange index length) ∧
      other.memory.getElement a' array.elementKind index =
        .error (.indexOutOfRange index length)) ∨
    ∃ value value', machine.memory.getElement a array.elementKind index = .ok value ∧
      other.memory.getElement a' array.elementKind index = .ok value' ∧
      Value.Alike pairing value value' := by
  rcases alike.objects paired typed with
    ⟨_, _, _, _, object, object', heap, heap', _, found, found', type, type', same⟩
  have known' := known
  rw [← type] at known
  rw [← type'] at known'
  have length := same.length_eq
  by_cases outside : index.toInt < 0 ∨ (object.values.length : Int) ≤ index.toInt
  · left
    refine ⟨object.values.length, heap.arrayLength_eq found known, outside,
      heap.getElement_out_of_range found known outside, ?_⟩
    rw [length] at outside ⊢
    exact heap'.getElement_out_of_range found' known' outside
  · right
    have lower : 0 ≤ index.toInt := by omega
    have upper : index.toInt < object.values.length := by omega
    have upper' : index.toInt < object'.values.length := by omega
    rcases heap.getElement_eq origin.linked.orderly found known lower upper with
      ⟨value, at_value, read⟩
    rcases heap'.getElement_eq origin.linked.orderly found' known' lower upper' with
      ⟨value', at_value', read'⟩
    exact ⟨value, value', read, read', same.of_getElem? at_value at_value'⟩

theorem putElement (alike : Alike origin origin' pairing machine other)
    (paired : pairing.addr a a') {actual : TypeRef}
    (typed : machine.memory.typeOf a = .ok actual) {array : ArrayDescriptor}
    (known : program.array? actual = some array) (index : Int32) {value value' : Value}
    (stored : Value.Alike pairing value value') (kind : value.kind = array.elementKind) :
    (∃ length, Memory.putElement a array.elementKind index value machine.memory =
        .error (.indexOutOfRange index length) machine.memory ∧
      Memory.putElement a' array.elementKind index value' other.memory =
        .error (.indexOutOfRange index length) other.memory) ∨
    ∃ after after', Memory.putElement a array.elementKind index value machine.memory =
        .ok () after ∧
      Memory.putElement a' array.elementKind index value' other.memory = .ok () after' ∧
      Alike origin origin' pairing { machine with memory := after }
        { other with memory := after' } := by
  rcases alike.objects paired typed with
    ⟨_, _, _, _, object, object', heap, heap', joins, found, found', type, type', same⟩
  have known' := known
  rw [← type] at known
  rw [← type'] at known'
  have length := same.length_eq
  by_cases outside : index.toInt < 0 ∨ (object.values.length : Int) ≤ index.toInt
  · left
    refine ⟨object.values.length, heap.putElement_out_of_range found known value outside, ?_⟩
    rw [length] at outside ⊢
    exact heap'.putElement_out_of_range found' known' value' outside
  · right
    have lower : 0 ≤ index.toInt := by omega
    have upper : index.toInt < object.values.length := by omega
    have upper' : index.toInt < object'.values.length := by omega
    rcases heap.putElement_eq origin.linked.orderly found known lower upper kind with
      ⟨after, ran, _, _, rep⟩
    rcases heap'.putElement_eq origin.linked.orderly found' known' lower upper'
      (stored.kind_eq.trans kind) with ⟨after', ran', _, _, rep'⟩
    refine ⟨after, after', ran, ran', { alike with heaps := ?_ }⟩
    exact ⟨_, _, _, _, heap.put found (stored.storable joins) rep,
      heap'.put found' (stored.swap.storable joins.swap) rep',
      joins.put paired found found' stored _⟩

/-!
## Instructions that read and write
-/

theorem popRef (alike : Alike origin origin' pairing machine other) :
    MachinesAgree origin origin' pairing pairing.ref (Machine.onFrame Frame.popRef machine)
      (Machine.onFrame Frame.popRef other) :=
  alike.onFrame Frame.Alike.popRef

theorem loadField (alike : Alike origin origin' pairing machine other) {field : FieldRef}
    {c : ClassDescriptor} (known : program.class? field.owner = some c)
    (at_index : c.fields[field.index]? = some field.slot) :
    MachinesSettle origin origin' (loadField field machine) (Machine.loadField field other) := by
  apply alike.popRef.bind
  intro a a' machine other both
  rcases both with ⟨same, alike⟩
  apply (alike.checkInstance .ldfld same field.owner).bind
  intro _ _ _ _ both
  rcases both with ⟨rfl, rfl, paired, actual, typed, descends⟩
  rcases origin.linked.field_place known at_index descends with ⟨d, known', place⟩
  rcases alike.getField paired typed known' place with ⟨value, value', read, read', values⟩
  rw [bind_of_ok (onMemory_query_of_ok read), bind_of_ok (onMemory_query_of_ok read')]
  exact alike.push values

theorem storeField (alike : Alike origin origin' pairing machine other) {field : FieldRef}
    {c : ClassDescriptor} (known : program.class? field.owner = some c)
    (at_index : c.fields[field.index]? = some field.slot) :
    MachinesSettle origin origin' (storeField field machine) (Machine.storeField field other) := by
  apply (alike.onFrame fun frames => frames.popKind field.slot.kind).bind
  intro value value' machine other both
  rcases both with ⟨⟨values, kind⟩, alike⟩
  apply alike.popRef.bind
  intro a a' machine other both
  rcases both with ⟨same, alike⟩
  apply (alike.checkInstance .stfld same field.owner).bind
  intro _ _ _ _ both
  rcases both with ⟨rfl, rfl, paired, actual, typed, descends⟩
  rcases origin.linked.field_place known at_index descends with ⟨d, known', place⟩
  rcases alike.putField paired typed known' place values kind with ⟨after, after', ran, ran', alike⟩
  rw [onMemory_of_ok ran, onMemory_of_ok ran']
  exact .done ⟨rfl, Or.inl ⟨pairing, alike⟩⟩

theorem loadElement (alike : Alike origin origin' pairing machine other) :
    MachinesSettle origin origin' (loadElement machine) (Machine.loadElement other) := by
  apply (alike.onFrame Frame.Alike.popInt).bind
  intro index _ machine other both
  rcases both with ⟨rfl, alike⟩
  apply alike.popRef.bind
  intro a a' machine other both
  rcases both with ⟨same, alike⟩
  apply (alike.elementKind .ldelem same).bind
  intro _ _ _ _ both
  rcases both with ⟨rfl, rfl, rfl, paired, actual, array, typed, known, rfl⟩
  rcases alike.getElement paired typed known index with
    ⟨length, _, _, failed, failed'⟩ | ⟨value, value', read, read', values⟩
  · rw [bind_of_error (onMemory_query_of_error failed),
      bind_of_error (onMemory_query_of_error failed')]
    exact .failed id ⟨pairing, alike⟩
  · rw [bind_of_ok (onMemory_query_of_ok read), bind_of_ok (onMemory_query_of_ok read')]
    exact alike.push values

theorem storeElement (alike : Alike origin origin' pairing machine other) :
    MachinesSettle origin origin' (storeElement machine) (Machine.storeElement other) := by
  apply (alike.onFrame Frame.Alike.pop).bind
  intro value value' machine other both
  rcases both with ⟨values, alike⟩
  apply (alike.onFrame Frame.Alike.popInt).bind
  intro index _ machine other both
  rcases both with ⟨rfl, alike⟩
  apply alike.popRef.bind
  intro a a' machine other both
  rcases both with ⟨same, alike⟩
  apply (alike.elementKind .stelem same).bind
  intro _ _ _ _ both
  rcases both with ⟨rfl, rfl, rfl, paired, actual, array, typed, known, rfl⟩
  rw [values.check_eq]
  by_cases kind : value.kind = array.elementKind
  · rw [Value.check, if_pos kind]
    rcases alike.putElement paired typed known index values kind with
      ⟨length, failed, failed'⟩ | ⟨after, after', ran, ran', alike'⟩
    · show MachinesSettle origin origin' (onMemory (Memory.putElement a _ index value) _)
        (onMemory (Memory.putElement a' _ index value') _)
      rw [onMemory_eq, onMemory_eq, failed, failed']
      exact .failed id ⟨pairing, alike⟩
    · show MachinesSettle origin origin' (onMemory (Memory.putElement a _ index value) _)
        (onMemory (Memory.putElement a' _ index value') _)
      rw [onMemory_of_ok ran, onMemory_of_ok ran']
      exact .done ⟨rfl, Or.inl ⟨pairing, alike'⟩⟩
  · rw [Value.check, if_neg kind]
    exact .failed id ⟨pairing, alike⟩

theorem loadLength (alike : Alike origin origin' pairing machine other) :
    MachinesSettle origin origin' (loadLength machine) (Machine.loadLength other) := by
  apply alike.popRef.bind
  intro a a' machine other both
  rcases both with ⟨same, alike⟩
  apply (alike.elementKind .ldlen same).bind
  intro _ _ _ _ both
  rcases both with ⟨rfl, rfl, rfl, paired, actual, array, typed, known, _⟩
  rcases alike.arrayLength paired typed known with ⟨length, read, read'⟩
  rw [bind_of_ok (onMemory_query_of_ok read), bind_of_ok (onMemory_query_of_ok read')]
  exact alike.push (.int _)

theorem testInstance (alike : Alike origin origin' pairing machine other) (type : TypeRef) :
    MachinesSettle origin origin'
      (testInstance type machine) (Machine.testInstance type other) := by
  apply alike.popRef.bind
  intro a a' machine other both
  rcases both with ⟨same, alike⟩
  rw [Pairing.ref_isNull same]
  cases isNull : a.isNull with
  | true => exact alike.push (.bool false)
  | false =>
      apply (alike.typeOf (Pairing.addr_of_ref same isNull)).bind
      intro actual _ _ _ both
      rcases both with ⟨rfl, rfl, rfl, _⟩
      rw [observe_bind, observe_bind, alike.left_program, alike.right_program]
      exact alike.push (.bool _)

theorem castInstance (alike : Alike origin origin' pairing machine other) (type : TypeRef) :
    MachinesSettle origin origin'
      (castInstance type machine) (Machine.castInstance type other) := by
  apply alike.popRef.bind
  intro a a' machine other both
  rcases both with ⟨same, alike⟩
  rw [Pairing.ref_isNull same]
  cases isNull : a.isNull with
  | true => exact alike.push (.ref same)
  | false =>
      apply (alike.typeOf (Pairing.addr_of_ref same isNull)).bind
      intro actual _ _ _ both
      rcases both with ⟨rfl, rfl, rfl, _⟩
      rw [observe_bind, observe_bind, alike.left_program, alike.right_program]
      cases descends : program.isSubclass actual type with
      | true => exact alike.push (.ref same)
      | false => exact .failed (Failure.sound_ofCast _) ⟨pairing, alike⟩

end Alike
end Machine
end ObjectMachine
