import ObjectMachine.Proofs.AllocatingInstructions

/-!
# Calls

A call takes its arguments from the stack by the kinds of its parameters, so a built-in method is
called with what it expects. What it writes are values and texts; what it reads is the same on alike
machines. A line that is read becomes a string, whose index depends on what was read before: here
and only here it matters that there are as many indices as strings.
-/

namespace ObjectMachine

theorem Value.Alike.char_of_kind {pairing : Pairing} {value value' : Value}
    (alike : Value.Alike pairing value value') (kind : value.kind = .char) :
    ∃ c, value = .char c ∧ value' = .char c := by
  cases alike with
  | char c => exact ⟨c, rfl, rfl⟩
  | _ => cases kind

theorem Value.Alike.int_of_kind {pairing : Pairing} {value value' : Value}
    (alike : Value.Alike pairing value value') (kind : value.kind = .int) :
    ∃ i, value = .int i ∧ value' = .int i := by
  cases alike with
  | int i => exact ⟨i, rfl, rfl⟩
  | _ => cases kind

theorem Value.Alike.str_of_kind {pairing : Pairing} {value value' : Value}
    (alike : Value.Alike pairing value value') (kind : value.kind = .str) :
    ∃ r r', value = .str r ∧ value' = .str r' ∧ pairing.str r r' := by
  cases alike with
  | str same => exact ⟨_, _, rfl, rfl, same⟩
  | _ => cases kind

theorem ValuesAlike.none_of_kinds {pairing : Pairing} {values values' : List Value}
    (alike : ValuesAlike pairing values values') (kinds : values.map Value.kind = []) :
    values = [] ∧ values' = [] := by
  cases alike with
  | nil => exact ⟨rfl, rfl⟩
  | cons _ _ => cases kinds

theorem ValuesAlike.one_of_kinds {pairing : Pairing} {values values' : List Value} {kind : Kind}
    (alike : ValuesAlike pairing values values') (kinds : values.map Value.kind = [kind]) :
    ∃ value value', values = [value] ∧ values' = [value'] ∧ value.kind = kind ∧
      Value.Alike pairing value value' := by
  cases alike with
  | nil => cases kinds
  | cons same rest =>
      rcases List.cons_eq_cons.mp kinds with ⟨kind, none⟩
      rcases ValuesAlike.none_of_kinds rest none with ⟨rfl, rfl⟩
      exact ⟨_, _, rfl, rfl, kind, same⟩

namespace Machine

variable {program : Program} {origin origin' : Origin program} {pairing : Pairing}
  {machine other : Machine}

/-!
## Strings that are read
-/

def interned (machine : Machine) (text : String) : Machine :=
  { machine with strings := (machine.strings.intern text).2 }

theorem push_cases (value : Value) {frame : Frame} {rest : List Frame}
    (top : machine.frames = frame :: rest) :
    (∃ frames, push value machine = .ok () { machine with frames }) ∨
      ∃ cause frames,
        push value machine = .error (.error (.shortage cause)) { machine with frames } := by
  rw [push, onFrame_eq _ top, Frame.push]
  split
  · exact Or.inl ⟨_, rfl⟩
  · exact Or.inr ⟨_, _, rfl⟩

namespace Alike

theorem interned (alike : Alike origin origin' pairing machine other) (text : String) :
    Alike origin origin'
      (pairing.retable (pairing.left.intern text).2 (pairing.right.intern text).2
        (pairing.left_distinct.intern text) (pairing.right_distinct.intern text))
      (machine.interned text) (other.interned text) := by
  rcases alike.heaps with ⟨_, _, _, _, heap, heap', joins⟩
  have left := pairing.left.extends_intern text
  have right := pairing.right.extends_intern text
  refine { alike with
    left_strings := congrArg (fun table => (table.intern text).2) alike.left_strings
    right_strings := congrArg (fun table => (table.intern text).2) alike.right_strings
    left_grown := alike.left_grown.trans left
    right_grown := alike.right_grown.trans right
    heaps := ⟨_, _, _, _, heap, heap', joins.retable _ _ left right⟩
    frames := ?_ }
  refine alike.frames.imp fun _ _ same => same.map ?_ fun _ => id
  intro r r' given
  rcases given with ⟨text, found, found'⟩
  exact ⟨text, left.get? found, right.get? found'⟩

/-- Strings are put on the stacks of machines that have more strings than indices. The strings may
differ, but both machines stay sound. -/
theorem pushCrowded (alike : Alike origin origin' pairing machine other) {r r' : StrRef}
    (known : (pairing.left.get? r).isSome) (known' : (pairing.right.get? r').isSome)
    (crowd : 2 ^ 32 < machine.strings.size ∨ 2 ^ 32 < other.strings.size) :
    MachinesSettle origin origin' (Machine.push (.str r) machine)
      (Machine.push (.str r') other) := by
  rcases Option.isSome_iff_exists.mp known with ⟨text, found⟩
  rcases Option.isSome_iff_exists.mp known' with ⟨text', found'⟩
  have safe := safe_of_settle (alike.diagonal.push (.str ⟨text, found, found⟩))
  have safe' := safe_of_settle (alike.swap.diagonal.push (.str ⟨text', found', found'⟩))
  rcases alike.frames_cases with ⟨none, none'⟩ | ⟨_, _, _, _, top, top', _, _⟩
  · rw [Machine.push, Machine.onFrame, none, Machine.push, Machine.onFrame, none']
    exact .failed id ⟨pairing, alike⟩
  · rcases push_cases (.str r) top with ⟨frames, pushed⟩ | ⟨cause, frames, full⟩
    · rw [pushed] at safe ⊢
      rcases push_cases (.str r') top' with ⟨frames', pushed'⟩ | ⟨cause', frames', full'⟩
      · rw [pushed'] at safe' ⊢
        exact .done ⟨rfl, Or.inr ⟨crowd, safe, safe'⟩⟩
      · rw [full'] at safe' ⊢
        exact settle_of_short_right trivial safe safe'
    · rw [full] at safe ⊢
      exact settle_of_short_left trivial safe safe'

theorem pushInterned (alike : Alike origin origin' pairing machine other) (text : String) :
    MachinesSettle origin origin'
      (Machine.push (.str (machine.strings.intern text).1) (machine.interned text))
      (Machine.push (.str (other.strings.intern text).1) (other.interned text)) := by
  have grown := alike.interned text
  by_cases small : (machine.strings.intern text).2.size ≤ 2 ^ 32 ∧
      (other.strings.intern text).2.size ≤ 2 ^ 32
  · have found := StringTable.get?_intern small.1
    have found' := StringTable.get?_intern small.2
    rw [alike.left_strings] at found
    rw [alike.right_strings] at found'
    rw [alike.left_strings, alike.right_strings]
    exact grown.push (.str ⟨text, found, found'⟩)
  · have crowd : 2 ^ 32 < (machine.interned text).strings.size ∨
        2 ^ 32 < (other.interned text).strings.size := by
      simp only [Machine.interned]
      omega
    rw [alike.left_strings, alike.right_strings]
    exact grown.pushCrowded (pairing.left.isSome_get?_intern text)
      (pairing.right.isSome_get?_intern text) crowd

/-!
## Built-in methods
-/

theorem callBuiltin (alike : Alike origin origin' pairing machine other) (builtin : Builtin)
    {args args' : List Value} (same : ValuesAlike pairing args args')
    (kinds : args.map Value.kind = builtin.params.map Primitive.kind) :
    MachinesSettle origin origin' (callBuiltin builtin args machine)
      (Machine.callBuiltin builtin args' other) := by
  unfold Machine.callBuiltin
  apply (alike.note .debug _ _).bind
  intro _ _ machine other outcome
  rcases outcome with ⟨_, alike⟩
  cases builtin with
  | halt =>
      rcases same.one_of_kinds kinds with ⟨value, value', rfl, rfl, kind, same⟩
      rcases same.str_of_kind kind with ⟨r, r', rfl, rfl, texts⟩
      apply (alike.string texts).bind
      intro text _ machine other outcome
      rcases outcome with ⟨rfl, alike⟩
      exact .done ⟨rfl, Or.inl ⟨pairing, alike⟩⟩
  | writeChar =>
      rcases same.one_of_kinds kinds with ⟨value, value', rfl, rfl, kind, same⟩
      rcases same.char_of_kind kind with ⟨c, rfl, rfl⟩
      apply (alike.onConsole (alike.consoles.write _)).bind
      intro _ _ machine other outcome
      rcases outcome with ⟨_, alike⟩
      exact .done ⟨rfl, Or.inl ⟨pairing, alike⟩⟩
  | writeInt =>
      rcases same.one_of_kinds kinds with ⟨value, value', rfl, rfl, kind, same⟩
      rcases same.int_of_kind kind with ⟨i, rfl, rfl⟩
      apply (alike.onConsole (alike.consoles.write _)).bind
      intro _ _ machine other outcome
      rcases outcome with ⟨_, alike⟩
      exact .done ⟨rfl, Or.inl ⟨pairing, alike⟩⟩
  | writeString =>
      rcases same.one_of_kinds kinds with ⟨value, value', rfl, rfl, kind, same⟩
      rcases same.str_of_kind kind with ⟨r, r', rfl, rfl, texts⟩
      apply (alike.string texts).bind
      intro text _ machine other outcome
      rcases outcome with ⟨rfl, alike⟩
      apply (alike.onConsole (alike.consoles.write _)).bind
      intro _ _ machine other outcome
      rcases outcome with ⟨_, alike⟩
      exact .done ⟨rfl, Or.inl ⟨pairing, alike⟩⟩
  | readChar =>
      rcases same.none_of_kinds kinds with ⟨rfl, rfl⟩
      apply (alike.onConsole alike.consoles.readChar).bind
      intro c _ machine other outcome
      rcases outcome with ⟨rfl, alike⟩
      exact (alike.push (.char c)).map fun _ _ _ _ both => ⟨rfl, both.2⟩
  | readInt =>
      rcases same.none_of_kinds kinds with ⟨rfl, rfl⟩
      apply (alike.onConsole alike.consoles.readInt).bind
      intro i _ machine other outcome
      rcases outcome with ⟨rfl, alike⟩
      exact (alike.push (.int i)).map fun _ _ _ _ both => ⟨rfl, both.2⟩
  | readString =>
      rcases same.none_of_kinds kinds with ⟨rfl, rfl⟩
      apply (alike.onConsole alike.consoles.readLine).bind
      intro line _ machine other outcome
      rcases outcome with ⟨rfl, alike⟩
      exact (alike.pushInterned line).map fun _ _ _ _ both => ⟨rfl, both.2⟩

end Alike

/-!
## Calls
-/

theorem enterMethod_cases (target : MethodRef) (receiver : Addr) (args : List Value)
    (machine : Machine) :
    (∃ log, enterMethod target receiver args machine = .ok () { machine with
      log
      frames := Frame.enter machine.program target receiver args machine.limits.stackCapacity ::
        machine.frames }) ∨
    ∃ cause, enterMethod target receiver args machine =
      .error (.error (.shortage cause)) machine := by
  rw [enterMethod, observe_bind, observe_bind]
  split
  · exact Or.inr ⟨_, rfl⟩
  · left
    rcases note_eq .debug (fun machine => .called machine.cycle machine.frames.length
      (machine.program.methodName target)) machine with ⟨log, noted⟩
    refine ⟨log, ?_⟩
    show (note .debug _ >>= _) machine = _
    rw [bind_of_ok noted]
    rfl

namespace Alike

theorem enter (alike : Alike origin origin' pairing machine other) (target : MethodRef)
    {receiver receiver' : Addr} (receivers : pairing.ref receiver receiver')
    {args args' : List Value} (same : ValuesAlike pairing args args') (capacity capacity' : Nat) :
    Frame.Alike pairing (Frame.enter program target receiver args capacity)
      (Frame.enter program target receiver' args' capacity') := by
  refine ⟨rfl, rfl, receivers, same, ?_, .nil⟩
  unfold Frame.enter
  cases program.method? target with
  | none => exact .nil
  | some descriptor =>
      show ValuesAlike pairing (descriptor.locals.map _) (descriptor.locals.map _)
      induction descriptor.locals with
      | nil => exact .nil
      | cons type rest ih => exact .cons ((program.kindOf type).default_alike alike.empty) ih

theorem enterMethod (alike : Alike origin origin' pairing machine other) (target : MethodRef)
    {receiver receiver' : Addr} (receivers : pairing.ref receiver receiver')
    {args args' : List Value} (same : ValuesAlike pairing args args') :
    MachinesSettle origin origin' (enterMethod target receiver args machine)
      (Machine.enterMethod target receiver' args' other) := by
  have entered : ∀ log log', Alike origin origin' pairing
      { machine with
        log
        frames := Frame.enter machine.program target receiver args machine.limits.stackCapacity ::
          machine.frames }
      { other with
        log := log'
        frames := Frame.enter other.program target receiver' args' other.limits.stackCapacity ::
          other.frames } := by
    intro log log'
    refine { alike with frames := .cons ?_ alike.frames }
    rw [alike.left_program, alike.right_program]
    exact alike.enter target receivers same _ _
  rcases enterMethod_cases target receiver args machine with ⟨log, ran⟩ | ⟨cause, short⟩
  · rcases enterMethod_cases target receiver' args' other with ⟨log', ran'⟩ | ⟨cause', short'⟩
    · rw [ran, ran']
      exact .done ⟨rfl, Or.inl ⟨pairing, entered log log'⟩⟩
    · rw [ran, short']
      exact .shortRight trivial id ⟨(entered log other.log).sound, alike.swap.sound⟩
  · rcases enterMethod_cases target receiver' args' other with ⟨log', ran'⟩ | ⟨cause', short'⟩
    · rw [short, ran']
      exact .shortLeft trivial id ⟨alike.sound, (entered machine.log log').swap.sound⟩
    · rw [short, short']
      exact .shortError (Or.inl trivial) id id alike.bothSound

theorem popReceiver (alike : Alike origin origin' pairing machine other) (method : MethodRef)
    (descriptor : MethodDescriptor) (isVirtual : Bool) :
    MachinesAgree origin origin' pairing
      (fun a a' => pairing.ref a a' ∧ (isVirtual = true → pairing.addr a a'))
      (popReceiver method descriptor isVirtual machine)
      (Machine.popReceiver method descriptor isVirtual other) := by
  apply alike.observe_program.bind
  intro _ _ machine other both
  rcases both with ⟨⟨rfl, rfl⟩, alike⟩
  cases descriptor.owner with
  | none =>
      cases isVirtual with
      | true => exact .failed id ⟨pairing, alike⟩
      | false => exact .done ⟨⟨Or.inl ⟨rfl, rfl⟩, nofun⟩, alike⟩
  | some owner =>
      apply alike.popRef.bind
      intro a a' machine other both
      rcases both with ⟨same, alike⟩
      rw [Pairing.ref_isNull same]
      cases isNull : a.isNull with
      | true => exact .failed id ⟨pairing, alike⟩
      | false =>
          have paired := Pairing.addr_of_ref same isNull
          apply (alike.typeOf paired).bind
          intro actual _ _ _ both
          rcases both with ⟨rfl, rfl, rfl, _⟩
          cases descends : program.isSubclass actual owner with
          | true => exact .done ⟨⟨same, fun _ => paired⟩, alike⟩
          | false => exact .failed (Failure.sound_ofCode _) ⟨pairing, alike⟩

theorem virtualTarget (alike : Alike origin origin' pairing machine other) (name : String)
    {a a' : Addr} (paired : pairing.addr a a') (count : Nat) :
    MachinesAgree origin origin' pairing
      (fun target target' => target = target' ∧
        ∃ type, program.resolveVirtual? type name = some target)
      (virtualTarget name a count machine) (Machine.virtualTarget name a' count other) := by
  apply alike.observe_program.bind
  intro _ _ machine other both
  rcases both with ⟨⟨rfl, rfl⟩, alike⟩
  apply (alike.typeOf paired).bind
  intro actual _ _ _ both
  rcases both with ⟨rfl, rfl, rfl, _⟩
  apply (alike.orThrow _ (Failure.sound_ofCode _)).bind
  intro target _ machine other both
  rcases both with ⟨⟨resolved, rfl⟩, alike⟩
  apply (alike.orThrow _ id).bind
  intro descriptor _ machine other both
  rcases both with ⟨⟨known, rfl⟩, alike⟩
  by_cases arity : descriptor.params.length ≠ count
  · simp only [if_pos arity]
    exact .failed id ⟨pairing, alike⟩
  · simp only [if_neg arity]
    exact .done ⟨⟨rfl, actual, resolved⟩, alike⟩

end Alike

def callTarget (program : Program) (receiver : Addr) (args : List Value) (target : MethodRef) :
    Op (Option ExitStatus) := do
  let called ← orThrow (program.method? target) (.error (.code (.noMethod target)))
  match called.builtin with
  | some builtin => callBuiltin builtin args
  | none => do
      enterMethod target receiver args
      return none

theorem call_eq (method : MethodRef) (isVirtual : Bool) : call method isVirtual = (do
    let program ← observe Machine.program
    let descriptor ← orThrow (program.method? method) (.error (.code (.noMethod method)))
    let args ← onFrame (Frame.popAll (descriptor.params.map program.kindOf))
    let receiver ← popReceiver method descriptor isVirtual
    if isVirtual then
      let target ← virtualTarget descriptor.name receiver args.length
      callTarget program receiver args target
    else
      callTarget program receiver args method) := rfl

namespace Alike

theorem callTarget (alike : Alike origin origin' pairing machine other) {receiver receiver' : Addr}
    (receivers : pairing.ref receiver receiver') {args args' : List Value}
    (same : ValuesAlike pairing args args') (target : MethodRef)
    (suits : ∀ called builtin, program.method? target = some called →
      called.builtin = some builtin →
      args.map Value.kind = builtin.params.map Primitive.kind) :
    MachinesSettle origin origin' (callTarget program receiver args target machine)
      (Machine.callTarget program receiver' args' target other) := by
  apply (alike.orThrow _ id).bind
  intro called _ machine other outcome
  rcases outcome with ⟨⟨known, rfl⟩, alike⟩
  cases kind : called.builtin with
  | some builtin => exact alike.callBuiltin builtin same (suits called builtin known kind)
  | none =>
      exact (alike.enterMethod target receivers same).map fun _ _ _ _ both => ⟨rfl, both.2⟩

theorem call (alike : Alike origin origin' pairing machine other) (method : MethodRef)
    (isVirtual : Bool) :
    MachinesSettle origin origin' (call method isVirtual machine)
      (Machine.call method isVirtual other) := by
  rw [call_eq]
  apply alike.observe_program.bind
  intro _ _ machine other both
  rcases both with ⟨⟨rfl, rfl⟩, alike⟩
  apply (alike.orThrow _ id).bind
  intro descriptor _ machine other both
  rcases both with ⟨⟨known, rfl⟩, alike⟩
  apply (alike.onFrame fun frames => frames.popAll _).bind
  intro args args' machine other both
  rcases both with ⟨⟨same, kinds⟩, alike⟩
  apply (alike.popReceiver method descriptor isVirtual).bind
  intro receiver receiver' machine other both
  rcases both with ⟨⟨receivers, paired⟩, alike⟩
  cases isVirtual with
  | true =>
      rw [← same.length_eq]
      apply (alike.virtualTarget descriptor.name (paired rfl) args.length).bind
      intro target _ machine other both
      rcases both with ⟨⟨rfl, type, resolved⟩, alike⟩
      apply alike.callTarget receivers same
      -- Virtual calls do not reach built-in methods.
      intro called builtin known' kind
      rw [origin.linked.dispatch type descriptor.name target called resolved known'] at kind
      cases kind
  | false =>
      apply alike.callTarget receivers same
      -- The arguments were taken by the kinds of the parameters.
      intro called builtin known' kind
      rw [known] at known'
      cases known'
      rw [kinds, origin.linked.builtins method descriptor builtin known kind]
      simp [Builtin.descriptor, origin.linked.primitives, Function.comp_def]

theorem leaveMethod (alike : Alike origin origin' pairing machine other) :
    MachinesAgree origin origin' pairing (fun _ _ => True) (leaveMethod machine)
      (Machine.leaveMethod other) := by
  unfold Machine.leaveMethod
  rcases alike.frames_cases with ⟨none, none'⟩ | ⟨_, _, _, _, top, top', _, rests⟩
  · rw [none, none']
    exact .failed id ⟨pairing, alike⟩
  · rw [top, top']
    exact .done ⟨trivial, alike.with_frames rests⟩

end Alike

def handBack (program : Program) (method : MethodRef) (value : Option Value) : Op Unit := do
  leaveMethod
  note .debug fun machine =>
    .returned machine.cycle machine.frames.length (program.methodName method) value
  match value with
  | none => return ()
  | some value =>
      if (← observe fun machine => machine.frames.isEmpty) then
        return ()
      push value

theorem ret_eq : ret = (do
    let program ← observe Machine.program
    let method ← onFrame fun frame => .ok frame.method frame
    let descriptor ← orThrow (program.method? method) (.error (.code (.noMethod method)))
    match descriptor.returns with
    | some type => do
        let value ← onFrame (Frame.popKind (program.kindOf type))
        handBack program method (some value)
    | none => handBack program method none) := rfl

namespace Alike

theorem handBack_none (alike : Alike origin origin' pairing machine other) (method : MethodRef) :
    MachinesSettle origin origin' (handBack program method none machine)
      (handBack program method none other) := by
  apply alike.leaveMethod.bind
  intro _ _ machine other both
  rcases both with ⟨_, alike⟩
  apply (alike.note .debug _ _).bind
  intro _ _ machine other both
  rcases both with ⟨_, alike⟩
  exact .done ⟨rfl, Or.inl ⟨pairing, alike⟩⟩

theorem handBack_some (alike : Alike origin origin' pairing machine other) (method : MethodRef)
    {value value' : Value} (same : Value.Alike pairing value value') :
    MachinesSettle origin origin' (handBack program method (some value) machine)
      (handBack program method (some value') other) := by
  apply alike.leaveMethod.bind
  intro _ _ machine other both
  rcases both with ⟨_, alike⟩
  apply (alike.note .debug _ _).bind
  intro _ _ machine other both
  rcases both with ⟨_, alike⟩
  apply alike.observe_isEmpty.bind
  intro empty _ machine other both
  rcases both with ⟨rfl, alike⟩
  cases empty with
  | true => exact .done ⟨rfl, Or.inl ⟨pairing, alike⟩⟩
  | false => exact alike.push same

theorem currentMethod (alike : Alike origin origin' pairing machine other) :
    MachinesAgree origin origin' pairing Eq
      (Machine.onFrame (fun frame => .ok frame.method frame) machine)
      (Machine.onFrame (fun frame => .ok frame.method frame) other) :=
  alike.onFrame fun frames => .done ⟨frames.method.symm, frames⟩

theorem ret (alike : Alike origin origin' pairing machine other) :
    MachinesSettle origin origin' (ret machine) (Machine.ret other) := by
  rw [ret_eq]
  apply alike.observe_program.bind
  intro _ _ machine other both
  rcases both with ⟨⟨rfl, rfl⟩, alike⟩
  apply alike.currentMethod.bind
  intro method _ machine other both
  rcases both with ⟨rfl, alike⟩
  apply (alike.orThrow _ id).bind
  intro descriptor _ machine other both
  rcases both with ⟨⟨_, rfl⟩, alike⟩
  cases descriptor.returns with
  | none => exact alike.handBack_none method
  | some type =>
      apply (alike.onFrame fun frames => frames.popKind _).bind
      intro value value' machine other both
      rcases both with ⟨⟨same, _⟩, alike⟩
      exact alike.handBack_some method same

end Alike
end Machine
end ObjectMachine
