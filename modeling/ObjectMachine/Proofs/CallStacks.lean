import ObjectMachine.Proofs.CheckedMachines
import ObjectMachine.Proofs.InnerFrames

/-!
# What a cycle does to the call stack

An instruction changes no frame but the innermost one, unless it is a call or a return. A call takes
its arguments and its receiver from the innermost frame and puts a new frame on top of it. A return
removes the innermost frame, and its result is put on the stack of the frame beneath.

A return can fail after the frame was removed, if the stack beneath is full. Every other cycle that
fails changes the innermost frame, at most.
-/

namespace ObjectMachine

/-!
## Calls
-/

def MethodDescriptor.takes (method : MethodDescriptor) (receiver : Addr) : List Value :=
  if method.isInstance then [.ref receiver] else []

/-- A call that enters a method: the method that was named, what was taken from the stack and what
was left on it, and the method that was found. -/
structure Entry where
  named : MethodDescriptor
  args : List Value
  receiver : Addr
  below : List Value
  target : MethodRef
  called : MethodDescriptor

namespace Machine

variable {machine : Machine}

def withStack (machine : Machine) (frame : Frame) (rest : List Frame) (stack : List Value) :
    Machine :=
  { machine with frames := { frame with stack } :: rest }

/-- What a call knows of the receiver that it has taken. -/
structure Receives (named : MethodDescriptor) (isVirtual : Bool) (machine : Machine)
    (receiver : Addr) : Prop where
  owned : ∀ owner, named.owner = some owner → receiver ≠ .null ∧
    ∃ actual, machine.memory.typeOf receiver = .ok actual ∧
      machine.program.isSubclass actual owner = true
  free : named.owner = none → receiver = .null
  virtual : isVirtual = true → named.isInstance = true

/-- A call of a method enters the one that it has found. -/
structure Enters (entry : Entry) (method : MethodRef) (isVirtual : Bool) (machine : Machine)
    (frame : Frame) (rest : List Frame) (after : Machine) : Prop where
  named : machine.program.method? method = some entry.named
  stack : frame.stack =
    entry.args.reverse ++ (entry.named.takes entry.receiver ++ entry.below)
  kinds : entry.args.map Value.kind = entry.named.params.map machine.program.kindOf
  receiver : Receives entry.named isVirtual machine entry.receiver
  direct : isVirtual = false → entry.target = method
  virtual : isVirtual = true → entry.called.params.length = entry.args.length ∧
    ∃ actual, machine.memory.typeOf entry.receiver = .ok actual ∧
      machine.program.resolveVirtual? actual entry.named.name = some entry.target
  called : machine.program.method? entry.target = some entry.called
  depth : machine.frames.length < machine.limits.callDepth
  program : after.program = machine.program
  limits : after.limits = machine.limits
  memory : after.memory = machine.memory
  strings : after.strings = machine.strings
  frames : after.frames = Frame.enter machine.program entry.target entry.receiver entry.args
    machine.limits.stackCapacity :: { frame with stack := entry.below } :: rest

/-- A call does its work within the frame, or it enters a method. -/
inductive Calls (method : MethodRef) (isVirtual : Bool) (machine : Machine) (frame : Frame)
    (rest : List Frame) : EStateM.Result Failure Machine (Option ExitStatus) → Prop where
  | stays {outcome : EStateM.Result Failure Machine (Option ExitStatus)} :
      Within False machine (lastState outcome) → Calls method isVirtual machine frame rest outcome
  | enters {entry : Entry} {after : Machine} :
      Enters entry method isVirtual machine frame rest after →
      Calls method isVirtual machine frame rest (.ok none after)

theorem popRef_eq_ok {frame after : Frame} {addr : Addr}
    (done : Frame.popRef frame = .ok addr after) :
    frame.stack = .ref addr :: after.stack ∧ after = { frame with stack := after.stack } := by
  cases stack : frame.stack with
  | nil =>
      have empty : Frame.pop frame = .error (.code .emptyStack) frame := by rw [Frame.pop, stack]
      rw [Frame.popRef, bind_of_error empty] at done
      cases done
  | cons value below =>
      have taken : Frame.pop frame = .ok value { frame with stack := below } := by
        rw [Frame.pop, stack]
      rw [Frame.popRef, bind_of_ok taken] at done
      cases value with
      | ref addr' =>
          cases done
          exact ⟨rfl, rfl⟩
      | _ => cases done

theorem popReceiver_cases {frame : Frame} {rest : List Frame} (top : machine.frames = frame :: rest)
    (method : MethodRef) (named : MethodDescriptor) (isVirtual : Bool) :
    (∃ e after, popReceiver method named isVirtual machine = .error e after) ∨
    ∃ receiver below, popReceiver method named isVirtual machine =
        .ok receiver (machine.withStack frame rest below) ∧
      frame.stack = named.takes receiver ++ below ∧ Receives named isVirtual machine receiver := by
  unfold popReceiver
  rw [observe_bind]
  cases owned : named.owner with
  | none =>
      cases isVirtual with
      | true => exact Or.inl ⟨_, _, rfl⟩
      | false =>
          have free : named.isInstance = false := by rw [MethodDescriptor.isInstance, owned]; rfl
          refine Or.inr ⟨.null, frame.stack, ?_, ?_, ?_, fun _ => rfl, fun never => by cases never⟩
          · rw [withStack, ← top]
            rfl
          · rw [MethodDescriptor.takes, free]
            rfl
          · intro owner same
            rw [owned] at same
            cases same
  | some owner =>
      have isInstance : named.isInstance = true := by rw [MethodDescriptor.isInstance, owned]; rfl
      dsimp only
      cases popped : Frame.popRef frame with
      | error e after =>
          have failed : onFrame Frame.popRef machine =
              .error (.error e) { machine with frames := after :: rest } := by
            rw [onFrame_eq _ top, popped]
            rfl
          exact Or.inl ⟨_, _, bind_of_error failed⟩
      | ok receiver after =>
          rcases popRef_eq_ok popped with ⟨stack, shape⟩
          have taken : onFrame Frame.popRef machine =
              .ok receiver { machine with frames := after :: rest } := by
            rw [onFrame_eq _ top, popped]
            rfl
          rw [bind_of_ok taken]
          split
          · exact Or.inl ⟨_, _, rfl⟩
          · next proper =>
              cases typed : machine.memory.typeOf receiver with
              | error e =>
                  exact Or.inl ⟨_, _, bind_of_error (onMemory_query_of_error typed)⟩
              | ok actual =>
                  rw [typeOf, bind_of_ok (onMemory_query_of_ok typed)]
                  split
                  · next descends =>
                      refine Or.inr ⟨receiver, after.stack, ?_, ?_, ?_, ?_, fun _ => isInstance⟩
                      · rw [withStack, ← shape]
                        rfl
                      · rw [stack, MethodDescriptor.takes, isInstance]
                        rfl
                      · intro owner' same
                        rw [owned] at same
                        cases same
                        refine ⟨?_, actual, typed, descends⟩
                        intro null
                        exact proper (by rw [null]; rfl)
                      · intro none
                        rw [owned] at none
                        cases none
                  · exact Or.inl ⟨_, _, rfl⟩

theorem depth_of_enterMethod {target : MethodRef} {receiver : Addr} {args : List Value}
    {after : Machine} (entered : enterMethod target receiver args machine = .ok () after) :
    machine.frames.length < machine.limits.callDepth := by
  rw [enterMethod, observe_bind, observe_bind] at entered
  by_cases deep : machine.limits.callDepth ≤ machine.frames.length
  · rw [if_pos deep] at entered
    cases entered
  · exact Nat.lt_of_not_le deep

theorem virtualTarget_eq_ok {name : String} {receiver : Addr} {count : Nat} {target : MethodRef}
    {after : Machine} (found : virtualTarget name receiver count machine = .ok target after) :
    after = machine ∧
      (∃ actual, machine.memory.typeOf receiver = .ok actual ∧
        machine.program.resolveVirtual? actual name = some target) ∧
      ∃ called, machine.program.method? target = some called ∧ called.params.length = count := by
  rw [virtualTarget, observe_bind, typeOf] at found
  cases typed : machine.memory.typeOf receiver with
  | error e =>
      rw [bind_of_error (onMemory_query_of_error typed)] at found
      cases found
  | ok actual =>
      rw [bind_of_ok (onMemory_query_of_ok typed)] at found
      cases resolved : machine.program.resolveVirtual? actual name with
      | none =>
          rw [resolved] at found
          cases found
      | some target' =>
          rw [resolved, bind_of_ok (orThrow_some target')] at found
          cases known : machine.program.method? target' with
          | none =>
              rw [known] at found
              cases found
          | some called =>
              rw [known, bind_of_ok (orThrow_some called)] at found
              by_cases arity : called.params.length ≠ count
              · rw [if_pos arity] at found
                cases found
              · rw [if_neg arity] at found
                cases found
                exact ⟨rfl, ⟨actual, rfl, resolved⟩, called, known, Decidable.not_not.mp arity⟩

theorem callTarget_cases {program : Program} (runs : machine.program = program) (receiver : Addr)
    (args : List Value) (target : MethodRef) :
    Within False machine (lastState (callTarget program receiver args target machine)) ∨
    ∃ called log, callTarget program receiver args target machine = .ok none { machine with
        log
        frames := Frame.enter program target receiver args machine.limits.stackCapacity ::
          machine.frames } ∧
      program.method? target = some called ∧
      machine.frames.length < machine.limits.callDepth := by
  subst runs
  unfold callTarget
  cases known : machine.program.method? target with
  | none => exact Or.inl (refl_of (Within False) machine)
  | some called =>
      rw [bind_of_ok (orThrow_some called)]
      cases called.builtin with
      | some builtin => exact Or.inl (within_callBuiltin builtin args machine)
      | none =>
          dsimp only
          rcases enterMethod_cases target receiver args machine with ⟨log, ran⟩ | ⟨cause, short⟩
          · rw [bind_of_ok ran]
            exact Or.inr ⟨called, log, rfl, rfl, depth_of_enterMethod ran⟩
          · rw [bind_of_error short]
            exact Or.inl (refl_of (Within False) machine)

theorem popArgs_cases {frame : Frame} {rest : List Frame} (top : machine.frames = frame :: rest)
    (kinds : List Kind) :
    (∃ e after, onFrame (Frame.popAll kinds) machine = .error e after) ∨
    ∃ args below, onFrame (Frame.popAll kinds) machine =
        .ok args (machine.withStack frame rest below) ∧
      frame.stack = args.reverse ++ below ∧ args.map Value.kind = kinds := by
  have shape := Frame.pops_popAll kinds frame
  rw [onFrame_eq _ top]
  cases popped : Frame.popAll kinds frame with
  | error e after => exact Or.inl ⟨_, _, rfl⟩
  | ok args after =>
      rw [popped] at shape
      rcases Frame.popAll_eq_ok popped with ⟨kinds', stack⟩
      refine Or.inr ⟨args, after.stack, ?_, stack, kinds'⟩
      rw [withStack, ← show after = { frame with stack := after.stack } from shape]
      rfl

theorem calls_found {frame : Frame} {rest : List Frame} {method target : MethodRef}
    {named : MethodDescriptor} {isVirtual : Bool} {args below : List Value} {receiver : Addr}
    (top : machine.frames = frame :: rest)
    (within : Within False machine (machine.withStack frame rest below))
    (known : machine.program.method? method = some named)
    (stack : frame.stack = args.reverse ++ (named.takes receiver ++ below))
    (kinds : args.map Value.kind = named.params.map machine.program.kindOf)
    (receives : Receives named isVirtual machine receiver)
    (direct : isVirtual = false → target = method)
    (virtual : isVirtual = true →
      (∃ actual, machine.memory.typeOf receiver = .ok actual ∧
        machine.program.resolveVirtual? actual named.name = some target) ∧
      ∃ called, machine.program.method? target = some called ∧
        called.params.length = args.length) :
    Calls method isVirtual machine frame rest
      (callTarget machine.program receiver args target (machine.withStack frame rest below)) := by
  have runs : (machine.withStack frame rest below).program = machine.program := rfl
  rcases callTarget_cases runs receiver args target with stays | ⟨called, log, ran, found, depth⟩
  · exact .stays (trans_of (Within False) within stays)
  · have depth' : machine.frames.length < machine.limits.callDepth := by
      rw [top]
      exact depth
    have arity : isVirtual = true → called.params.length = args.length ∧
        ∃ actual, machine.memory.typeOf receiver = .ok actual ∧
          machine.program.resolveVirtual? actual named.name = some target := by
      intro isVirtual
      rcases virtual isVirtual with ⟨resolved, called', found', arity⟩
      have same : some called = some called' := found.symm.trans found'
      cases same
      exact ⟨arity, resolved⟩
    rw [ran]
    exact @Calls.enters _ _ _ _ _ ⟨named, args, receiver, below, target, called⟩ _
      ⟨known, stack, kinds, receives, direct, arity, found, depth', rfl, rfl, rfl, rfl, rfl⟩

theorem calls_call {frame : Frame} {rest : List Frame} (top : machine.frames = frame :: rest)
    (method : MethodRef) (isVirtual : Bool) :
    Calls method isVirtual machine frame rest (call method isVirtual machine) := by
  rw [call_eq, observe_bind]
  cases known : machine.program.method? method with
  | none => exact .stays (refl_of (Within False) machine)
  | some named =>
      rw [bind_of_ok (orThrow_some named)]
      have within : Within False machine _ := within_onFrame
        (Frame.ages_popAll (named.params.map machine.program.kindOf)) machine
      rcases popArgs_cases top (named.params.map machine.program.kindOf) with
        ⟨e, after, failed⟩ | ⟨args, stack, taken, split, kinds⟩
      · rw [failed] at within
        rw [bind_of_error failed]
        exact .stays within
      rw [taken] at within
      rw [bind_of_ok taken]
      have within := trans_of (Within False) within
        (within_popReceiver method named isVirtual (machine.withStack frame rest stack))
      have top' : (machine.withStack frame rest stack).frames = { frame with stack } :: rest := rfl
      rcases popReceiver_cases top' method named isVirtual with
        ⟨e, after, failed⟩ | ⟨receiver, below, taken', split', receives⟩
      · rw [failed] at within
        rw [bind_of_error failed]
        exact .stays within
      rw [taken'] at within
      rw [bind_of_ok taken']
      have within : Within False machine (machine.withStack frame rest below) := within
      have stack : frame.stack = args.reverse ++ (named.takes receiver ++ below) :=
        split.trans (congrArg (args.reverse ++ ·) split')
      have receives : Receives named isVirtual machine receiver :=
        ⟨receives.owned, receives.free, receives.virtual⟩
      cases isVirtual with
      | false => exact calls_found top within known stack kinds receives (fun _ => rfl) nofun
      | true =>
          show Calls _ _ _ _ _ ((virtualTarget named.name receiver args.length >>=
            callTarget machine.program receiver args) (machine.withStack frame rest below))
          have within' := trans_of (Within False) within
            (within_virtualTarget named.name receiver args.length _)
          cases found : virtualTarget named.name receiver args.length
            (machine.withStack frame rest below) with
          | error e after =>
              rw [found] at within'
              rw [bind_of_error found]
              exact .stays within'
          | ok target after =>
              rcases virtualTarget_eq_ok found with ⟨rfl, resolved, called⟩
              rw [bind_of_ok found]
              exact calls_found top within known stack kinds receives nofun
                fun _ => ⟨resolved, called⟩

/-!
## Returns
-/

structure Leaves (results : List Value) (rest : List Frame) (machine after : Machine) : Prop where
  program : after.program = machine.program
  limits : after.limits = machine.limits
  memory : after.memory = machine.memory
  strings : after.strings = machine.strings
  frames : after.frames =
    rest.modifyHead fun caller => { caller with stack := results ++ caller.stack }
  ages : ∀ caller ∈ rest.head?, caller.Ages { caller with stack := results ++ caller.stack }

/-- The innermost method returns what it has declared, or it fails. If it fails, then the frame may
have been removed all the same. -/
inductive Returns (machine : Machine) (frame : Frame) (rest : List Frame) :
    EStateM.Result Failure Machine Unit → Prop where
  | stays {outcome : EStateM.Result Failure Machine Unit} :
      Within False machine (lastState outcome) → Returns machine frame rest outcome
  | drops {e : Failure} {after : Machine} : Leaves [] rest machine after →
      Returns machine frame rest (.error e after)
  | leaves {results : List Value} {method : MethodDescriptor} {after : Machine} :
      machine.program.method? frame.method = some method →
      results.map Value.kind = method.returns.toList.map machine.program.kindOf →
      Leaves results rest machine after → Returns machine frame rest (.ok () after)

theorem handBack_cases {program : Program} {frame : Frame} {rest : List Frame}
    (top : machine.frames = frame :: rest) (method : MethodRef) (value : Option Value) :
    (∃ e after, handBack program method value machine = .error e after ∧
      Leaves [] rest machine after) ∨
    ∃ after, handBack program method value machine = .ok () after ∧
      Leaves value.toList rest machine after := by
  have left : leaveMethod machine = .ok () { machine with frames := rest } := by
    rw [leaveMethod, top]
  rcases note_eq .debug (fun after => .returned after.cycle after.frames.length
    (program.methodName method) value) { machine with frames := rest } with ⟨log, noted⟩
  have nothing : ∀ after : Machine, after = { machine with frames := rest, log } →
      Leaves [] rest machine after := by
    intro after same
    subst same
    refine ⟨rfl, rfl, rfl, rfl, ?_, fun caller _ => refl_of Frame.Ages caller⟩
    cases rest <;> rfl
  unfold handBack
  rw [bind_of_ok left, bind_of_ok noted]
  cases value with
  | none => exact Or.inr ⟨_, rfl, nothing _ rfl⟩
  | some value =>
      dsimp only
      rw [observe_bind]
      cases rest with
      | nil => exact Or.inr ⟨_, rfl, rfl, rfl, rfl, rfl, rfl, fun _ none => by cases none⟩
      | cons caller callers =>
          have ages := Frame.ages_push value caller
          have pushed : push value { machine with frames := caller :: callers, log } =
              lift (fun frame => { machine with frames := frame :: callers, log })
                (Frame.push value caller) := onFrame_eq _ rfl
          show (∃ e after, push value _ = .error e after ∧ _) ∨
            ∃ after, push value _ = .ok () after ∧ _
          rw [pushed]
          unfold Frame.push at ages ⊢
          split at ages
          · next room =>
              rw [if_pos room]
              refine Or.inr ⟨_, rfl, rfl, rfl, rfl, rfl, rfl, ?_⟩
              intro caller' same
              cases same
              exact ages
          · next full =>
              rw [if_neg full]
              exact Or.inl ⟨_, _, rfl, nothing _ rfl⟩

theorem returns_ret {frame : Frame} {rest : List Frame} (top : machine.frames = frame :: rest) :
    Returns machine frame rest (ret machine) := by
  have looked : onFrame (fun frame => .ok frame.method frame) machine =
      .ok frame.method machine := by
    refine (onFrame_eq _ top).trans ?_
    rw [lift, ← top]
  rw [ret_eq, observe_bind, bind_of_ok looked]
  cases known : machine.program.method? frame.method with
  | none => exact .stays (refl_of (Within False) machine)
  | some method =>
      rw [bind_of_ok (orThrow_some method)]
      cases declared : method.returns with
      | none =>
          show Returns machine frame rest (handBack machine.program frame.method none machine)
          rcases handBack_cases top frame.method none with
            ⟨e, after, failed, drops⟩ | ⟨after, ran, leaves⟩
          · rw [failed]
            exact .drops drops
          · rw [ran]
            exact .leaves known (by rw [declared]; rfl) leaves
      | some type =>
          show Returns machine frame rest
            ((onFrame (Frame.popKind (machine.program.kindOf type)) >>= fun value =>
              handBack machine.program frame.method (some value)) machine)
          have within : Within False machine _ := within_onFrame
            (Frame.ages_popKind (machine.program.kindOf type)) machine
          have lifted := onFrame_eq (Frame.popKind (machine.program.kindOf type)) top
          cases popped : Frame.popKind (machine.program.kindOf type) frame with
          | error e after =>
              rw [popped] at lifted
              rw [lifted] at within
              rw [bind_of_error lifted]
              exact .stays within
          | ok value after =>
              rw [popped] at lifted
              have kind := (Frame.popKind_eq_ok popped).1
              have top' : { machine with frames := after :: rest }.frames = after :: rest := rfl
              rw [bind_of_ok lifted]
              rcases handBack_cases top' frame.method (some value) with
                ⟨e, last, failed, drops⟩ | ⟨last, ran, leaves⟩
              · rw [failed]
                exact .drops { drops with }
              · rw [ran]
                refine .leaves known ?_ { leaves with }
                rw [declared]
                exact congrArg (fun kind => [kind]) kind

/-!
## Cycles
-/

inductive Turns (insn : Instruction) (machine : Machine) (frame : Frame) (rest : List Frame) :
    EStateM.Result Failure Machine (Option ExitStatus) → Prop where
  | stays {outcome : EStateM.Result Failure Machine (Option ExitStatus)} :
      Within insn.opcode.Writes machine (lastState outcome) → Turns insn machine frame rest outcome
  | enters {method : MethodRef} {isVirtual : Bool} {entry : Entry} {after : Machine} :
      insn.opcode = (if isVirtual then .callvirt else .call) → insn.operand = .method method →
      Enters entry method isVirtual machine frame rest after →
      Turns insn machine frame rest (.ok none after)
  | drops {e : Failure} {after : Machine} : Leaves [] rest machine after →
      Turns insn machine frame rest (.error e after)
  | leaves {results : List Value} {method : MethodDescriptor} {after : Machine} :
      machine.program.method? frame.method = some method →
      results.map Value.kind = method.returns.toList.map machine.program.kindOf →
      Leaves results rest machine after → Turns insn machine frame rest (.ok none after)

theorem Calls.turns {insn : Instruction} {method : MethodRef} {isVirtual : Bool} {frame : Frame}
    {rest : List Frame} {outcome : EStateM.Result Failure Machine (Option ExitStatus)}
    (calls : Calls method isVirtual machine frame rest outcome)
    (opcode : insn.opcode = if isVirtual then .callvirt else .call)
    (operand : insn.operand = .method method) : Turns insn machine frame rest outcome := by
  cases calls with
  | stays within =>
      exact .stays within.weaken
  | enters enters => exact .enters opcode operand enters

theorem Returns.turns {insn : Instruction} {frame : Frame} {rest : List Frame}
    (returns : Returns machine frame rest (ret machine)) :
    Turns insn machine frame rest
      ((ret >>= fun _ => pure (none : Option ExitStatus)) machine) := by
  cases outcome : ret machine with
  | error e after =>
      rw [outcome] at returns
      rw [bind_of_error outcome]
      cases returns with
      | stays within =>
          exact .stays within.weaken
      | drops leaves => exact .drops leaves
  | ok result after =>
      rw [outcome] at returns
      rw [bind_of_ok outcome]
      cases returns with
      | stays within =>
          exact .stays within.weaken
      | leaves known kinds leaves => exact .leaves known kinds leaves

theorem turns_execute {frame : Frame} {rest : List Frame} (top : machine.frames = frame :: rest)
    (insn : Instruction) : Turns insn machine frame rest (execute insn machine) := by
  rcases insn with ⟨opcode, operand⟩
  -- An operand that the opcode does not take is an error, and nothing else happens.
  have wrong : ∀ {e : Failure}, Turns ⟨opcode, operand⟩ machine frame rest (.error e machine) :=
    .stays (refl_of (Within _) machine)
  have plain : ∀ {op : Op Unit}, Leads (Within opcode.Writes) op →
      Turns ⟨opcode, operand⟩ machine frame rest
        ((op >>= fun _ => pure (none : Option ExitStatus)) machine) :=
    fun within => .stays ((within.bind fun _ => .of_pure _) machine)
  have framed : ∀ {op : Frame.Op Unit}, Leads Frame.Ages op →
      Turns ⟨opcode, operand⟩ machine frame rest
        ((onFrame op >>= fun _ => pure (none : Option ExitStatus)) machine) :=
    fun ages => plain (within_onFrame ages)
  cases opcode with
  | nop => exact .stays (refl_of (Within _) machine)
  | ldcI4 =>
      cases operand with
      | int value => exact plain (within_push _)
      | _ => exact wrong
  | ldcC =>
      cases operand with
      | char value => exact plain (within_push _)
      | _ => exact wrong
  | ldcB =>
      cases operand with
      | bool value => exact plain (within_push _)
      | _ => exact wrong
  | ldstr =>
      cases operand with
      | str ref => exact plain (within_push _)
      | _ => exact wrong
  | ldnull => exact plain (within_push _)
  | ldloc =>
      cases operand with
      | slot index => exact framed (ages_loadLocal index)
      | _ => exact wrong
  | stloc =>
      cases operand with
      | slot index => exact framed (ages_storeLocal index)
      | _ => exact wrong
  | ldarg =>
      cases operand with
      | slot index => exact framed (ages_loadArg index)
      | _ => exact wrong
  | starg =>
      cases operand with
      | slot index => exact framed (ages_storeArg index)
      | _ => exact wrong
  | ldthis => exact framed ages_loadThis
  | ldfld =>
      cases operand with
      | field field => exact plain (within_loadField field)
      | _ => exact wrong
  | stfld =>
      cases operand with
      | field field => exact plain (within_storeField field)
      | _ => exact wrong
  | newobj =>
      cases operand with
      | type type => exact plain (within_makeObject type)
      | _ => exact wrong
  | newarr =>
      cases operand with
      | type type => exact plain (within_makeArray type)
      | _ => exact wrong
  | ldelem => exact plain within_loadElement
  | stelem => exact plain within_storeElement
  | ldlen => exact plain within_loadLength
  | call =>
      cases operand with
      | method method => exact (calls_call top method false).turns rfl rfl
      | _ => exact wrong
  | callvirt =>
      cases operand with
      | method method => exact (calls_call top method true).turns rfl rfl
      | _ => exact wrong
  | ret => exact (returns_ret top).turns
  | isinst =>
      cases operand with
      | type type => exact plain (within_testInstance type)
      | _ => exact wrong
  | castclass =>
      cases operand with
      | type type => exact plain (within_castInstance type)
      | _ => exact wrong
  | br =>
      cases operand with
      | branch offset => exact framed (ages_jump offset)
      | _ => exact wrong
  | brtrue =>
      cases operand with
      | branch offset => exact framed (ages_jumpIf true offset)
      | _ => exact wrong
  | brfalse =>
      cases operand with
      | branch offset => exact framed (ages_jumpIf false offset)
      | _ => exact wrong
  | add => exact framed (ages_arithmetic _)
  | sub => exact framed (ages_arithmetic _)
  | mul => exact framed (ages_arithmetic _)
  | div => exact framed (ages_arithmetic _)
  | rem => exact framed (ages_arithmetic _)
  | neg => exact framed (Frame.ages_popInt.bind fun _ => Frame.ages_push _)
  | ceq => exact framed (ages_equality _)
  | cne => exact framed (ages_equality _)
  | clt => exact framed (ages_comparison _)
  | cle => exact framed (ages_comparison _)
  | cgt => exact framed (ages_comparison _)
  | cge => exact framed (ages_comparison _)
  | and => exact framed (ages_logic _)
  | or => exact framed (ages_logic _)
  | not => exact framed (Frame.ages_popBool.bind fun _ => Frame.ages_push _)
  | convC => exact framed ages_toChar
  | convI => exact framed ages_toInt
  | pop => exact framed (Frame.ages_pop.bind fun _ => .of_pure _)
  | dup => exact framed (Frame.ages_top.bind fun _ => Frame.ages_push _)

def fetched (machine : Machine) (frame : Frame) (rest : List Frame) (log : Log) : Machine :=
  { machine with
    frames := { frame with ip := frame.ip + 1 } :: rest
    cycle := machine.cycle + 1
    log }

theorem step_eq {frame : Frame} {rest : List Frame} (top : machine.frames = frame :: rest)
    {method : MethodDescriptor} (known : machine.program.method? frame.method = some method)
    {insn : Instruction} (at_ip : method.code[frame.ip]? = some insn) :
    ∃ log, step machine = execute insn (machine.fetched frame rest log) := by
  rcases note_eq .trace (executingEvent insn) { machine with
    frames := { frame with ip := frame.ip + 1 } :: rest
    cycle := machine.cycle + 1 } with ⟨log, noted⟩
  refine ⟨log, ?_⟩
  rw [step, bind_of_ok (fetch_eq top known at_ip), bind_of_ok noted]
  rfl

structure At (machine : Machine) (frame : Frame) (rest : List Frame) (insn : Instruction) :
    Prop where
  top : machine.frames = frame :: rest
  next : ∃ method, machine.program.method? frame.method = some method ∧
    method.code[frame.ip]? = some insn

theorem At.step_eq {frame : Frame} {rest : List Frame} {insn : Instruction}
    (here : machine.At frame rest insn) :
    ∃ log, step machine = execute insn (machine.fetched frame rest log) := by
  rcases here.next with ⟨method, known, at_ip⟩
  exact Machine.step_eq here.top known at_ip

/-- A cycle finds no instruction, or it executes the one that its innermost frame has come to. -/
theorem step_cases (machine : Machine) :
    (∃ e, step machine = .error e machine) ∨
    ∃ frame rest method insn log, machine.frames = frame :: rest ∧
      machine.program.method? frame.method = some method ∧ method.code[frame.ip]? = some insn ∧
      step machine = execute insn (machine.fetched frame rest log) := by
  cases top : machine.frames with
  | nil =>
      have failed : fetch machine = .error (.error (.code .noFrame)) machine := by
        rw [fetch, top]
      exact Or.inl ⟨_, bind_of_error failed⟩
  | cons frame rest =>
      cases found : (machine.program.method? frame.method).bind fun method =>
          method.code[frame.ip]? with
      | none =>
          have failed : fetch machine = .error
              (.error (.code (.pastEnd (machine.program.methodName frame.method)))) machine := by
            simp only [fetch, top, found]
          exact Or.inl ⟨_, bind_of_error failed⟩
      | some insn =>
          rcases Option.bind_eq_some_iff.mp found with ⟨method, known, at_ip⟩
          rcases step_eq top known at_ip with ⟨log, executes⟩
          exact Or.inr ⟨frame, rest, method, insn, log, rfl, known, at_ip, executes⟩

theorem within_fetched {writes : Prop} {frame : Frame} {rest : List Frame}
    (top : machine.frames = frame :: rest) (log : Log) :
    Within writes machine (machine.fetched frame rest log) := by
  refine within_of_frames rfl rfl ?_ rfl rfl
  rw [top]
  exact .top (Frame.ages_of_shrinks _ (Nat.le_refl _))

/-- What a cycle does to the frames, seen from before the instruction was fetched. -/
theorem turns_step {frame : Frame} {rest : List Frame} {insn : Instruction} {log : Log}
    (top : machine.frames = frame :: rest)
    (executes : step machine = execute insn (machine.fetched frame rest log)) :
    Turns insn machine { frame with ip := frame.ip + 1 } rest (step machine) := by
  have turns : Turns insn (machine.fetched frame rest log) { frame with ip := frame.ip + 1 } rest
      (step machine) := by
    rw [executes]
    exact turns_execute rfl insn
  generalize step machine = outcome at turns ⊢
  cases turns with
  | stays within => exact .stays (trans_of (Within _) (within_fetched top log) within)
  | enters opcode operand enters =>
      refine .enters opcode operand { enters with receiver := ?_, depth := ?_ }
      · exact ⟨enters.receiver.owned, enters.receiver.free, enters.receiver.virtual⟩
      · rw [top]
        exact enters.depth
  | drops leaves => exact .drops { leaves with }
  | leaves known kinds leaves => exact .leaves known kinds { leaves with }

end Machine
end ObjectMachine
