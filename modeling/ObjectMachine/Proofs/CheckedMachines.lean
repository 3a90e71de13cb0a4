import ObjectMachine.Proofs.CallInstructions
import ObjectMachine.Proofs.CheckedCode
import ObjectMachine.Proofs.CheckedFrames

/-!
# Machines that run checked code

If all frames of a machine fit their methods, then every instruction that linking let pass finds its
operand, its slot, its target, its class and its method; and the frames that it leaves fit their
methods again.

If every frame of a method that needs a receiver has one, then so have the frames of the methods
that are called. If all strings on the stack are known, a built-in method is called with known
strings.
-/

namespace ObjectMachine

namespace Machine

/-!
## Operations on machines
-/

structure Fits (watch : Watch) (program : Program) (machine : Machine) : Prop where
  runs : machine.program = program
  frames : ∀ frame ∈ machine.frames, frame.Fits watch program

def QuietOn {α : Type} (watch : Watch) (program : Program) (machine : Machine) (op : Op α) : Prop :=
  Upholds (Failure.Allowed watch program) (Fits watch program) (fun _ => Fits watch program)
    (op machine)

def Quiet {α : Type} (watch : Watch) (program : Program) (op : Op α) : Prop :=
  ∀ machine, Fits watch program machine → QuietOn watch program machine op

variable {watch : Watch} {program : Program} {machine : Machine} {α β : Type}

namespace Fits

theorem with_top (fits : Fits watch program machine) {frame after : Frame} {rest : List Frame}
    (top : machine.frames = frame :: rest) (kept : after.Fits watch program) :
    Fits watch program { machine with frames := after :: rest } := by
  refine ⟨fits.runs, ?_⟩
  intro other mem
  rcases List.mem_cons.mp mem with rfl | mem
  · exact kept
  · exact fits.frames other (by rw [top]; exact List.mem_cons_of_mem _ mem)

theorem onFrame (fits : Fits watch program machine) {frame : Frame} {rest : List Frame}
    (top : machine.frames = frame :: rest) {op : Frame.Op α} {result : α → Frame → Prop}
    (upholds : Upholds (Error.Allowed watch) (Frame.Fits watch program) result (op frame)) :
    Upholds (Failure.Allowed watch program) (Fits watch program)
      (fun a after => ∃ top', after = { machine with frames := top' :: rest } ∧ result a top')
      (onFrame op machine) := by
  rw [onFrame_eq op top]
  cases outcome : op frame with
  | ok a after =>
      rw [outcome] at upholds
      exact ⟨after, rfl, upholds⟩
  | error e after =>
      rw [outcome] at upholds
      exact ⟨upholds.1, fits.with_top top upholds.2⟩

theorem quietOn_onFrame (fits : Fits watch program machine) {frame : Frame} {rest : List Frame}
    (top : machine.frames = frame :: rest) {op : Frame.Op α}
    (quiet : Frame.QuietOn watch frame op) :
    QuietOn watch program machine (Machine.onFrame op) := by
  have whole := fits.frames frame (by rw [top]; exact List.mem_cons_self)
  have upholds : Upholds (Error.Allowed watch) (Frame.Fits watch program) (fun _ => frame.Kept)
      (op frame) := quiet.imp (fun _ => id) (fun _ kept => kept.fits whole) fun _ _ => id
  refine (fits.onFrame top upholds).imp (fun _ => id) (fun _ => id) ?_
  intro a after given
  rcases given with ⟨top', rfl, kept⟩
  exact fits.with_top top (kept.fits whole)

end Fits

theorem QuietOn.bind {x : Op α} {f : α → Op β} (first : QuietOn watch program machine x)
    (rest : ∀ a, Quiet watch program (f a)) : QuietOn watch program machine (x >>= f) :=
  Upholds.bind first rest

namespace Quiet

theorem bind {x : Op α} {f : α → Op β} (first : Quiet watch program x)
    (rest : ∀ a, Quiet watch program (f a)) : Quiet watch program (x >>= f) :=
  fun machine fits => (first machine fits).bind rest

theorem pure (a : α) : Quiet watch program (pure a : Op α) :=
  fun _ fits => fits

theorem throw {e : Failure} (allowed : e.Allowed watch program) :
    Quiet watch program (throw e : Op α) :=
  fun _ fits => ⟨allowed, fits⟩

theorem observe (look : Machine → α) : Quiet watch program (observe look) :=
  fun _ fits => fits

theorem observe_program {f : Program → Op β} (rest : Quiet watch program (f program)) :
    Quiet watch program (Machine.observe Machine.program >>= f) := by
  intro machine fits
  unfold QuietOn
  rw [observe_bind, fits.runs]
  exact rest machine fits

theorem onFrame {op : Frame.Op α} (quiet : Frame.Quiet watch op) :
    Quiet watch program (onFrame op) := by
  intro machine fits
  cases top : machine.frames with
  | nil =>
      unfold QuietOn Machine.onFrame
      rw [top]
      exact ⟨Error.allowed_of id nofun nofun, fits⟩
  | cons frame rest => exact fits.quietOn_onFrame top (quiet frame)

theorem onMemory {op : Memory.Op α} (fails : FailsOnly Error.OfMemory op) :
    Quiet watch program (onMemory op) := by
  intro machine fits
  have fails' := fails machine.memory
  unfold QuietOn
  rw [onMemory_eq]
  cases outcome : op machine.memory with
  | ok a memory => exact ⟨fits.runs, fits.frames⟩
  | error e memory =>
      rw [outcome] at fails'
      exact ⟨fails'.1.allowed, fits.runs, fits.frames⟩

theorem onConsole {op : Console.Op α} (fails : FailsOnly Error.OfConsole op) :
    Quiet watch program (onConsole op) := by
  intro machine fits
  have fails' := fails machine.console
  unfold QuietOn
  rw [onConsole_eq]
  cases outcome : op machine.console with
  | ok a console => exact ⟨fits.runs, fits.frames⟩
  | error e console =>
      rw [outcome] at fails'
      exact ⟨fails'.1.allowed, fits.runs, fits.frames⟩

theorem push (value : Value) : Quiet watch program (push value) :=
  onFrame (Frame.Quiet.push value)

theorem note (level : Level) (event : Machine → Event) :
    Quiet watch program (note level event) := by
  intro machine fits
  rcases note_eq level event machine with ⟨log, noted⟩
  unfold QuietOn
  rw [noted]
  exact ⟨fits.runs, fits.frames⟩

theorem require_check (value : Value) (kind : Kind) :
    Quiet watch program (require (value.check kind)) := by
  unfold Value.check
  split
  · exact .pure _
  · exact .throw (Error.allowed_of id nofun nofun)

/-!
## Instructions on the heap
-/

theorem typeOf (addr : Addr) : Quiet watch program (typeOf addr) :=
  onMemory (Memory.failsOnly_query fun memory => Memory.lookup_typeOf memory addr)

theorem checkInstance (opcode : Opcode) (addr : Addr) (owner : TypeRef) :
    Quiet watch program (checkInstance opcode addr owner) := by
  unfold Machine.checkInstance
  split
  · exact .throw (Error.allowed_of id nofun nofun)
  · refine (typeOf addr).bind fun actual => observe_program ?_
    split
    · exact .pure _
    · apply Quiet.throw
      cases shown : program.typeName? owner with
      | none => exact ⟨owner, shown⟩
      | some name =>
          cases shown' : program.typeName? actual with
          | none => exact ⟨actual, shown'⟩
          | some name' => exact Error.allowed_of id nofun nofun

theorem elementKind (opcode : Opcode) (addr : Addr) :
    Quiet watch program (elementKind opcode addr) := by
  unfold Machine.elementKind
  split
  · exact .throw (Error.allowed_of id nofun nofun)
  · refine (typeOf addr).bind fun actual => observe_program ?_
    split
    · exact .pure _
    · apply Quiet.throw
      cases shown : program.typeName? actual with
      | none => exact ⟨actual, shown⟩
      | some name => exact Error.allowed_of id nofun nofun

theorem loadField (field : FieldRef) : Quiet watch program (loadField field) :=
  (onFrame Frame.Quiet.popRef).bind fun addr => (checkInstance _ addr _).bind fun _ =>
    (onMemory (Memory.failsOnly_query fun memory =>
      Memory.lookup_getField memory addr field.slot)).bind fun value => push value

theorem storeField (field : FieldRef) : Quiet watch program (storeField field) :=
  (onFrame (Frame.Quiet.popKind _)).bind fun value => (onFrame Frame.Quiet.popRef).bind fun addr =>
    (checkInstance _ addr _).bind fun _ => onMemory (Memory.failsOnly_putField addr _ value)

theorem loadElement : Quiet watch program loadElement :=
  (onFrame Frame.Quiet.popInt).bind fun index => (onFrame Frame.Quiet.popRef).bind fun addr =>
    (elementKind _ addr).bind fun kind => (onMemory (Memory.failsOnly_query fun memory =>
      Memory.lookup_getElement memory addr kind index)).bind fun value => push value

theorem storeElement : Quiet watch program storeElement :=
  (onFrame Frame.Quiet.pop).bind fun value => (onFrame Frame.Quiet.popInt).bind fun index =>
    (onFrame Frame.Quiet.popRef).bind fun addr => (elementKind _ addr).bind fun kind =>
      (require_check value kind).bind fun _ =>
        onMemory (Memory.failsOnly_putElement addr kind index value)

theorem loadLength : Quiet watch program loadLength :=
  (onFrame Frame.Quiet.popRef).bind fun addr => (elementKind _ addr).bind fun _ =>
    (onMemory (Memory.failsOnly_query fun memory => Memory.lookup_arrayLength memory addr)).bind
      fun _ => push _

theorem testInstance (type : TypeRef) : Quiet watch program (testInstance type) := by
  refine (onFrame Frame.Quiet.popRef).bind fun addr => ?_
  split
  · exact push _
  · exact (typeOf addr).bind fun actual => observe_program (push _)

theorem castInstance (type : TypeRef) : Quiet watch program (castInstance type) := by
  refine (onFrame Frame.Quiet.popRef).bind fun addr => ?_
  split
  · exact push _
  · refine (typeOf addr).bind fun actual => observe_program ?_
    split
    · exact push _
    · apply Quiet.throw
      cases shown : program.typeName? actual with
      | none => exact ⟨actual, shown⟩
      | some name =>
          cases shown' : program.typeName? type with
          | none => exact ⟨type, shown'⟩
          | some name' => exact Error.allowed_of id nofun nofun

/-!
## Allocation
-/

theorem collectGarbage : Quiet watch program collectGarbage :=
  (observe _).bind fun roots => observe_program
    ((onMemory (Memory.failsOnly_collect program roots)).bind fun _ =>
      (note _ _).bind fun _ => .pure _)

theorem throw_shortage (ref : TypeRef) (name : Machine → String → Shortage) :
    Quiet watch program (Machine.observe (fun machine =>
      (machine.program.typeName? ref).map (name machine)) >>= fun shortage =>
        MonadExcept.throw (Failure.ofShortage shortage) : Op α) := by
  intro machine fits
  refine ⟨?_, fits⟩
  dsimp only
  rw [fits.runs]
  cases shown : program.typeName? ref with
  | none => exact ⟨ref, shown⟩
  | some text => exact Error.allowed_of id nofun nofun

theorem allocate {attempt : Memory.Op (Option Addr)} (fails : FailsOnly Error.OfMemory attempt)
    (ref : TypeRef) (name : Machine → String → Shortage) :
    Quiet watch program (allocate attempt fun machine =>
      (machine.program.typeName? ref).map (name machine)) := by
  refine (onMemory fails).bind fun found => ?_
  cases found with
  | some addr => exact .pure _
  | none =>
      refine collectGarbage.bind fun _ => (onMemory fails).bind fun found => ?_
      cases found with
      | some addr => exact .pure _
      | none => exact throw_shortage ref name

theorem makeObject {type : TypeRef} (isClass : (program.class? type).isSome) :
    Quiet watch program (makeObject type) := by
  refine Quiet.bind (fun machine fits => ?_) fun addr => push _
  rcases Option.isSome_iff_exists.mp isClass with ⟨c, known⟩
  unfold QuietOn Machine.allocateObject
  rw [observe_bind, fits.runs, known]
  exact allocate (Memory.failsOnly_newObject type c) _ _ machine fits

theorem makeArray {type : TypeRef} (isArray : (program.array? type).isSome) :
    Quiet watch program (makeArray type) := by
  refine (onFrame Frame.Quiet.popInt).bind fun length => ?_
  split
  · exact .throw (Error.allowed_of id nofun nofun)
  · refine Quiet.bind (fun machine fits => ?_) fun addr => push _
    rcases Option.isSome_iff_exists.mp isArray with ⟨a, known⟩
    unfold QuietOn Machine.allocateArray
    rw [observe_bind, fits.runs, known]
    exact allocate (Memory.failsOnly_newArray type a _) _ _ machine fits

end Quiet

/-!
## Calls
-/

def Knows (watch : Watch) (machine : Machine) (values : List Value) : Prop :=
  watch.strings → ∀ ref, .str ref ∈ values → (machine.strings.get? ref).isSome

theorem string_quietOn (fits : Fits watch program machine) {ref : StrRef}
    (known : watch.strings → (machine.strings.get? ref).isSome) :
    QuietOn watch program machine (string ref) := by
  unfold QuietOn Machine.string
  rw [observe_bind]
  cases found : machine.strings.get? ref with
  | some text => exact fits
  | none =>
      refine ⟨?_, fits⟩
      intro forbidden
      rcases forbidden with ruledOut | ⟨watched, _⟩ | ⟨_, same⟩
      · exact ruledOut
      · have known' := known watched
        rw [found] at known'
        cases known'
      · cases same

theorem quiet_intern (line : String) : Quiet watch program (modifyGet fun machine : Machine =>
    let (ref, strings) := machine.strings.intern line
    (ref, { machine with strings })) :=
  fun _ fits => ⟨fits.runs, fits.frames⟩

theorem callBuiltin_quietOn (fits : Fits watch program machine) (builtin : Builtin)
    {args : List Value} (kinds : args.map Value.kind = builtin.params.map Primitive.kind)
    (knows : machine.Knows watch args) :
    QuietOn watch program machine (callBuiltin builtin args) := by
  rcases note_eq .debug (fun machine =>
    .builtinCalled machine.cycle machine.frames.length builtin.name args) machine with ⟨log, noted⟩
  unfold QuietOn callBuiltin
  rw [bind_of_ok noted]
  have fits : Fits watch program { machine with log } := ⟨fits.runs, fits.frames⟩
  have knows : Knows watch { machine with log } args := knows
  cases builtin with
  | halt =>
      rcases List.map_eq_singleton_iff.mp kinds with ⟨value, rfl, kind⟩
      cases value with
      | str ref =>
          have known := fun watched => knows watched ref List.mem_cons_self
          exact (string_quietOn fits known).bind fun text => .pure _
      | _ => cases kind
  | writeChar =>
      rcases List.map_eq_singleton_iff.mp kinds with ⟨value, rfl, kind⟩
      cases value with
      | char c =>
          exact ((Quiet.onConsole (Console.failsOnly_write _)).bind fun _ => .pure _) _ fits
      | _ => cases kind
  | writeInt =>
      rcases List.map_eq_singleton_iff.mp kinds with ⟨value, rfl, kind⟩
      cases value with
      | int i =>
          exact ((Quiet.onConsole (Console.failsOnly_write _)).bind fun _ => .pure _) _ fits
      | _ => cases kind
  | writeString =>
      rcases List.map_eq_singleton_iff.mp kinds with ⟨value, rfl, kind⟩
      cases value with
      | str ref =>
          have known := fun watched => knows watched ref List.mem_cons_self
          exact (string_quietOn fits known).bind fun text =>
            (Quiet.onConsole (Console.failsOnly_write _)).bind fun _ => .pure _
      | _ => cases kind
  | readChar =>
      rw [List.map_eq_nil_iff.mp kinds]
      exact ((Quiet.onConsole Console.failsOnly_readChar).bind fun c =>
        (Quiet.push _).bind fun _ => .pure _) _ fits
  | readInt =>
      rw [List.map_eq_nil_iff.mp kinds]
      exact ((Quiet.onConsole Console.failsOnly_readInt).bind fun i =>
        (Quiet.push _).bind fun _ => .pure _) _ fits
  | readString =>
      rw [List.map_eq_nil_iff.mp kinds]
      exact ((Quiet.onConsole Console.failsOnly_readLine).bind fun line =>
        (quiet_intern line).bind fun ref => (Quiet.push _).bind fun _ => .pure _) _ fits

theorem orThrow_some {e : Failure} (a : α) : orThrow (some a) e machine = .ok a machine := rfl

theorem typeOf_upholds (fits : Fits watch program machine) (addr : Addr) :
    Upholds (Failure.Allowed watch program) (Fits watch program)
      (fun actual after => after = machine ∧ machine.memory.typeOf addr = .ok actual)
      (typeOf addr machine) := by
  cases typed : machine.memory.typeOf addr with
  | ok actual =>
      rw [typeOf, onMemory_query_of_ok typed]
      exact ⟨rfl, rfl⟩
  | error e =>
      rw [typeOf, onMemory_query_of_error typed]
      exact ⟨(Memory.lookup_typeOf _ _ e typed).allowed, fits⟩

structure Received (watch : Watch) (program : Program) (descriptor : MethodDescriptor)
    (isVirtual : Bool) (machine : Machine) (receiver : Addr) (after : Machine) : Prop where
  fits : Fits watch program after
  strings : after.strings = machine.strings
  owned : ∀ owner, descriptor.owner = some owner → receiver ≠ .null ∧
    ∃ actual, after.memory.typeOf receiver = .ok actual ∧ program.isSubclass actual owner = true
  virtual : isVirtual = true → descriptor.owner.isSome

theorem popReceiver_upholds (fits : Fits watch program machine) {frame : Frame}
    {rest : List Frame} (top : machine.frames = frame :: rest) (method : MethodRef)
    (descriptor : MethodDescriptor) (isVirtual : Bool) :
    Upholds (Failure.Allowed watch program) (Fits watch program)
      (Received watch program descriptor isVirtual machine)
      (popReceiver method descriptor isVirtual machine) := by
  have whole := fits.frames frame (by rw [top]; exact List.mem_cons_self)
  have popped : Upholds (Error.Allowed watch) (Frame.Fits watch program)
      (fun _ => Frame.Fits watch program) (Frame.popRef frame) :=
    (Frame.Quiet.popRef frame).imp (fun _ => id) (fun _ kept => kept.fits whole)
      fun _ _ kept => kept.fits whole
  unfold popReceiver
  rw [observe_bind, fits.runs]
  cases owned : descriptor.owner with
  | none =>
      cases isVirtual with
      | true => exact ⟨Error.allowed_of id nofun nofun, fits⟩
      | false => exact ⟨fits, rfl, by simp [owned], nofun⟩
  | some owner =>
      refine (fits.onFrame top popped).bind fun receiver after given => ?_
      rcases given with ⟨top', rfl, fits'⟩
      have fits := fits.with_top top fits'
      split
      · exact ⟨Error.allowed_of id nofun nofun, fits⟩
      · next proper =>
          refine (typeOf_upholds fits receiver).bind fun actual after found => ?_
          rcases found with ⟨rfl, typed⟩
          split
          · next descends =>
              refine ⟨fits, rfl, ?_, fun _ => by simp [owned]⟩
              intro owner' same
              rw [owned] at same
              cases same
              refine ⟨?_, actual, typed, descends⟩
              intro null
              exact proper (by rw [null]; rfl)
          · refine ⟨?_, fits⟩
            cases shown : program.typeName? actual with
            | none => exact ⟨actual, shown⟩
            | some name => exact Error.allowed_of id nofun nofun

/-- The method that a virtual call reaches is declared and takes as many arguments. -/
theorem virtualTarget_upholds (fits : Fits watch program machine) (linked : program.Linked)
    (checked : program.CheckedCode) {method : MethodRef} {descriptor : MethodDescriptor}
    (known : program.method? method = some descriptor) {owner actual : TypeRef}
    (owned : descriptor.owner = some owner) {receiver : Addr}
    (typed : machine.memory.typeOf receiver = .ok actual)
    (descends : program.isSubclass actual owner = true) (count : Nat) :
    Upholds (Failure.Allowed watch program) (Fits watch program)
      (fun target after => after = machine ∧ ∃ called, program.method? target = some called ∧
        called.builtin = none ∧ called.params.length = count)
      (virtualTarget descriptor.name receiver count machine) := by
  rcases Option.isSome_iff_exists.mp (checked.overridden _ _ _ _ known owned descends) with
    ⟨target, resolved⟩
  unfold virtualTarget
  rw [observe_bind, fits.runs, typeOf, bind_of_ok (onMemory_query_of_ok typed), resolved,
    bind_of_ok (orThrow_some target)]
  cases found : program.method? target with
  | none => exact ⟨Error.allowed_of id (by simp) (by simp), fits⟩
  | some called =>
      show Upholds _ _ _ ((if called.params.length ≠ count then _ else _ : Op MethodRef) machine)
      split
      · exact ⟨Error.allowed_of id (by simp) (by simp), fits⟩
      · next arity =>
          exact ⟨rfl, called, found, linked.dispatch _ _ _ called resolved found,
            Decidable.not_not.mp arity⟩

theorem callTarget_quietOn (fits : Fits watch program machine) {receiver : Addr}
    {args : List Value} {target : MethodRef} (knows : machine.Knows watch args)
    (suits : ∀ called, program.method? target = some called →
      args.length = called.params.length ∧
      (watch.receivers → called.owner.isSome → receiver ≠ .null) ∧
      ∀ builtin, called.builtin = some builtin →
        args.map Value.kind = builtin.params.map Primitive.kind) :
    QuietOn watch program machine (callTarget program receiver args target) := by
  unfold QuietOn callTarget
  cases known : program.method? target with
  | none => exact ⟨Error.allowed_of id nofun nofun, fits⟩
  | some called =>
      rcases suits called known with ⟨count, received, kinds⟩
      rw [bind_of_ok (orThrow_some called)]
      cases isBuiltin : called.builtin with
      | some builtin => exact callBuiltin_quietOn fits builtin (kinds builtin isBuiltin) knows
      | none =>
          rcases enterMethod_cases target receiver args machine with ⟨log, ran⟩ | ⟨cause, short⟩
          · show Upholds _ _ _ ((enterMethod target receiver args >>= _) machine)
            rw [bind_of_ok ran]
            refine ⟨fits.runs, ?_⟩
            intro frame mem
            rcases List.mem_cons.mp mem with rfl | mem
            · rw [fits.runs]
              exact Frame.fits_enter known count received _
            · exact fits.frames frame mem
          · show Upholds _ _ _ ((enterMethod target receiver args >>= _) machine)
            rw [bind_of_error short]
            exact ⟨Error.allowed_of id nofun nofun, fits⟩

theorem call_quietOn (fits : Fits watch program machine) (linked : program.Linked)
    (checked : program.CheckedCode) {frame : Frame} {rest : List Frame}
    (top : machine.frames = frame :: rest) (knows : machine.Knows watch frame.stack)
    (method : MethodRef) (isVirtual : Bool) :
    QuietOn watch program machine (call method isVirtual) := by
  have whole := fits.frames frame (by rw [top]; exact List.mem_cons_self)
  unfold QuietOn
  rw [call_eq, observe_bind, fits.runs]
  cases known : program.method? method with
  | none => exact ⟨Error.allowed_of id nofun nofun, fits⟩
  | some descriptor =>
      rw [bind_of_ok (orThrow_some descriptor)]
      -- The arguments are taken from the stack of the caller.
      have popped : Upholds (Error.Allowed watch) (Frame.Fits watch program)
          (fun args after => after.Fits watch program ∧
            args.map Value.kind = descriptor.params.map program.kindOf ∧
            ∀ value ∈ args, value ∈ frame.stack)
          (Frame.popAll (descriptor.params.map program.kindOf) frame) := by
        have quiet : Upholds (Error.Allowed watch) frame.Kept (fun _ => frame.Kept)
            (Frame.popAll (descriptor.params.map program.kindOf) frame) :=
          Frame.Quiet.popAll _ frame
        cases outcome : Frame.popAll (descriptor.params.map program.kindOf) frame with
        | error e after =>
            rw [outcome] at quiet
            exact ⟨quiet.1, quiet.2.fits whole⟩
        | ok args after =>
            rw [outcome] at quiet
            rcases Frame.popAll_eq_ok outcome with ⟨kinds, stack⟩
            refine ⟨Frame.Kept.fits quiet whole, kinds, ?_⟩
            intro value mem
            rw [stack]
            exact List.mem_append_left _ (List.mem_reverse.mpr mem)
      refine (fits.onFrame top popped).bind fun args after given => ?_
      rcases given with ⟨top', rfl, fits', kinds, taken⟩
      have count : args.length = descriptor.params.length := by
        simpa using congrArg List.length kinds
      have fits := fits.with_top top fits'
      refine (popReceiver_upholds fits rfl method descriptor isVirtual).bind
        fun receiver after given => ?_
      have knows' : after.Knows watch args := by
        intro watched ref mem
        rw [given.strings]
        exact knows watched ref (taken _ mem)
      cases isVirtual with
      | true =>
          rcases Option.isSome_iff_exists.mp (given.virtual rfl) with ⟨owner, owned⟩
          rcases given.owned owner owned with ⟨proper, actual, typed, descends⟩
          refine (virtualTarget_upholds given.fits linked checked known owned typed descends
            args.length).bind fun target last found => ?_
          rcases found with ⟨rfl, called, found, declared, arity⟩
          apply callTarget_quietOn given.fits knows'
          intro called' found'
          rw [found] at found'
          cases found'
          refine ⟨arity.symm, fun _ _ => proper, ?_⟩
          intro builtin isBuiltin
          rw [declared] at isBuiltin
          cases isBuiltin
      | false =>
          apply callTarget_quietOn given.fits knows'
          intro called found'
          rw [known] at found'
          cases found'
          refine ⟨count, ?_, ?_⟩
          · intro _ owned
            rcases Option.isSome_iff_exists.mp owned with ⟨owner, owned⟩
            exact (given.owned owner owned).1
          · intro builtin isBuiltin
            rw [kinds, linked.builtins method descriptor builtin known isBuiltin]
            simp [Builtin.descriptor, linked.primitives, Function.comp_def]

/-!
## Returns
-/

theorem handBack_quietOn (fits : Fits watch program machine) (active : machine.frames ≠ [])
    (method : MethodRef) (value : Option Value) :
    QuietOn watch program machine (handBack program method value) := by
  cases top : machine.frames with
  | nil => exact absurd top active
  | cons frame rest =>
      have left : leaveMethod machine = .ok () { machine with frames := rest } := by
        rw [leaveMethod, top]
      unfold QuietOn handBack
      rw [bind_of_ok left]
      have fits : Fits watch program { machine with frames := rest } := by
        refine ⟨fits.runs, ?_⟩
        intro other mem
        exact fits.frames other (by rw [top]; exact List.mem_cons_of_mem _ mem)
      refine ((Quiet.note _ _).bind fun _ => ?_) _ fits
      cases value with
      | none => exact .pure _
      | some value =>
          refine (Quiet.observe _).bind fun empty => ?_
          split
          · exact .pure _
          · exact .push value

theorem ret_quietOn (fits : Fits watch program machine) {frame : Frame} {rest : List Frame}
    (top : machine.frames = frame :: rest) : QuietOn watch program machine ret := by
  have whole := fits.frames frame (by rw [top]; exact List.mem_cons_self)
  have looked : onFrame (fun frame => .ok frame.method frame) machine =
      .ok frame.method machine := by
    refine (onFrame_eq _ top).trans ?_
    rw [lift, ← top]
  unfold QuietOn
  rw [ret_eq, observe_bind, fits.runs, bind_of_ok looked]
  cases program.method? frame.method with
  | none => exact ⟨Error.allowed_of id nofun nofun, fits⟩
  | some descriptor =>
      rw [bind_of_ok (orThrow_some descriptor)]
      cases descriptor.returns with
      | none => exact handBack_quietOn fits (by rw [top]; exact List.cons_ne_nil _ _) _ _
      | some type =>
          have popped : Upholds (Error.Allowed watch) (Frame.Fits watch program)
              (fun _ => Frame.Fits watch program)
              (Frame.popKind (program.kindOf type) frame) :=
            (Frame.Quiet.popKind _ frame).imp (fun _ => id) (fun _ kept => kept.fits whole)
              fun _ _ kept => kept.fits whole
          refine (fits.onFrame top popped).bind fun value after given => ?_
          rcases given with ⟨top', rfl, fits'⟩
          exact handBack_quietOn (fits.with_top top fits') (List.cons_ne_nil _ _) _ _

/-!
## Cycles
-/

theorem QuietOn.none {op : Op Unit} (quiet : QuietOn watch program machine op) :
    QuietOn watch program machine (op >>= fun _ => pure (none : Option ExitStatus)) :=
  quiet.bind fun _ => .pure _

/-- An instruction that has been checked takes effect in a frame that stands right behind it. -/
theorem execute_quietOn (fits : Fits watch program machine) (linked : program.Linked)
    (checkedCode : program.CheckedCode) {frame : Frame} {rest : List Frame}
    (top : machine.frames = frame :: rest) (knows : machine.Knows watch frame.stack)
    {method : MethodDescriptor} (known : program.method? frame.method = some method)
    (fitsMethod : frame.FitsMethod watch method) {ip : Nat} (behind : frame.ip = ip + 1)
    {insn : Instruction} (checked : insn.Checked program method ip) :
    QuietOn watch program machine (execute insn) := by
  -- Operations that are quiet on every machine, or on every frame.
  have always : ∀ {op : Op Unit}, Quiet watch program op →
      QuietOn watch program machine (op >>= fun _ => pure (none : Option ExitStatus)) :=
    fun quiet => (quiet machine fits).none
  have framed : ∀ {op : Frame.Op Unit}, Frame.Quiet watch op →
      QuietOn watch program machine (onFrame op >>= fun _ => pure (none : Option ExitStatus)) :=
    fun quiet => always (.onFrame quiet)
  have here : ∀ {op : Frame.Op Unit}, Frame.QuietOn watch frame op →
      QuietOn watch program machine (onFrame op >>= fun _ => pure (none : Option ExitStatus)) :=
    fun quiet => (fits.quietOn_onFrame top quiet).none
  have moves : ∀ {op : Frame.Op Unit}, Upholds (Error.Allowed watch) (Frame.Fits watch program)
      (fun _ => Frame.Fits watch program) (op frame) →
      QuietOn watch program machine (onFrame op >>= fun _ => pure (none : Option ExitStatus)) := by
    intro op upholds
    refine QuietOn.none ((fits.onFrame top upholds).imp (fun _ => id) (fun _ => id) ?_)
    intro a after given
    rcases given with ⟨top', rfl, fits'⟩
    exact fits.with_top top fits'
  have target : ∀ offset, insn.operand = .branch offset →
      0 ≤ frame.ip + offset ∧ frame.ip + offset < method.code.size := by
    intro offset same
    have inside := checked.branch offset same
    rw [behind]
    push_cast
    exact inside
  rcases insn with ⟨opcode, operand⟩
  have kind : operand.kind = opcode.operandKind := checked.kind
  cases opcode with
  | nop => exact fits
  | ldcI4 =>
      cases operand with
      | int value => exact always (.push _)
      | _ => cases kind
  | ldcC =>
      cases operand with
      | char value => exact always (.push _)
      | _ => cases kind
  | ldcB =>
      cases operand with
      | bool value => exact always (.push _)
      | _ => cases kind
  | ldstr =>
      cases operand with
      | str ref => exact always (.push _)
      | _ => cases kind
  | ldnull => exact always (.push _)
  | ldloc =>
      cases operand with
      | slot index =>
          have inside : index < method.locals.length := checked.slot index rfl
          exact here (Frame.quietOn_loadLocal (fitsMethod.locals ▸ inside))
      | _ => cases kind
  | stloc =>
      cases operand with
      | slot index =>
          have inside : index < method.locals.length := checked.slot index rfl
          exact here (Frame.quietOn_storeLocal (fitsMethod.locals ▸ inside))
      | _ => cases kind
  | ldarg =>
      cases operand with
      | slot index =>
          have inside : index < method.params.length := checked.slot index rfl
          exact here (Frame.quietOn_loadArg (fitsMethod.args ▸ inside))
      | _ => cases kind
  | starg =>
      cases operand with
      | slot index =>
          have inside : index < method.params.length := checked.slot index rfl
          exact here (Frame.quietOn_storeArg (fitsMethod.args ▸ inside))
      | _ => cases kind
  | ldthis =>
      have owned := checked.receiver rfl
      exact here (Frame.quietOn_loadThis fun watched => fitsMethod.receiver watched owned)
  | ldfld =>
      cases operand with
      | field field => exact always (.loadField field)
      | _ => cases kind
  | stfld =>
      cases operand with
      | field field => exact always (.storeField field)
      | _ => cases kind
  | newobj =>
      cases operand with
      | type type => exact always (.makeObject (checked.isClass type rfl nofun))
      | _ => cases kind
  | newarr =>
      cases operand with
      | type type => exact always (.makeArray (checked.isArray type rfl rfl))
      | _ => cases kind
  | ldelem => exact always .loadElement
  | stelem => exact always .storeElement
  | ldlen => exact always .loadLength
  | call =>
      cases operand with
      | method callee => exact call_quietOn fits linked checkedCode top knows callee false
      | _ => cases kind
  | callvirt =>
      cases operand with
      | method callee => exact call_quietOn fits linked checkedCode top knows callee true
      | _ => cases kind
  | ret => exact (ret_quietOn fits top).none
  | isinst =>
      cases operand with
      | type type => exact always (.testInstance type)
      | _ => cases kind
  | castclass =>
      cases operand with
      | type type => exact always (.castInstance type)
      | _ => cases kind
  | br =>
      cases operand with
      | branch offset =>
          rcases target offset rfl with ⟨lower, upper⟩
          exact moves (Frame.jump_upholds known fitsMethod lower upper)
      | _ => cases kind
  | brtrue =>
      cases operand with
      | branch offset =>
          rcases target offset rfl with ⟨lower, upper⟩
          exact moves (Frame.jumpIf_upholds known fitsMethod true lower upper)
      | _ => cases kind
  | brfalse =>
      cases operand with
      | branch offset =>
          rcases target offset rfl with ⟨lower, upper⟩
          exact moves (Frame.jumpIf_upholds known fitsMethod false lower upper)
      | _ => cases kind
  | add => exact framed (Frame.quiet_calculation _)
  | sub => exact framed (Frame.quiet_calculation _)
  | mul => exact framed (Frame.quiet_calculation _)
  | div => exact framed (Frame.quiet_division _)
  | rem => exact framed (Frame.quiet_division _)
  | neg => exact framed (Frame.Quiet.popInt.bind fun _ => .push _)
  | ceq => exact framed (Frame.quiet_equality _)
  | cne => exact framed (Frame.quiet_equality _)
  | clt => exact framed (Frame.quiet_comparison _)
  | cle => exact framed (Frame.quiet_comparison _)
  | cgt => exact framed (Frame.quiet_comparison _)
  | cge => exact framed (Frame.quiet_comparison _)
  | and => exact framed (Frame.quiet_logic _)
  | or => exact framed (Frame.quiet_logic _)
  | not => exact framed (Frame.Quiet.popBool.bind fun _ => .push _)
  | convC => exact framed Frame.quiet_toChar
  | convI => exact framed Frame.quiet_toInt
  | pop => exact framed (Frame.Quiet.pop.bind fun _ => .pure _)
  | dup => exact framed (Frame.Quiet.top.bind fun _ => .push _)

/-- The instruction that is fetched, and the machine with its innermost frame right behind it. -/
theorem fetch_eq {frame : Frame} {rest : List Frame} (top : machine.frames = frame :: rest)
    {method : MethodDescriptor} (known : machine.program.method? frame.method = some method)
    {insn : Instruction} (at_ip : method.code[frame.ip]? = some insn) :
    fetch machine = .ok insn { machine with
      frames := { frame with ip := frame.ip + 1 } :: rest
      cycle := machine.cycle + 1 } := by
  simp [fetch, top, known, at_ip]

theorem fetch_cases (fits : Fits watch program machine) :
    (∃ e, fetch machine = .error e machine ∧ e.Allowed watch program) ∨
    ∃ frame rest method insn, machine.frames = frame :: rest ∧
      program.method? frame.method = some method ∧ frame.FitsMethod watch method ∧
      method.code[frame.ip]? = some insn := by
  cases top : machine.frames with
  | nil =>
      left
      refine ⟨.error (.code .noFrame), ?_, Error.allowed_of id nofun nofun⟩
      rw [fetch, top]
  | cons frame rest =>
      rcases fits.frames frame (by rw [top]; exact List.mem_cons_self) with ⟨method, known, fits'⟩
      cases at_ip : method.code[frame.ip]? with
      | none =>
          left
          refine ⟨.error (.code (.pastEnd (program.methodName frame.method))), ?_,
            Error.allowed_of id nofun nofun⟩
          simp only [fetch, top, fits.runs, known, Option.bind_some, at_ip]
      | some insn => exact Or.inr ⟨frame, rest, method, insn, rfl, known, fits', at_ip⟩

theorem step_quietOn (fits : Fits watch program machine) (linked : program.Linked)
    (checkedCode : program.CheckedCode)
    (knows : ∀ frame ∈ machine.frames, machine.Knows watch frame.stack) :
    QuietOn watch program machine step := by
  rcases fetch_cases fits with
    ⟨e, failed, allowed⟩ | ⟨frame, rest, method, insn, top, known, fitsMethod, at_ip⟩
  · unfold QuietOn step
    rw [bind_of_error failed]
    exact ⟨allowed, fits⟩
  · have fetched := fetch_eq top (by rw [fits.runs]; exact known) at_ip
    have inside : frame.ip < method.code.size := (Array.getElem?_eq_some_iff.mp at_ip).1
    have known' : program.method? { frame with ip := frame.ip + 1 }.method = some method := known
    have moved : Frame.FitsMethod watch method { frame with ip := frame.ip + 1 } :=
      ⟨inside, fitsMethod.args, fitsMethod.locals, fitsMethod.receiver⟩
    have whole := fits.with_top top ⟨method, known', moved⟩
    rcases note_eq .trace (executingEvent insn) { machine with
      frames := { frame with ip := frame.ip + 1 } :: rest
      cycle := machine.cycle + 1 } with ⟨log, noted⟩
    unfold QuietOn step
    rw [bind_of_ok fetched, bind_of_ok noted]
    have knows' := knows frame (by rw [top]; exact List.mem_cons_self)
    have checked := checkedCode.instructions _ _ _ _ known at_ip
    have fits' : Fits watch program { machine with
        frames := { frame with ip := frame.ip + 1 } :: rest
        cycle := machine.cycle + 1
        log } := ⟨whole.runs, whole.frames⟩
    exact execute_quietOn fits' linked checkedCode rfl knows' known' moved rfl checked

end Machine
end ObjectMachine
