import ObjectMachine.Proofs.Activations
import ObjectMachine.Proofs.HeapInstructions

/-!
# Operations within a frame

Operations that are no calls and no returns change no frame but the innermost one, and leave it an
activation of the same method. Most of them leave the memory alone, and one adds to the strings.
-/

namespace ObjectMachine

def Opcode.Writes : Opcode → Prop
  | .stfld => True
  | .newobj => True
  | .newarr => True
  | .stelem => True
  | _ => False

inductive FramesAge : List Frame → List Frame → Prop where
  | none : FramesAge [] []
  | top {frame after : Frame} {rest : List Frame} : frame.Ages after →
      FramesAge (frame :: rest) (after :: rest)

instance : IsPreorder (List Frame) FramesAge where
  refl frames := by
    cases frames with
    | nil => exact .none
    | cons frame rest => exact .top (refl_of Frame.Ages frame)
  trans _ _ _ first second := by
    cases first with
    | none => exact second
    | top ages =>
        cases second with
        | top ages' => exact .top (trans_of Frame.Ages ages ages')

theorem FramesAge.length_eq {frames after : List Frame} (ages : FramesAge frames after) :
    after.length = frames.length := by
  cases ages with
  | none => rfl
  | top _ => rfl

namespace Machine

/-!
## Operations within a frame
-/

/-- An operation has changed no frame but the innermost one, and taken no string from the table. The
memory has changed only if the operation writes to it. -/
structure Within (writes : Prop) (machine after : Machine) : Prop where
  program : after.program = machine.program
  limits : after.limits = machine.limits
  frames : FramesAge machine.frames after.frames
  strings : machine.strings.Grows after.strings
  memory : ¬ writes → after.memory = machine.memory

instance (writes : Prop) : IsPreorder Machine (Within writes) where
  refl machine := ⟨rfl, rfl, refl_of FramesAge machine.frames,
    refl_of StringTable.Grows machine.strings, fun _ => rfl⟩
  trans _ _ _ first second :=
    ⟨second.program.trans first.program, second.limits.trans first.limits,
      trans_of FramesAge first.frames second.frames,
      trans_of StringTable.Grows first.strings second.strings,
      fun reads => (second.memory reads).trans (first.memory reads)⟩

variable {writes : Prop} {machine : Machine} {α : Type}

theorem Within.weaken {after : Machine} (within : Within False machine after) :
    Within writes machine after :=
  ⟨within.program, within.limits, within.frames, within.strings, fun _ => within.memory id⟩

theorem within_of_frames {machine after : Machine} (program : after.program = machine.program)
    (limits : after.limits = machine.limits) (frames : FramesAge machine.frames after.frames)
    (strings : after.strings = machine.strings) (memory : after.memory = machine.memory) :
    Within writes machine after :=
  ⟨program, limits, frames, strings ▸ refl_of StringTable.Grows machine.strings, fun _ => memory⟩

theorem within_onFrame {op : Frame.Op α} (ages : Leads Frame.Ages op) :
    Leads (Within writes) (onFrame op) := by
  intro machine
  cases top : machine.frames with
  | nil =>
      rw [onFrame, top]
      exact refl_of (Within writes) machine
  | cons frame rest =>
      have aged : FramesAge machine.frames (lastState (op frame) :: rest) := by
        rw [top]
        exact .top (ages frame)
      rw [onFrame_eq op top]
      cases outcome : op frame with
      | ok a after =>
          rw [outcome] at aged
          exact within_of_frames rfl rfl aged rfl rfl
      | error e after =>
          rw [outcome] at aged
          exact within_of_frames rfl rfl aged rfl rfl

theorem within_push (value : Value) : Leads (Within writes) (push value) :=
  within_onFrame (Frame.ages_push value)

theorem within_onMemory (op : Memory.Op α) : Leads (Within True) (onMemory op) := by
  intro machine
  rw [onMemory_eq]
  cases op machine.memory <;>
    exact ⟨rfl, rfl, refl_of FramesAge machine.frames,
      refl_of StringTable.Grows machine.strings, fun reads => absurd trivial reads⟩

theorem within_query (look : Memory → Except Error α) :
    Leads (Within writes) (onMemory (Memory.query look)) := by
  intro machine
  cases found : look machine.memory with
  | ok a =>
      rw [onMemory_query_of_ok found]
      exact refl_of (Within writes) machine
  | error e =>
      rw [onMemory_query_of_error found]
      exact refl_of (Within writes) machine

theorem within_onConsole (op : Console.Op α) : Leads (Within writes) (onConsole op) := by
  intro machine
  rw [onConsole_eq]
  cases op machine.console <;>
    exact within_of_frames rfl rfl (refl_of FramesAge machine.frames) rfl rfl

theorem within_note (level : Level) (event : Machine → Event) :
    Leads (Within writes) (note level event) := by
  intro machine
  rcases note_eq level event machine with ⟨log, noted⟩
  rw [noted]
  exact within_of_frames rfl rfl (refl_of FramesAge machine.frames) rfl rfl

theorem within_observe (look : Machine → α) : Leads (Within writes) (observe look) :=
  fun machine => refl_of (Within writes) machine

theorem within_orThrow (found : Option α) (e : Failure) :
    Leads (Within writes) (orThrow found e) := by
  cases found with
  | some a => exact .of_pure a
  | none => exact .of_throw e

theorem within_require (outcome : Except Error α) : Leads (Within writes) (require outcome) := by
  cases outcome with
  | ok a => exact .of_pure a
  | error e => exact .of_throw (Failure.error e)

/-!
## Instructions on the heap
-/

theorem within_typeOf (addr : Addr) : Leads (Within writes) (typeOf addr) :=
  within_query _

theorem within_checkInstance (opcode : Opcode) (addr : Addr) (owner : TypeRef) :
    Leads (Within writes) (checkInstance opcode addr owner) := by
  unfold checkInstance
  split
  · exact .of_throw _
  · refine (within_typeOf addr).bind fun actual => (within_observe _).bind fun program => ?_
    split
    · exact .of_pure _
    · exact .of_throw _

theorem within_elementKind (opcode : Opcode) (addr : Addr) :
    Leads (Within writes) (elementKind opcode addr) := by
  unfold elementKind
  split
  · exact .of_throw _
  · refine (within_typeOf addr).bind fun actual => (within_observe _).bind fun program => ?_
    split
    · exact .of_pure _
    · exact .of_throw _

theorem within_loadField (field : FieldRef) : Leads (Within writes) (loadField field) :=
  (within_onFrame Frame.ages_popRef).bind fun _ => (within_checkInstance _ _ _).bind fun _ =>
    (within_query _).bind fun _ => within_push _

theorem within_storeField (field : FieldRef) : Leads (Within True) (storeField field) :=
  (within_onFrame (Frame.ages_popKind _)).bind fun _ =>
    (within_onFrame Frame.ages_popRef).bind fun _ =>
      (within_checkInstance _ _ _).bind fun _ => within_onMemory _

theorem within_loadElement : Leads (Within writes) loadElement :=
  (within_onFrame Frame.ages_popInt).bind fun _ => (within_onFrame Frame.ages_popRef).bind fun _ =>
    (within_elementKind _ _).bind fun _ => (within_query _).bind fun _ => within_push _

theorem within_storeElement : Leads (Within True) storeElement :=
  (within_onFrame Frame.ages_pop).bind fun _ => (within_onFrame Frame.ages_popInt).bind fun _ =>
    (within_onFrame Frame.ages_popRef).bind fun _ => (within_elementKind _ _).bind fun _ =>
      (within_require _).bind fun _ => within_onMemory _

theorem within_loadLength : Leads (Within writes) loadLength :=
  (within_onFrame Frame.ages_popRef).bind fun _ => (within_elementKind _ _).bind fun _ =>
    (within_query _).bind fun _ => within_push _

theorem within_testInstance (type : TypeRef) : Leads (Within writes) (testInstance type) := by
  refine (within_onFrame Frame.ages_popRef).bind fun addr => ?_
  split
  · exact within_push _
  · exact (within_typeOf addr).bind fun _ => (within_observe _).bind fun _ => within_push _

theorem within_castInstance (type : TypeRef) : Leads (Within writes) (castInstance type) := by
  refine (within_onFrame Frame.ages_popRef).bind fun addr => ?_
  split
  · exact within_push _
  · refine (within_typeOf addr).bind fun actual => (within_observe _).bind fun program => ?_
    split
    · exact within_push _
    · exact .of_throw _

theorem within_collectGarbage : Leads (Within True) collectGarbage :=
  (within_observe _).bind fun _ => (within_observe _).bind fun _ =>
    (within_onMemory _).bind fun _ => (within_note _ _).bind fun _ => .of_pure _

theorem within_allocate (attempt : Memory.Op (Option Addr)) (shortage : Machine → Option Shortage) :
    Leads (Within True) (allocate attempt shortage) := by
  refine (within_onMemory attempt).bind fun found => ?_
  cases found with
  | some addr => exact .of_pure _
  | none =>
      refine within_collectGarbage.bind fun _ => (within_onMemory attempt).bind fun found => ?_
      cases found with
      | some addr => exact .of_pure _
      | none => exact (within_observe _).bind fun _ => .of_throw _

theorem within_makeObject (type : TypeRef) : Leads (Within True) (makeObject type) := by
  have made : Leads (Within True) (allocateObject type) :=
    (within_observe _).bind fun _ => (within_orThrow _ _).bind fun _ => within_allocate _ _
  exact made.bind fun _ => within_push _

theorem within_makeArray (type : TypeRef) : Leads (Within True) (makeArray type) := by
  have made : ∀ length, Leads (Within True) (allocateArray type length) := fun _ =>
    (within_observe _).bind fun _ => (within_orThrow _ _).bind fun _ => within_allocate _ _
  refine (within_onFrame Frame.ages_popInt).bind fun length => ?_
  split
  · exact .of_throw _
  · exact (made _).bind fun _ => within_push _

/-!
## Calls
-/

theorem within_string (ref : StrRef) : Leads (Within writes) (string ref) :=
  (within_observe _).bind fun _ => within_orThrow _ _

theorem within_callBuiltin (builtin : Builtin) (args : List Value) :
    Leads (Within writes) (callBuiltin builtin args) := by
  refine (within_note _ _).bind fun _ => ?_
  cases builtin with
  | halt =>
      rcases args with _ | ⟨value, _ | ⟨second, more⟩⟩
      · exact .of_throw _
      · cases value with
        | str ref => exact (within_string ref).bind fun _ => .of_pure _
        | _ => exact .of_throw _
      · cases value <;> exact .of_throw _
  | writeChar =>
      rcases args with _ | ⟨value, _ | ⟨second, more⟩⟩
      · exact .of_throw _
      · cases value with
        | char c => exact (within_onConsole _).bind fun _ => .of_pure _
        | _ => exact .of_throw _
      · cases value <;> exact .of_throw _
  | writeInt =>
      rcases args with _ | ⟨value, _ | ⟨second, more⟩⟩
      · exact .of_throw _
      · cases value with
        | int i => exact (within_onConsole _).bind fun _ => .of_pure _
        | _ => exact .of_throw _
      · cases value <;> exact .of_throw _
  | writeString =>
      rcases args with _ | ⟨value, _ | ⟨second, more⟩⟩
      · exact .of_throw _
      · cases value with
        | str ref =>
            exact (within_string ref).bind fun _ => (within_onConsole _).bind fun _ => .of_pure _
        | _ => exact .of_throw _
      · cases value <;> exact .of_throw _
  | readChar =>
      cases args with
      | nil => exact (within_onConsole _).bind fun _ => (within_push _).bind fun _ => .of_pure _
      | cons value more => exact .of_throw _
  | readInt =>
      cases args with
      | nil => exact (within_onConsole _).bind fun _ => (within_push _).bind fun _ => .of_pure _
      | cons value more => exact .of_throw _
  | readString =>
      cases args with
      | nil =>
          refine (within_onConsole _).bind fun line => Leads.bind ?_ fun ref =>
            (within_push _).bind fun _ => .of_pure _
          exact fun machine => ⟨rfl, rfl, refl_of FramesAge machine.frames,
            machine.strings.grows_intern line, fun _ => rfl⟩
      | cons value more => exact .of_throw _

theorem within_popReceiver (method : MethodRef) (named : MethodDescriptor) (isVirtual : Bool) :
    Leads (Within writes) (popReceiver method named isVirtual) := by
  refine (within_observe _).bind fun program => ?_
  split
  · refine (within_onFrame Frame.ages_popRef).bind fun receiver => ?_
    split
    · exact .of_throw _
    · refine (within_typeOf receiver).bind fun actual => ?_
      split
      · exact .of_pure _
      · exact .of_throw _
  · split
    · exact .of_throw _
    · exact .of_pure _

theorem within_virtualTarget (name : String) (receiver : Addr) (count : Nat) :
    Leads (Within writes) (virtualTarget name receiver count) := by
  refine (within_observe _).bind fun program => (within_typeOf receiver).bind fun actual =>
    (within_orThrow _ _).bind fun target => (within_orThrow _ _).bind fun called => ?_
  split
  · exact .of_throw _
  · exact .of_pure _

end Machine

end ObjectMachine
