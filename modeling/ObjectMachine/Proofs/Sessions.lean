import ObjectMachine.Machine.Run
import ObjectMachine.Proofs.Cycles
import ObjectMachine.Proofs.RegularMemory

/-!
# Sessions

A session makes a machine and calls its operations in any order, and goes on after errors. It ends
with a call that does not return. Every machine of a session is sound. So every reference that it
can get at leads to a live block, and no call finds the heap damaged.
-/

namespace ObjectMachine

/-!
## Calls
-/

/-- The operations that can be called on a machine from outside. A run says how many instructions it
may execute. -/
inductive Call where
  | start (entry : MethodRef)
  | step
  | run (fuel : Nat) (entry : MethodRef)
  | runMain (fuel : Nat)
  | collect

/-- What an operation leaves behind, if it returns: the error that it ended with, if it did, and the
machine. -/
def Machine.report {α : Type} :
    EStateM.Result Failure Machine α → Option (Option Error × Machine)
  | .ok _ machine => some (none, machine)
  | .error (.error e) machine => some (some e, machine)
  | .error (.endless _) _ => none

def Call.perform (call : Call) (machine : Machine) : Option (Option Error × Machine) :=
  match call with
  | .start entry => Machine.report (Machine.start entry machine)
  | .step => Machine.report (Machine.step machine)
  | .run fuel entry => Machine.report (Machine.run fuel entry machine)
  | .runMain fuel => Machine.report (Machine.runMain fuel machine)
  | .collect => Machine.report (Machine.collectGarbage machine)

/-- The machine after a call, which is the one before if the call does not return. -/
def Call.leaves (call : Call) (machine : Machine) : Machine :=
  ((call.perform machine).map Prod.snd).getD machine

namespace Machine

/-- The machines of sessions: a new one, and what calls leave behind, whether they fail or not. -/
inductive Reached (program : Program) : Machine → Prop where
  | boot {limits : Limits} {input : List UInt8} {log : Log} {machine : Machine} :
      boot program limits input log = .ok machine → Reached program machine
  | call {machine after : Machine} {error : Option Error} (call : Call) :
      Reached program machine → call.perform machine = some (error, after) →
      Reached program after

theorem Reached.leaves {program : Program} {machine : Machine} (call : Call)
    (reached : Reached program machine) : Reached program (call.leaves machine) := by
  cases done : call.perform machine with
  | none =>
      rw [Call.leaves, done]
      exact reached
  | some outcome =>
      rw [Call.leaves, done]
      exact .call call reached done

/-!
## Sound machines
-/

variable {program : Program} {origin : Origin program} {machine other : Machine}

theorem Safe.bind {α β : Type} {x : Op α} {f : α → Op β} (first : Safe origin (x machine))
    (rest : ∀ a after, Sound origin after → Safe origin (f a after)) :
    Safe origin ((x >>= f) machine) := by
  cases outcome : x machine with
  | ok a after =>
      rw [outcome] at first
      rw [bind_of_ok outcome]
      exact rest a after first
  | error e after =>
      rw [outcome] at first
      rw [bind_of_error outcome]
      exact first

theorem start_cases (entry : MethodRef) (machine : Machine) :
    (∃ cause, start entry machine = .error (.error (.code cause)) machine) ∨
    ∃ log, start entry machine = .ok () { machine with
      log
      frames := [Frame.enter machine.program entry .null [] machine.limits.stackCapacity] } := by
  rw [start, observe_bind]
  cases known : machine.program.method? entry with
  | none => exact Or.inl ⟨_, rfl⟩
  | some descriptor =>
      have found : orThrow (some descriptor) (.error (.code (.noMethod entry))) machine =
          .ok descriptor machine := rfl
      rw [bind_of_ok found]
      cases refused : descriptor.builtin.isSome || !descriptor.params.isEmpty with
      | true => exact Or.inl ⟨_, rfl⟩
      | false =>
          right
          rcases note_eq .debug (fun after =>
            .started after.cycle (machine.program.methodName entry)) machine with ⟨log, noted⟩
          refine ⟨log, ?_⟩
          show (note .debug _ >>= _) machine = _
          rw [bind_of_ok noted]
          rfl

theorem Alike.start {origin' : Origin program} {pairing : Pairing}
    (alike : Alike origin origin' pairing machine other) (entry : MethodRef) (log log' : Log) :
    Alike origin origin' pairing
      { machine with
        log
        frames := [Frame.enter machine.program entry .null [] machine.limits.stackCapacity] }
      { other with
        log := log'
        frames := [Frame.enter other.program entry .null [] other.limits.stackCapacity] } := by
  refine { alike with frames := .cons ?_ .nil }
  rw [alike.left_program, alike.right_program]
  exact alike.enter entry (Or.inl ⟨rfl, rfl⟩) .nil _ _

namespace Sound

theorem start (sound : Sound origin machine) (entry : MethodRef) :
    Safe origin (start entry machine) := by
  rcases start_cases entry machine with ⟨cause, failed⟩ | ⟨log, ran⟩
  · rw [failed]
    exact ⟨id, sound⟩
  · rcases sound with ⟨pairing, alike⟩
    rw [ran]
    exact ⟨pairing, alike.start entry log log⟩

theorem step (sound : Sound origin machine) : Safe origin (step machine) := by
  rcases sound with ⟨pairing, alike⟩
  exact safe_of_settle alike.step

theorem collect (sound : Sound origin machine) : Safe origin (collectGarbage machine) := by
  rcases sound with ⟨pairing, alike⟩
  rcases alike.collect with ⟨report, memory, log, pairing', ran, alike'⟩
  rw [ran]
  exact alike'.sound

theorem proceed (sound : Sound origin machine) (fuel : Nat) :
    Safe origin (proceed fuel machine) := by
  induction fuel generalizing machine with
  | zero => exact sound
  | succ fuel ih =>
      rw [Machine.proceed, observe_bind]
      cases machine.frames.isEmpty with
      | true => exact sound
      | false =>
          apply sound.step.bind
          intro status after sound
          cases status with
          | some status => exact sound
          | none => exact ih sound

theorem with_frames_nil (sound : Sound origin machine) (log : Log) :
    Sound origin { machine with log, frames := [] } := by
  rcases sound with ⟨pairing, alike⟩
  exact ⟨pairing, { alike with frames := .nil }⟩

theorem run (sound : Sound origin machine) (fuel : Nat) (entry : MethodRef) :
    Safe origin (run fuel entry machine) := by
  have started := sound.start entry
  unfold Machine.run
  cases outcome : Machine.start entry machine with
  | error e after =>
      rw [outcome] at started
      exact started
  | ok result after =>
      rw [outcome] at started
      have ran := proceed started fuel
      cases outcome' : Machine.proceed fuel after with
      | error failure last =>
          rw [outcome'] at ran
          cases failure with
          | error e =>
              simp only [outcome']
              exact ⟨ran.1, ran.2.with_frames_nil _⟩
          | endless unsaid =>
              simp only [outcome']
              exact ran
      | ok status last =>
          rw [outcome'] at ran
          cases status with
          | none =>
              simp only [outcome']
              exact ran
          | some status =>
              simp only [outcome']
              exact with_frames_nil ran last.log

theorem report {α : Type} {outcome : EStateM.Result Failure Machine α}
    (safe : Safe origin outcome) {error : Option Error} {after : Machine}
    (done : report outcome = some (error, after)) :
    (∀ e ∈ error, ¬ e.IsCorruption) ∧ Sound origin after := by
  cases outcome with
  | ok a machine =>
      cases done
      refine ⟨?_, safe⟩
      intro other none
      cases none
  | error failure machine =>
      cases failure with
      | error e =>
          cases done
          refine ⟨?_, safe.2⟩
          intro other same
          cases same
          exact safe.1
      | endless unsaid => cases done

/-- A call on a sound machine finds no damage and leaves a sound machine. -/
theorem perform (sound : Sound origin machine) {call : Call} {error : Option Error}
    {after : Machine} (done : call.perform machine = some (error, after)) :
    (∀ e ∈ error, ¬ e.IsCorruption) ∧ Sound origin after := by
  cases call with
  | start entry => exact report (sound.start entry) done
  | step => exact report sound.step done
  | run fuel entry => exact report (sound.run fuel entry) done
  | runMain fuel => exact report (sound.run fuel machine.program.entry) done
  | collect => exact report sound.collect done

end Sound

theorem sound_of_boot (linked : program.Linked) (tagged : program.Tagged) {limits : Limits}
    {input : List UInt8} {log : Log} (booted : boot program limits input log = .ok machine) :
    Sound ⟨linked, tagged, program.strings, StringTable.extends_refl _, ""⟩ machine := by
  rcases Except.bind_eq_ok_iff.mp booted with ⟨memory, made, rest⟩
  cases rest
  refine ⟨.bare program.strings program.strings linked.distinct linked.distinct, rfl, rfl, rfl, rfl,
    StringTable.extends_refl _, StringTable.extends_refl _,
    ⟨_, _, _, _, Heap.new made, Heap.new made, nofun⟩, .nil, ?_⟩
  exact ⟨Console.lined_ofInput input, Console.lined_ofInput input, rfl, "", rfl, rfl⟩

theorem Reached.sound (reached : Reached program machine) (linked : program.Linked)
    (tagged : program.Tagged) : ∃ origin : Origin program, Sound origin machine := by
  induction reached with
  | boot booted => exact ⟨_, sound_of_boot linked tagged booted⟩
  | call call _ done ih =>
      rcases ih with ⟨origin, sound⟩
      exact ⟨origin, (sound.perform done).2⟩

/-!
## Safe heaps
-/

/-- Every reference that a machine holds is null or leads to a live block. -/
structure HeapSafe (program : Program) (machine : Machine) : Prop where
  /-- The walk over the memory lists the live blocks, which are instances and arrays. -/
  walk : ∃ listed, machine.memory.blocks = .ok listed
  typed : ∀ addr header, machine.memory.Lists addr header →
    (∃ c, program.class? header.type = some c) ∨ ∃ a, program.array? header.type = some a
  /-- The references in frames. -/
  receivers : ∀ frame ∈ machine.frames, machine.memory.Admits frame.receiver
  values : ∀ frame ∈ machine.frames, ∀ value ∈ frame.args ++ frame.locals ++ frame.stack,
    machine.memory.AdmitsValue value
  /-- The references in fields, all of which can be read. -/
  fields : ∀ addr header c, machine.memory.Lists addr header →
    program.class? header.type = some c → ∀ slot ∈ c.fields,
      ∃ value, machine.memory.getField addr slot = .ok value ∧ machine.memory.AdmitsValue value
  /-- The references in elements, all of which can be read. -/
  elements : ∀ addr header a, machine.memory.Lists addr header →
    program.array? header.type = some a →
    ∃ length, machine.memory.arrayLength addr = .ok length ∧
      ∀ index : Int32, 0 ≤ index.toInt → index.toInt < length →
        ∃ value, machine.memory.getElement addr a.elementKind index = .ok value ∧
          machine.memory.AdmitsValue value

end Machine

namespace Heap

variable {program : Program} {memory : Memory} {tiles : List Tile} {store : Store} {addr : Addr}
  {object : Object}

theorem admits (heap : Heap program memory tiles store)
    (known : addr = .null ∨ (store addr).isSome) : memory.Admits addr := by
  rcases known with null | known
  · exact Or.inl null
  · exact Or.inr (heap.isSome_iff.mp known)

theorem admitsValue (heap : Heap program memory tiles store) (found : store addr = some object)
    {value : Value} (mem : value ∈ object.values) : memory.AdmitsValue value := by
  intro child same
  subst same
  apply heap.admits
  by_cases null : child = .null
  · exact Or.inl null
  · exact Or.inr (heap.closed addr object child found (Object.mem_references_iff.mpr ⟨mem, null⟩))

end Heap

namespace Machine

variable {program : Program} {origin : Origin program} {machine : Machine}

theorem Sound.heapSafe (sound : Sound origin machine) : HeapSafe program machine := by
  rcases sound with ⟨pairing, alike⟩
  rcases alike.heaps with ⟨tiles, _, store, _, heap, _, joins⟩
  have admits : ∀ a a', pairing.ref a a' → machine.memory.Admits a := by
    intro a a' either
    rcases either with ⟨null, _⟩ | paired
    · exact Or.inl null
    · rcases joins a a' paired with ⟨object, _, found, _⟩
      exact heap.admits (Or.inr (by rw [found]; rfl))
  have values : ∀ {values values' : List Value}, ValuesAlike pairing values values' →
      ∀ value ∈ values, machine.memory.AdmitsValue value := by
    intro values values' same value mem addr equal
    subst equal
    rcases forall₂_exists_of_mem same mem with ⟨_, _, alike⟩
    cases alike with
    | ref same => exact admits _ _ same
  constructor
  · exact ⟨_, heap.blocks_eq⟩
  · intro addr header lists
    rcases heap.block_fits (heap.lists_iff.mp lists) with ⟨c, known, _⟩ | ⟨a, _, known, _⟩
    · exact Or.inl ⟨c, known⟩
    · exact Or.inr ⟨a, known⟩
  · intro frame mem
    rcases forall₂_exists_of_mem alike.frames mem with ⟨frame', _, same⟩
    exact admits _ _ same.receiver
  · intro frame mem value held
    rcases forall₂_exists_of_mem alike.frames mem with ⟨frame', _, same⟩
    rcases List.mem_append.mp held with held | held
    · rcases List.mem_append.mp held with held | held
      · exact values same.args value held
      · exact values same.locals value held
    · exact values same.stack value held
  · intro addr header c lists known slot mem
    rcases heap.object_of_lists lists with ⟨object, found, typed⟩
    rw [← typed] at known
    rcases List.getElem?_of_mem mem with ⟨i, at_i⟩
    rcases heap.getField_eq origin.linked.orderly found known at_i with ⟨value, held, read⟩
    exact ⟨value, read, heap.admitsValue found (List.mem_of_getElem? held)⟩
  · intro addr header a lists known
    rcases heap.object_of_lists lists with ⟨object, found, typed⟩
    rw [← typed] at known
    refine ⟨_, heap.arrayLength_eq found known, ?_⟩
    intro index lower upper
    rcases heap.getElement_eq origin.linked.orderly found known lower upper with
      ⟨value, held, read⟩
    exact ⟨value, read, heap.admitsValue found (List.mem_of_getElem? held)⟩

/-- In every session every reference leads to a live block, and no call finds the heap damaged. -/
theorem reached_heapSafe {image : Image} {program : Program} {machine : Machine}
    (linked : image.link = .ok program) (few : program.types.size < 2 ^ 31 - 1)
    (reached : Reached program machine) :
    HeapSafe program machine ∧
      ∀ (call : Call) (cause : Corruption) (after : Machine),
        call.perform machine ≠ some (some (.corruption cause), after) := by
  rcases reached.sound (Program.linked_of_link linked) few with ⟨origin, sound⟩
  refine ⟨sound.heapSafe, ?_⟩
  intro call cause after failed
  exact (sound.perform failed).1 _ rfl trivial

def nodeMachine (limits : Limits) : Machine :=
  (boot nodeProgram limits [] .off).toOption.getD default

theorem reached_nodeMachine {limits : Limits}
    (usable : (boot nodeProgram limits [] .off).toOption.isSome) :
    Reached nodeProgram (nodeMachine limits) :=
  .boot (Except.eq_ok_getD usable)

def writingMachine : Machine :=
  (Call.runMain 3).leaves (nodeMachine ⟨24, 1, 2⟩)

theorem reached_writingMachine : Reached nodeProgram writingMachine :=
  .leaves (.runMain 3) (reached_nodeMachine (by decide +kernel))

theorem reached_heapSafe_writingMachine :
    nodeImage.link = .ok nodeProgram ∧ nodeProgram.types.size < 2 ^ 31 - 1 ∧
      Reached nodeProgram writingMachine ∧
      writingMachine.frames.map Frame.locals = [[.ref ⟨0⟩]] ∧
      HeapSafe nodeProgram writingMachine ∧
      ∀ (call : Call) (cause : Corruption) (after : Machine),
        call.perform writingMachine ≠ some (some (.corruption cause), after) :=
  ⟨link_nodeImage, by decide, reached_writingMachine, by decide +kernel,
    reached_heapSafe link_nodeImage (by decide) reached_writingMachine⟩

end Machine
end ObjectMachine
