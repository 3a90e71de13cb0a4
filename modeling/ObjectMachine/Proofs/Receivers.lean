import ObjectMachine.Proofs.HeapChanges

/-!
# The types of receivers

An object has one type for as long as it lives. The receivers of frames are among the roots, so no
collection frees them, and whatever is written or allocated meanwhile, they have the types that they
had when their methods were entered.
-/

namespace ObjectMachine

/-- An object that a root leads to keeps its type, whatever happens to the store. -/
theorem Store.Changes.type_eq {table : StringTable} {roots : List Addr} {store store' : Store}
    (changes : store.Changes table roots store') {addr : Addr} {object : Object}
    (mem : addr ∈ roots) (proper : addr ≠ .null) (found : store addr = some object) :
    ∃ object', store' addr = some object' ∧ object'.type = object.type := by
  cases changes with
  | @put place old value i held _ =>
      by_cases here : addr = place
      · subst here
        rw [found] at held
        cases held
        exact ⟨_, store.set_same addr _, rfl⟩
      · exact ⟨object, (store.set_other _ here).trans found, rfl⟩
  | @new place type descriptor length fresh =>
      have here : addr ≠ place := by
        intro same
        rw [same, fresh] at found
        cases found
      exact ⟨object, (store.set_other _ here).trans found, rfl⟩
  | trim => exact ⟨object, (Store.trim_of_reaches (.root mem proper)).trans found, rfl⟩

theorem FramesAge.map_receiver {frames after : List Frame} (ages : FramesAge frames after) :
    after.map Frame.receiver = frames.map Frame.receiver := by
  cases ages with
  | none => rfl
  | top ages => rw [List.map_cons, List.map_cons, ages.receiver]

namespace Machine

def receivers (machine : Machine) : List Addr :=
  machine.frames.map Frame.receiver

structure Retains (machine after : Machine) : Prop where
  receivers : after.receivers = machine.receivers
  types : ∀ addr ∈ machine.receivers, addr ≠ .null →
    after.memory.typeOf addr = machine.memory.typeOf addr

instance : IsPreorder Machine Retains where
  refl _ := ⟨rfl, fun _ _ _ => rfl⟩
  trans _ _ _ first second := by
    refine ⟨second.receivers.trans first.receivers, ?_⟩
    intro addr mem proper
    have mem' := mem
    rw [← first.receivers] at mem'
    exact (second.types addr mem' proper).trans (first.types addr mem proper)

variable {program : Program} {origin : Origin program} {pairing : Pairing}
  {machine after : Machine} {table : StringTable}

theorem root_of_receiver {addr : Addr} (mem : addr ∈ machine.receivers) (proper : addr ≠ .null) :
    addr ∈ machine.roots := by
  rcases List.mem_map.mp mem with ⟨frame, held, rfl⟩
  exact mem_roots_iff.mpr ⟨frame, held, Frame.mem_roots_iff.mpr ⟨proper, Or.inl rfl⟩⟩

theorem Within.receivers_eq {writes : Prop} (within : Within writes machine after) :
    after.receivers = machine.receivers :=
  within.frames.map_receiver

theorem Changes.retains (changes : Changes program table machine after) :
    Retains machine after := by
  induction changes with
  | reads within => exact ⟨within.receivers_eq, fun _ _ _ => by rw [within.memory id]⟩
  | writes rep rooted changes rep' =>
      refine ⟨rfl, ?_⟩
      intro addr mem proper
      have root := root_of_receiver mem proper
      rcases Option.isSome_iff_exists.mp (rooted addr root proper) with ⟨object, found⟩
      rcases changes.type_eq root proper found with ⟨object', found', typed⟩
      rw [rep.typeOf_eq found, ← typed]
      exact rep'.typeOf_eq found'
  | trans _ _ first second => exact trans_of Retains first second

theorem Alike.retains_collect (alike : Alike origin origin pairing machine machine) :
    Retains machine (lastState (collectGarbage machine)) :=
  (alike.changes_collect : Changes program machine.strings _ _).retains

theorem Sound.retains_step (sound : Sound origin machine) {frame : Frame} {rest : List Frame}
    {method : MethodDescriptor} {insn : Instruction} {log : Log}
    (top : machine.frames = frame :: rest)
    (known : machine.program.method? frame.method = some method)
    (at_ip : method.code[frame.ip]? = some insn)
    (executes : Machine.step machine = execute insn (machine.fetched frame rest log))
    (within : Within insn.opcode.Writes machine (lastState (Machine.step machine))) :
    Retains machine (lastState (Machine.step machine)) :=
  (sound.changes_step top known at_ip executes within).retains

end Machine
end ObjectMachine
