import ObjectMachine.Proofs.ConsoleInput
import ObjectMachine.Proofs.Correspondence
import ObjectMachine.Proofs.LinkedCode

/-!
# Alike machines

Machines with the same program are alike up to a pairing if the pairing joins their heaps, their
frames correspond, their consoles have the same bytes left, and the same has been written to them
since some earlier moment. Limits, counters and logs do not matter.

A machine is sound if it is alike to itself. That says all there is to say about one machine, so
what is shown for two machines need not be shown again for one.
-/

namespace ObjectMachine

/-- A linked program, and what a machine for it had read and written at some moment. -/
structure Origin (program : Program) where
  linked : program.Linked
  tagged : program.Tagged
  strings : StringTable
  literals : program.strings.Extends strings
  output : String

namespace Machine

variable {program : Program}

/-- Machines that are equal up to a pairing, each with a moment before. -/
structure Alike (origin origin' : Origin program) (pairing : Pairing) (machine other : Machine) :
    Prop where
  left_program : machine.program = program
  right_program : other.program = program
  left_strings : machine.strings = pairing.left
  right_strings : other.strings = pairing.right
  left_grown : origin.strings.Extends pairing.left
  right_grown : origin'.strings.Extends pairing.right
  heaps : ∃ tiles tiles' store store', Heap program machine.memory tiles store ∧
    Heap program other.memory tiles' store' ∧ pairing.Joins store store'
  frames : List.Forall₂ (Frame.Alike pairing) machine.frames other.frames
  consoles : Console.Alike origin.output origin'.output machine.console other.console

def Corresponds (origin origin' : Origin program) (machine other : Machine) : Prop :=
  ∃ pairing, Alike origin origin' pairing machine other

def Sound (origin : Origin program) (machine : Machine) : Prop :=
  Corresponds origin origin machine machine

def BothSound (origin origin' : Origin program) (machine other : Machine) : Prop :=
  Sound origin machine ∧ Sound origin' other

end Machine

theorem Frame.Alike.swap {pairing : Pairing} {frame other : Frame}
    (alike : Frame.Alike pairing frame other) : Frame.Alike pairing.swap other frame := by
  refine ⟨alike.method.symm, alike.ip.symm, ?_, alike.args.swap, alike.locals.swap,
    alike.stack.swap⟩
  rcases alike.receiver with ⟨left, right⟩ | paired
  · exact Or.inl ⟨right, left⟩
  · exact Or.inr paired

theorem Frame.Alike.diagonal {pairing : Pairing} {frame other : Frame}
    (alike : Frame.Alike pairing frame other) : Frame.Alike pairing.diagonal frame frame := by
  refine ⟨rfl, rfl, ?_, alike.args.diagonal, alike.locals.diagonal, alike.stack.diagonal⟩
  rcases alike.receiver with ⟨left, _⟩ | paired
  · exact Or.inl ⟨left, left⟩
  · exact Or.inr ⟨rfl, _, paired⟩

theorem Console.Alike.diagonal {base base' : String} {console other : Console}
    (alike : Console.Alike base base' console other) :
    Console.Alike base base console console := by
  rcases alike.written with ⟨text, left, _⟩
  exact ⟨alike.left_lined, alike.left_lined, rfl, text, left, left⟩

namespace Machine

variable {program : Program} {origin origin' : Origin program} {pairing : Pairing}
  {machine other : Machine}

namespace Alike

theorem swap (alike : Alike origin origin' pairing machine other) :
    Alike origin' origin pairing.swap other machine := by
  rcases alike.heaps with ⟨tiles, tiles', store, store', heap, heap', joins⟩
  exact ⟨alike.right_program, alike.left_program, alike.right_strings, alike.left_strings,
    alike.right_grown, alike.left_grown, ⟨tiles', tiles, store', store, heap', heap, joins.swap⟩,
    alike.frames.flip.imp fun _ _ => Frame.Alike.swap, alike.consoles.symm⟩

theorem diagonal (alike : Alike origin origin' pairing machine other) :
    Alike origin origin pairing.diagonal machine machine := by
  rcases alike.heaps with ⟨tiles, tiles', store, store', heap, _, joins⟩
  refine ⟨alike.left_program, alike.left_program, alike.left_strings, alike.left_strings,
    alike.left_grown, alike.left_grown, ⟨tiles, tiles, store, store, heap, heap, joins.diagonal⟩,
    ?_, alike.consoles.diagonal⟩
  exact forall₂_diagonal alike.frames fun _ _ => Frame.Alike.diagonal

theorem sound (alike : Alike origin origin' pairing machine other) : Sound origin machine :=
  ⟨pairing.diagonal, alike.diagonal⟩

theorem bothSound (alike : Alike origin origin' pairing machine other) :
    BothSound origin origin' machine other :=
  ⟨alike.sound, alike.swap.sound⟩

theorem literal (alike : Alike origin origin' pairing machine other) {ref : StrRef}
    (known : (program.strings.get? ref).isSome) : pairing.str ref ref := by
  rcases Option.isSome_iff_exists.mp known with ⟨text, found⟩
  exact ⟨text, (origin.literals.trans alike.left_grown).get? found,
    (origin'.literals.trans alike.right_grown).get? found⟩

theorem empty (alike : Alike origin origin' pairing machine other) :
    pairing.str .empty .empty := by
  apply alike.literal
  rw [origin.linked.empty]
  rfl

end Alike

/-!
## Operations on parts of a machine
-/

theorem onFrame_eq {α : Type} (op : Frame.Op α) {frame : Frame} {rest : List Frame}
    (top : machine.frames = frame :: rest) :
    onFrame op machine =
      lift (fun frame => { machine with frames := frame :: rest }) (op frame) := by
  simp only [onFrame, top]
  cases op frame <;> rfl

theorem onMemory_eq {α : Type} (op : Memory.Op α) :
    onMemory op machine = lift (fun memory => { machine with memory }) (op machine.memory) := by
  rw [onMemory]
  cases op machine.memory <;> rfl

theorem onConsole_eq {α : Type} (op : Console.Op α) :
    onConsole op machine =
      lift (fun console => { machine with console }) (op machine.console) := by
  rw [onConsole]
  cases op machine.console <;> rfl

theorem note_eq (level : Level) (event : Machine → Event) (machine : Machine) :
    ∃ log, note level event machine = .ok () { machine with log } := by
  cases admits : machine.log.admits level with
  | true =>
      refine ⟨machine.log.note (event machine), ?_⟩
      exact congrArg (EStateM.Result.ok ()) (if_pos admits)
  | false =>
      refine ⟨machine.log, ?_⟩
      exact congrArg (EStateM.Result.ok ()) (if_neg (by rw [admits]; exact Bool.false_ne_true))

/-!
## Operations on alike machines
-/

abbrev MachinesAgree {α : Type} (origin origin' : Origin program) (pairing : Pairing)
    (related : α → α → Prop) :
    EStateM.Result Failure Machine α → EStateM.Result Failure Machine α → Prop :=
  Agree (fun a b machine other => related a b ∧ Alike origin origin' pairing machine other)
    (Corresponds origin origin') Never

/-- Machines correspond, or there are more strings than indices. -/
def Ends (origin origin' : Origin program) (machine other : Machine) : Prop :=
  Corresponds origin origin' machine other ∨
    (2 ^ 32 < machine.strings.size ∨ 2 ^ 32 < other.strings.size) ∧
      BothSound origin origin' machine other

abbrev MachinesSettle {α : Type} (origin origin' : Origin program) :
    EStateM.Result Failure Machine α → EStateM.Result Failure Machine α → Prop :=
  Agree (fun a b machine other => a = b ∧ Ends origin origin' machine other)
    (Corresponds origin origin') (BothSound origin origin')

theorem Ends.bothSound (ends : Ends origin origin' machine other) :
    BothSound origin origin' machine other := by
  rcases ends with ⟨pairing, alike⟩ | ⟨_, both⟩
  · exact alike.bothSound
  · exact both

def Safe {α : Type} (origin : Origin program) : EStateM.Result Failure Machine α → Prop
  | .ok _ machine => Sound origin machine
  | .error e machine => ¬ e.IsCorruption ∧ Sound origin machine

/-- An operation is safe if it agrees with itself. -/
theorem safe_of_settle {α : Type} {outcome : EStateM.Result Failure Machine α}
    (settles : MachinesSettle origin origin outcome outcome) : Safe origin outcome := by
  cases outcome with
  | ok a machine =>
      cases settles with
      | done both => exact both.2.bothSound.1
  | error e machine =>
      cases settles with
      | failed safe same => exact ⟨safe, same⟩
      | shortError _ safe _ both => exact ⟨safe, both.1⟩

theorem settle_of_short_right {α : Type} {outcome : EStateM.Result Failure Machine α}
    {e : Failure} (short : e.IsShortage) (safe : Safe origin outcome)
    (sound : Safe origin' (.error e other : EStateM.Result Failure Machine α)) :
    MachinesSettle origin origin' outcome (.error e other) := by
  cases outcome with
  | ok a machine => exact .shortRight short sound.1 ⟨safe, sound.2⟩
  | error e machine => exact .shortError (Or.inr short) safe.1 sound.1 ⟨safe.2, sound.2⟩

theorem settle_of_short_left {α : Type} {outcome : EStateM.Result Failure Machine α}
    {e : Failure} (short : e.IsShortage)
    (sound : Safe origin (.error e machine : EStateM.Result Failure Machine α))
    (safe : Safe origin' outcome) :
    MachinesSettle origin origin' (.error e machine) outcome := by
  cases outcome with
  | ok a other => exact .shortLeft short sound.1 ⟨sound.2, safe⟩
  | error e other => exact .shortError (Or.inl short) sound.1 safe.1 ⟨sound.2, safe.2⟩

namespace Alike

theorem observe_program (alike : Alike origin origin' pairing machine other) :
    MachinesAgree origin origin' pairing (fun p p' => program = p ∧ program = p')
      (observe Machine.program machine) (observe Machine.program other) :=
  .done ⟨⟨alike.left_program.symm, alike.right_program.symm⟩, alike⟩

theorem orThrow {α : Type} (alike : Alike origin origin' pairing machine other)
    (found : Option α) {e : Failure} (safe : ¬ e.IsCorruption) :
    MachinesAgree origin origin' pairing (fun a b => found = some a ∧ a = b)
      (orThrow found e machine) (Machine.orThrow found e other) := by
  cases found with
  | some a => exact .done ⟨⟨rfl, rfl⟩, alike⟩
  | none => exact .failed safe ⟨pairing, alike⟩

theorem note (alike : Alike origin origin' pairing machine other) (level : Level)
    (event event' : Machine → Event) :
    MachinesAgree origin origin' pairing (fun _ _ => True) (note level event machine)
      (Machine.note level event' other) := by
  rcases note_eq level event machine with ⟨log, ran⟩
  rcases note_eq level event' other with ⟨log', ran'⟩
  rw [ran, ran']
  exact .done ⟨trivial, { alike with }⟩

/-!
## The innermost frame
-/

theorem frames_cases (alike : Alike origin origin' pairing machine other) :
    (machine.frames = [] ∧ other.frames = []) ∨
    ∃ frame frame' rest rest', machine.frames = frame :: rest ∧ other.frames = frame' :: rest' ∧
      Frame.Alike pairing frame frame' ∧ List.Forall₂ (Frame.Alike pairing) rest rest' := by
  have frames := alike.frames
  cases left : machine.frames with
  | nil =>
      rw [left] at frames
      exact Or.inl ⟨rfl, List.forall₂_nil_left_iff.mp frames⟩
  | cons frame rest =>
      rw [left] at frames
      rcases List.forall₂_cons_left_iff.mp frames with ⟨frame', rest', same, rests, right⟩
      exact Or.inr ⟨frame, frame', rest, rest', rfl, right, same, rests⟩

theorem observe_isEmpty (alike : Alike origin origin' pairing machine other) :
    MachinesAgree origin origin' pairing Eq
      (observe (fun machine => machine.frames.isEmpty) machine)
      (observe (fun machine => machine.frames.isEmpty) other) := by
  have same : machine.frames.isEmpty = other.frames.isEmpty := by
    rcases alike.frames_cases with ⟨none, none'⟩ | ⟨_, _, _, _, top, top', _, _⟩
    · rw [none, none']
    · rw [top, top']
      rfl
  exact .done ⟨same, alike⟩

theorem with_frames (alike : Alike origin origin' pairing machine other)
    {frames frames' : List Frame} (same : List.Forall₂ (Frame.Alike pairing) frames frames') :
    Alike origin origin' pairing { machine with frames } { other with frames := frames' } :=
  { alike with frames := same }

theorem onFrame {α : Type} {op : Frame.Op α} {related : α → α → Prop}
    (alike : Alike origin origin' pairing machine other)
    (agrees : ∀ {frame frame' : Frame}, Frame.Alike pairing frame frame' →
      FramesAgree pairing related (op frame) (op frame')) :
    MachinesAgree origin origin' pairing related (onFrame op machine)
      (Machine.onFrame op other) := by
  rcases alike.frames_cases with
    ⟨none, none'⟩ | ⟨frame, frame', rest, rest', top, top', same, rests⟩
  · rw [Machine.onFrame, Machine.onFrame, none, none']
    exact .failed id ⟨pairing, alike⟩
  · rw [onFrame_eq op top, onFrame_eq op top']
    refine (agrees same).lift ?_ ?_ fun _ _ => id
    · intro a b after after' both
      rcases both with ⟨results, afters⟩
      exact ⟨results, alike.with_frames (.cons afters rests)⟩
    · intro after after' afters
      exact ⟨pairing, alike.with_frames (.cons afters rests)⟩

theorem settleFrame {op op' : Frame.Op Unit} (alike : Alike origin origin' pairing machine other)
    (settles : ∀ {frame frame' : Frame}, Frame.Alike pairing frame frame' →
      FramesSettle pairing (op frame) (op' frame')) :
    MachinesSettle origin origin' (Machine.onFrame op machine) (Machine.onFrame op' other) := by
  rcases alike.frames_cases with
    ⟨none, none'⟩ | ⟨frame, frame', rest, rest', top, top', same, rests⟩
  · rw [Machine.onFrame, Machine.onFrame, none, none']
    exact .failed id ⟨pairing, alike⟩
  · rw [onFrame_eq op top, onFrame_eq op' top']
    refine (settles same).lift ?_ ?_ ?_
    · intro _ _ after after' afters
      exact ⟨rfl, Or.inl ⟨pairing, alike.with_frames (.cons afters rests)⟩⟩
    · intro after after' afters
      exact ⟨pairing, alike.with_frames (.cons afters rests)⟩
    · -- A frame that is alike to some frame makes a machine that is alike to some machine.
      intro after after' both
      rcases both with ⟨⟨partner, left⟩, ⟨partner', right⟩⟩
      exact ⟨(alike.with_frames (.cons left rests)).sound,
        (alike.with_frames (.cons right rests)).swap.sound⟩

theorem push (alike : Alike origin origin' pairing machine other) {value value' : Value}
    (same : Value.Alike pairing value value') :
    MachinesSettle origin origin' (push value machine) (Machine.push value' other) :=
  alike.settleFrame fun frames => frames.push same

/-!
## Strings and the console
-/

theorem string (alike : Alike origin origin' pairing machine other) {r r' : StrRef}
    (same : pairing.str r r') :
    MachinesAgree origin origin' pairing Eq (string r machine) (Machine.string r' other) := by
  rcases same with ⟨text, found, found'⟩
  rw [← alike.left_strings] at found
  rw [← alike.right_strings] at found'
  simp only [Machine.string, bind, EStateM.bind, observe, found, found']
  exact .done ⟨rfl, alike⟩

theorem onConsole {α : Type} {op op' : Console.Op α}
    (alike : Alike origin origin' pairing machine other)
    (agrees : Agree
      (fun a b console console' => a = b ∧
        Console.Alike origin.output origin'.output console console')
      (Console.Alike origin.output origin'.output) Never (op machine.console) (op' other.console)) :
    MachinesAgree origin origin' pairing Eq
      (onConsole op machine) (Machine.onConsole op' other) := by
  rw [onConsole_eq, onConsole_eq]
  refine agrees.lift ?_ ?_ fun _ _ => id
  · intro a b console console' both
    rcases both with ⟨same, consoles⟩
    exact ⟨same, { alike with consoles }⟩
  · intro console console' consoles
    exact ⟨pairing, { alike with consoles }⟩

end Alike
end Machine
end ObjectMachine
