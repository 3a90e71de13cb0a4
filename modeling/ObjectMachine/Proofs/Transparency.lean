import ObjectMachine.Proofs.Callers
import ObjectMachine.Proofs.CheckedSessions
import ObjectMachine.Proofs.Exhaustion

/-!
# Transparency

A program cannot see how large the heap is, when garbage is collected, where its objects lie or what
was run before it. Two machines are started with the same method and the same input left. As long as
neither runs out of anything, their cycles have the same results, the same is written and read, and
their frames are equal up to a bijection between the blocks that can be reached.

A cycle that runs out of memory says so, unless it is an array made of itself that does not fit:
then it does not return, while a machine with a larger heap goes on.
-/

namespace ObjectMachine

/-!
## Started machines
-/

/-- What is done with a machine once it has been started. -/
inductive Action where
  | cycle
  | collect
  deriving DecidableEq

namespace Machine

/-- How a cycle ended, and the machine as it was then. -/
def cycleResult : EStateM.Result Failure Machine (Option ExitStatus) →
    Except Failure (Option ExitStatus) × Machine
  | .ok status machine => (.ok status, machine)
  | .error e machine => (.error e, machine)

def returned : Except Failure (Option ExitStatus) → Bool
  | .error (.endless _) => false
  | _ => true

/-- Actions one after the other, also after errors, but not after a cycle that does not return: the
results of the cycles among them, and the last machine. -/
def act : List Action → Machine → List (Except Failure (Option ExitStatus)) × Machine
  | [], machine => ([], machine)
  | .cycle :: rest, machine =>
      let ended := cycleResult (step machine)
      if returned ended.1 then
        let later := act rest ended.2
        (ended.1 :: later.1, later.2)
      else
        ([ended.1], ended.2)
  | .collect :: rest, machine => act rest (lastState (collectGarbage machine))

def cycles (actions : List Action) : Nat :=
  actions.count .cycle

/-- Whether a cycle ended because a resource ran out, even if it could not report that. -/
def ranShort (results : List (Except Failure (Option ExitStatus))) : Bool :=
  results.any fun
    | .error (.error (.shortage _)) => true
    | .error (.endless .shortage) => true
    | _ => false

/-!
## What corresponds
-/

def SameFields (pairing : Pairing) (machine other : Machine) (a a' : Addr)
    (c : ClassDescriptor) : Prop :=
  ∀ slot ∈ c.fields, ∃ value value', machine.memory.getField a slot = .ok value ∧
    other.memory.getField a' slot = .ok value' ∧ Value.Alike pairing value value'

def SameElements (pairing : Pairing) (machine other : Machine) (a a' : Addr)
    (array : ArrayDescriptor) : Prop :=
  ∃ length, machine.memory.arrayLength a = .ok length ∧ other.memory.arrayLength a' = .ok length ∧
    ∀ index : Int32, 0 ≤ index.toInt → index.toInt < length →
      ∃ value value', machine.memory.getElement a array.elementKind index = .ok value ∧
        other.memory.getElement a' array.elementKind index = .ok value' ∧
        Value.Alike pairing value value'

def SameBlock (program : Program) (pairing : Pairing) (machine other : Machine) (a a' : Addr) :
    Prop :=
  ∃ type, machine.memory.typeOf a = .ok type ∧ other.memory.typeOf a' = .ok type ∧
    ((∃ c, program.class? type = some c ∧ SameFields pairing machine other a a' c) ∨
      ∃ array, program.array? type = some array ∧ SameElements pairing machine other a a' array)

/-- Two machines cannot be told apart by what they have done since they were started. -/
structure Matches (program : Program) (first first' machine other : Machine) : Prop where
  /-- The same was written, and the same input is left. -/
  output : ∃ written, machine.console.output = first.console.output ++ written ∧
    other.console.output = first'.console.output ++ written
  input : machine.console.remaining = other.console.remaining
  depth : machine.frames.length = other.frames.length
  /-- Frames correspond up to a bijection between the blocks that are reached. -/
  frames : ∃ pairing : Pairing, pairing.left = machine.strings ∧ pairing.right = other.strings ∧
    (∀ a, Memory.Reaches program machine.memory machine.roots a ↔ ∃ a', pairing.addr a a') ∧
    (∀ a', Memory.Reaches program other.memory other.roots a' ↔ ∃ a, pairing.addr a a') ∧
    (∀ a a', pairing.addr a a' → SameBlock program pairing machine other a a') ∧
    List.Forall₂ (Frame.Alike pairing) machine.frames other.frames

variable {program : Program} {origin origin' : Origin program} {pairing : Pairing}
  {machine other : Machine}

namespace Alike

theorem sameFields (alike : Alike origin origin' pairing machine other) {a a' : Addr}
    (paired : pairing.addr a a') {type : TypeRef} (typed : machine.memory.typeOf a = .ok type)
    {c : ClassDescriptor} (known : program.class? type = some c) :
    SameFields pairing machine other a a' c := by
  intro slot mem
  rcases List.getElem?_of_mem mem with ⟨i, at_i⟩
  exact alike.getField paired typed known at_i

theorem sameElements (alike : Alike origin origin' pairing machine other) {a a' : Addr}
    (paired : pairing.addr a a') {type : TypeRef} (typed : machine.memory.typeOf a = .ok type)
    {array : ArrayDescriptor} (known : program.array? type = some array) :
    SameElements pairing machine other a a' array := by
  rcases alike.arrayLength paired typed known with ⟨length, read, read'⟩
  refine ⟨length, read, read', ?_⟩
  intro index lower upper
  rcases alike.getElement paired typed known index with ⟨length', found, outside, _⟩ | values
  · rw [read] at found
    cases found
    omega
  · exact values

theorem sameBlock (alike : Alike origin origin' pairing machine other) {a a' : Addr}
    (paired : pairing.addr a a') : SameBlock program pairing machine other a a' := by
  rcases alike.typeOf_eq paired with ⟨type, typed, typed'⟩
  refine ⟨type, typed, typed', ?_⟩
  rcases alike.objects paired typed with ⟨_, _, _, _, object, _, heap, _, _, found, _, rfl, _, _⟩
  rcases heap.lists_of_object found with ⟨header, lists, same⟩
  rcases heap.block_fits (heap.lists_iff.mp lists) with ⟨c, known, _⟩ | ⟨array, _, known, _⟩
  · rw [same] at known
    exact Or.inl ⟨c, known, alike.sameFields paired typed known⟩
  · rw [same] at known
    exact Or.inr ⟨array, known, alike.sameElements paired typed known⟩

theorem restrict (alike : Alike origin origin' pairing machine other) :
    Alike origin origin'
      (pairing.restrict (Memory.Reaches program machine.memory machine.roots)) machine other := by
  rcases alike.heaps with ⟨_, _, store, _, heap, heap', joins⟩
  have same : Memory.Reaches program machine.memory machine.roots =
      store.Reaches machine.roots := by
    funext a
    exact propext (heap.reaches_iff origin.linked.orderly)
  rw [same]
  exact { alike with
    heaps := ⟨_, _, _, _, heap, heap', joins.restrict machine.roots⟩
    frames := alike.restrict_frames fun _ => .root }

theorem reaches (alike : Alike origin origin' pairing machine other) {a : Addr}
    (reached : Memory.Reaches program machine.memory machine.roots a) :
    ∃ a', pairing.addr a a' ∧ Memory.Reaches program other.memory other.roots a' := by
  rcases alike.heaps with ⟨_, _, store, store', heap, heap', joins⟩
  rw [heap.reaches_iff origin.linked.orderly] at reached
  rcases joins.reaches (fun root mem _ => alike.root mem) reached with ⟨a', paired, reached'⟩
  exact ⟨a', paired, (heap'.reaches_iff origin.linked.orderly).mpr reached'⟩

theorem restrict_left (alike : Alike origin origin' pairing machine other) (a : Addr) :
    Memory.Reaches program machine.memory machine.roots a ↔
      ∃ a', (pairing.restrict (Memory.Reaches program machine.memory machine.roots)).addr a a' := by
  constructor
  · intro reached
    rcases alike.reaches reached with ⟨a', paired, _⟩
    exact ⟨a', paired, reached⟩
  · intro found
    rcases found with ⟨a', _, reached⟩
    exact reached

theorem restrict_right (alike : Alike origin origin' pairing machine other) (a' : Addr) :
    Memory.Reaches program other.memory other.roots a' ↔
      ∃ a, (pairing.restrict (Memory.Reaches program machine.memory machine.roots)).addr a a' := by
  constructor
  · intro reached
    rcases alike.swap.reaches reached with ⟨a, paired, reached'⟩
    exact ⟨a, paired, reached'⟩
  · intro found
    rcases found with ⟨a, paired, reached⟩
    rcases alike.reaches reached with ⟨b', paired', reached'⟩
    rw [pairing.right_unique paired paired']
    exact reached'

end Alike

/-!
## Tables of strings
-/

def Sound.now (sound : Sound origin machine) : Origin program where
  linked := origin.linked
  tagged := origin.tagged
  strings := machine.strings
  literals := by
    rcases sound with ⟨pairing, alike⟩
    rw [alike.left_strings]
    exact origin.literals.trans alike.left_grown
  output := machine.console.output

theorem Sound.since_now (sound : Sound origin machine) : Sound sound.now machine := by
  rcases sound with ⟨pairing, alike⟩
  have strings : machine.strings.Extends pairing.left := by
    rw [alike.left_strings]
    exact StringTable.extends_refl _
  have strings' : machine.strings.Extends pairing.right := by
    rw [alike.right_strings]
    exact StringTable.extends_refl _
  have consoles := alike.consoles
  refine ⟨pairing, { alike with left_grown := strings, right_grown := strings', consoles := ?_ }⟩
  refine ⟨consoles.left_lined, consoles.right_lined, rfl, "", ?_, ?_⟩
  · exact String.append_empty.symm
  · exact String.append_empty.symm

theorem cycleResult_snd (outcome : EStateM.Result Failure Machine (Option ExitStatus)) :
    (cycleResult outcome).2 = lastState outcome := by
  cases outcome with
  | ok status machine => rfl
  | error e machine => rfl

theorem act_cycle_of_returned (returns : returned (cycleResult (step machine)).1 = true)
    (rest : List Action) : act (.cycle :: rest) machine =
      ((cycleResult (step machine)).1 :: (act rest (cycleResult (step machine)).2).1,
        (act rest (cycleResult (step machine)).2).2) :=
  if_pos returns

theorem act_cycle_of_not_returned (stops : returned (cycleResult (step machine)).1 = false)
    (rest : List Action) : act (.cycle :: rest) machine =
      ([(cycleResult (step machine)).1], (cycleResult (step machine)).2) :=
  if_neg (by rw [stops]; exact Bool.false_ne_true)

theorem Sound.act (sound : Sound origin machine) (actions : List Action) :
    Sound origin (act actions machine).2 := by
  induction actions generalizing machine with
  | nil => exact sound
  | cons action rest ih =>
      cases action with
      | cycle =>
          have next : Sound origin (cycleResult (Machine.step machine)).2 := by
            rw [cycleResult_snd]
            exact sound.step.sound
          cases returns : returned (cycleResult (Machine.step machine)).1 with
          | true =>
              rw [act_cycle_of_returned returns]
              exact ih next
          | false =>
              rw [act_cycle_of_not_returned returns]
              exact next
      | collect => exact ih sound.collect.sound

theorem Sound.size_le_act (sound : Sound origin machine) (actions : List Action) :
    machine.strings.size ≤ (Machine.act actions machine).2.strings.size := by
  rcases sound.since_now.act actions with ⟨pairing, alike⟩
  have grown := alike.left_grown
  rw [← alike.left_strings] at grown
  exact grown.length_le

/-!
## Runs
-/

/-- A resource ran out, or there were more strings than indices. -/
def Exhausts (actions : List Action) (machine : Machine) : Prop :=
  ranShort (act actions machine).1 = true ∨ 2 ^ 32 < (act actions machine).2.strings.size

theorem Corresponds.collect_left (same : Corresponds origin origin' machine other) :
    Corresponds origin origin' (lastState (collectGarbage machine)) other := by
  rcases same with ⟨pairing, alike⟩
  rcases alike.collect with ⟨_, _, _, pairing', ran, alike'⟩
  rw [ran]
  exact ⟨pairing', alike'⟩

theorem Corresponds.swap (same : Corresponds origin origin' machine other) :
    Corresponds origin' origin other machine := by
  rcases same with ⟨pairing, alike⟩
  exact ⟨pairing.swap, alike.swap⟩

theorem Corresponds.collect_right (same : Corresponds origin origin' machine other) :
    Corresponds origin origin' machine (lastState (collectGarbage other)) :=
  same.swap.collect_left.swap

theorem exhausts_of_short {e : Failure} {after : Machine} (failed : step machine = .error e after)
    (short : e.IsShortage) (rest : List Action) : Exhausts (.cycle :: rest) machine := by
  left
  cases e with
  | error e =>
      cases e with
      | shortage cause =>
          have returns : returned (cycleResult (step machine)).1 = true := by rw [failed]; rfl
          rw [act_cycle_of_returned returns, failed]
          rfl
      | _ => exact absurd short id
  | endless unsaid =>
      cases short
      have stops : returned (cycleResult (step machine)).1 = false := by rw [failed]; rfl
      rw [act_cycle_of_not_returned stops, failed]
      rfl

theorem exhausts_of_crowd {status : Option ExitStatus} {after : Machine}
    (ran : step machine = .ok status after) (sound : Sound origin after)
    (crowd : 2 ^ 32 < after.strings.size) (rest : List Action) :
    Exhausts (.cycle :: rest) machine := by
  have returns : returned (cycleResult (step machine)).1 = true := by rw [ran]; rfl
  right
  rw [act_cycle_of_returned returns, ran]
  exact Nat.lt_of_lt_of_le crowd (sound.size_le_act rest)

theorem Corresponds.cycle (same : Corresponds origin origin' machine other)
    {rest rest' : List Action} (enough : ¬ Exhausts (.cycle :: rest) machine)
    (enough' : ¬ Exhausts (.cycle :: rest') other) :
    (cycleResult (step machine)).1 = (cycleResult (step other)).1 ∧
      Corresponds origin origin' (cycleResult (step machine)).2 (cycleResult (step other)).2 := by
  rcases same with ⟨pairing, alike⟩
  have settles := alike.step
  generalize left : step machine = outcome at settles ⊢
  generalize right : step other = outcome' at settles ⊢
  cases settles with
  | done both =>
      rcases both with ⟨rfl, same | ⟨crowd | crowd, sound, sound'⟩⟩
      · exact ⟨rfl, same⟩
      · exact absurd (exhausts_of_crowd left sound crowd rest) enough
      · exact absurd (exhausts_of_crowd right sound' crowd rest') enough'
  | failed _ same => exact ⟨rfl, same⟩
  | shortLeft short _ _ => exact absurd (exhausts_of_short left short rest) enough
  | shortRight short _ _ => exact absurd (exhausts_of_short right short rest') enough'
  | shortError short _ _ _ =>
      rcases short with short | short
      · exact absurd (exhausts_of_short left short rest) enough
      · exact absurd (exhausts_of_short right short rest') enough'

theorem not_exhausts_rest {rest : List Action} (enough : ¬ Exhausts (.cycle :: rest) machine)
    (returns : returned (cycleResult (step machine)).1 = true) :
    ¬ Exhausts rest (cycleResult (step machine)).2 := by
  apply mt ?_ enough
  intro either
  rw [Exhausts, act_cycle_of_returned returns]
  rcases either with short | crowd
  · left
    simp only [ranShort] at short
    simp only [ranShort, List.any_cons, short, Bool.or_true]
  · exact Or.inr crowd

/-- Two machines are run side by side, with collections at any moments. -/
theorem Corresponds.act (same : Corresponds origin origin' machine other)
    {actions actions' : List Action} (count : cycles actions = cycles actions')
    (enough : ¬ Exhausts actions machine) (enough' : ¬ Exhausts actions' other) :
    (act actions machine).1 = (Machine.act actions' other).1 ∧
      Corresponds origin origin'
        (Machine.act actions machine).2 (Machine.act actions' other).2 := by
  induction actions generalizing machine other actions' with
  | nil =>
      -- What is left on the right are collections.
      induction actions' generalizing other with
      | nil => exact ⟨rfl, same⟩
      | cons action rest ih =>
          cases action with
          | cycle => simp [cycles] at count
          | collect => exact ih same.collect_right (by simpa [cycles] using count) enough'
  | cons action rest ih =>
      cases action with
      | collect => exact ih same.collect_left (by simpa [cycles] using count) enough enough'
      | cycle =>
          -- The machine on the right goes on to its next cycle.
          induction actions' generalizing other with
          | nil => simp [cycles] at count
          | cons action' rest' ih' =>
              cases action' with
              | collect => exact ih' same.collect_right enough' (by simpa [cycles] using count)
              | cycle =>
                  rcases same.cycle enough enough' with ⟨results, same'⟩
                  cases returns : returned (cycleResult (step machine)).1 with
                  | true =>
                      have returns' := results ▸ returns
                      rcases ih same' (by simpa [cycles] using count)
                        (not_exhausts_rest enough returns) (not_exhausts_rest enough' returns') with
                        ⟨later, last⟩
                      rw [act_cycle_of_returned returns, act_cycle_of_returned returns', results,
                        later]
                      exact ⟨rfl, last⟩
                  | false =>
                      have returns' := results ▸ returns
                      rw [act_cycle_of_not_returned returns, act_cycle_of_not_returned returns',
                        results]
                      exact ⟨rfl, same'⟩

/-- Machines are alike when a method has been started on them, whatever was run before. -/
theorem Sound.started (sound : Sound origin machine) (sound' : Sound origin' other)
    (input : machine.console.remaining = other.console.remaining) {entry : MethodRef}
    {first first' : Machine} (started : Machine.start entry machine = .ok () first)
    (started' : Machine.start entry other = .ok () first') :
    Corresponds sound.now sound'.now first first' := by
  rcases start_cases entry machine with ⟨_, failed⟩ | ⟨log, ran⟩
  · rw [started] at failed
    cases failed
  · rcases start_cases entry other with ⟨_, failed⟩ | ⟨log', ran'⟩
    · rw [started'] at failed
      cases failed
    · rw [started] at ran
      rw [started'] at ran'
      cases ran
      cases ran'
      rcases id sound with ⟨pairing, alike⟩
      rcases id sound' with ⟨pairing', alike'⟩
      rcases alike.heaps with ⟨_, _, _, _, heap, _, _⟩
      rcases alike'.heaps with ⟨_, _, _, _, heap', _, _⟩
      have distinct : machine.strings.Distinct := alike.left_strings ▸ pairing.left_distinct
      have distinct' : other.strings.Distinct := alike'.left_strings ▸ pairing'.left_distinct
      have idle : Alike sound.now sound'.now (.bare _ _ distinct distinct')
          { machine with frames := [] } { other with frames := [] } :=
        ⟨alike.left_program, alike'.left_program, rfl, rfl, StringTable.extends_refl _,
          StringTable.extends_refl _, ⟨_, _, _, _, heap, heap', nofun⟩, .nil,
          alike.consoles.left_lined, alike'.consoles.left_lined, input, "",
          String.append_empty.symm, String.append_empty.symm⟩
      exact ⟨_, idle.start entry log log'⟩

/-- A cycle of a session returns if no array is made of itself. -/
theorem Reached.act_returned {image : Image} (linked : image.link = .ok program)
    (founded : ∀ ref, program.Founded ref) (reached : Reached program machine)
    (actions : List Action) : ∀ result ∈ (act actions machine).1, returned result = true := by
  induction actions generalizing machine with
  | nil =>
      intro result mem
      cases mem
  | cons action rest ih =>
      cases action with
      | collect =>
          rcases Option.isSome_iff_exists.mp (reached_returns linked founded reached .collect) with
            ⟨⟨error, after⟩, done⟩
          have next := Reached.call .collect reached done
          rw [← lastState_of_report done] at next
          exact ih next
      | cycle =>
          rcases Option.isSome_iff_exists.mp (reached_returns linked founded reached .step) with
            ⟨⟨error, after⟩, done⟩
          have next := Reached.call .step reached done
          rw [← lastState_of_report done, ← cycleResult_snd] at next
          have returns : returned (cycleResult (step machine)).1 = true := by
            rw [Call.perform] at done
            cases outcome : step machine with
            | ok status last => rfl
            | error failure last =>
                cases failure with
                | error e => rfl
                | endless unsaid =>
                    rw [outcome] at done
                    cases done
          rw [act_cycle_of_returned returns]
          intro result mem
          rcases List.mem_cons.mp mem with rfl | mem
          · exact returns
          · exact ih next result mem

/-- Neither the limits of two machines, nor collections, nor what was run before can be seen: if
neither runs short, their cycles end alike, and the machines correspond after the same number of
cycles. If no array is made of itself, then all cycles return, so those that run short report it.

An index of a string is a word, so there are no more than `2 ^ 32` strings. The tag of a block has
31 bits and the largest marks free space, so a heap can tell that many types apart. -/
theorem transparent {image : Image} {program : Program} {machine other first first' : Machine}
    {entry : MethodRef} {actions actions' : List Action} (linked : image.link = .ok program)
    (few : program.types.size < 2 ^ 31 - 1) (reached : Reached program machine)
    (reached' : Reached program other)
    (input : machine.console.remaining = other.console.remaining)
    (started : start entry machine = .ok () first)
    (started' : start entry other = .ok () first')
    (count : cycles actions = cycles actions')
    (enough : ranShort (act actions first).1 = false)
    (enough' : ranShort (act actions' first').1 = false)
    (small : (act actions first).2.strings.size ≤ 2 ^ 32)
    (small' : (act actions' first').2.strings.size ≤ 2 ^ 32) :
    (act actions first).1 = (act actions' first').1 ∧
      Matches program machine other (act actions first).2 (act actions' first').2 ∧
      ((∀ ref, program.Founded ref) →
        ∀ result ∈ (act actions first).1, returned result = true) := by
  have promises := Program.linked_of_link linked
  rcases reached.sound promises few with ⟨origin, sound⟩
  rcases reached'.sound promises few with ⟨origin', sound'⟩
  have same := sound.started sound' input started started'
  have plenty : ¬ Exhausts actions first := by
    intro either
    rcases either with short | crowd
    · rw [enough] at short
      cases short
    · omega
  have plenty' : ¬ Exhausts actions' first' := by
    intro either
    rcases either with short | crowd
    · rw [enough'] at short
      cases short
    · omega
  have done : (Call.start entry).perform machine = some (none, first) := by
    rw [Call.perform, started]
    rfl
  rcases same.act count plenty plenty' with ⟨results, pairing, alike⟩
  refine ⟨results, ⟨alike.consoles.written, alike.consoles.remaining, alike.frames.length_eq,
    pairing.restrict (Memory.Reaches program _ _), alike.left_strings.symm,
    alike.right_strings.symm, alike.restrict_left, alike.restrict_right, ?_,
    alike.restrict.frames⟩, ?_⟩
  · intro a a' paired
    exact alike.restrict.sameBlock paired
  · intro founded
    exact (Reached.call (.start entry) reached done).act_returned linked founded actions

/-- A machine with a larger heap, on which the program of nodes has been run before. -/
def usedMachine : Machine :=
  (Call.runMain 9).leaves (nodeMachine ⟨64, 5, 9⟩)

def startedMachine (machine : Machine) : Machine :=
  lastState (start ⟨7⟩ machine)

theorem start_of_report (accepted : (report (start ⟨7⟩ machine)).map Prod.fst = some none) :
    start ⟨7⟩ machine = .ok () (startedMachine machine) := by
  unfold startedMachine
  cases outcome : start ⟨7⟩ machine with
  | ok result after => rfl
  | error failure after =>
      rw [outcome] at accepted
      cases failure <;> cases accepted

def nodeActions : List Action := [.cycle, .cycle, .cycle, .cycle]

theorem transparent_usedMachine :
    nodeImage.link = .ok nodeProgram ∧ nodeProgram.types.size < 2 ^ 31 - 1 ∧
      Reached nodeProgram (nodeMachine ⟨24, 1, 2⟩) ∧ Reached nodeProgram usedMachine ∧
      usedMachine.console.output = "made" ∧
      (act nodeActions (startedMachine (nodeMachine ⟨24, 1, 2⟩))).1 =
        (act nodeActions (startedMachine usedMachine)).1 ∧
      Matches nodeProgram (nodeMachine ⟨24, 1, 2⟩) usedMachine
        (act nodeActions (startedMachine (nodeMachine ⟨24, 1, 2⟩))).2
        (act nodeActions (startedMachine usedMachine)).2 := by
  have reached : Reached nodeProgram (nodeMachine ⟨24, 1, 2⟩) :=
    reached_nodeMachine (by decide +kernel)
  have reached' : Reached nodeProgram usedMachine :=
    .leaves (.runMain 9) (reached_nodeMachine (by decide +kernel))
  have started : (report (start ⟨7⟩ (nodeMachine ⟨24, 1, 2⟩))).map Prod.fst = some none := by
    decide +kernel
  have started' : (report (start ⟨7⟩ usedMachine)).map Prod.fst = some none := by decide +kernel
  have count : cycles nodeActions = cycles nodeActions := rfl
  have both := transparent link_nodeImage (by decide) reached reached' (by decide +kernel)
    (start_of_report started) (start_of_report started') count (by decide +kernel)
    (by decide +kernel) (by decide +kernel) (by decide +kernel)
  exact ⟨link_nodeImage, by decide, reached, reached', by decide +kernel, both.1, both.2.1⟩

theorem Sound.popped (sound : Sound origin machine) {frame : Frame} {rest : List Frame}
    (top : machine.frames = frame :: rest) {value : Value} {below : List Value}
    (stack : frame.stack = value :: below) (log : Log) :
    Sound origin (machine.fetched { frame with stack := below } rest log) := by
  rcases sound with ⟨pairing, alike⟩
  have frames := alike.frames
  rw [top] at frames
  rcases List.forall₂_cons.mp frames with ⟨same, rests⟩
  have values := same.stack
  rw [stack] at values
  exact ⟨pairing, { alike with
    frames := .cons ⟨rfl, rfl, same.receiver, same.args, same.locals,
      (List.forall₂_cons.mp values).2⟩ rests }⟩

/-- A cycle that is to make an array of arrays without end does not return if the array is larger
than the heap. -/
theorem Sound.step_endless (sound : Sound origin machine) {frame : Frame} {rest : List Frame}
    {type : TypeRef} (here : machine.At frame rest ⟨.newarr, .type type⟩) {length : Int32}
    {below : List Value} (stack : frame.stack = .int length :: below) (proper : 0 ≤ length.toInt)
    {a : ArrayDescriptor} (isArray : program.array? type = some a)
    (unfounded : ¬ program.Founded a.element)
    (large : machine.memory.capacity <
      headerSize + (lengthSize + length.toInt.toNat * a.elementKind.width)) :
    ∃ unsaid after, Machine.step machine = .error (.endless unsaid) after := by
  rcases here.step_eq with ⟨log, executes⟩
  have popped : onFrame Frame.popInt (machine.fetched frame rest log) =
      .ok length (machine.fetched { frame with stack := below } rest log) := by
    refine (onFrame_eq _ rfl).trans ?_
    have taken : Frame.pop { frame with ip := frame.ip + 1 } =
        .ok (.int length) { frame with ip := frame.ip + 1, stack := below } := by
      rw [Frame.pop, stack]
    rw [Frame.popInt, bind_of_ok taken]
    rfl
  have exact := (sound.popped here.top stack log).allocateArray_exact isArray length.toInt.toNat
  rcases exact.endless.mpr ⟨not_roomy_of_capacity large, unfounded⟩ with ⟨unsaid, after, stops⟩
  refine ⟨unsaid, after, ?_⟩
  have makes : makeArray type (machine.fetched frame rest log) =
      .error (.endless unsaid) after := by
    rw [makeArray, bind_of_ok popped, if_neg (Int.not_lt.mpr proper)]
    exact bind_of_error stops
  rw [executes]
  exact bind_of_error makes

/-- An array made of itself is asked for, which fits in the larger heap only. No shortage is
reported by either machine, but one cycle does not return and the other does. -/
theorem not_transparent_endlessMachine :
    endlessImage.link = .ok endlessProgram ∧ endlessProgram.types.size < 2 ^ 31 - 1 ∧
      Reached endlessProgram (endlessMachine ⟨8, 2, 4⟩) ∧
      Reached endlessProgram (endlessMachine ⟨64, 2, 4⟩) ∧
      ∃ first first', start ⟨7⟩ (endlessMachine ⟨8, 2, 4⟩) = .ok () first ∧
        start ⟨7⟩ (endlessMachine ⟨64, 2, 4⟩) = .ok () first' ∧
        (∀ cause, .error (.error (.shortage cause)) ∉ (act [.cycle, .cycle] first).1) ∧
        (∀ cause, .error (.error (.shortage cause)) ∉ (act [.cycle, .cycle] first').1) ∧
        (act [.cycle, .cycle] first).1 ≠ (act [.cycle, .cycle] first').1 := by
  have few : endlessProgram.types.size < 2 ^ 31 - 1 := by decide
  have reached : Reached endlessProgram (endlessMachine ⟨8, 2, 4⟩) :=
    reached_endlessMachine (by decide +kernel)
  have started : (report (start ⟨7⟩ (endlessMachine ⟨8, 2, 4⟩))).map Prod.fst = some none := by
    decide +kernel
  have started' : (report (start ⟨7⟩ (endlessMachine ⟨64, 2, 4⟩))).map Prod.fst = some none := by
    decide +kernel
  have before : Reached endlessProgram (startedMachine (endlessMachine ⟨8, 2, 4⟩)) := by
    have done : (Call.start ⟨7⟩).perform (endlessMachine ⟨8, 2, 4⟩) =
        some (none, startedMachine (endlessMachine ⟨8, 2, 4⟩)) := by
      rw [Call.perform, start_of_report started]
      rfl
    exact .call (.start ⟨7⟩) reached done
  -- The length is on the stack after the first cycle.
  let counted := Call.step.leaves (startedMachine (endlessMachine ⟨8, 2, 4⟩))
  have here : counted.At (counted.frames.headD default) [] ⟨.newarr, .type ⟨4⟩⟩ :=
    ⟨by decide +kernel, (counted.program.method? ⟨7⟩).getD default, by decide +kernel,
      by decide +kernel⟩
  have stack : (counted.frames.headD default).stack = [.int 1] := by decide +kernel
  rcases (before.leaves .step).sound (Program.linked_of_link link_endlessImage) few with
    ⟨origin, sound⟩
  rcases sound.step_endless here stack (by decide) array?_endlessProgram
    Program.not_founded_endlessProgram (by decide +kernel) with ⟨unsaid, after, stops⟩
  rcases step_of_perform (show (Call.step.perform
    (startedMachine (endlessMachine ⟨8, 2, 4⟩))).map Prod.fst = some none by decide +kernel) with
    ⟨status, ran⟩
  have results : (act [.cycle, .cycle] (startedMachine (endlessMachine ⟨8, 2, 4⟩))).1 =
      [.ok status, .error (.endless unsaid)] := by
    rw [act_cycle_of_returned (by rw [ran]; rfl), ran,
      act_cycle_of_not_returned (by rw [cycleResult, stops]; rfl), cycleResult, stops]
    rfl
  have results' : (act [.cycle, .cycle] (startedMachine (endlessMachine ⟨64, 2, 4⟩))).1 =
      [.ok none, .ok none] := by decide +kernel
  refine ⟨link_endlessImage, few, reached,
    reached_endlessMachine (by decide +kernel), _, _, start_of_report started,
    start_of_report started', ?_, ?_, ?_⟩
  · rw [results]
    simp
  · rw [results']
    simp
  · rw [results, results']
    simp

end Machine
end ObjectMachine
