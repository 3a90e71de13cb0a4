import ObjectMachine.Proofs.Ancestors
import ObjectMachine.Proofs.WellFormedFrames

/-!
# Arguments of calls

A call takes its arguments by the kinds of the parameters of the method that it names. If it is
virtual, the method that it enters may be another one, which has the same name and as many
parameters, but not of the same kinds: what a method declares is left to whoever makes the image. So
the arguments are of the kinds that the method in the frame declares if it was named itself, or if
methods keep the kinds of the parameters of those that they replace.
-/

namespace ObjectMachine
namespace Program

variable {image : Image} {program : Program}

def paramKinds (program : Program) (method : MethodDescriptor) : List Kind :=
  method.params.map program.kindOf

/-- Methods of one name take the same kinds of values if the class of one is that of the other or
below it. -/
def KeepsParams (program : Program) : Prop :=
  ∀ above ∈ program.methods, ∀ below ∈ program.methods, below.name = above.name →
    ∀ base ∈ above.owner, ∀ derived ∈ below.owner, program.isSubclass derived base = true →
      program.paramKinds below = program.paramKinds above

theorem Lineage.of_append {ref type : TypeRef} {below above : List TypeRef}
    (lineage : program.Lineage ref (below ++ type :: above)) :
    program.Lineage type (type :: above) := by
  induction below generalizing ref with
  | nil =>
      cases lineage with
      | top none => exact .top none
      | link has later => exact .link has later
  | cons first below ih =>
      rw [List.cons_append] at lineage
      generalize parts : below ++ type :: above = line at lineage
      cases lineage with
      | top _ => exact absurd parts (List.append_ne_nil_of_right_ne_nil _ (List.cons_ne_nil _ _))
      | link _ later => exact ih (parts ▸ later)

/-- A virtual call leads from the method that it names to one of the same name, of a class that is
that of the named method or below it. -/
theorem replaces (linked : image.link = .ok program) {ref target : MethodRef}
    {named called : MethodDescriptor} {owner actual : TypeRef}
    (known : program.method? ref = some named) (owned : named.owner = some owner)
    (descends : program.isSubclass actual owner = true)
    (resolved : program.resolveVirtual? actual named.name = some target)
    (found : program.method? target = some called) :
    called.name = named.name ∧
      ∃ type, called.owner = some type ∧ program.isSubclass type owner = true := by
  rcases (owner_eq_some_iff linked known).mp owned with ⟨c, isClass, listed⟩
  have has := isSome_lastNamed? isClass listed known
  rw [resolveVirtual?_eq linked] at resolved
  rcases List.findSome?_eq_some_iff.mp resolved with ⟨below, type, above, line, last, nothing⟩
  rcases lastNamed?_eq_some last with ⟨c', called', isClass', listed', found', same⟩
  rw [found] at found'
  cases found'
  have later : owner ∈ type :: above := by
    have on_line := List.contains_iff_mem.mp descends
    rw [line] at on_line
    rcases List.mem_append.mp on_line with before | later
    · -- A class that has a method of the name is not gone past.
      rw [nothing owner before] at has
      cases has
    · exact later
  have lineage := lineage_chain linked actual
  rw [line] at lineage
  refine ⟨same, type, (owner_eq_some_iff linked found).mpr ⟨c', isClass', listed'⟩, ?_⟩
  exact (isSubclass_iff linked).mpr (lineage.of_append.mem_iff.mp later)

theorem KeepsParams.replaces (keeps : program.KeepsParams) (linked : image.link = .ok program)
    {ref target : MethodRef} {named called : MethodDescriptor} {owner actual : TypeRef}
    (known : program.method? ref = some named) (owned : named.owner = some owner)
    (descends : program.isSubclass actual owner = true)
    (resolved : program.resolveVirtual? actual named.name = some target)
    (found : program.method? target = some called) :
    program.paramKinds called = program.paramKinds named := by
  rcases Program.replaces linked known owned descends resolved found with
    ⟨same, type, owned', below⟩
  exact keeps named (Array.mem_of_getElem? known) called (Array.mem_of_getElem? found) same owner
    owned type owned' below

end Program

namespace Machine

variable {image : Image} {program : Program} {machine after : Machine}

/-!
## Calls that put a frame on the call stack
-/

def Calling (machine : Machine) (isVirtual : Bool) (method : MethodRef) : Prop :=
  ∃ caller rest code insn, machine.frames = caller :: rest ∧
    machine.program.method? caller.method = some code ∧ code.code[caller.ip]? = some insn ∧
    insn.opcode = (if isVirtual then .callvirt else .call) ∧ insn.operand = .method method

/-- A cycle that adds a frame gives it arguments of the kinds that its method declares. -/
def PassesDeclared (machine : Machine) : Prop :=
  ∀ status after frame callers called, step machine = .ok status after →
    after.frames = frame :: callers → callers.length = machine.frames.length →
    machine.program.method? frame.method = some called →
    frame.args.map Value.kind = machine.program.paramKinds called

end Machine

/-- An image with a class whose method replaces one that takes a number by one that takes a text. -/
def labelImage : Image where
  types := [.ofClass ⟨"Shape", none, [], [0]⟩, .ofClass ⟨"Square", some 0, [], [1]⟩]
  methods := [
    ⟨"label", none, [-3], [], [⟨.ret, .none⟩]⟩,
    ⟨"label", none, [-4], [], [⟨.ret, .none⟩]⟩,
    ⟨"Main", none, [], [], [⟨.newobj, .type 1⟩, ⟨.ldcI4, .int 7⟩, ⟨.callvirt, .method 0⟩,
      ⟨.ret, .none⟩]⟩]
  main := 2

def labelProgram : Program :=
  labelImage.link.toOption.getD default

theorem link_labelImage : labelImage.link = .ok labelProgram :=
  Except.eq_ok_getD rfl

namespace Machine

variable {image : Image} {program : Program} {machine after : Machine}

def labellingMachine : Machine :=
  (Call.runMain 2).leaves ((boot labelProgram ⟨64, 2, 4⟩ [] .off).toOption.getD default)

theorem reached_labellingMachine : Reached labelProgram labellingMachine :=
  .leaves (.runMain 2) (.boot (Except.eq_ok_getD rfl))

/-- The method of the square is given a number, though it declares a text. -/
theorem not_passesDeclared_labellingMachine :
    labelImage.link = .ok labelProgram ∧ Reached labelProgram labellingMachine ∧
      ¬ labellingMachine.PassesDeclared := by
  refine ⟨link_labelImage, reached_labellingMachine, ?_⟩
  intro declared
  let called := Call.step.leaves labellingMachine
  let frame := called.frames.headD default
  let method := (labellingMachine.program.method? frame.method).getD default
  rcases step_of_perform (show (Call.step.perform labellingMachine).map Prod.fst = some none by
    decide +kernel) with ⟨status, ran⟩
  have top : called.frames = frame :: called.frames.tail := by decide +kernel
  have pushed : called.frames.tail.length = labellingMachine.frames.length := by decide +kernel
  have known : labellingMachine.program.method? frame.method = some method := by decide +kernel
  have other : frame.args.map Value.kind ≠ labellingMachine.program.paramKinds method := by
    decide +kernel
  exact other (declared status called frame _ method ran top pushed known)

/-!
## What a call passes
-/

/-- What the arguments of a frame have to do with the method that the call named, and with the one
that the frame is for. -/
structure Passes (program : Program) (isVirtual : Bool) (named called : MethodDescriptor)
    (args : List Value) : Prop where
  kinds : args.map Value.kind = program.paramKinds named
  count : args.length = called.params.length
  direct : isVirtual = false → called = named
  /-- The kinds are those that the method of the frame declares exactly if the other one declares
  the same. -/
  declared : args.map Value.kind = program.paramKinds called ↔
    program.paramKinds called = program.paramKinds named
  kept : program.KeepsParams → args.map Value.kind = program.paramKinds called

theorem Enters.passes (linked : image.link = .ok machine.program) {entry : Entry}
    {method : MethodRef} {isVirtual : Bool} {frame : Frame} {rest : List Frame}
    (enters : Enters entry method isVirtual machine frame rest after) :
    Passes machine.program isVirtual entry.named entry.called entry.args := by
  have direct : isVirtual = false → entry.called = entry.named := by
    intro direct
    have known := enters.called
    rw [enters.direct direct, enters.named] at known
    exact (Option.some.inj known).symm
  have kept : machine.program.KeepsParams →
      machine.program.paramKinds entry.called = machine.program.paramKinds entry.named := by
    intro keeps
    cases isVirtual with
    | false => rw [direct rfl]
    | true =>
        rcases enters.virtual rfl with ⟨_, actual, typed, resolved⟩
        rcases Option.isSome_iff_exists.mp (enters.receiver.virtual rfl) with ⟨owner, owned⟩
        rcases (enters.receiver.owned owner owned).2 with ⟨actual', typed', descends⟩
        rw [typed] at typed'
        cases typed'
        exact keeps.replaces linked enters.named owned descends resolved enters.called
  refine ⟨enters.kinds, (enters.received linked).1, direct, ?_, ?_⟩
  · rw [enters.kinds]
    exact eq_comm
  · intro keeps
    rw [kept keeps]
    exact enters.kinds

/-- A cycle that adds a frame is a call, and the arguments of the new frame are of the kinds that
the method named by the call declares. -/
theorem reached_passes (linked : image.link = .ok program) (reached : Reached program machine)
    {status : Option ExitStatus} (ran : step machine = .ok status after) {frame : Frame}
    {callers : List Frame} (top : after.frames = frame :: callers)
    (pushed : callers.length = machine.frames.length) :
    ∃ isVirtual method named called, machine.Calling isVirtual method ∧
      program.method? method = some named ∧ program.method? frame.method = some called ∧
      Passes program isVirtual named called frame.args := by
  have runs : machine.program = program := by
    have tidy := reached.tidy (Program.linked_of_link linked) (Program.checkedCode_of_link linked)
    exact tidy.runs
  subst runs
  have count : after.frames.length = machine.frames.length + 1 := by
    rw [top, List.length_cons, pushed]
  rcases step_cases machine with
    ⟨e, failed⟩ | ⟨caller, rest, code, insn, log, top', known, at_ip, executes⟩
  · rw [ran] at failed
    cases failed
  · have turns := turns_step top' executes
    rw [ran] at turns
    cases turns with
    | stays within =>
        have length : after.frames.length = machine.frames.length := within.frames.length_eq
        omega
    | @enters method isVirtual entry _ opcode operand enters =>
        have frames := enters.frames
        rw [top] at frames
        cases frames
        exact ⟨isVirtual, method, entry.named, entry.called,
          ⟨caller, rest, code, insn, top', known, at_ip, opcode, operand⟩, enters.named,
          enters.called, enters.passes linked⟩
    | leaves _ _ leaves =>
        rw [leaves.frames, List.length_modifyHead, top', List.length_cons] at count
        omega

/-- A square is asked for its size with a number, which its own method declares as well. -/
theorem reached_passes_scalingMachine :
    shapeImage.link = .ok shapeProgram ∧ Reached shapeProgram scalingMachine ∧
      shapeProgram.KeepsParams ∧ ∃ status after frame callers,
        step scalingMachine = .ok status after ∧ after.frames = frame :: callers ∧
        callers.length = scalingMachine.frames.length ∧ frame.args.map Value.kind = [.int] ∧
        ∃ isVirtual method named called, scalingMachine.Calling isVirtual method ∧
          shapeProgram.method? method = some named ∧
          shapeProgram.method? frame.method = some called ∧
          Passes shapeProgram isVirtual named called frame.args := by
  let called := Call.step.leaves scalingMachine
  rcases step_of_perform (show (Call.step.perform scalingMachine).map Prod.fst = some none by
    decide +kernel) with ⟨status, ran⟩
  have keeps : shapeProgram.KeepsParams := by
    rw [Program.KeepsParams]
    decide +kernel
  have top : called.frames = called.frames.headD default :: called.frames.tail := by
    decide +kernel
  have pushed : called.frames.tail.length = scalingMachine.frames.length := by decide +kernel
  have number : (called.frames.headD default).args.map Value.kind = [.int] := by decide +kernel
  exact ⟨link_shapeImage, reached_scalingMachine, keeps, status, called, _, _, ran, top, pushed,
    number, reached_passes link_shapeImage reached_scalingMachine ran top pushed⟩

end Machine
end ObjectMachine
