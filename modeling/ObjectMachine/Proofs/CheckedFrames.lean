import ObjectMachine.Machine.Step
import ObjectMachine.Proofs.OperationErrors

/-!
# Frames that run checked code

An operation on a frame is quiet if it ends with no error that linking rules out and leaves alone
what linking has counted on: the method, the position and the number of slots.

A frame fits its method if its position is in the code or right behind it, and if it has as many
arguments and local variables as the method. Then the slots of its instructions exist, and a branch
leaves a frame that fits.
-/

namespace ObjectMachine

/-!
## Quiet operations
-/

namespace Frame

/-- What operations on a frame leave alone, unless they are branches. -/
structure Kept (frame after : Frame) : Prop where
  method : after.method = frame.method
  receiver : after.receiver = frame.receiver
  ip : after.ip = frame.ip
  args : after.args.length = frame.args.length
  locals : after.locals.length = frame.locals.length

theorem Kept.refl (frame : Frame) : frame.Kept frame :=
  ⟨rfl, rfl, rfl, rfl, rfl⟩

theorem Kept.trans {frame middle after : Frame} (first : frame.Kept middle)
    (second : middle.Kept after) : frame.Kept after :=
  ⟨second.method.trans first.method, second.receiver.trans first.receiver,
    second.ip.trans first.ip, second.args.trans first.args, second.locals.trans first.locals⟩

def QuietOn {α : Type} (watch : Watch) (frame : Frame) (op : Op α) : Prop :=
  Upholds (Error.Allowed watch) frame.Kept (fun _ => frame.Kept) (op frame)

def Quiet {α : Type} (watch : Watch) (op : Op α) : Prop :=
  ∀ frame, QuietOn watch frame op

variable {α β : Type} {watch : Watch} {frame : Frame}

theorem QuietOn.bind {x : Op α} {f : α → Op β} (first : QuietOn watch frame x)
    (rest : ∀ a, Quiet watch (f a)) : QuietOn watch frame (x >>= f) := by
  refine Upholds.bind first fun a after kept => ?_
  exact (rest a after).imp (fun _ => id) (fun _ => kept.trans) fun _ _ => kept.trans

namespace Quiet

theorem bind {x : Op α} {f : α → Op β} (first : Quiet watch x) (rest : ∀ a, Quiet watch (f a)) :
    Quiet watch (x >>= f) :=
  fun frame => (first frame).bind rest

theorem pure (a : α) : Quiet watch (pure a : Op α) :=
  Kept.refl

theorem throw {e : Error} (allowed : e.Allowed watch) : Quiet watch (throw e : Op α) :=
  fun frame => ⟨allowed, .refl frame⟩

theorem push (value : Value) : Quiet watch (push value) := by
  intro frame
  unfold QuietOn Frame.push
  split
  · exact ⟨rfl, rfl, rfl, rfl, rfl⟩
  · exact ⟨Error.allowed_of id nofun nofun, .refl frame⟩

theorem pop : Quiet watch pop := by
  intro frame
  unfold QuietOn Frame.pop
  split
  · exact ⟨Error.allowed_of id nofun nofun, .refl frame⟩
  · exact ⟨rfl, rfl, rfl, rfl, rfl⟩

theorem top : Quiet watch top := by
  intro frame
  unfold QuietOn Frame.top
  split
  · exact ⟨Error.allowed_of id nofun nofun, .refl frame⟩
  · exact .refl frame

theorem require_check (value : Value) (kind : Kind) :
    Quiet watch (require (value.check kind)) := by
  unfold Value.check
  split
  · exact .pure _
  · exact .throw (Error.allowed_of id nofun nofun)

theorem popKind (kind : Kind) : Quiet watch (popKind kind) :=
  pop.bind fun value => (require_check value kind).bind fun _ => .pure _

theorem popInt : Quiet watch popInt := by
  refine pop.bind fun value => ?_
  cases value with
  | int i => exact .pure _
  | _ => exact .throw (Error.allowed_of id nofun nofun)

theorem popBool : Quiet watch popBool := by
  refine pop.bind fun value => ?_
  cases value with
  | bool b => exact .pure _
  | _ => exact .throw (Error.allowed_of id nofun nofun)

theorem popChar : Quiet watch popChar := by
  refine pop.bind fun value => ?_
  cases value with
  | char c => exact .pure _
  | _ => exact .throw (Error.allowed_of id nofun nofun)

theorem popRef : Quiet watch popRef := by
  refine pop.bind fun value => ?_
  cases value with
  | ref addr => exact .pure _
  | _ => exact .throw (Error.allowed_of id nofun nofun)

theorem popAll (kinds : List Kind) : Quiet watch (popAll kinds) := by
  induction kinds with
  | nil => exact .pure _
  | cons kind rest ih => exact ih.bind fun _ => (popKind kind).bind fun _ => .pure _

end Quiet

theorem popKind_eq_ok {kind : Kind} {frame after : Frame} {value : Value}
    (done : popKind kind frame = .ok value after) :
    value.kind = kind ∧ frame.stack = value :: after.stack := by
  cases stack : frame.stack with
  | nil =>
      have empty : pop frame = .error (.code .emptyStack) frame := by rw [pop, stack]
      rw [popKind, bind_of_error empty] at done
      cases done
  | cons top below =>
      have taken : pop frame = .ok top { frame with stack := below } := by rw [pop, stack]
      rw [popKind, bind_of_ok taken] at done
      by_cases kind' : top.kind = kind
      · rw [Value.check, if_pos kind'] at done
        cases done
        exact ⟨kind', rfl⟩
      · rw [Value.check, if_neg kind'] at done
        cases done

/-- What is taken from a stack has the kinds that were asked for and was on the stack. -/
theorem popAll_eq_ok {kinds : List Kind} {frame after : Frame} {values : List Value}
    (done : popAll kinds frame = .ok values after) :
    values.map Value.kind = kinds ∧ frame.stack = values.reverse ++ after.stack := by
  induction kinds generalizing values after with
  | nil =>
      cases done
      exact ⟨rfl, rfl⟩
  | cons kind rest ih =>
      cases first : popAll rest frame with
      | error e middle =>
          rw [popAll, bind_of_error first] at done
          cases done
      | ok later middle =>
          rw [popAll, bind_of_ok first] at done
          rcases ih first with ⟨kinds, stack⟩
          cases second : popKind kind middle with
          | error e last =>
              rw [bind_of_error second] at done
              cases done
          | ok value last =>
              rw [bind_of_ok second] at done
              cases done
              rcases popKind_eq_ok second with ⟨kind', stack'⟩
              exact ⟨by rw [List.map_cons, kind', kinds], by rw [stack, stack']; simp⟩

end Frame

/-!
## Frames and their methods
-/

namespace Frame

structure FitsMethod (watch : Watch) (method : MethodDescriptor) (frame : Frame) : Prop where
  ip : frame.ip ≤ method.code.size
  args : frame.args.length = method.params.length
  locals : frame.locals.length = method.locals.length
  receiver : watch.receivers → method.owner.isSome → frame.receiver ≠ .null

def Fits (watch : Watch) (program : Program) (frame : Frame) : Prop :=
  ∃ method, program.method? frame.method = some method ∧ frame.FitsMethod watch method

variable {watch : Watch} {program : Program} {frame after : Frame}

theorem Kept.fits (kept : frame.Kept after) (fits : frame.Fits watch program) :
    after.Fits watch program := by
  rcases fits with ⟨method, known, fits⟩
  refine ⟨method, by rw [kept.method]; exact known, ?_, ?_, ?_, ?_⟩
  · rw [kept.ip]
    exact fits.ip
  · rw [kept.args]
    exact fits.args
  · rw [kept.locals]
    exact fits.locals
  · rw [kept.receiver]
    exact fits.receiver

theorem fits_enter {target : MethodRef} {called : MethodDescriptor} {receiver : Addr}
    {args : List Value} (known : program.method? target = some called)
    (count : args.length = called.params.length)
    (received : watch.receivers → called.owner.isSome → receiver ≠ .null) (capacity : Nat) :
    (Frame.enter program target receiver args capacity).Fits watch program := by
  refine ⟨called, known, Nat.zero_le _, count, ?_, received⟩
  simp [Frame.enter, known]

/-!
## Instructions on frames
-/

theorem quiet_arithmetic {op : Int32 → Int32 → Except Error Int32}
    (errors : ∀ a b e, op a b = .error e → e.Allowed watch) :
    Quiet watch (Machine.arithmetic op) := by
  refine Quiet.popInt.bind fun right => Quiet.popInt.bind fun left => ?_
  split
  · exact .push _
  · next e failed => exact .throw (errors left right e failed)

theorem quiet_calculation (op : Int32 → Int32 → Int32) :
    Quiet watch (Machine.arithmetic fun a b => .ok (op a b)) := by
  apply quiet_arithmetic
  intro a b e failed
  cases failed

theorem quiet_division (op : Int32 → Int32 → Int32) :
    Quiet watch (Machine.arithmetic (Machine.nonzero op)) := by
  apply quiet_arithmetic
  intro a b e failed
  unfold Machine.nonzero at failed
  split at failed
  · cases failed
    exact Error.allowed_of id nofun nofun
  · cases failed

theorem quiet_equality (wanted : Bool) : Quiet watch (Machine.equality wanted) :=
  Quiet.pop.bind fun right => Quiet.pop.bind fun left =>
    (Quiet.require_check right left.kind).bind fun _ => .push _

theorem quiet_comparison (test : Ordering → Bool) : Quiet watch (Machine.comparison test) := by
  refine Quiet.pop.bind fun right => Quiet.pop.bind fun left => ?_
  split
  · exact .push _
  · exact .throw (Error.allowed_of id nofun nofun)

theorem quiet_logic (op : Bool → Bool → Bool) : Quiet watch (Machine.logic op) :=
  Quiet.popBool.bind fun _ => Quiet.popBool.bind fun _ => .push _

theorem quiet_toChar : Quiet watch Machine.toChar := by
  refine Quiet.popInt.bind fun i => ?_
  split
  · exact .push _
  · exact .throw (Error.allowed_of id (by simp) (by simp))

theorem quiet_toInt : Quiet watch Machine.toInt :=
  Quiet.popChar.bind fun _ => .push _

theorem quiet_slot {slots : List Value} {index : Nat} (inside : index < slots.length) :
    Quiet watch (slot slots index) := by
  unfold slot
  rw [List.getElem?_eq_getElem inside]
  exact .pure _

theorem quietOn_loadLocal {index : Nat} (inside : index < frame.locals.length) :
    QuietOn watch frame (Machine.loadLocal index) := by
  have loaded : Quiet watch (slot frame.locals index >>= fun value => push value) :=
    (quiet_slot inside).bind fun _ => .push _
  unfold QuietOn Machine.loadLocal
  rw [get_bind]
  exact loaded frame

theorem quietOn_loadArg {index : Nat} (inside : index < frame.args.length) :
    QuietOn watch frame (Machine.loadArg index) := by
  have loaded : Quiet watch (slot frame.args index >>= fun value => push value) :=
    (quiet_slot inside).bind fun _ => .push _
  unfold QuietOn Machine.loadArg
  rw [get_bind]
  exact loaded frame

theorem store_upholds {slots : List Value} {index : Nat} (value : Value)
    (inside : index < slots.length) (frame : Frame) :
    Upholds (Error.Allowed watch) frame.Kept
      (fun stored after => stored.length = slots.length ∧ frame.Kept after)
      (store slots index value frame) := by
  unfold store
  rw [List.getElem?_eq_getElem inside]
  refine Upholds.bind (Quiet.require_check value _ frame) fun _ after kept => ?_
  exact ⟨List.length_set, kept⟩

theorem quietOn_storeLocal {index : Nat} (inside : index < frame.locals.length) :
    QuietOn watch frame (Machine.storeLocal index) := by
  refine Upholds.bind (Quiet.pop frame) fun value middle kept => ?_
  have inside' : index < middle.locals.length := by rw [kept.locals]; exact inside
  refine ((store_upholds value inside' middle).imp (fun _ => id) (fun _ => kept.trans)
    fun _ _ => id).bind fun stored after both => ?_
  rcases both with ⟨length, kept'⟩
  have whole := kept.trans kept'
  exact ⟨whole.method, whole.receiver, whole.ip, whole.args, length.trans kept.locals⟩

theorem quietOn_storeArg {index : Nat} (inside : index < frame.args.length) :
    QuietOn watch frame (Machine.storeArg index) := by
  refine Upholds.bind (Quiet.pop frame) fun value middle kept => ?_
  have inside' : index < middle.args.length := by rw [kept.args]; exact inside
  refine ((store_upholds value inside' middle).imp (fun _ => id) (fun _ => kept.trans)
    fun _ _ => id).bind fun stored after both => ?_
  rcases both with ⟨length, kept'⟩
  have whole := kept.trans kept'
  exact ⟨whole.method, whole.receiver, whole.ip, length.trans kept.args, whole.locals⟩

theorem quietOn_loadThis (received : watch.receivers → frame.receiver ≠ .null) :
    QuietOn watch frame Machine.loadThis := by
  show Upholds _ _ _ ((if frame.receiver.isNull then _ else _ : Op Unit) frame)
  split
  · next null =>
      refine ⟨?_, .refl frame⟩
      intro forbidden
      rcases forbidden with ruledOut | ⟨_, _, same⟩ | ⟨watched, _⟩
      · exact ruledOut
      · cases same
      · exact received watched (eq_of_beq null)
  · exact Quiet.push _ frame

theorem jump_upholds {method : MethodDescriptor}
    (known : program.method? frame.method = some method) (fits : frame.FitsMethod watch method)
    {offset : Int} (lower : 0 ≤ frame.ip + offset) (upper : frame.ip + offset < method.code.size) :
    Upholds (Error.Allowed watch) (Fits watch program) (fun _ => Fits watch program)
      (Machine.jump offset frame) := by
  unfold Machine.jump
  rw [if_neg (by omega)]
  refine ⟨method, known, ?_, fits.args, fits.locals, fits.receiver⟩
  simp only
  omega

theorem jumpIf_upholds {method : MethodDescriptor}
    (known : program.method? frame.method = some method) (fits : frame.FitsMethod watch method)
    (wanted : Bool) {offset : Int} (lower : 0 ≤ frame.ip + offset)
    (upper : frame.ip + offset < method.code.size) :
    Upholds (Error.Allowed watch) (Fits watch program) (fun _ => Fits watch program)
      (Machine.jumpIf wanted offset frame) := by
  have whole : frame.Fits watch program := ⟨method, known, fits⟩
  have popped : Upholds (Error.Allowed watch) (Fits watch program) (fun _ => frame.Kept)
      (popBool frame) :=
    (Quiet.popBool frame).imp (fun _ => id) (fun _ kept => kept.fits whole) fun _ _ => id
  refine popped.bind fun condition after kept => ?_
  split
  · refine jump_upholds (by rw [kept.method]; exact known) ⟨?_, ?_, ?_, ?_⟩ ?_ ?_
    · rw [kept.ip]
      exact fits.ip
    · rw [kept.args]
      exact fits.args
    · rw [kept.locals]
      exact fits.locals
    · rw [kept.receiver]
      exact fits.receiver
    · rw [kept.ip]
      exact lower
    · rw [kept.ip]
      exact upper
  · exact kept.fits whole

end Frame

end ObjectMachine
