import Mathlib.Order.Defs.Unbundled
import ObjectMachine.Machine.Step
import ObjectMachine.Proofs.Outcomes

/-!
# What instructions do to a frame

However an operation on a frame ends, it leaves an activation of the same method with the same
receiver. Arguments and local variables may get other values, but no values of other kinds, and the
stack does not grow beyond its capacity.
-/

namespace ObjectMachine

/-!
## Frames of one activation
-/

namespace Frame

structure Ages (frame after : Frame) : Prop where
  method : after.method = frame.method
  receiver : after.receiver = frame.receiver
  capacity : after.capacity = frame.capacity
  args : after.args.map Value.kind = frame.args.map Value.kind
  locals : after.locals.map Value.kind = frame.locals.map Value.kind
  stack : frame.stack.length ≤ frame.capacity → after.stack.length ≤ frame.capacity

instance : IsPreorder Frame Ages where
  refl _ := ⟨rfl, rfl, rfl, rfl, rfl, id⟩
  trans _ _ _ first second := by
    refine ⟨second.method.trans first.method, second.receiver.trans first.receiver,
      second.capacity.trans first.capacity, second.args.trans first.args,
      second.locals.trans first.locals, ?_⟩
    intro room
    have middle := first.stack room
    rw [← first.capacity] at middle ⊢
    exact second.stack middle

theorem ages_of_shrinks {frame : Frame} (ip : Nat) {stack : List Value}
    (shrinks : stack.length ≤ frame.stack.length) : frame.Ages { frame with ip, stack } :=
  ⟨rfl, rfl, rfl, rfl, rfl, Nat.le_trans shrinks⟩

theorem ages_push (value : Value) : Leads Ages (push value) := by
  intro frame
  unfold push
  split
  · next room => exact ⟨rfl, rfl, rfl, rfl, rfl, fun _ => room⟩
  · exact refl_of Ages frame

theorem ages_pop : Leads Ages pop := by
  intro frame
  unfold pop
  split
  · exact refl_of Ages frame
  · next rest stack =>
      apply ages_of_shrinks frame.ip
      rw [stack]
      exact Nat.le_succ _

theorem ages_top : Leads Ages top := by
  intro frame
  unfold top
  split
  · exact refl_of Ages frame
  · exact refl_of Ages frame

theorem ages_require (outcome : Except Error Unit) : Leads Ages (require outcome) := by
  cases outcome with
  | ok _ => exact .of_pure _
  | error e => exact .of_throw e

theorem ages_popKind (kind : Kind) : Leads Ages (popKind kind) :=
  ages_pop.bind fun _ => (ages_require _).bind fun _ => .of_pure _

theorem ages_popInt : Leads Ages popInt := by
  apply ages_pop.bind
  intro value
  cases value with
  | int i => exact .of_pure _
  | _ => exact .of_throw _

theorem ages_popBool : Leads Ages popBool := by
  apply ages_pop.bind
  intro value
  cases value with
  | bool b => exact .of_pure _
  | _ => exact .of_throw _

theorem ages_popChar : Leads Ages popChar := by
  apply ages_pop.bind
  intro value
  cases value with
  | char c => exact .of_pure _
  | _ => exact .of_throw _

theorem ages_popRef : Leads Ages popRef := by
  apply ages_pop.bind
  intro value
  cases value with
  | ref addr => exact .of_pure _
  | _ => exact .of_throw _

theorem ages_popAll (kinds : List Kind) : Leads Ages (popAll kinds) := by
  induction kinds with
  | nil => exact .of_pure _
  | cons kind rest ih => exact ih.bind fun _ => (ages_popKind kind).bind fun _ => .of_pure _

/-!
Values are taken from the stack, and nothing else happens to the frame.
-/

def Pops (frame after : Frame) : Prop :=
  after = { frame with stack := after.stack }

instance : IsPreorder Frame Pops where
  refl _ := rfl
  trans _ _ _ first second := by
    unfold Pops at first second ⊢
    rw [second, first]

theorem pops_pop : Leads Pops pop := by
  intro frame
  unfold pop
  split
  · exact refl_of Pops frame
  · rfl

theorem pops_popKind (kind : Kind) : Leads Pops (popKind kind) := by
  apply pops_pop.bind
  intro value
  unfold Value.check
  split
  · exact .of_pure _
  · exact .of_throw _

theorem pops_popAll (kinds : List Kind) : Leads Pops (popAll kinds) := by
  induction kinds with
  | nil => exact .of_pure _
  | cons kind rest ih => exact ih.bind fun _ => (pops_popKind kind).bind fun _ => .of_pure _

theorem ages_slot (slots : List Value) (index : Nat) : Leads Ages (slot slots index) := by
  unfold slot
  split
  · exact .of_pure _
  · exact .of_throw _

theorem store_cases (slots : List Value) (index : Nat) (value : Value) (frame : Frame) :
    (∃ e, store slots index value frame = .error e frame) ∨
      ∃ stored, store slots index value frame = .ok stored frame ∧
        stored.map Value.kind = slots.map Value.kind := by
  cases old : slots[index]? with
  | none => exact Or.inl ⟨_, by rw [store, old]; rfl⟩
  | some held =>
      have checked : store slots index value frame =
          (require (value.check held.kind) >>= fun _ => pure (slots.set index value)) frame := by
        rw [store, old]
      rw [checked, Value.check]
      by_cases kind : value.kind = held.kind
      · refine Or.inr ⟨slots.set index value, by rw [if_pos kind]; rfl, ?_⟩
        rcases List.getElem?_eq_some_iff.mp old with ⟨inside, rfl⟩
        have inside' : index < (slots.map Value.kind).length := by
          rw [List.length_map]
          exact inside
        have same : (slots.map Value.kind)[index] = value.kind := by
          rw [List.getElem_map, kind]
        rw [List.map_set, ← same, List.set_getElem_self]
      · exact Or.inl ⟨_, by rw [if_neg kind]; rfl⟩

end Frame

/-!
## Instructions on frames
-/

namespace Machine

open ObjectMachine.Frame

theorem ages_jump (offset : Int) : Leads Ages (jump offset) := by
  intro frame
  unfold jump
  simp only
  split
  · exact refl_of Ages frame
  · exact ages_of_shrinks _ (Nat.le_refl _)

theorem ages_jumpIf (wanted : Bool) (offset : Int) : Leads Ages (jumpIf wanted offset) := by
  apply ages_popBool.bind
  intro condition
  split
  · exact ages_jump offset
  · exact .of_pure _

theorem ages_arithmetic (op : Int32 → Int32 → Except Error Int32) :
    Leads Ages (arithmetic op) := by
  refine ages_popInt.bind fun right => ages_popInt.bind fun left => ?_
  split
  · exact ages_push _
  · exact .of_throw _

theorem ages_equality (wanted : Bool) : Leads Ages (equality wanted) :=
  ages_pop.bind fun _ => ages_pop.bind fun _ => (ages_require _).bind fun _ => ages_push _

theorem ages_comparison (test : Ordering → Bool) : Leads Ages (comparison test) := by
  refine ages_pop.bind fun right => ages_pop.bind fun left => ?_
  split
  · exact ages_push _
  · exact .of_throw _

theorem ages_logic (op : Bool → Bool → Bool) : Leads Ages (logic op) :=
  ages_popBool.bind fun _ => ages_popBool.bind fun _ => ages_push _

theorem ages_toChar : Leads Ages toChar := by
  apply ages_popInt.bind
  intro i
  split
  · exact ages_push _
  · exact .of_throw _

theorem ages_toInt : Leads Ages toInt :=
  ages_popChar.bind fun _ => ages_push _

theorem ages_loadLocal (index : Nat) : Leads Ages (loadLocal index) := by
  intro frame
  unfold loadLocal
  rw [get_bind]
  exact ((ages_slot frame.locals index).bind fun value => ages_push value) frame

theorem ages_loadArg (index : Nat) : Leads Ages (loadArg index) := by
  intro frame
  unfold loadArg
  rw [get_bind]
  exact ((ages_slot frame.args index).bind fun value => ages_push value) frame

theorem ages_storeLocal (index : Nat) : Leads Ages (storeLocal index) := by
  apply ages_pop.bind
  intro value frame
  rw [get_bind]
  rcases store_cases frame.locals index value frame with ⟨e, failed⟩ | ⟨stored, done, kinds⟩
  · rw [bind_of_error failed]
    exact refl_of Ages frame
  · rw [bind_of_ok done]
    exact ⟨rfl, rfl, rfl, rfl, kinds, id⟩

theorem ages_storeArg (index : Nat) : Leads Ages (storeArg index) := by
  apply ages_pop.bind
  intro value frame
  rw [get_bind]
  rcases store_cases frame.args index value frame with ⟨e, failed⟩ | ⟨stored, done, kinds⟩
  · rw [bind_of_error failed]
    exact refl_of Ages frame
  · rw [bind_of_ok done]
    exact ⟨rfl, rfl, rfl, kinds, rfl, id⟩

theorem ages_loadThis : Leads Ages loadThis := by
  intro frame
  show frame.Ages (lastState ((if frame.receiver.isNull then _ else _ : Frame.Op Unit) frame))
  split
  · exact refl_of Ages frame
  · exact ages_push _ frame

end Machine
end ObjectMachine
