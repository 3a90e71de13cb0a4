import Mathlib.Data.List.Forall2
import ObjectMachine.Machine.Step
import ObjectMachine.Proofs.Agreement
import ObjectMachine.Proofs.Interning

/-!
# Pairings

Two machines may run the same program with their objects at different addresses and their strings at
different indices. A pairing says which addresses correspond, one to one; strings correspond if
their texts are equal. Values correspond if they are equal up to the pairing, and frames if they are
at the same place with corresponding values. What an instruction does to a frame alone respects
that.
-/

namespace ObjectMachine

/-!
## Lists that correspond
-/

section Lists

variable {α β : Type} {related : α → β → Prop} {front : List α} {back : List β}

theorem forall₂_diagonal {same : α → α → Prop} (all : List.Forall₂ related front back)
    (reflects : ∀ a b, related a b → same a a) : List.Forall₂ same front front := by
  induction all with
  | nil => exact .nil
  | cons head _ ih => exact .cons (reflects _ _ head) ih

theorem forall₂_imp_of_mem {other : α → β → Prop} (all : List.Forall₂ related front back)
    (implies : ∀ a ∈ front, ∀ b ∈ back, related a b → other a b) :
    List.Forall₂ other front back := by
  induction all with
  | nil => exact .nil
  | cons head _ ih =>
      refine .cons (implies _ List.mem_cons_self _ List.mem_cons_self head) (ih ?_)
      intro a mem b mem'
      exact implies a (List.mem_cons_of_mem _ mem) b (List.mem_cons_of_mem _ mem')

theorem forall₂_exists_of_mem (all : List.Forall₂ related front back) {a : α} (mem : a ∈ front) :
    ∃ b ∈ back, related a b := by
  induction all with
  | nil => cases mem
  | cons head _ ih =>
      rcases List.mem_cons.mp mem with rfl | mem
      · exact ⟨_, List.mem_cons_self, head⟩
      · rcases ih mem with ⟨b, mem', same⟩
        exact ⟨b, List.mem_cons_of_mem _ mem', same⟩

end Lists

/-!
## Strings and addresses
-/

/-- Two string tables, and addresses that correspond one to one. -/
structure Pairing where
  left : StringTable
  right : StringTable
  left_distinct : left.Distinct
  right_distinct : right.Distinct
  addr : Addr → Addr → Prop
  proper : ∀ {a a' : Addr}, addr a a' → a ≠ .null ∧ a' ≠ .null
  right_unique : ∀ {a a' b' : Addr}, addr a a' → addr a b' → a' = b'
  left_unique : ∀ {a b a' : Addr}, addr a a' → addr b a' → a = b

namespace Pairing

variable {pairing : Pairing} {r r' q q' : StrRef} {a a' b b' : Addr}

def str (pairing : Pairing) (r r' : StrRef) : Prop :=
  ∃ text, pairing.left.get? r = some text ∧ pairing.right.get? r' = some text

def ref (pairing : Pairing) (a a' : Addr) : Prop :=
  (a = .null ∧ a' = .null) ∨ pairing.addr a a'

theorem str_iff (first : pairing.str r r') (second : pairing.str q q') : r = q ↔ r' = q' := by
  rcases first with ⟨text, left, right⟩
  rcases second with ⟨text', left', right'⟩
  rw [pairing.left_distinct.eq_iff left left', pairing.right_distinct.eq_iff right right']

theorem ref_null (same : pairing.ref a a') : a = .null ↔ a' = .null := by
  rcases same with ⟨left, right⟩ | same
  · simp [left, right]
  · simp [(pairing.proper same).1, (pairing.proper same).2]

theorem ref_isNull (same : pairing.ref a a') : a'.isNull = a.isNull := by
  simp only [Addr.isNull, Bool.beq_eq_decide_eq, ref_null same]

theorem addr_of_ref (same : pairing.ref a a') (proper : a.isNull = false) :
    pairing.addr a a' := by
  rcases same with ⟨rfl, _⟩ | same
  · cases proper
  · exact same

theorem ref_iff (first : pairing.ref a a') (second : pairing.ref b b') : a = b ↔ a' = b' := by
  rcases first with ⟨rfl, rfl⟩ | paired
  · rw [eq_comm, ref_null second, eq_comm]
  · rcases second with ⟨rfl, rfl⟩ | paired'
    · exact ref_null (Or.inr paired)
    · constructor
      · intro same
        subst same
        exact pairing.right_unique paired paired'
      · intro same
        subst same
        exact pairing.left_unique paired paired'

end Pairing

/-!
## Values
-/

/-- Values that are equal up to a pairing. -/
inductive Value.Alike (pairing : Pairing) : Value → Value → Prop where
  | bool (b : Bool) : Alike pairing (.bool b) (.bool b)
  | char (c : Char) : Alike pairing (.char c) (.char c)
  | int (i : Int32) : Alike pairing (.int i) (.int i)
  | str {r r' : StrRef} : pairing.str r r' → Alike pairing (.str r) (.str r')
  | ref {a a' : Addr} : pairing.ref a a' → Alike pairing (.ref a) (.ref a')

abbrev ValuesAlike (pairing : Pairing) : List Value → List Value → Prop :=
  List.Forall₂ (Value.Alike pairing)

namespace Value.Alike

variable {pairing other : Pairing} {value value' more more' : Value}

theorem kind_eq (alike : Alike pairing value value') : value'.kind = value.kind := by
  cases alike <;> rfl

theorem check_eq (alike : Alike pairing value value') (kind : Kind) :
    value'.check kind = value.check kind := by
  rw [Value.check, Value.check, alike.kind_eq]

/-- Equality of values does not depend on where objects and strings are kept. -/
theorem eq_iff (alike : Alike pairing value value') (alike' : Alike pairing more more') :
    value = more ↔ value' = more' := by
  cases alike with
  | str same =>
      cases alike' with
      | str same' => simpa using Pairing.str_iff same same'
      | _ => simp
  | ref same =>
      cases alike' with
      | ref same' => simpa using Pairing.ref_iff same same'
      | _ => simp
  | _ => cases alike' <;> simp

theorem compareValues?_eq (alike : Alike pairing value value')
    (alike' : Alike pairing more more') :
    Machine.compareValues? value' more' = Machine.compareValues? value more := by
  cases alike <;> cases alike' <;> rfl

/-- The address of a reference matters for a change of the pairing, and no other. -/
theorem map (alike : Alike pairing value value')
    (strings : ∀ {r r' : StrRef}, pairing.str r r' → other.str r r')
    (addrs : ∀ {a a' : Addr}, value = .ref a → value' = .ref a' → pairing.addr a a' →
      other.addr a a') : Alike other value value' := by
  cases alike with
  | bool b => exact .bool b
  | char c => exact .char c
  | int i => exact .int i
  | str same => exact .str (strings same)
  | ref same =>
      rcases same with null | same
      · exact .ref (Or.inl null)
      · exact .ref (Or.inr (addrs rfl rfl same))

end Value.Alike

namespace ValuesAlike

variable {pairing : Pairing} {values values' : List Value}

theorem getElem?_cases (alike : ValuesAlike pairing values values') (i : Nat) :
    (values[i]? = none ∧ values'[i]? = none) ∨
      ∃ value value', values[i]? = some value ∧ values'[i]? = some value' ∧
        Value.Alike pairing value value' := by
  induction alike generalizing i with
  | nil => exact Or.inl ⟨rfl, rfl⟩
  | cons same _ ih =>
      cases i with
      | zero => exact Or.inr ⟨_, _, rfl, rfl, same⟩
      | succ i => exact ih i

theorem of_getElem? (alike : ValuesAlike pairing values values') {i : Nat} {value value' : Value}
    (at_i : values[i]? = some value) (at_i' : values'[i]? = some value') :
    Value.Alike pairing value value' := by
  rcases alike.getElem?_cases i with ⟨none, _⟩ | ⟨found, found', some, some', same⟩
  · rw [at_i] at none
    cases none
  · rw [at_i] at some
    rw [at_i'] at some'
    cases some
    cases some'
    exact same

theorem set (alike : ValuesAlike pairing values values') (i : Nat) {value value' : Value}
    (same : Value.Alike pairing value value') :
    ValuesAlike pairing (values.set i value) (values'.set i value') := by
  induction alike generalizing i with
  | nil => exact .nil
  | cons head tail ih =>
      cases i with
      | zero => exact .cons same tail
      | succ i => exact .cons head (ih i)

end ValuesAlike

/-!
## Frames
-/

structure Frame.Alike (pairing : Pairing) (frame other : Frame) : Prop where
  method : other.method = frame.method
  ip : other.ip = frame.ip
  receiver : pairing.ref frame.receiver other.receiver
  args : ValuesAlike pairing frame.args other.args
  locals : ValuesAlike pairing frame.locals other.locals
  stack : ValuesAlike pairing frame.stack other.stack

def Frame.Matched (pairing : Pairing) (frame other : Frame) : Prop :=
  (∃ partner, Frame.Alike pairing frame partner) ∧ ∃ partner, Frame.Alike pairing partner other

/-- Operations on corresponding frames that end in the same way, with results that are related. -/
abbrev FramesAgree {α : Type} (pairing : Pairing) (related : α → α → Prop) :
    EStateM.Result Error Frame α → EStateM.Result Error Frame α → Prop :=
  Agree (fun a b frame other => related a b ∧ Frame.Alike pairing frame other)
    (Frame.Alike pairing) Never

abbrev FramesSettle (pairing : Pairing) :
    EStateM.Result Error Frame Unit → EStateM.Result Error Frame Unit → Prop :=
  Agree (fun _ _ => Frame.Alike pairing) (Frame.Alike pairing) (Frame.Matched pairing)

namespace Frame.Alike

variable {pairing : Pairing} {frame other : Frame} {value value' : Value}

theorem push (alike : Frame.Alike pairing frame other) (same : Value.Alike pairing value value') :
    FramesSettle pairing (push value frame) (Frame.push value' other) := by
  have pushed : Frame.Alike pairing { frame with stack := value :: frame.stack }
      { other with stack := value' :: other.stack } :=
    ⟨alike.method, alike.ip, alike.receiver, alike.args, alike.locals, .cons same alike.stack⟩
  unfold Frame.push
  split
  · split
    · exact .done pushed
    · exact .shortRight trivial id ⟨⟨_, pushed⟩, ⟨_, alike⟩⟩
  · split
    · exact .shortLeft trivial id ⟨⟨_, alike⟩, ⟨_, pushed⟩⟩
    · exact .shortError (Or.inl trivial) id id ⟨⟨_, alike⟩, ⟨_, alike⟩⟩

theorem pop (alike : Frame.Alike pairing frame other) :
    FramesAgree pairing (Value.Alike pairing) (pop frame) (Frame.pop other) := by
  have tops := alike.stack
  unfold Frame.pop
  cases stack : frame.stack with
  | nil =>
      rw [stack] at tops
      rw [List.forall₂_nil_left_iff.mp tops]
      exact .failed id alike
  | cons value rest =>
      rw [stack] at tops
      rcases List.forall₂_cons_left_iff.mp tops with ⟨value', rest', same, rests, stack'⟩
      rw [stack']
      exact .done ⟨same, alike.method, alike.ip, alike.receiver, alike.args, alike.locals, rests⟩

theorem top (alike : Frame.Alike pairing frame other) :
    FramesAgree pairing (Value.Alike pairing) (top frame) (Frame.top other) := by
  have tops := alike.stack
  unfold Frame.top
  cases stack : frame.stack with
  | nil =>
      rw [stack] at tops
      rw [List.forall₂_nil_left_iff.mp tops]
      exact .failed id alike
  | cons value rest =>
      rw [stack] at tops
      rcases List.forall₂_cons_left_iff.mp tops with ⟨value', rest', same, _, stack'⟩
      rw [stack']
      exact .done ⟨same, alike⟩

theorem require (alike : Frame.Alike pairing frame other) (same : Value.Alike pairing value value')
    (kind : Kind) :
    FramesAgree pairing (fun _ _ => value.kind = kind) (require (value.check kind) frame)
      (Frame.require (value'.check kind) other) := by
  rw [same.check_eq, Value.check]
  split
  · next kind => exact .done ⟨kind, alike⟩
  · exact .failed id alike

theorem popKind (alike : Frame.Alike pairing frame other) (kind : Kind) :
    FramesAgree pairing (fun value value' => Value.Alike pairing value value' ∧ value.kind = kind)
      (popKind kind frame) (Frame.popKind kind other) := by
  apply alike.pop.bind
  intro value value' frame other both
  rcases both with ⟨same, alike⟩
  apply (alike.require same kind).bind
  intro _ _ frame other both
  rcases both with ⟨kind, alike⟩
  exact .done ⟨⟨same, kind⟩, alike⟩

theorem popInt (alike : Frame.Alike pairing frame other) :
    FramesAgree pairing Eq (popInt frame) (Frame.popInt other) := by
  apply alike.pop.bind
  intro value value' frame other both
  rcases both with ⟨same, alike⟩
  cases same with
  | int i => exact .done ⟨rfl, alike⟩
  | _ => exact .failed id alike

theorem popBool (alike : Frame.Alike pairing frame other) :
    FramesAgree pairing Eq (popBool frame) (Frame.popBool other) := by
  apply alike.pop.bind
  intro value value' frame other both
  rcases both with ⟨same, alike⟩
  cases same with
  | bool b => exact .done ⟨rfl, alike⟩
  | _ => exact .failed id alike

theorem popChar (alike : Frame.Alike pairing frame other) :
    FramesAgree pairing Eq (popChar frame) (Frame.popChar other) := by
  apply alike.pop.bind
  intro value value' frame other both
  rcases both with ⟨same, alike⟩
  cases same with
  | char c => exact .done ⟨rfl, alike⟩
  | _ => exact .failed id alike

theorem popRef (alike : Frame.Alike pairing frame other) :
    FramesAgree pairing pairing.ref (popRef frame) (Frame.popRef other) := by
  apply alike.pop.bind
  intro value value' frame other both
  rcases both with ⟨same, alike⟩
  cases same with
  | ref paired => exact .done ⟨paired, alike⟩
  | _ => exact .failed id alike

theorem popAll (alike : Frame.Alike pairing frame other) (kinds : List Kind) :
    FramesAgree pairing
      (fun values values' => ValuesAlike pairing values values' ∧ values.map Value.kind = kinds)
      (popAll kinds frame) (Frame.popAll kinds other) := by
  induction kinds generalizing frame other with
  | nil => exact .done ⟨⟨.nil, rfl⟩, alike⟩
  | cons kind kinds ih =>
      apply (ih alike).bind
      intro later later' frame other both
      rcases both with ⟨⟨rest, rests⟩, alike⟩
      apply (alike.popKind kind).bind
      intro value value' frame other both
      rcases both with ⟨⟨same, kind⟩, alike⟩
      refine .done ⟨⟨.cons same rest, ?_⟩, alike⟩
      rw [List.map_cons, kind, rests]

theorem slot (alike : Frame.Alike pairing frame other) {slots slots' : List Value}
    (same : ValuesAlike pairing slots slots') (index : Nat) :
    FramesAgree pairing (Value.Alike pairing) (slot slots index frame)
      (Frame.slot slots' index other) := by
  unfold Frame.slot
  rcases same.getElem?_cases index with ⟨none, none'⟩ | ⟨value, value', some, some', same⟩
  · rw [none, none']
    exact .failed id alike
  · rw [some, some']
    exact .done ⟨same, alike⟩

theorem store (alike : Frame.Alike pairing frame other) {slots slots' : List Value}
    (same : ValuesAlike pairing slots slots') (index : Nat)
    (stored : Value.Alike pairing value value') :
    FramesAgree pairing (ValuesAlike pairing) (store slots index value frame)
      (Frame.store slots' index value' other) := by
  unfold Frame.store
  rcases same.getElem?_cases index with ⟨none, none'⟩ | ⟨old, old', some, some', olds⟩
  · rw [none, none']
    exact .failed id alike
  · simp only [some, some', olds.kind_eq]
    apply (alike.require stored old.kind).bind
    intro _ _ frame other both
    rcases both with ⟨_, alike⟩
    exact .done ⟨same.set index stored, alike⟩

/-!
## Effects on a frame
-/

theorem jump (alike : Frame.Alike pairing frame other) (offset : Int) :
    FramesSettle pairing (Machine.jump offset frame) (Machine.jump offset other) := by
  by_cases before : (frame.ip : Int) + offset < 0
  · simp only [Machine.jump, alike.ip, if_pos before]
    exact .failed id alike
  · simp only [Machine.jump, alike.ip, if_neg before]
    exact .done ⟨alike.method, rfl, alike.receiver, alike.args, alike.locals, alike.stack⟩

theorem jumpIf (alike : Frame.Alike pairing frame other) (wanted : Bool) (offset : Int) :
    FramesSettle pairing (Machine.jumpIf wanted offset frame)
      (Machine.jumpIf wanted offset other) := by
  apply alike.popBool.bind
  intro condition _ frame other both
  rcases both with ⟨rfl, alike⟩
  by_cases met : condition = wanted
  · simp only [if_pos met]
    exact alike.jump offset
  · simp only [if_neg met]
    exact .done alike

theorem arithmetic (alike : Frame.Alike pairing frame other)
    {op : Int32 → Int32 → Except Error Int32} (safe : ∀ left right e, op left right = .error e →
      ¬ e.IsCorruption) :
    FramesSettle pairing (Machine.arithmetic op frame) (Machine.arithmetic op other) := by
  apply alike.popInt.bind
  intro right _ frame other both
  rcases both with ⟨rfl, alike⟩
  apply alike.popInt.bind
  intro left _ frame other both
  rcases both with ⟨rfl, alike⟩
  cases outcome : op left right with
  | ok value => exact alike.push (.int value)
  | error e => exact .failed (safe left right e outcome) alike

theorem calculation (alike : Frame.Alike pairing frame other) (op : Int32 → Int32 → Int32) :
    FramesSettle pairing (Machine.arithmetic (fun left right => .ok (op left right)) frame)
      (Machine.arithmetic (fun left right => .ok (op left right)) other) := by
  apply alike.arithmetic
  intro left right e failed
  cases failed

theorem division (alike : Frame.Alike pairing frame other) (op : Int32 → Int32 → Int32) :
    FramesSettle pairing (Machine.arithmetic (Machine.nonzero op) frame)
      (Machine.arithmetic (Machine.nonzero op) other) := by
  apply alike.arithmetic
  intro left right e failed
  unfold Machine.nonzero at failed
  split at failed
  · cases failed
    exact id
  · cases failed

theorem equality (alike : Frame.Alike pairing frame other) (wanted : Bool) :
    FramesSettle pairing (Machine.equality wanted frame) (Machine.equality wanted other) := by
  apply alike.pop.bind
  intro right right' frame other both
  rcases both with ⟨same, alike⟩
  apply alike.pop.bind
  intro left left' frame other both
  rcases both with ⟨same', alike⟩
  simp only [same'.kind_eq]
  apply (alike.require same left.kind).bind
  intro _ _ frame other both
  rcases both with ⟨_, alike⟩
  simp only [same'.eq_iff same]
  exact alike.push (.bool _)

theorem comparison (alike : Frame.Alike pairing frame other) (test : Ordering → Bool) :
    FramesSettle pairing (Machine.comparison test frame) (Machine.comparison test other) := by
  apply alike.pop.bind
  intro right right' frame other both
  rcases both with ⟨same, alike⟩
  apply alike.pop.bind
  intro left left' frame other both
  rcases both with ⟨same', alike⟩
  simp only [same'.compareValues?_eq same, same.kind_eq, same'.kind_eq]
  cases Machine.compareValues? left right with
  | some ordering => exact alike.push (.bool _)
  | none => exact .failed id alike

theorem logic (alike : Frame.Alike pairing frame other) (op : Bool → Bool → Bool) :
    FramesSettle pairing (Machine.logic op frame) (Machine.logic op other) := by
  apply alike.popBool.bind
  intro right _ frame other both
  rcases both with ⟨rfl, alike⟩
  apply alike.popBool.bind
  intro left _ frame other both
  rcases both with ⟨rfl, alike⟩
  exact alike.push (.bool _)

theorem toChar (alike : Frame.Alike pairing frame other) :
    FramesSettle pairing (Machine.toChar frame) (Machine.toChar other) := by
  apply alike.popInt.bind
  intro i _ frame other both
  rcases both with ⟨rfl, alike⟩
  cases Word.toChar? i.toUInt32 with
  | some c => exact alike.push (.char c)
  | none => exact .failed id alike

theorem toInt (alike : Frame.Alike pairing frame other) :
    FramesSettle pairing (Machine.toInt frame) (Machine.toInt other) := by
  apply alike.popChar.bind
  intro c _ frame other both
  rcases both with ⟨rfl, alike⟩
  exact alike.push (.int _)

theorem loadLocal (alike : Frame.Alike pairing frame other) (index : Nat) :
    FramesSettle pairing (Machine.loadLocal index frame) (Machine.loadLocal index other) := by
  apply (alike.slot alike.locals index).bind
  intro value value' frame other both
  rcases both with ⟨same, alike⟩
  exact alike.push same

theorem storeLocal (alike : Frame.Alike pairing frame other) (index : Nat) :
    FramesSettle pairing (Machine.storeLocal index frame) (Machine.storeLocal index other) := by
  apply alike.pop.bind
  intro value value' frame other both
  rcases both with ⟨same, alike⟩
  apply (alike.store alike.locals index same).bind
  intro locals locals' frame other both
  rcases both with ⟨stored, alike⟩
  exact .done ⟨alike.method, alike.ip, alike.receiver, alike.args, stored, alike.stack⟩

theorem loadArg (alike : Frame.Alike pairing frame other) (index : Nat) :
    FramesSettle pairing (Machine.loadArg index frame) (Machine.loadArg index other) := by
  apply (alike.slot alike.args index).bind
  intro value value' frame other both
  rcases both with ⟨same, alike⟩
  exact alike.push same

theorem storeArg (alike : Frame.Alike pairing frame other) (index : Nat) :
    FramesSettle pairing (Machine.storeArg index frame) (Machine.storeArg index other) := by
  apply alike.pop.bind
  intro value value' frame other both
  rcases both with ⟨same, alike⟩
  apply (alike.store alike.args index same).bind
  intro args args' frame other both
  rcases both with ⟨stored, alike⟩
  exact .done ⟨alike.method, alike.ip, alike.receiver, stored, alike.locals, alike.stack⟩

theorem loadThis (alike : Frame.Alike pairing frame other) :
    FramesSettle pairing (Machine.loadThis frame) (Machine.loadThis other) := by
  have null := Pairing.ref_isNull alike.receiver
  cases isNull : frame.receiver.isNull with
  | true =>
      rw [isNull] at null
      rw [Machine.loadThis, get_bind, get_bind]
      simp only [isNull, null, if_true]
      exact .failed id alike
  | false =>
      rw [isNull] at null
      rw [Machine.loadThis, get_bind, get_bind]
      simp only [isNull, null, Bool.false_eq_true, if_false]
      exact alike.push (.ref alike.receiver)

theorem negate (alike : Frame.Alike pairing frame other) :
    FramesSettle pairing ((Frame.popInt >>= fun value => Frame.push (.int (-value))) frame)
      ((Frame.popInt >>= fun value => Frame.push (.int (-value))) other) := by
  apply alike.popInt.bind
  intro value _ frame other both
  rcases both with ⟨rfl, alike⟩
  exact alike.push (.int _)

theorem negation (alike : Frame.Alike pairing frame other) :
    FramesSettle pairing ((Frame.popBool >>= fun value => Frame.push (.bool !value)) frame)
      ((Frame.popBool >>= fun value => Frame.push (.bool !value)) other) := by
  apply alike.popBool.bind
  intro value _ frame other both
  rcases both with ⟨rfl, alike⟩
  exact alike.push (.bool _)

theorem drop (alike : Frame.Alike pairing frame other) :
    FramesSettle pairing ((Frame.pop >>= fun _ => pure ()) frame)
      ((Frame.pop >>= fun _ => pure ()) other) := by
  apply alike.pop.bind
  intro value value' frame other both
  rcases both with ⟨_, alike⟩
  exact .done alike

theorem duplicate (alike : Frame.Alike pairing frame other) :
    FramesSettle pairing ((Frame.top >>= Frame.push) frame)
      ((Frame.top >>= Frame.push) other) := by
  apply alike.top.bind
  intro value value' frame other both
  rcases both with ⟨same, alike⟩
  exact alike.push same

end Frame.Alike
end ObjectMachine
