import ObjectMachine.Proofs.Heaps
import ObjectMachine.Proofs.Pairings

/-!
# Corresponding stores

A pairing joins two stores if paired addresses are those of objects of one type with corresponding
values. It need not reach every object: what a collection frees is taken out of the pairing first,
and a new pair of objects is added to it.
-/

namespace ObjectMachine
namespace Pairing

/-!
## Changes of a pairing
-/

def bare (left right : StringTable) (left_distinct : left.Distinct)
    (right_distinct : right.Distinct) : Pairing where
  left := left
  right := right
  left_distinct := left_distinct
  right_distinct := right_distinct
  addr := fun _ _ => False
  proper := nofun
  right_unique := nofun
  left_unique := nofun

def swap (pairing : Pairing) : Pairing where
  left := pairing.right
  right := pairing.left
  left_distinct := pairing.right_distinct
  right_distinct := pairing.left_distinct
  addr := fun a a' => pairing.addr a' a
  proper := fun paired => (pairing.proper paired).symm
  right_unique := pairing.left_unique
  left_unique := pairing.right_unique

def diagonal (pairing : Pairing) : Pairing where
  left := pairing.left
  right := pairing.left
  left_distinct := pairing.left_distinct
  right_distinct := pairing.left_distinct
  addr := fun a b => a = b ∧ ∃ a', pairing.addr a a'
  proper := by
    intro a _ both
    rcases both with ⟨rfl, a', paired⟩
    exact ⟨(pairing.proper paired).1, (pairing.proper paired).1⟩
  right_unique := fun paired other => paired.1.symm.trans other.1
  left_unique := fun paired other => paired.1.trans other.1.symm

def restrict (pairing : Pairing) (keep : Addr → Prop) : Pairing where
  left := pairing.left
  right := pairing.right
  left_distinct := pairing.left_distinct
  right_distinct := pairing.right_distinct
  addr := fun a a' => pairing.addr a a' ∧ keep a
  proper := fun paired => pairing.proper paired.1
  right_unique := fun paired other => pairing.right_unique paired.1 other.1
  left_unique := fun paired other => pairing.left_unique paired.1 other.1

def retable (pairing : Pairing) (left right : StringTable) (left_distinct : left.Distinct)
    (right_distinct : right.Distinct) : Pairing where
  left := left
  right := right
  left_distinct := left_distinct
  right_distinct := right_distinct
  addr := pairing.addr
  proper := pairing.proper
  right_unique := pairing.right_unique
  left_unique := pairing.left_unique

structure Free (pairing : Pairing) (a a' : Addr) : Prop where
  left_proper : a ≠ .null
  right_proper : a' ≠ .null
  left : ∀ b', ¬ pairing.addr a b'
  right : ∀ b, ¬ pairing.addr b a'

def insert (pairing : Pairing) {a a' : Addr} (free : pairing.Free a a') : Pairing where
  left := pairing.left
  right := pairing.right
  left_distinct := pairing.left_distinct
  right_distinct := pairing.right_distinct
  addr := fun b b' => pairing.addr b b' ∨ (b = a ∧ b' = a')
  proper := by
    intro b b' either
    rcases either with paired | ⟨rfl, rfl⟩
    · exact pairing.proper paired
    · exact ⟨free.left_proper, free.right_proper⟩
  right_unique := by
    intro b b' c' first second
    rcases first with paired | ⟨rfl, rfl⟩
    · rcases second with other | ⟨same, rfl⟩
      · exact pairing.right_unique paired other
      · rw [same] at paired
        exact absurd paired (free.left b')
    · rcases second with other | ⟨_, rfl⟩
      · exact absurd other (free.left c')
      · rfl
  left_unique := by
    intro b c b' first second
    rcases first with paired | ⟨rfl, rfl⟩
    · rcases second with other | ⟨rfl, same⟩
      · exact pairing.left_unique paired other
      · rw [same] at paired
        exact absurd paired (free.right b)
    · rcases second with other | ⟨rfl, _⟩
      · exact absurd other (free.right c)
      · rfl

/-!
## Stores
-/

end Pairing

structure Object.Alike (pairing : Pairing) (object other : Object) : Prop where
  type : other.type = object.type
  values : ValuesAlike pairing object.values other.values

def Pairing.Joins (pairing : Pairing) (store other : Store) : Prop :=
  ∀ a a', pairing.addr a a' → ∃ object object', store a = some object ∧
    other a' = some object' ∧ Object.Alike pairing object object'

theorem ValuesAlike.map {pairing other : Pairing} {values values' : List Value}
    (alike : ValuesAlike pairing values values')
    (strings : ∀ {r r' : StrRef}, pairing.str r r' → other.str r r')
    (addrs : ∀ {a a' : Addr}, .ref a ∈ values → .ref a' ∈ values' → pairing.addr a a' →
      other.addr a a') :
    ValuesAlike other values values' := by
  apply forall₂_imp_of_mem alike
  intro value mem value' mem' same
  apply same.map strings
  intro a a' equal equal' paired
  subst equal
  subst equal'
  exact addrs mem mem' paired

theorem ValuesAlike.addr_of_mem {pairing : Pairing} {values values' : List Value}
    (alike : ValuesAlike pairing values values') {a : Addr} (mem : .ref a ∈ values)
    (proper : a ≠ .null) : ∃ a', .ref a' ∈ values' ∧ pairing.addr a a' := by
  rcases forall₂_exists_of_mem alike mem with ⟨value', mem', same⟩
  cases same with
  | @ref _ a' same =>
      rcases same with ⟨null, _⟩ | paired
      · exact absurd null proper
      · exact ⟨a', mem', paired⟩

theorem Value.Alike.swap {pairing : Pairing} {value value' : Value}
    (alike : Value.Alike pairing value value') : Value.Alike pairing.swap value' value := by
  cases alike with
  | bool b => exact .bool b
  | char c => exact .char c
  | int i => exact .int i
  | str same =>
      rcases same with ⟨text, left, right⟩
      exact .str ⟨text, right, left⟩
  | ref same =>
      rcases same with ⟨left, right⟩ | paired
      · exact .ref (Or.inl ⟨right, left⟩)
      · exact .ref (Or.inr paired)

theorem Value.Alike.diagonal {pairing : Pairing} {value value' : Value}
    (alike : Value.Alike pairing value value') : Value.Alike pairing.diagonal value value := by
  cases alike with
  | bool b => exact .bool b
  | char c => exact .char c
  | int i => exact .int i
  | str same =>
      rcases same with ⟨text, left, _⟩
      exact .str ⟨text, left, left⟩
  | ref same =>
      rcases same with ⟨left, _⟩ | paired
      · exact .ref (Or.inl ⟨left, left⟩)
      · exact .ref (Or.inr ⟨rfl, _, paired⟩)

theorem ValuesAlike.swap {pairing : Pairing} {values values' : List Value}
    (alike : ValuesAlike pairing values values') : ValuesAlike pairing.swap values' values :=
  alike.flip.imp fun _ _ => Value.Alike.swap

theorem ValuesAlike.diagonal {pairing : Pairing} {values values' : List Value}
    (alike : ValuesAlike pairing values values') : ValuesAlike pairing.diagonal values values :=
  forall₂_diagonal alike fun _ _ => Value.Alike.diagonal

namespace Pairing.Joins

variable {pairing : Pairing} {store other : Store}

theorem swap (joins : pairing.Joins store other) : pairing.swap.Joins other store := by
  intro a' a paired
  rcases joins a a' paired with ⟨object, object', found, found', same⟩
  exact ⟨object', object, found', found, same.type.symm, same.values.swap⟩

theorem diagonal (joins : pairing.Joins store other) : pairing.diagonal.Joins store store := by
  intro a _ both
  rcases both with ⟨rfl, a', paired⟩
  rcases joins a a' paired with ⟨object, object', found, _, same⟩
  exact ⟨object, object, found, found, rfl, same.values.diagonal⟩

theorem retable (joins : pairing.Joins store other) {left right : StringTable}
    (left_distinct : left.Distinct) (right_distinct : right.Distinct)
    (left_grown : pairing.left.Extends left) (right_grown : pairing.right.Extends right) :
    (pairing.retable left right left_distinct right_distinct).Joins store other := by
  intro a a' paired
  rcases joins a a' paired with ⟨object, object', found, found', same⟩
  refine ⟨object, object', found, found', same.type, same.values.map ?_ fun _ _ => id⟩
  intro r r' given
  rcases given with ⟨text, at_r, at_r'⟩
  exact ⟨text, left_grown.get? at_r, right_grown.get? at_r'⟩

theorem reaches (joins : pairing.Joins store other) {roots roots' : List Addr}
    (rooted : ∀ root ∈ roots, root ≠ .null → ∃ root' ∈ roots', pairing.addr root root') {a : Addr}
    (reached : store.Reaches roots a) : ∃ a', pairing.addr a a' ∧ other.Reaches roots' a' := by
  induction reached with
  | root mem proper =>
      rcases rooted _ mem proper with ⟨root', mem', paired⟩
      exact ⟨root', paired, .root mem' (pairing.proper paired).2⟩
  | @step a child object _ found refers ih =>
      rcases ih with ⟨a', paired, reached⟩
      rcases joins a a' paired with ⟨object', other', found', found'', same⟩
      rw [found] at found'
      cases found'
      rcases Object.mem_references_iff.mp refers with ⟨mem, proper⟩
      rcases same.values.addr_of_mem mem proper with ⟨child', mem', paired'⟩
      refine ⟨child', paired', .step reached found'' ?_⟩
      exact Object.mem_references_iff.mpr ⟨mem', (pairing.proper paired').2⟩

theorem restrict (joins : pairing.Joins store other) (roots : List Addr) :
    (pairing.restrict (store.Reaches roots)).Joins store other := by
  intro a a' both
  rcases both with ⟨paired, reached⟩
  rcases joins a a' paired with ⟨object, object', found, found', same⟩
  refine ⟨object, object', found, found', same.type, same.values.map id ?_⟩
  intro child child' mem _ paired'
  refine ⟨paired', .step reached found ?_⟩
  exact Object.mem_references_iff.mpr ⟨mem, (pairing.proper paired').1⟩

/-- A collection on the left keeps what is reached. -/
theorem trim (joins : pairing.Joins store other) (roots : List Addr) :
    (pairing.restrict (store.Reaches roots)).Joins (store.trim roots) other := by
  intro a a' paired
  rw [Store.trim_of_reaches paired.2]
  exact joins.restrict roots a a' paired

theorem put (joins : pairing.Joins store other) {a a' : Addr} (paired : pairing.addr a a')
    {object object' : Object} (found : store a = some object) (found' : other a' = some object')
    {value value' : Value} (same : Value.Alike pairing value value') (i : Nat) :
    pairing.Joins (store.set a (object.put i value)) (other.set a' (object'.put i value')) := by
  intro b b' paired'
  rcases joins b b' paired' with ⟨old, old', at_b, at_b', olds⟩
  by_cases here : b = a
  · subst here
    rw [pairing.right_unique paired' paired] at at_b' ⊢
    rw [found] at at_b
    rw [found'] at at_b'
    cases at_b
    cases at_b'
    exact ⟨_, _, Store.set_same _ _ _, Store.set_same _ _ _, olds.type, olds.values.set i same⟩
  · have there : b' ≠ a' := by
      intro equal
      subst equal
      exact here (pairing.left_unique paired' paired)
    rw [Store.set_other _ _ here, Store.set_other _ _ there]
    exact ⟨old, old', at_b, at_b', olds⟩

theorem insert (joins : pairing.Joins store other) {a a' : Addr} (free : pairing.Free a a')
    (fresh : store a = none) (fresh' : other a' = none) {object object' : Object}
    (same : Object.Alike pairing object object') :
    (pairing.insert free).Joins (store.set a object) (other.set a' object') := by
  intro b b' either
  rcases either with paired | ⟨rfl, rfl⟩
  · rcases joins b b' paired with ⟨old, old', at_b, at_b', olds⟩
    have here : b ≠ a := by
      intro equal
      subst equal
      rw [fresh] at at_b
      cases at_b
    have there : b' ≠ a' := by
      intro equal
      subst equal
      rw [fresh'] at at_b'
      cases at_b'
    rw [Store.set_other _ _ here, Store.set_other _ _ there]
    exact ⟨old, old', at_b, at_b', olds.type, olds.values.map id fun _ _ => Or.inl⟩
  · exact ⟨object, object', Store.set_same _ _ _, Store.set_same _ _ _, same.type,
      same.values.map id fun _ _ => Or.inl⟩

theorem free (joins : pairing.Joins store other) {a a' : Addr} (proper : a ≠ .null)
    (proper' : a' ≠ .null) (fresh : store a = none) (fresh' : other a' = none) :
    pairing.Free a a' := by
  refine ⟨proper, proper', ?_, ?_⟩
  · intro b' paired
    rcases joins a b' paired with ⟨_, _, found, _, _⟩
    rw [fresh] at found
    cases found
  · intro b paired
    rcases joins b a' paired with ⟨_, _, _, found, _⟩
    rw [fresh'] at found
    cases found

end Pairing.Joins

theorem Kind.default_alike {pairing : Pairing} (empty : pairing.str .empty .empty) (kind : Kind) :
    Value.Alike pairing kind.default kind.default := by
  cases kind with
  | bool => exact .bool false
  | char => exact .char _
  | int => exact .int 0
  | str => exact .str empty
  | ref => exact .ref (Or.inl ⟨rfl, rfl⟩)

theorem TypeDescriptor.defaults_alike {pairing : Pairing} (empty : pairing.str .empty .empty)
    (type : TypeDescriptor) (length : Nat) :
    ValuesAlike pairing (type.defaults length) (type.defaults length) := by
  unfold defaults
  induction type.slots length with
  | nil => exact .nil
  | cons slot rest ih => exact .cons (slot.kind.default_alike empty) ih

end ObjectMachine
