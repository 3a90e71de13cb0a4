import ObjectMachine.Proofs.SlotWrites

/-!
# Reachable objects

An object refers to the addresses among its values. What is reached from a list of roots is the
roots and whatever a reached object refers to. A store is closed when its objects refer to objects
of the store only; it stays closed when an object is added or changed, and when everything that is
not reached is left out.
-/

namespace ObjectMachine

theorem Value.root?_eq_some_iff {value : Value} {addr : Addr} :
    value.root? = some addr ↔ value = .ref addr ∧ addr ≠ .null := by
  cases value with
  | ref other =>
      by_cases null : other = .null
      · subst null
        simp [Value.root?, Addr.isNull]
        intro same
        subst same
        rfl
      · simp only [Value.root?, Addr.isNull, beq_iff_eq, null, if_false, Option.some.injEq,
          Value.ref.injEq]
        constructor
        · intro same
          subst same
          exact ⟨rfl, null⟩
        · exact And.left
  | _ => simp [Value.root?]

/-- The addresses that an object holds, null references left out. -/
def Object.references (object : Object) : List Addr :=
  object.values.filterMap Value.root?

theorem Object.mem_references_iff {object : Object} {addr : Addr} :
    addr ∈ object.references ↔ .ref addr ∈ object.values ∧ addr ≠ .null := by
  simp only [Object.references, List.mem_filterMap, Value.root?_eq_some_iff]
  constructor
  · intro found
    rcases found with ⟨value, mem, rfl, proper⟩
    exact ⟨mem, proper⟩
  · intro both
    rcases both with ⟨mem, proper⟩
    exact ⟨_, mem, rfl, proper⟩

namespace Store

/-- What is reached from a list of roots. -/
inductive Reaches (store : Store) (roots : List Addr) : Addr → Prop where
  | root {addr : Addr} : addr ∈ roots → addr ≠ .null → Reaches store roots addr
  | step {addr child : Addr} {object : Object} : Reaches store roots addr →
      store addr = some object → child ∈ object.references → Reaches store roots child

def Closed (store : Store) : Prop :=
  ∀ addr object child, store addr = some object → child ∈ object.references →
    (store child).isSome

def Roots (store : Store) (roots : List Addr) : Prop :=
  ∀ addr ∈ roots, addr ≠ .null → (store addr).isSome

variable {store : Store} {roots : List Addr} {addr : Addr} {object : Object}

theorem Reaches.isSome (closed : store.Closed) (rooted : store.Roots roots)
    (reached : store.Reaches roots addr) : (store addr).isSome := by
  cases reached with
  | root mem proper => exact rooted addr mem proper
  | step _ found refers => exact closed _ _ _ found refers

theorem Reaches.of_roots {roots' : List Addr} (reached : store.Reaches roots addr)
    (among : ∀ root ∈ roots, root ≠ .null → root ∈ roots') : store.Reaches roots' addr := by
  induction reached with
  | root mem proper => exact .root (among _ mem proper) proper
  | step _ found refers ih => exact .step ih found refers

/-!
## Changing an object
-/

theorem isSome_set {child : Addr} (known : child = addr ∨ (store child).isSome) :
    (store.set addr object child).isSome := by
  by_cases here : child = addr
  · subst here
    rw [set_same]
    rfl
  · rw [set_other _ _ here]
    exact known.resolve_left here

theorem Closed.set (closed : store.Closed) (rooted : store.Roots object.references) :
    (store.set addr object).Closed := by
  intro other object' child found refers
  apply isSome_set
  right
  by_cases here : other = addr
  · subst here
    rw [set_same] at found
    cases found
    exact rooted child refers (Object.mem_references_iff.mp refers).2
  · rw [set_other _ _ here] at found
    exact closed other object' child found refers

/-!
## Leaving out what is not reached
-/

open Classical in
noncomputable def trim (store : Store) (roots : List Addr) : Store := fun addr =>
  if store.Reaches roots addr then store addr else none

theorem trim_eq_some_iff :
    store.trim roots addr = some object ↔ store.Reaches roots addr ∧ store addr = some object := by
  unfold trim
  split
  · next reached => simp [reached]
  · next unreached => simp [unreached]

theorem trim_of_reaches (reached : store.Reaches roots addr) :
    store.trim roots addr = store addr :=
  if_pos reached

theorem Closed.trim (closed : store.Closed) : (store.trim roots).Closed := by
  intro addr object child found refers
  rcases trim_eq_some_iff.mp found with ⟨reached, found⟩
  rw [trim_of_reaches (.step reached found refers)]
  exact closed addr object child found refers

theorem Reaches.trim (reached : store.Reaches roots addr) :
    (store.trim roots).Reaches roots addr := by
  induction reached with
  | root mem proper => exact .root mem proper
  | step above found refers ih =>
      exact .step ih (trim_eq_some_iff.mpr ⟨above, found⟩) refers

theorem Roots.trim (rooted : store.Roots roots) : (store.trim roots).Roots roots := by
  intro addr mem proper
  rw [trim_of_reaches (.root mem proper)]
  exact rooted addr mem proper

end Store
end ObjectMachine
