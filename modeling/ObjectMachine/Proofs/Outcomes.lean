import Mathlib.Data.List.Forall2
import Mathlib.Order.Defs.Unbundled

/-!
# Outcomes of operations

Operations on a state end with a result or an error, and leave a state either way. A sequence of
operations is followed step by step: through an operation that succeeds to the next, and no further
than an operation that fails.
-/

namespace ObjectMachine

theorem Except.bind_eq_ok_iff {ε α β : Type} {x : Except ε α} {f : α → Except ε β} {b : β} :
    (x >>= f) = .ok b ↔ ∃ a, x = .ok a ∧ f a = .ok b := by
  cases x with
  | error e => simp [bind, Except.bind]
  | ok a => simp [bind, Except.bind]

theorem Except.eq_ok_of_toOption {ε α : Type} {x : Except ε α} {a : α}
    (found : x.toOption = some a) : x = .ok a := by
  cases x with
  | error e => cases found
  | ok b => cases found; rfl

theorem Except.eq_ok_getD {ε α : Type} [Inhabited α] {x : Except ε α}
    (found : x.toOption.isSome) : x = .ok (x.toOption.getD default) := by
  cases x with
  | error e => cases found
  | ok a => rfl

theorem Except.mapError_eq_ok_iff {ε ε' α : Type} {x : Except ε α} {f : ε → ε'} {a : α} :
    x.mapError f = .ok a ↔ x = .ok a := by
  cases x with
  | error e => constructor <;> intro same <;> cases same
  | ok b => constructor <;> intro same <;> cases same <;> rfl

theorem Except.exists_bind_iff {ε α β : Type} {x : Except ε α} {f : α → Except ε β} :
    (∃ b, (x >>= f) = .ok b) ↔ ∃ a, x = .ok a ∧ ∃ b, f a = .ok b := by
  simp only [Except.bind_eq_ok_iff]
  constructor
  · intro found
    rcases found with ⟨b, a, first, second⟩
    exact ⟨a, first, b, second⟩
  · intro found
    rcases found with ⟨a, first, b, second⟩
    exact ⟨b, a, first, second⟩

theorem Except.exists_ite_iff {ε α : Type} {p : Prop} [Decidable p] {a : α} {e : ε} :
    (∃ b, (if p then Except.ok a else Except.error e) = Except.ok b) ↔ p := by
  by_cases holds : p
  · simp [holds]
  · simp [holds]

theorem Except.mapM_eq_ok_iff {ε α β : Type} {f : α → Except ε β} {as : List α} {bs : List β} :
    as.mapM f = .ok bs ↔ List.Forall₂ (fun a b => f a = .ok b) as bs := by
  induction as generalizing bs with
  | nil =>
      rw [List.mapM_nil, List.forall₂_nil_left_iff]
      constructor
      · intro same
        cases same
        rfl
      · intro same
        rw [same]
        rfl
  | cons a rest ih =>
      rw [List.mapM_cons, Except.bind_eq_ok_iff, List.forall₂_cons_left_iff]
      constructor
      · intro found
        rcases found with ⟨b, first, found⟩
        rcases Except.bind_eq_ok_iff.mp found with ⟨later, second, same⟩
        cases same
        exact ⟨b, later, first, ih.mp second, rfl⟩
      · intro found
        rcases found with ⟨b, later, first, second, rfl⟩
        refine ⟨b, first, ?_⟩
        rw [ih.mpr second]
        rfl

theorem Except.exists_mapM_iff {ε α β : Type} {f : α → Except ε β} {as : List α} :
    (∃ bs, as.mapM f = .ok bs) ↔ ∀ a ∈ as, ∃ b, f a = .ok b := by
  simp only [Except.mapM_eq_ok_iff]
  constructor
  · intro found a mem
    rcases found with ⟨bs, each⟩
    induction each with
    | nil => cases mem
    | cons first _ ih =>
        rcases List.mem_cons.mp mem with rfl | mem
        · exact ⟨_, first⟩
        · exact ih mem
  · intro each
    induction as with
    | nil => exact ⟨[], .nil⟩
    | cons a rest ih =>
        rcases each a List.mem_cons_self with ⟨b, first⟩
        rcases ih fun a' mem => each a' (List.mem_cons_of_mem _ mem) with ⟨bs, later⟩
        exact ⟨b :: bs, .cons first later⟩

theorem Except.mem_iff_of_mapM {ε α β : Type} {f : α → Except ε β} {as : List α} {bs : List β}
    (done : as.mapM f = .ok bs) {b : β} : b ∈ bs ↔ ∃ a ∈ as, f a = .ok b := by
  have each := Except.mapM_eq_ok_iff.mp done
  clear done
  induction each with
  | nil => simp
  | cons first _ ih =>
      rw [List.mem_cons, List.exists_mem_cons_iff, first, Except.ok.injEq, eq_comm]
      exact or_congr Iff.rfl ih

theorem Except.eq_map_of_mapM {ε α β : Type} {f : α → Except ε β} {g : α → β} {as : List α}
    {bs : List β} (done : as.mapM f = .ok bs) (each : ∀ a b, f a = .ok b → b = g a) :
    bs = as.map g := by
  have pairs := Except.mapM_eq_ok_iff.mp done
  clear done
  induction pairs with
  | nil => rfl
  | cons first _ ih => rw [List.map_cons, each _ _ first, ih]

theorem Except.mapM_append_eq_ok_iff {ε α β : Type} {f : α → Except ε β} {front back : List α}
    {bs : List β} : (front ++ back).mapM f = .ok bs ↔
      ∃ first second, front.mapM f = .ok first ∧ back.mapM f = .ok second ∧
        bs = first ++ second := by
  rw [List.mapM_append, Except.bind_eq_ok_iff]
  constructor
  · intro found
    rcases found with ⟨first, front, found⟩
    rcases Except.bind_eq_ok_iff.mp found with ⟨second, back, same⟩
    cases same
    exact ⟨first, second, front, back, rfl⟩
  · intro found
    rcases found with ⟨first, second, front, back, rfl⟩
    exact ⟨first, front, Except.bind_eq_ok_iff.mpr ⟨second, back, rfl⟩⟩

variable {ε σ α β : Type} {x : EStateM ε σ α} {f : α → EStateM ε σ β} {s s' : σ}

theorem bind_of_ok {a : α} (done : x s = .ok a s') : (x >>= f) s = f a s' := by
  show EStateM.bind x f s = f a s'
  rw [EStateM.bind, done]

theorem bind_of_error {e : ε} (failed : x s = .error e s') :
    (x >>= f) s = .error e s' := by
  show EStateM.bind x f s = .error e s'
  rw [EStateM.bind, failed]

theorem get_bind {f : σ → EStateM ε σ β} : (get >>= f) s = f s s := rfl

theorem bind_congr_left {y : EStateM ε σ α} (same : x s = y s) :
    (x >>= f) s = (y >>= f) s := by
  show EStateM.bind x f s = EStateM.bind y f s
  rw [EStateM.bind, EStateM.bind, same]

/-!
## States that operations lead to
-/

def lastState : EStateM.Result ε σ α → σ
  | .ok _ s => s
  | .error _ s => s

/-- Whatever state an operation finds, the one that it leaves behind is related to it. -/
def Leads (R : σ → σ → Prop) (op : EStateM ε σ α) : Prop :=
  ∀ s, R s (lastState (op s))

namespace Leads

variable {R : σ → σ → Prop} [IsPreorder σ R]

theorem of_pure (a : α) : Leads R (pure a : EStateM ε σ α) :=
  fun s => refl_of R s

theorem of_throw (e : ε) : Leads R (throw e : EStateM ε σ α) :=
  fun s => refl_of R s

theorem bind {x : EStateM ε σ α} {f : α → EStateM ε σ β} (first : Leads R x)
    (rest : ∀ a, Leads R (f a)) : Leads R (x >>= f) := by
  intro s
  have reached := first s
  cases outcome : x s with
  | ok a middle =>
      rw [outcome] at reached
      rw [bind_of_ok outcome]
      exact trans_of R reached (rest a middle)
  | error e middle =>
      rw [outcome] at reached
      rw [bind_of_error outcome]
      exact reached

end Leads

end ObjectMachine
