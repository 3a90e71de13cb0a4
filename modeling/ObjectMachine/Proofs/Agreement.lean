import ObjectMachine.Error
import ObjectMachine.Proofs.Outcomes

/-!
# Agreement of operations

Two operations agree when they end in the same way and leave states that correspond. There is one
excuse: a resource may run out for one of them and not for the other. What is known of the states
is then less, and nothing may follow the operation but a result; so the excuse is ruled out for an
operation that others follow.
-/

namespace ObjectMachine

def Error.IsCorruption : Error → Prop
  | .corruption _ => True
  | _ => False

def Error.IsShortage : Error → Prop
  | .shortage _ => True
  | _ => False

def Failure.IsCorruption : Failure → Prop
  | .error e => e.IsCorruption
  | .endless _ => False

def Failure.IsShortage : Failure → Prop
  | .error e => e.IsShortage
  | .endless unsaid => unsaid = .shortage

namespace Failure

theorem sound_ofCode (cause : Option CodeError) : ¬ (ofCode cause).IsCorruption := by
  cases cause <;> exact id

theorem sound_ofShortage (cause : Option Shortage) : ¬ (ofShortage cause).IsCorruption := by
  cases cause <;> exact id

theorem sound_ofCast (names : Option (String × String)) : ¬ (ofCast names).IsCorruption := by
  cases names <;> exact id

theorem isShortage_ofShortage (cause : Option Shortage) : (ofShortage cause).IsShortage := by
  cases cause with
  | none => rfl
  | some cause => trivial

end Failure

/-- What can end an operation: among it there are damage and shortages. -/
class Ending (ε : Type) where
  IsCorruption : ε → Prop
  IsShortage : ε → Prop

instance : Ending Error := ⟨Error.IsCorruption, Error.IsShortage⟩

instance : Ending Failure := ⟨Failure.IsCorruption, Failure.IsShortage⟩

variable {ε σ τ α β γ δ : Type}

def lift (embed : τ → σ) : EStateM.Result Error τ α → EStateM.Result Failure σ α
  | .ok a t => .ok a (embed t)
  | .error e t => .error (.error e) (embed t)

open Ending

/-- Two outcomes agree: how results and states correspond after success, how states correspond after
the same failure, and what is left to say of them where resources ran out. -/
inductive Agree [Ending ε] (done : α → β → σ → σ → Prop) (failed spare : σ → σ → Prop) :
    EStateM.Result ε σ α → EStateM.Result ε σ β → Prop where
  | done {a : α} {b : β} {s t : σ} : done a b s t → Agree done failed spare (.ok a s) (.ok b t)
  | failed {e : ε} {s t : σ} : ¬ IsCorruption e → failed s t →
      Agree done failed spare (.error e s) (.error e t)
  | shortLeft {e : ε} {b : β} {s t : σ} : IsShortage e → ¬ IsCorruption e → spare s t →
      Agree done failed spare (.error e s) (.ok b t)
  | shortRight {e : ε} {a : α} {s t : σ} : IsShortage e → ¬ IsCorruption e → spare s t →
      Agree done failed spare (.ok a s) (.error e t)
  | shortError {e e' : ε} {s t : σ} : IsShortage e ∨ IsShortage e' → ¬ IsCorruption e →
      ¬ IsCorruption e' → spare s t → Agree done failed spare (.error e s) (.error e' t)

def Never (_ _ : σ) : Prop := False

namespace Agree

variable [Ending ε] {done : α → β → σ → σ → Prop} {failed spare : σ → σ → Prop}
  {x : EStateM ε σ α} {y : EStateM ε σ β} {f : α → EStateM ε σ γ} {g : β → EStateM ε σ δ}
  {done' : γ → δ → σ → σ → Prop} {s t : σ}

/-- One operation after another that does not run short. -/
theorem bind (first : Agree done failed Never (x s) (y t))
    (rest : ∀ a b s t, done a b s t → Agree done' failed spare (f a s) (g b t)) :
    Agree done' failed spare ((x >>= f) s) ((y >>= g) t) := by
  cases outcome : x s with
  | ok a s' =>
      cases outcome' : y t with
      | ok b t' =>
          rw [outcome, outcome'] at first
          rw [bind_of_ok outcome, bind_of_ok outcome']
          cases first with
          | done related => exact rest a b s' t' related
      | error e t' =>
          rw [outcome, outcome'] at first
          cases first with
          | shortRight _ _ never => exact absurd never id
  | error e s' =>
      cases outcome' : y t with
      | ok b t' =>
          rw [outcome, outcome'] at first
          cases first with
          | shortLeft _ _ never => exact absurd never id
      | error e' t' =>
          rw [outcome, outcome'] at first
          rw [bind_of_error outcome, bind_of_error outcome']
          cases first with
          | failed sound related => exact .failed sound related
          | shortError _ _ _ never => exact absurd never id

theorem map {f : α → γ} {g : β → δ} (first : Agree done failed spare (x s) (y t))
    (rest : ∀ a b s t, done a b s t → done' (f a) (g b) s t) :
    Agree done' failed spare ((x >>= fun a => pure (f a)) s) ((y >>= fun b => pure (g b)) t) := by
  cases outcome : x s with
  | ok a s' =>
      rw [bind_of_ok outcome]
      cases outcome' : y t with
      | ok b t' =>
          rw [outcome, outcome'] at first
          rw [bind_of_ok outcome']
          cases first with
          | done related => exact .done (rest a b s' t' related)
      | error e t' =>
          rw [outcome, outcome'] at first
          rw [bind_of_error outcome']
          cases first with
          | shortRight short safe excused => exact .shortRight short safe excused
  | error e s' =>
      rw [bind_of_error outcome]
      cases outcome' : y t with
      | ok b t' =>
          rw [outcome, outcome'] at first
          rw [bind_of_ok outcome']
          cases first with
          | shortLeft short safe excused => exact .shortLeft short safe excused
      | error e' t' =>
          rw [outcome, outcome'] at first
          rw [bind_of_error outcome']
          cases first with
          | failed sound related => exact .failed sound related
          | shortError short safe safe' excused => exact .shortError short safe safe' excused

theorem lift {embed embed' : τ → σ} {done : α → β → τ → τ → Prop} {failed spare : τ → τ → Prop}
    {done' : α → β → σ → σ → Prop} {failed' spare' : σ → σ → Prop}
    {left : EStateM.Result Error τ α} {right : EStateM.Result Error τ β}
    (agree : Agree done failed spare left right)
    (okay : ∀ a b s t, done a b s t → done' a b (embed s) (embed' t))
    (bad : ∀ s t, failed s t → failed' (embed s) (embed' t))
    (short : ∀ s t, spare s t → spare' (embed s) (embed' t)) :
    Agree done' failed' spare'
      (ObjectMachine.lift embed left) (ObjectMachine.lift embed' right) := by
  cases agree with
  | done related => exact .done (okay _ _ _ _ related)
  | failed sound related => exact .failed sound (bad _ _ related)
  | shortLeft one safe excused => exact .shortLeft one safe (short _ _ excused)
  | shortRight one safe excused => exact .shortRight one safe (short _ _ excused)
  | shortError one safe safe' excused => exact .shortError one safe safe' (short _ _ excused)

theorem mono {done' : α → β → σ → σ → Prop} {failed' spare' : σ → σ → Prop}
    {left : EStateM.Result ε σ α} {right : EStateM.Result ε σ β}
    (agree : Agree done failed spare left right) (okay : ∀ a b s t, done a b s t → done' a b s t)
    (bad : ∀ s t, failed s t → failed' s t) (short : ∀ s t, spare s t → spare' s t) :
    Agree done' failed' spare' left right := by
  cases agree with
  | done related => exact .done (okay _ _ _ _ related)
  | failed sound related => exact .failed sound (bad _ _ related)
  | shortLeft one safe excused => exact .shortLeft one safe (short _ _ excused)
  | shortRight one safe excused => exact .shortRight one safe (short _ _ excused)
  | shortError one safe safe' excused => exact .shortError one safe safe' (short _ _ excused)

end Agree
end ObjectMachine
