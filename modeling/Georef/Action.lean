import Georef.Failure

/-!
# Actions

An action reads and changes a state and may fail. It does not go back on anything: when it fails, whatever it
has changed stays changed. `Action.call` is the way to look at an action from outside, and every lemma about
actions is about it: `Action.call_bind` says what two of them do one after the other, and the others what the
smallest ones do.
-/

namespace Georef

/-- Something that is done to a state and may fail. A failure undoes nothing. -/
abbrev Action (σ α : Type) := ExceptT Failure (StateM σ) α

namespace Action

variable {σ α β : Type}

/-- How an action has ended, and the state that it has left. -/
def call (x : Action σ α) (s : σ) : Except Failure α × σ := x.run s

/-! ## The smallest actions -/

/-- `pure` answers its value and leaves the state as it is. -/
@[simp] theorem call_pure (a : α) (s : σ) : (pure a : Action σ α).call s = (.ok a, s) := rfl

/-- `throw` fails and leaves the state as it is. -/
@[simp] theorem call_throw (e : Failure) (s : σ) : (throw e : Action σ α).call s = (.error e, s) := rfl

/-- `get` answers the state and leaves it as it is. -/
@[simp] theorem call_get (s : σ) : (get : Action σ σ).call s = (.ok s, s) := rfl

/-- `set` leaves the state that it is given. -/
@[simp] theorem call_set (s t : σ) : (set t : Action σ PUnit).call s = (.ok ⟨⟩, t) := rfl

/-- `modify` leaves what its function makes of the state. -/
@[simp] theorem call_modify (f : σ → σ) (s : σ) : (modify f : Action σ PUnit).call s = (.ok ⟨⟩, f s) := rfl

/-- A computation that does not look at the state leaves it as it is under `liftM`, also if it
    fails. -/
@[simp] theorem call_lift (x : Except Failure α) (s : σ) : (liftM x : Action σ α).call s = (x, s) := by
  cases x <;> rfl

/-! ## One action after another -/

/-- What comes after a failure is not done, but what came before it stays done: the state that `x`
    has left is the one that is left. -/
theorem call_bind (x : Action σ α) (f : α → Action σ β) (s : σ) :
    (x >>= f).call s = match x.call s with
      | (.ok a, s') => (f a).call s'
      | (.error e, s') => (.error e, s') := by
  have hstate {γ δ : Type} (y : StateM σ γ) (g : γ → StateM σ δ) :
      (y >>= g) s = g (y s).1 (y s).2 := rfl
  unfold call
  rw [ExceptT.run_bind, hstate]
  rcases x.run s with ⟨r, s'⟩
  cases r <;> rfl

variable {x : Action σ α} {f : α → Action σ β} {s s' : σ}

/-- What follows an action `x` that has succeeded starts in the state that it has left. -/
theorem call_bind_of_ok {a : α} (h : x.call s = (.ok a, s')) : (x >>= f).call s = (f a).call s' := by
  rw [call_bind, h]

/-- Nothing follows an action `x` that has failed. -/
theorem call_bind_of_error {e : Failure} (h : x.call s = (.error e, s')) :
    (x >>= f).call s = (.error e, s') := by
  rw [call_bind, h]

/-- `x` and what follows it succeed if `x` leaves a state where that succeeds. -/
theorem call_bind_eq_ok_iff {b : β} :
    (x >>= f).call s = (.ok b, s') ↔
      ∃ a between, x.call s = (.ok a, between) ∧ (f a).call between = (.ok b, s') := by
  rw [call_bind]
  rcases x.call s with ⟨result, between⟩
  cases result with
  | error e => exact ⟨fun h => (nomatch h), fun ⟨_, _, h, _⟩ => nomatch h⟩
  | ok a =>
    constructor
    · exact fun h => ⟨a, between, rfl, h⟩
    · rintro ⟨a', between', h, hrest⟩
      cases h
      exact hrest

/-- `pure` succeeds with its own value and changes nothing. -/
theorem call_pure_eq_ok_iff {a b : α} :
    (pure a : Action σ α).call s = (.ok b, s') ↔ a = b ∧ s = s' := by
  rw [call_pure, Prod.mk.injEq, Except.ok.injEq]

/-- Under `liftM`, a computation that does not look at the state succeeds just if it gives
    something. -/
theorem call_lift_eq_ok_iff {y : Except Failure α} {a : α} :
    (liftM y : Action σ α).call s = (.ok a, s') ↔ y = .ok a ∧ s = s' := by
  rw [call_lift, Prod.mk.injEq]

end Action

end Georef
