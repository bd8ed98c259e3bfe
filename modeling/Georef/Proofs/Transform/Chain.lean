import Georef.Proofs.List
import Georef.Transform.Basic

/-!
# Chains of steps

However transforms are concatenated, the result is a list of steps that lead from one dimension to the
next. `Joined` says how a transform came about, and `Leads` is what its steps have in common with every
other chain; proofs about chains are inductions on it.

## Key results

- `Joined.leads`: the steps of a transform lead from its source to its target
- `Joined.of_mem_steps`: a property of all transforms that were joined is one of all steps
- `steps_of_inverse`: an inverse undoes the steps in reverse order
-/

namespace Georef

namespace Transform

variable {α : Type}

/-- The only one of the `steps` of a step is the step itself. -/
@[simp] theorem steps_step (s : Step α) : (step s).steps = [s] := rfl

/-- The `steps` of a chain are those it was made of. -/
@[simp] theorem steps_chain (steps : List (Step α)) : (chain steps).steps = steps := rfl

/-! ## Steps that fit together -/

/-- The steps lead from points of one dimension to points of another one: each step starts in the
    dimension where the one before it has ended. -/
inductive Leads : Int → List (Step α) → Int → Prop where
  | nil (d : Int) : Leads d [] d
  | cons {d e : Int} {s : Step α} {rest : List (Step α)} :
      s.source = d → Leads s.target rest e → Leads d (s :: rest) e

namespace Leads

variable {d e f : Int} {steps rest : List (Step α)}

/-- Steps that end where others start lead on to where these end. -/
theorem append (h : Leads d steps e) (hrest : Leads e rest f) : Leads d (steps ++ rest) f := by
  induction h with
  | nil d => exact hrest
  | cons hs _ ih => exact .cons hs (ih hrest)

/-- `source` is where the steps start, if there are any. -/
theorem source_eq {t : Transform α} (h : Leads d t.steps e) (hne : t.steps ≠ []) : t.source = d := by
  unfold source
  generalize t.steps = steps at h hne
  cases h with
  | nil d => exact absurd rfl hne
  | cons hs _ => exact hs

/-- `target` is where the steps end, if there are any. -/
theorem target_eq {t : Transform α} (h : Leads d t.steps e) (hne : t.steps ≠ []) : t.target = e := by
  unfold target
  generalize t.steps = steps at h hne
  -- The last step decides, so the empty rest has to be told from the others.
  induction h with
  | nil d => exact absurd rfl hne
  | cons hs hrest ih =>
    cases hrest with
    | nil d => rfl
    | cons hs' hrest => exact ih (List.cons_ne_nil _ _)

/-- Steps next to each other fit together, so `Leads` says nothing less about a list than its
    definition says about its head. -/
theorem target_getElem (h : Leads d steps e) (i : Nat) (hi : i + 1 < steps.length) :
    steps[i].target = steps[i + 1].source := by
  induction h generalizing i with
  | nil d => exact absurd hi (Nat.not_lt_zero _)
  | @cons d e s rest _ hrest ih =>
    cases i with
    | succ i => exact ih i (Nat.lt_of_succ_lt_succ hi)
    | zero =>
      cases hrest with
      | nil d => exact absurd hi (Nat.lt_irrefl 1)
      | cons hs' _ => exact hs'.symm

/-- Where every step has points on both sides, so has the chain. -/
theorem one_le (h : Leads d steps e) (hne : steps ≠ [])
    (hsteps : ∀ s ∈ steps, 1 ≤ s.source ∧ 1 ≤ s.target) : 1 ≤ d ∧ 1 ≤ e := by
  induction h with
  | nil d => exact absurd rfl hne
  | @cons d e s rest hd hrest ih =>
    obtain ⟨hsource, htarget⟩ := hsteps s List.mem_cons_self
    refine ⟨hd ▸ hsource, ?_⟩
    cases hrest with
    | nil _ => exact htarget
    | cons hd' hrest =>
      exact (ih (List.cons_ne_nil _ _) fun s hs => hsteps s (List.mem_cons_of_mem _ hs)).2

end Leads

/-! ## Transforms that were joined -/

/-- Transforms that come about from steps with a property by any nesting of concatenations. -/
inductive Joined (P : Step α → Prop) : Transform α → Prop where
  | step {s : Step α} : P s → Joined P (step s)
  | concatenate {a b c : Transform α} :
      Joined P a → Joined P b → a.concatenate b = .ok c → Joined P c

/-- `concatenate` takes only transforms that fit together, and their steps come one after the other. -/
theorem concatenate_eq_ok_iff {a b c : Transform α} :
    a.concatenate b = .ok c ↔ a.target = b.source ∧ c = chain (a.steps ++ b.steps) := by
  unfold concatenate
  split
  · rename_i hfit
    exact ⟨fun h => ⟨hfit, (Except.ok.inj h).symm⟩, fun ⟨_, h⟩ => congrArg Except.ok h.symm⟩
  · rename_i hfit
    exact ⟨fun h => (nomatch h), fun ⟨h, _⟩ => absurd h hfit⟩

namespace Joined

variable {P : Step α → Prop} {c : Transform α}

/-- What is true of all steps that were joined is true of all `steps` of the result. -/
theorem of_mem_steps (h : Joined P c) : ∀ s ∈ c.steps, P s := by
  induction h with
  | step hs => exact fun s h => List.mem_singleton.mp h ▸ hs
  | concatenate _ _ hc iha ihb =>
    obtain ⟨-, rfl⟩ := concatenate_eq_ok_iff.mp hc
    intro s hmem
    exact (List.mem_append.mp hmem).elim (iha s) (ihb s)

/-- A transform that was `Joined` has at least one step. -/
theorem steps_ne_nil (h : Joined P c) : c.steps ≠ [] := by
  induction h with
  | step hs => exact List.cons_ne_nil _ _
  | concatenate _ _ hc iha _ =>
    obtain ⟨-, rfl⟩ := concatenate_eq_ok_iff.mp hc
    exact List.append_ne_nil_of_left_ne_nil iha _

/-- The steps of a transform lead from its `source` to its `target`. -/
theorem leads (h : Joined P c) : Leads c.source c.steps c.target := by
  induction h with
  | step hs => exact .cons rfl (.nil _)
  | @concatenate a b c ha hb hc iha ihb =>
    obtain ⟨hfit, rfl⟩ := concatenate_eq_ok_iff.mp hc
    have hleads : Leads a.source (chain (a.steps ++ b.steps)).steps b.target :=
      iha.append (hfit ▸ ihb)
    have hne := List.append_ne_nil_of_left_ne_nil ha.steps_ne_nil b.steps
    rw [hleads.source_eq hne, hleads.target_eq hne]
    exact hleads

end Joined

/-! ## The ends of a chain -/

section Ends

variable {a b : Transform α}

/-- Putting something behind a transform does not change where it starts. -/
theorem source_chain_append (h : a.target = b.source) :
    (chain (a.steps ++ b.steps)).source = a.source := by
  cases hsteps : a.steps with
  | cons s rest => simp [source, hsteps]
  | nil =>
    simp only [source, target, hsteps] at h ⊢
    exact h.symm

/-- Putting something in front of a transform does not change where it ends. -/
theorem target_chain_append (h : a.target = b.source) :
    (chain (a.steps ++ b.steps)).target = b.target := by
  cases hsteps : b.steps with
  | cons s rest => simp [target, hsteps, List.getLast?_cons]
  | nil =>
    simp only [source, target, hsteps, List.append_nil] at h ⊢
    exact h

/-- The three names that a chain can have, by its `source` and `target`. -/
theorem className_chain (steps : List (Step α)) :
    (chain steps).className =
      if (chain steps).source = 1 ∧ (chain steps).target = 1 then "ConcatenatedTransform1D"
      else if (chain steps).source = 2 ∧ (chain steps).target = 2 then "ConcatenatedTransform2D"
      else "ConcatenatedTransform" := rfl

/-- A chain has the `className` of those of the line, or of the plane, exactly if that is where it
    starts and ends. -/
theorem className_chain_eq_iff (steps : List (Step α)) :
    ((chain steps).className = "ConcatenatedTransform1D" ↔
      (chain steps).source = 1 ∧ (chain steps).target = 1) ∧
    ((chain steps).className = "ConcatenatedTransform2D" ↔
      (chain steps).source = 2 ∧ (chain steps).target = 2) := by
  rw [className_chain]
  split
  · rename_i hline
    simp [hline]
  · split
    · rename_i hplane
      simp [hplane]
    · rename_i hline hplane
      simp [hline, hplane]

end Ends

/-! ## The steps of an inverse -/

section Inverse

variable [Zero α] [One α] [Add α] [Mul α] [Sub α] [Div α] [Neg α] [BEq α] [Solver α]
  {t u : Transform α}

/-- What a program returns after applying a function to a value comes from the value. -/
theorem return_eq_ok_iff {ε β γ : Type} {x : Except ε β} {f : β → γ} {c : γ} :
    (do return f (← x)) = Except.ok c ↔ ∃ b, x = .ok b ∧ f b = c := by
  cases x with
  | error e => exact ⟨fun h => (nomatch h), fun ⟨_, h, _⟩ => nomatch h⟩
  | ok b => exact ⟨fun h => ⟨b, rfl, Except.ok.inj h⟩, fun ⟨_, h, hc⟩ => hc ▸ h ▸ rfl⟩

omit [Add α] in
/-- The steps of an `inverse` are the inverse steps in reverse order. -/
theorem steps_of_inverse (h : t.inverse = .ok u) :
    ∃ undos, List.Forall₂ (fun s s' => s.inverse = .ok s') t.steps undos ∧
      u.steps = undos.reverse := by
  cases t with
  | step s =>
    obtain ⟨s', hs, rfl⟩ := return_eq_ok_iff.mp h
    exact ⟨[s'], .cons hs .nil, rfl⟩
  | chain steps =>
    obtain ⟨undos, hundos, rfl⟩ := return_eq_ok_iff.mp h
    have hall := List.mapM_eq_ok_iff.mp hundos
    rw [← undos.reverse_reverse] at hall
    exact ⟨undos.reverse, List.forall₂_reverse_iff.mp hall, undos.reverse_reverse.symm⟩

end Inverse

end Transform

end Georef
