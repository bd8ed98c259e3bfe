import Georef.Proofs.Session.Procedure
import Georef.Proofs.Transform.Composition
import Georef.Session.Transforms

/-!
# Concatenations in a session

Concatenating looks at the outer dimensions of two transforms only, and inverting a chain looks at none. The
steps of a chain fit together all the same: that is what every operation preserves, since the inverse of a
step has source and target exchanged. As chains are lists of steps, it does not matter in which order three
transforms are concatenated.

## Key results

- `Derived.leads` and `Derived.two_le_length`: what all transforms have in common that concatenating and
  inverting can make
- `concatenate_sound`: chains fit together inside, and concatenation is associative
-/

namespace Georef

/-! ## Equality -/

namespace Step

/-- A step is `sameAs` itself. -/
theorem sameAs_refl (s : Step Double) : s.sameAs s = true := by
  cases s with
  | linear t => exact LinearTransform.sameAs_refl t
  | managed m => exact beq_self_eq_true m.mark
  | foreign m => exact beq_self_eq_true m.mark

end Step

namespace Transform

/-- A transform is `sameAs` itself. -/
theorem sameAs_refl (t : Transform Double) : t.sameAs t = true := by
  cases t with
  | step s => exact s.sameAs_refl
  | chain steps =>
    have hzip : ∀ pair ∈ List.zip steps steps, pair.1.sameAs pair.2 = true := fun pair hpair => by
      obtain ⟨i, hi, rfl⟩ := List.getElem_of_mem hpair
      rw [List.getElem_zip]
      exact Step.sameAs_refl _
    simpa [sameAs] using hzip

end Transform

open Georef.Action Transform Procedure

namespace TransformObject

variable {a b c t u : TransformObject} {s s' : Session}

/-! ## Concatenating and inverting objects -/

/-- Objects that are given their own steps are what they were. -/
theorem zipWith_step (objects : List StepObject) :
    List.zipWith (fun x s => { x with step := s }) objects (objects.map (·.step)) = objects := by
  induction objects with
  | nil => rfl
  | cons x rest ih => exact congrArg (x :: ·) ih

/-- `join` makes a new chain of transforms that fit together, with the steps of both, which keep
    their identity. -/
theorem call_join (h : a.transform.target = b.transform.source) (s : Session) :
    (join a b).call s = (.ok (.chain (.made s.nextSerial) (a.steps ++ b.steps)),
      { s with nextSerial := s.nextSerial + 1 }) := by
  have hjoined : a.transform.concatenate b.transform =
      .ok (.chain ((a.steps ++ b.steps).map (·.step))) := by
    rw [concatenate_eq_ok_iff, steps_transform, steps_transform, List.map_append]
    exact ⟨h, rfl⟩
  rw [join, hjoined, call_bind, call_lift]
  dsimp only
  rw [call_bind_of_ok (call_freshMark s), steps_chain, zipWith_step]
  rfl

/-- `join` refuses transforms that do not fit together. -/
theorem call_join_error (h : a.transform.target ≠ b.transform.source) (s : Session) :
    (join a b).call s = (.error (.chainDimensions a.transform.target b.transform.source), s) := by
  rw [join, concatenate, if_neg h, call_bind, call_lift]

/-- What `join` makes is the chain of all steps, and the transforms have fitted together. -/
theorem of_call_join (h : (join a b).call s = (.ok c, s')) :
    a.transform.target = b.transform.source ∧
      c = .chain (.made s.nextSerial) (a.steps ++ b.steps) := by
  obtain hfit | hfit := eq_or_ne a.transform.target b.transform.source
  · rw [call_join hfit] at h
    cases h
    exact ⟨hfit, rfl⟩
  · rw [call_join_error hfit] at h
    cases h

/-- The `transform` of a chain of joined objects is the chain of the joined steps. -/
theorem transform_chain_append (mark : Mark) (a b : TransformObject) :
    (chain mark (a.steps ++ b.steps)).transform =
      .chain (a.transform.steps ++ b.transform.steps) := by
  rw [steps_transform, steps_transform, ← List.map_append]
  rfl

/-- What `invertStep` makes of a step object is the inverse of its step, whether it is a new object
    or not. -/
theorem inverse_of_call_invertStep {x y : StepObject} (h : (invertStep x).call s = (.ok y, s')) :
    x.step.inverse = .ok y.step := by
  obtain ⟨inverse, _, hlift, h⟩ := call_bind_eq_ok_iff.mp h
  obtain ⟨hinverse, rfl⟩ := call_lift_eq_ok_iff.mp hlift
  rw [hinverse]
  split at h
  · -- An identity is its own inverse.
    rename_i dimension hidentity
    obtain ⟨rfl, -⟩ := call_pure_eq_ok_iff.mp h
    rw [hidentity] at hinverse ⊢
    exact hinverse.symm
  · obtain ⟨mark, _, -, h⟩ := call_bind_eq_ok_iff.mp h
    obtain ⟨matrixMark, _, -, h⟩ := call_bind_eq_ok_iff.mp h
    obtain ⟨rfl, -⟩ := call_pure_eq_ok_iff.mp h
    rfl

/-- The steps that `invertTransform` leaves are the inverse steps in reverse order. -/
theorem steps_of_call_invertTransform (h : (invertTransform t).call s = (.ok u, s')) :
    ∃ undos, List.Forall₂ (fun s s' => s.inverse = .ok s') t.transform.steps undos ∧
      u.transform.steps = undos.reverse := by
  cases t with
  | step x =>
    obtain ⟨y, _, hy, h⟩ := call_bind_eq_ok_iff.mp h
    obtain ⟨rfl, -⟩ := call_pure_eq_ok_iff.mp h
    exact ⟨[y.step], .cons (inverse_of_call_invertStep hy) .nil, rfl⟩
  | chain mark steps =>
    obtain ⟨inverses, _, hinverses, h⟩ := call_bind_eq_ok_iff.mp h
    obtain ⟨mark', _, -, h⟩ := call_bind_eq_ok_iff.mp h
    obtain ⟨rfl, -⟩ := call_pure_eq_ok_iff.mp h
    have hall := (forall₂_of_call_mapM hinverses).imp fun x y ⟨_, _, hy⟩ => inverse_of_call_invertStep hy
    -- The inverses are asked for from the last step to the first one.
    rw [← inverses.reverse_reverse] at hall
    have hsteps := List.forall₂_reverse_iff.mp hall
    refine ⟨(inverses.reverse).map (·.step), ?_, ?_⟩
    · exact List.forall₂_map_left_iff.mpr (List.forall₂_map_right_iff.mpr hsteps)
    · simp [transform, Transform.steps]

/-! ## What operations make -/

/-- Transforms that come about from single steps by any sequence of concatenations and inversions, in any
    session. To concatenate three transforms is to concatenate twice. -/
inductive Derived : TransformObject → Prop where
  | step (x : StepObject) : Derived (step x)
  | concatenate {a b c : TransformObject} {s s' : Session} :
      Derived a → Derived b → (join a b).call s = (.ok c, s') → Derived c
  | inverse {t u : TransformObject} {s s' : Session} :
      Derived t → (invertTransform t).call s = (.ok u, s') → Derived u

namespace Derived

/-- Whatever is `Derived` from steps has some. -/
theorem steps_ne_nil (h : Derived t) : t.steps ≠ [] := by
  induction h with
  | step x => exact List.cons_ne_nil _ _
  | concatenate _ _ hc iha _ =>
    obtain ⟨-, rfl⟩ := of_call_join hc
    exact List.append_ne_nil_of_left_ne_nil iha _
  | inverse _ hu ih =>
    obtain ⟨undos, hundos, hsteps⟩ := steps_of_call_invertTransform hu
    have hlength := hundos.length_eq
    have hlength' := congrArg List.length hsteps
    simp only [steps_transform, List.length_map, List.length_reverse] at hlength hlength'
    rw [← List.length_pos_iff] at ih ⊢
    omega

/-- So has its `transform`. -/
theorem transform_steps_ne_nil (h : Derived t) : t.transform.steps ≠ [] := by
  simpa using h.steps_ne_nil

/-- The steps lead from the source to the target, whichever operations were carried out. -/
theorem leads (h : Derived t) :
    Leads t.transform.source t.transform.steps t.transform.target := by
  have hne := h.transform_steps_ne_nil
  -- The ends are those of the steps, so inside the induction any ends will do.
  obtain ⟨d, e, hleads⟩ : ∃ d e, Leads d t.transform.steps e := by
    clear hne
    induction h with
    | step x => exact ⟨_, _, .cons rfl (.nil _)⟩
    | @concatenate a b c _ _ ha hb hc iha ihb =>
      obtain ⟨hfit, rfl⟩ := of_call_join hc
      obtain ⟨d, e, hfirst⟩ := iha
      obtain ⟨d', e', hsecond⟩ := ihb
      rw [hfirst.target_eq ha.transform_steps_ne_nil,
        hsecond.source_eq hb.transform_steps_ne_nil] at hfit
      rw [transform_chain_append]
      exact ⟨d, e', hfirst.append (hfit ▸ hsecond)⟩
    | inverse _ hu ih =>
      obtain ⟨d, e, hthere⟩ := ih
      obtain ⟨undos, hundos, hsteps⟩ := steps_of_call_invertTransform hu
      rw [hsteps]
      exact ⟨e, d, hthere.of_inverses hundos⟩
  rwa [hleads.source_eq hne, hleads.target_eq hne]

/-- Chains have at least two steps. -/
theorem two_le_length (h : Derived t) {mark : Mark} {steps : List StepObject}
    (ht : t = chain mark steps) : 2 ≤ steps.length := by
  induction h generalizing mark steps with
  | step x => exact nomatch ht
  | concatenate ha hb hc _ _ =>
    obtain ⟨-, rfl⟩ := of_call_join hc
    obtain ⟨-, rfl⟩ := chain.inj ht
    have hfirst := List.length_pos_iff.mpr ha.steps_ne_nil
    have hsecond := List.length_pos_iff.mpr hb.steps_ne_nil
    rw [List.length_append]
    omega
  | @inverse t u s s' _ hu ih =>
    subst ht
    -- A step is inverted to a step, which is no chain.
    cases t with
    | step x =>
      obtain ⟨y, _, -, h⟩ := call_bind_eq_ok_iff.mp hu
      exact nomatch (call_pure_eq_ok_iff.mp h).1
    | chain mark' steps' =>
      obtain ⟨undos, hundos, hsteps⟩ := steps_of_call_invertTransform hu
      have hlength := hundos.length_eq
      have hlength' := congrArg List.length hsteps
      simp only [steps_transform, TransformObject.steps, List.length_map, List.length_reverse]
        at hlength hlength'
      have := ih rfl
      omega

end Derived

/-! ## Three transforms -/

/-- Joining three transforms from the left. -/
def joinLeft (a b c : TransformObject) : Procedure TransformObject := do join (← join a b) c

/-- Joining three transforms from the right. -/
def joinRight (a b c : TransformObject) : Procedure TransformObject := do join a (← join b c)

/-- Transforms were not joined because of their dimensions. -/
def Mismatched {β : Type} (outcome : Except Failure β × Session) : Prop :=
  ∃ target source, outcome.1 = .error (.chainDimensions target source)

theorem Mismatched.of_eq {β : Type} {outcome : Except Failure β × Session} {target source : Int} {s' : Session}
    (h : outcome = (.error (.chainDimensions target source), s')) : Mismatched outcome :=
  ⟨target, source, congrArg Prod.fst h⟩

theorem Mismatched.bind {β γ : Type} {x : Procedure β} {f : β → Procedure γ} (h : Mismatched (x.call s)) :
    Mismatched ((x >>= f).call s) := by
  obtain ⟨target, source, hfails⟩ := h
  exact .of_eq (call_bind_of_error (Prod.ext hfails rfl))

/-- Each of three transforms ends where the next one starts. -/
def Fitting (a b c : TransformObject) : Prop :=
  a.transform.target = b.transform.source ∧ b.transform.target = c.transform.source

section Three

variable {x y z : String}

/-- A chain of joined objects starts where the first of them does and ends where the second does. -/
theorem ends_chain_append (h : a.transform.target = b.transform.source) (mark : Mark) :
    (chain mark (a.steps ++ b.steps)).transform.source = a.transform.source ∧
      (chain mark (a.steps ++ b.steps)).transform.target = b.transform.target := by
  rw [transform_chain_append]
  exact ⟨source_chain_append h, target_chain_append h⟩

/-- `joinLeft` makes the chain of all steps of three transforms that fit together. -/
theorem call_joinLeft (h : Fitting a b c) (s : Session) :
    ∃ mark s', (joinLeft a b c).call s = (.ok (.chain mark (a.steps ++ b.steps ++ c.steps)), s') := by
  obtain ⟨hab, hbc⟩ := h
  have hfit := (ends_chain_append hab (.made s.nextSerial)).2.trans hbc
  exact ⟨_, _, (call_bind_of_ok (call_join hab s)).trans (call_join hfit _)⟩

/-- `joinRight` makes the same chain, with a mark of its own. -/
theorem call_joinRight (h : Fitting a b c) (s : Session) :
    ∃ mark s', (joinRight a b c).call s = (.ok (.chain mark (a.steps ++ b.steps ++ c.steps)), s') := by
  obtain ⟨hab, hbc⟩ := h
  have hfit := hab.trans (ends_chain_append hbc (.made s.nextSerial)).1.symm
  rw [List.append_assoc]
  exact ⟨_, _, (call_bind_of_ok (call_join hbc s)).trans (call_join hfit _)⟩

/-- `joinLeft` refuses three transforms that do not fit together, at the first or at the second
    join. -/
theorem mismatched_joinLeft (h : ¬Fitting a b c) (s : Session) :
    Mismatched ((joinLeft a b c).call s) := by
  by_cases hab : a.transform.target = b.transform.source
  · have hfit : (chain (.made s.nextSerial) (a.steps ++ b.steps)).transform.target ≠
        c.transform.source := fun hbc =>
      h ⟨hab, (ends_chain_append hab _).2.symm.trans hbc⟩
    exact .of_eq ((call_bind_of_ok (call_join hab s)).trans (call_join_error hfit _))
  · exact .of_eq (call_bind_of_error (call_join_error hab s))

/-- So does `joinRight`. -/
theorem mismatched_joinRight (h : ¬Fitting a b c) (s : Session) :
    Mismatched ((joinRight a b c).call s) := by
  -- Here the last two are joined first.
  by_cases hbc : b.transform.target = c.transform.source
  · have hfit : a.transform.target ≠
        (chain (.made s.nextSerial) (b.steps ++ c.steps)).transform.source := fun hab =>
      h ⟨hab.trans (ends_chain_append hbc _).1, hbc⟩
    exact .of_eq ((call_bind_of_ok (call_join hbc s)).trans (call_join_error hfit _))
  · exact .of_eq (call_bind_of_error (call_join_error hbc s))

/-- The command with three operands does what `joinLeft` does. -/
theorem call_concatenate (hx : s.lookup x = some (.transform a)) (hy : s.lookup y = some (.transform b))
    (hz : s.lookup z = some (.transform c)) :
    (TransformCommand.concatenate (some x) (some y) (some z)).execute.call s =
      (do return .transform (← joinLeft a b c) : Procedure Value).call s := by
  rw [TransformCommand.execute, call_bind_of_ok (call_value hx), call_bind_of_ok (call_value hy),
    call_bind_of_ok (call_value hz)]
  simp only [asTransform, pure_bind, joinLeft, bind_assoc]

/-- `stepsOf` lists the step objects of a transform. -/
theorem stepsOf_transform (t : TransformObject) :
    stepsOf (.transform t) = t.steps.map fun x => .transform (.step x) := by
  cases t <;> rfl

/-- Chains with the same steps are `equal`, whatever their marks. -/
theorem equal_of_steps_eq {mark mark' : Mark} {steps : List StepObject} (s : Session) :
    s.equal (.transform (chain mark steps)) (.transform (chain mark' steps)) = .ok (.plain true) := by
  have hsame : s.sameAtom (.transform (chain mark steps)) (.transform (chain mark' steps)) = true :=
    sameAs_refl (chain mark steps).transform
  rw [Session.equal, hsame]
  · rfl
  all_goals simp

end Three

/-! ## Chains -/

/-- Whatever concatenating and inverting make, a chain has at least two steps, none of which is a chain, and
    each ends where the next one starts; its class is that of the line or of the plane exactly if it starts
    and ends there. And it does not matter in which order three transforms are concatenated, or whether all
    at once: either their dimensions do not fit in any case, or the chains are equal and consist of the
    steps of the three. -/
theorem concatenate_sound :
    (∀ (mark : Mark) (steps : List StepObject), Derived (chain mark steps) →
      2 ≤ steps.length ∧
      (∀ x ∈ steps, stepsOf (.transform (step x)) = [.transform (step x)]) ∧
      (∀ (i : Nat) (h : i + 1 < steps.length), steps[i].step.target = steps[i + 1].step.source) ∧
      ((chain mark steps).transform.className = "ConcatenatedTransform1D" ↔
        (chain mark steps).transform.source = 1 ∧ (chain mark steps).transform.target = 1) ∧
      ((chain mark steps).transform.className = "ConcatenatedTransform2D" ↔
        (chain mark steps).transform.source = 2 ∧ (chain mark steps).transform.target = 2)) ∧
    (∀ (s : Session) (x y z : String) (a b c : TransformObject),
      s.lookup x = some (.transform a) → s.lookup y = some (.transform b) →
      s.lookup z = some (.transform c) →
      let command := TransformCommand.concatenate (some x) (some y) (some z)
      (Mismatched ((joinLeft a b c).call s) ∧ Mismatched ((joinRight a b c).call s) ∧
        Mismatched (command.execute.call s)) ∨
      ∃ left right whole s₁ s₂ s₃,
        (joinLeft a b c).call s = (.ok left, s₁) ∧ (joinRight a b c).call s = (.ok right, s₂) ∧
        command.execute.call s = (.ok (.transform whole), s₃) ∧
        (∀ t ∈ [left, right, whole], ∀ u ∈ [left, right, whole], ∀ s' : Session,
          s'.equal (.transform t) (.transform u) = .ok (.plain true)) ∧
        ∀ t ∈ [left, right, whole], stepsOf (.transform t) =
          stepsOf (.transform a) ++ stepsOf (.transform b) ++ stepsOf (.transform c)) := by
  constructor
  · intro mark steps h
    obtain ⟨hline, hplane⟩ := className_chain_eq_iff (steps.map (·.step))
    refine ⟨h.two_le_length rfl, fun x _ => rfl, fun i hi => ?_, hline, hplane⟩
    have hlength : i + 1 < (chain mark steps).transform.steps.length := by
      rwa [steps_transform, List.length_map]
    have hadjacent := h.leads.target_getElem i hlength
    simp only [steps_transform, List.getElem_map] at hadjacent
    exact hadjacent
  · intro s x y z a b c hx hy hz command
    have hcommand := call_concatenate hx hy hz
    by_cases hfit : Fitting a b c
    · obtain ⟨mark₁, s₁, hleft⟩ := call_joinLeft hfit s
      obtain ⟨mark₂, s₂, hright⟩ := call_joinRight hfit s
      refine .inr ⟨_, _, _, s₁, s₂, s₁, hleft, hright, hcommand.trans (call_bind_of_ok hleft), ?_, ?_⟩
      · -- All three are chains of the same steps.
        have hchain (t : TransformObject) (ht : t ∈ [chain mark₁ (a.steps ++ b.steps ++ c.steps),
            chain mark₂ (a.steps ++ b.steps ++ c.steps),
            chain mark₁ (a.steps ++ b.steps ++ c.steps)]) :
            ∃ mark, t = chain mark (a.steps ++ b.steps ++ c.steps) := by
          simp only [List.mem_cons, List.not_mem_nil, or_false] at ht
          obtain rfl | rfl | rfl := ht <;> exact ⟨_, rfl⟩
        intro t ht u hu s'
        obtain ⟨mark, rfl⟩ := hchain t ht
        obtain ⟨mark', rfl⟩ := hchain u hu
        exact equal_of_steps_eq s'
      · intro t ht
        have hsteps : t.steps = a.steps ++ b.steps ++ c.steps := by
          simp only [List.mem_cons, List.not_mem_nil, or_false] at ht
          obtain rfl | rfl | rfl := ht <;> rfl
        simp only [stepsOf_transform, hsteps, List.map_append]
    · refine .inl ⟨mismatched_joinLeft hfit s, mismatched_joinRight hfit s, ?_⟩
      rw [hcommand]
      exact (mismatched_joinLeft hfit s).bind

/-- Exchanging two ordinates and then nothing more, inverted, is a chain of two steps; put in front of the
    exchange and behind it, it gives the same four steps in whichever order. -/
theorem concatenate_sound_swap :
    ∃ (swap stay undo : StepObject) (s : Session) (left right whole : TransformObject)
      (s₁ s₂ s₃ : Session),
      Derived (chain (.made 7) [stay, undo]) ∧ stay.step.target = undo.step.source ∧
      (chain (.made 7) [stay, undo]).transform.className = "ConcatenatedTransform2D" ∧
      s.lookup "there" = some (.transform (step swap)) ∧
      s.lookup "back" = some (.transform (chain (.made 7) [stay, undo])) ∧
      (joinLeft (step swap) (chain (.made 7) [stay, undo]) (step swap)).call s = (.ok left, s₁) ∧
      (joinRight (step swap) (chain (.made 7) [stay, undo]) (step swap)).call s = (.ok right, s₂) ∧
      (TransformCommand.concatenate (some "there") (some "back") (some "there")).execute.call s =
        (.ok (.transform whole), s₃) ∧
      s.equal (.transform left) (.transform right) = .ok (.plain true) ∧
      stepsOf (.transform whole) =
        [.transform (step swap), .transform (step stay), .transform (step undo),
          .transform (step swap)] := by
  let swap : StepObject := ⟨.linear (.selection 2 [1, 0]), .made 0, .made 1⟩
  let stay : StepObject := ⟨.linear (.identity 2), .made 2, .made 3⟩
  let undo : StepObject := ⟨.linear (.selection 2 [1, 0]), .made 5, .made 6⟩
  let before : Session := { Session.start with nextSerial := 4 }
  have hjoin := call_join (a := step swap) (b := step stay) rfl before
  have hinvert : (invertTransform (chain (.made 4) [swap, stay])).call
      { before with nextSerial := 5 } =
        (.ok (chain (.made 7) [stay, undo]), { before with nextSerial := 8 }) := rfl
  have hderived : Derived (chain (.made 7) [stay, undo]) :=
    .inverse (.concatenate (.step swap) (.step stay) hjoin) hinvert
  obtain ⟨-, -, hadjacent, -, hplane⟩ := concatenate_sound.1 _ _ hderived
  let s := ({ before with nextSerial := 8 }.assign "there" (.transform (step swap))).assign "back"
    (.transform (chain (.made 7) [stay, undo]))
  obtain ⟨⟨target, source, hmismatch⟩, -⟩ | ⟨left, right, whole, s₁, s₂, s₃, hleft, hright, hwhole,
      hequal, hsteps⟩ :=
    concatenate_sound.2 s "there" "back" "there" (step swap) (chain (.made 7) [stay, undo])
      (step swap) rfl rfl rfl
  · exact nomatch hmismatch
  · exact ⟨swap, stay, undo, s, left, right, whole, s₁, s₂, s₃, hderived,
      hadjacent 0 (Nat.lt_succ_self 1), hplane.mpr ⟨rfl, rfl⟩, rfl, rfl, hleft, hright, hwhole,
      hequal left (by simp) right (by simp) s, hsteps whole (by simp)⟩

end TransformObject

end Georef
