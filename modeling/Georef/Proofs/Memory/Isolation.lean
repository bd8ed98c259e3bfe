import Georef.Proofs.Memory.Sessions

/-!
# Isolation of matrices that are being built

After every run in memory, whether its instructions succeed or fail, a change of a matrix that is being
built is seen through just those variables that refer to this matrix, and a change that fails leaves all as
it was. What was published, copied or made a transform of before stays what it was.

## Key results

- `seen?_perform_change`: a change, as it is seen through all variables
- `builders_isolated`: matrices being built do not share anything with others, along all runs
-/

namespace Georef

namespace Heap

variable {h h' : Heap} {o : Object} {name : String} {k : Nat} {changed : Nat → Prop}

/-- What is seen of an object by those who look at the elements, also of a matrix that is being built. -/
def seen? (h : Heap) : Object → Option Shown
  | .builder address => (h.builderAt? address).map .matrix
  | o => some (h.shown o)

/-- What was not changed is `seen?` as before. -/
theorem Keeps.seen? (hk : Keeps changed h h') (ho : h.Sound o) (hnot : ∀ k, o = .builder k → ¬ changed k) :
    h'.seen? o = h.seen? o := by
  cases o with
  | builder k => exact congrArg (Option.map Shown.matrix) (hk.builderAt? ho (hnot k rfl))
  | matrix a => exact congrArg some (hk.shown ho)
  | transform t => exact congrArg some (hk.shown ho)

/-- After `perform`, variables other than the one for the answer refer to what they referred to. -/
theorem lookup_perform (hs : h.Separate) {i : HeapInstruction} (hname : some name ≠ i.variableName) :
    (h.perform i).2.lookup name = h.lookup name := by
  have hbindings := (step_execute hs i.operation).bindings
  unfold perform
  generalize i.operation.execute.call h = outcome at hbindings ⊢
  obtain ⟨_ | o, h'⟩ := outcome
  · exact congrArg (List.lookup name) hbindings
  · cases hvariable : i.variableName with
    | none => exact congrArg (List.lookup name) hbindings
    | some held =>
      have hne : name ≠ held := fun heq => hname (heq ▸ hvariable.symm)
      rw [lookup_assign, if_neg hne]
      exact congrArg (List.lookup name) hbindings

/-- What `perform` answers is `Sound` in the memory that is left. -/
theorem sound_perform (hs : h.Separate) {i : HeapInstruction} (hi : h.perform i = (.ok o, h')) :
    h'.Sound o := by
  have hstep := step_execute hs i.operation
  unfold perform at hi
  generalize i.operation.execute.call h = outcome at hstep hi
  obtain ⟨_ | answer, after⟩ := outcome
  · exact nomatch hi
  · obtain ⟨hanswer, rfl⟩ := Prod.mk.inj hi
    obtain rfl := Except.ok.inj hanswer
    have hsound : after.Sound answer := hstep.sound hs rfl
    cases i.variableName with
    | none => exact hsound
    | some name => exact sound_assign hsound name answer

/-! ## Changes -/

open Georef.Action HeapAction

/-- A change through a variable that refers to a matrix being built makes of it what
    `MatrixChange.result` says, or nothing is done at all. -/
theorem perform_change (hs : h.Separate) (hname : h.lookup name = some (.builder k))
    (c : MatrixChange Numeral) (variableName : Option String) :
    ∃ m, h.builderAt? k = some m ∧
      match c.read.bind (·.result m) with
      | .error e => h.perform ⟨.change name c, variableName⟩ = (.error e, h)
      | .ok changed => ∃ after, h.perform ⟨.change name c, variableName⟩ = (.ok (.builder k), after) ∧
          after.builderAt? k = some changed := by
  obtain ⟨a, ha⟩ := hs.exists_array hname
  refine ⟨h.contents a, builderAt?_eq ha, ?_⟩
  simp only [perform, HeapOperation.execute, call_bind, call_lift, call_object hname]
  cases c.read with
  | error e => rfl
  | ok c =>
    have hchanged := changed_write ha (hs.fits ha) c
    simp only [call_asBuilder ha, Except.bind]
    generalize c.result (h.contents a) = result at hchanged ⊢
    generalize (c.write k a).call h = outcome at hchanged ⊢
    -- The step has failed, or has written; then the array of the matrix shows the result.
    cases hchanged with
    | fails e => rfl
    | writes hw hm =>
      cases variableName with
      | none => exact ⟨_, rfl, hm ▸ hw.builderAt?_self⟩
      | some name => exact ⟨_, rfl, hm ▸ hw.builderAt?_self⟩

/-- Nothing is changed through a variable that refers to something else: `perform` fails and leaves
    memory as it was. -/
theorem perform_change_of_not_builder (hne : ∀ k, h.lookup name ≠ some (.builder k))
    (c : MatrixChange Numeral) (variableName : Option String) :
    ∃ e, h.perform ⟨.change name c, variableName⟩ = (.error e, h) := by
  simp only [perform, HeapOperation.execute, call_bind, call_lift]
  cases hname : h.lookup name with
  | none => exact ⟨_, by rw [call_object_of_none hname]⟩
  | some o =>
    simp only [call_object hname]
    cases c.read with
    | error e => exact ⟨e, rfl⟩
    | ok c =>
      cases o with
      | builder k => exact absurd hname (hne k)
      | matrix a => exact ⟨_, rfl⟩
      | transform t => exact ⟨_, rfl⟩

/-- What is `seen?` of all objects after a change. -/
theorem seen?_perform_change (hs : h.Separate) (hname : h.lookup name = some (.builder k))
    {c : MatrixChange Numeral} {variableName : Option String} {changed : Matrix Double}
    (hperform : h.perform ⟨.change name c, variableName⟩ = (.ok (.builder k), h'))
    (hchanged : h'.builderAt? k = some changed) (ho : h.Sound o) :
    h'.seen? o = if o = .builder k then some (.matrix changed) else h.seen? o := by
  by_cases heq : o = .builder k
  · rw [if_pos heq, heq, seen?, hchanged]
    rfl
  · have hkeeps := keeps_perform hs ⟨.change name c, variableName⟩
    rw [hperform] at hkeeps
    rw [if_neg heq]
    refine hkeeps.seen? ho fun j hj hchanges => heq ?_
    obtain rfl := Object.builder.inj (Option.some.inj (hname.symm.trans hchanges.1))
    exact hj

/-! ## Answers -/

/-- The address of a matrix being built that `perform` answers is new unless the matrix was only
    passed on or changed. -/
theorem new_of_perform (hs : h.Separate) {i : HeapInstruction} (hi : h.perform i = (.ok (.builder k), h')) :
    h.builderAt? k = none ∨ (∃ name, i.operation = .share name) ∨
      ∃ name c, i.operation = .change name c := by
  have hstep := step_execute hs i.operation
  unfold perform at hi
  generalize i.operation.execute.call h = outcome at hstep hi
  obtain ⟨_ | answer, after⟩ := outcome
  · exact nomatch hi
  · obtain ⟨hanswer, -⟩ := Prod.mk.inj hi
    rcases hstep.address hanswer with rfl | hold
    · left
      simp [builderAt?]
    · exact .inr hold

/-- Objects look the same throughout a `run`, apart from the matrices being built that it changes. -/
theorem seen?_run (hs : h.Separate) (ho : h.Sound o) {instructions : List HeapInstruction}
    (hnot : ∀ k, o = .builder k → ¬ h.ChangesDuring k instructions) :
    (h.run instructions).seen? o = h.seen? o :=
  (keeps_run hs instructions).seen? ho hnot

/-- Matrices that are being built share nothing with others, after every run in which each instruction may
succeed or fail. First, a change through a variable is seen through the variables that refer to the same
matrix being built, and through no others; and a change that fails leaves memory as it was. Second, what an
instruction answers, be it a matrix, a transform or a copy, looks the same after every later run, unless it
is a matrix being built that this run changes; and a matrix being built is a new one unless it was passed
on or changed. Third, sessions do the same: they answer what memory answers and hold what memory holds. -/
theorem builders_isolated (earlier : List HeapInstruction) :
    let h := start.run earlier
    let s := Session.start.run (earlier.map HeapInstruction.instruction)
    (∀ name c variableName,
      (∀ k, h.lookup name = some (.builder k) → ∃ m, h.builderAt? k = some m ∧
        match c.read.bind (·.result m) with
        | .error e => h.perform ⟨.change name c, variableName⟩ = (.error e, h)
        | .ok changed => ∃ after, h.perform ⟨.change name c, variableName⟩ = (.ok (.builder k), after) ∧
          ∀ other o, some other ≠ variableName → h.lookup other = some o →
            after.lookup other = some o ∧
              after.seen? o = if o = .builder k then some (.matrix changed) else h.seen? o) ∧
      ((∀ k, h.lookup name ≠ some (.builder k)) →
        ∃ e, h.perform ⟨.change name c, variableName⟩ = (.error e, h))) ∧
    (∀ i o after, h.perform i = (.ok o, after) →
      (∀ later, (∀ k, o = .builder k → ¬ after.ChangesDuring k later) →
        (after.run later).seen? o = after.seen? o) ∧
      ∀ k, o = .builder k → h.builderAt? k = none ∨ (∃ name, i.operation = .share name) ∨
        ∃ name c, i.operation = .change name c) ∧
    (∀ i, (s.perform i.instruction).1.map Value.shown? =
      (h.perform i).1.map fun o => some ((h.perform i).2.shown o)) ∧
    (∀ name, (s.lookup name).map Value.shown? = (h.lookup name).map fun o => some (h.shown o)) ∧
    ∀ k, s.builderAt? k = h.builderAt? k := by
  intro h s
  -- Both invariants hold after any run, and everything is read off them.
  have hs : h.Separate := separate_run separate_start earlier
  have hr : h.Represents s := represents_run separate_start represents_start earlier
  refine ⟨fun name c variableName => ⟨fun k hname => ?_, fun hne => ?_⟩, fun i o after hi => ⟨?_, ?_⟩,
    fun i => (agrees_perform hs hr i).1, hr.lookup, hr.builderAt?⟩
  · -- The change is made of the matrix at this address, and no other object sees it.
    obtain ⟨m, hm, hperform⟩ := perform_change hs hname c variableName
    refine ⟨m, hm, ?_⟩
    split at hperform
    · exact hperform
    · obtain ⟨after, hperform, hchanged⟩ := hperform
      refine ⟨after, hperform, fun other o hother ho => ⟨?_, ?_⟩⟩
      · have hlookup := lookup_perform hs (i := ⟨.change name c, variableName⟩) hother
        rw [hperform] at hlookup
        exact hlookup.trans ho
      · exact seen?_perform_change hs hname hperform hchanged (hs.lookup ho)
  · exact perform_change_of_not_builder hne c variableName
  · intro later hnot
    have hafter : after.Separate := by
      have hseparate := separate_perform hs i
      rwa [hi] at hseparate
    exact seen?_run hafter (sound_perform hs hi) hnot
  · rintro k rfl
    exact new_of_perform hs hi

/-- A matrix of zeros that two variables refer to, with what was made of it. Its first element becomes one,
but there is no fourth row to be changed. -/
theorem builders_isolated_shared :
    let h := start.run [⟨.make .builder (.zeros 3 3), some "b"⟩, ⟨.share "b", some "c"⟩,
      ⟨.build "b", some "m"⟩, ⟨.linear "b", some "t"⟩]
    let m : Object := .matrix ⟨1, 3, 3⟩
    let t : Object := .transform (.projective true ⟨2, 3, 3⟩)
    let set (row : Int) : HeapInstruction := ⟨.change "c" (.element row 0 (.named 1)), none⟩
    let zeros : Matrix Double := .zeros 3 3
    (h.lookup "b" = some (.builder 0) ∧ h.lookup "c" = some (.builder 0) ∧ h.lookup "m" = some m ∧
      h.lookup "t" = some t) ∧
    h.perform (set 3) = (.error (.elementIndex 3 0 3 3), h) ∧
    (∃ after, h.perform (set 0) = (.ok (.builder 0), after) ∧
      after.seen? (.builder 0) = some (.matrix (zeros.withEntry 0 0 1)) ∧
      after.seen? m = some (.matrix zeros) ∧ after.seen? t = some (.transform (.projective true zeros))) ∧
    ∃ after, h.perform ⟨.copy "b" .deep, some "d"⟩ = (.ok (.builder 1), after) ∧
      (after.run [set 0, set 3, set 1]).seen? (.builder 1) = some (.matrix zeros) := by
  intro h m t set zeros
  obtain ⟨hchange, hanswer, -⟩ := builders_isolated [⟨.make .builder (.zeros 3 3), some "b"⟩,
    ⟨.share "b", some "c"⟩, ⟨.build "b", some "m"⟩, ⟨.linear "b", some "t"⟩]
  have hb : h.lookup "b" = some (.builder 0) := by decide +kernel
  have hc : h.lookup "c" = some (.builder 0) := by decide +kernel
  have hm : h.lookup "m" = some m := by decide +kernel
  have ht : h.lookup "t" = some t := by decide +kernel
  have hzeros : h.builderAt? 0 = some zeros := by decide +kernel
  refine ⟨⟨hb, hc, hm, ht⟩, ?_, ?_, ?_⟩
  · obtain ⟨x, hx, hset⟩ := (hchange "c" (.element 3 0 (.named 1)) none).1 0 hc
    obtain rfl := Option.some.inj (hzeros.symm.trans hx)
    exact hset
  · obtain ⟨x, hx, hset⟩ := (hchange "c" (.element 0 0 (.named 1)) none).1 0 hc
    obtain rfl := Option.some.inj (hzeros.symm.trans hx)
    obtain ⟨after, hafter, hseen⟩ := hset
    refine ⟨after, hafter, ?_, ?_, ?_⟩
    · exact (hseen "b" _ nofun hb).2
    · exact (hseen "m" _ nofun hm).2
    · exact (hseen "t" _ nofun ht).2
  · let after := (h.perform ⟨.copy "b" .deep, some "d"⟩).2
    have hafter : h.perform ⟨.copy "b" .deep, some "d"⟩ = (.ok (.builder 1), after) := rfl
    -- The changes are changes of the copied matrix and not of the copy.
    have hnot : ¬ after.ChangesDuring 1 [set 0, set 3, set 1] := by
      rintro (⟨hfirst, -⟩ | ⟨hsecond, -⟩ | ⟨hthird, -⟩ | hend)
      · exact absurd hfirst (by decide +kernel)
      · exact absurd hsecond (by decide +kernel)
      · exact absurd hthird (by decide +kernel)
      · exact hend
    refine ⟨after, hafter, ?_⟩
    rw [(hanswer _ _ after hafter).1 _ fun k hk => Object.builder.inj hk ▸ hnot]
    decide +kernel

end Heap

end Georef
