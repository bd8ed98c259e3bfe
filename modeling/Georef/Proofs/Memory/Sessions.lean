import Georef.Proofs.Memory.Steps
import Georef.Proofs.Session.Procedure
import Georef.Proofs.Transform.NormalForm

/-!
# Memory and sessions

A session keeps matrices by value where memory keeps references. What is done in memory is what a session
does: instructions fail in one if they fail in the other, with the same failure, and afterwards every
variable shows the same. So a session may forget which arrays share a block.

## Key results

- `agrees_execute`: an operation
- `agrees_perform`: an instruction, with what it answers
- `represents_run`: a run
-/

namespace Georef

/-! ## Instructions of sessions -/

/-- The command that makes the matrix. -/
def MatrixSource.command (kind : MatrixKind) : MatrixSource → MatrixCommand
  | elements rows cols given => .create kind rows cols given
  | identity size => .identity kind size
  | zeros rows cols => .zeros kind rows cols
  | table numbers => .ofArray kind numbers

/-- The command that changes the matrix of a variable. -/
def MatrixChange.command (name : String) : MatrixChange Numeral → MatrixCommand
  | element row col x => .setElement (some name) row col x
  | elements given => .setElements (some name) given
  | transpose => .transpose (some name)
  | normalizeColumns => .normalizeColumns (some name)

/-- The command of a session for an operation. -/
def HeapOperation.command : HeapOperation → Command
  | make kind source => .matrix (source.command kind)
  | share name => .matrix (.reveal (some name))
  | build name => .matrix (.build (some name))
  | toBuilder name => .matrix (.toBuilder (some name))
  | copy name mode => .matrix (.copy (some name) mode)
  | linear name => .transform (.ofMatrix (.held (some name)))
  | change name c => .matrix (c.command name)

/-- The instruction of a session. -/
def HeapInstruction.instruction (i : HeapInstruction) : Instruction := ⟨i.operation.command, i.variableName⟩

/-! ## Representation -/

/-- What a value shows to those who do not look at marks, if memory has such objects. -/
def Value.shown? : Value → Option Shown
  | matrix _ m => some (.matrix m)
  | builder address => some (.builder address)
  | transform (.step ⟨.linear t, _, _⟩) => some (.transform t)
  | _ => none

namespace Value

variable {v : Value} {m : Matrix Double} {k : Nat} {t : LinearTransform Double}

/-- Only a published matrix shows one. -/
theorem exists_of_shown?_matrix (h : v.shown? = some (.matrix m)) : ∃ mark, v = .matrix mark m := by
  unfold shown? at h
  split at h <;> simp_all

/-- Only a matrix that is being built shows an address. -/
theorem eq_of_shown?_builder (h : v.shown? = some (.builder k)) : v = .builder k := by
  unfold shown? at h
  split at h <;> simp_all

/-- Only a linear transform of one step shows one. -/
theorem exists_of_shown?_transform (h : v.shown? = some (.transform t)) :
    ∃ mark matrixMark, v = .transform (.step ⟨.linear t, mark, matrixMark⟩) := by
  unfold shown? at h
  split at h <;> simp_all

end Value

/-- A projective transform keeps the matrix that `ofMatrix` was given. -/
theorem LinearTransform.eq_of_ofMatrix_projective {m kept : Matrix Double} {planar : Bool}
    (h : ofMatrix m = .ok (projective planar kept)) : kept = m := by
  obtain ⟨-, -, hkept⟩ := ofMatrix_eq_ok_iff.mp h
  cases hkept with
  | planar => rfl
  | projective => rfl
  | selection _ hselection =>
    obtain ⟨places, -, heq⟩ := selection?_eq_some_iff.mp hselection
    exact nomatch heq

namespace Heap

variable {h h' : Heap} {s s' : Session} {a b : ArrayRef} {m : Matrix Double} {k : Nat} {o : Object}
  {v : Value} {name : String} {changed : Nat → Prop}

/-- The session has the matrices of memory, and its variables show what those of memory show. -/
structure Represents (h : Heap) (s : Session) : Prop where
  builderAt? : ∀ k, s.builderAt? k = h.builderAt? k
  bindings : s.bindings.map (fun b => (b.1, b.2.shown?)) =
    h.bindings.map fun b => (b.1, some (h.shown b.2))

/-- Nothing in memory is a new session. -/
theorem represents_start : start.Represents .start := ⟨fun _ => rfl, rfl⟩

/-- A variable is found wherever its entry is, whatever is made of the entries. -/
private theorem lookup_map {α β : Type} (f : α → β) (bindings : List (String × α)) (name : String) :
    (bindings.map fun b => (b.1, f b.2)).lookup name = (bindings.lookup name).map f := by
  induction bindings with
  | nil => rfl
  | cons b rest ih =>
    obtain ⟨other, x⟩ := b
    simp only [List.map_cons, List.lookup_cons, ih]
    cases name == other <;> rfl

namespace Represents

/-- In a session that memory `Represents`, variables show what they show in memory. -/
theorem lookup (hr : h.Represents s) (name : String) :
    (s.lookup name).map Value.shown? = (h.lookup name).map fun o => some (h.shown o) := by
  have heq := congrArg (List.lookup name) hr.bindings
  rwa [lookup_map, lookup_map (fun o => some (h.shown o))] at heq

/-- A variable of memory has a value in the session. -/
theorem exists_value (hr : h.Represents s) (ho : h.lookup name = some o) :
    ∃ v, s.lookup name = some v ∧ v.shown? = some (h.shown o) := by
  have heq := hr.lookup name
  rw [ho] at heq
  exact Option.map_eq_some_iff.mp heq

/-- A variable without an object has no value. -/
theorem lookup_of_none (hr : h.Represents s) (hnone : h.lookup name = none) : s.lookup name = none := by
  have heq := hr.lookup name
  rw [hnone] at heq
  exact Option.map_eq_none_iff.mp heq

/-- `matrix?` finds the elements that the array of a matrix being built shows. -/
theorem matrix?_builder (hr : h.Represents s) (ha : h.builders[k]? = some a) :
    s.matrix? (.builder k) = some (h.contents a) :=
  (hr.builderAt? k).trans (builderAt?_eq ha)

/-- As many matrices are being built in the session as in memory, so the next one has the same
    address. -/
theorem length (hr : h.Represents s) : s.builders.length = h.builders.length := by
  have hall : s.builders = h.builders.map h.contents :=
    List.ext_getElem? fun k => (hr.builderAt? k).trans List.getElem?_map.symm
  rw [hall, List.length_map]

/-- Variables show what they showed if memory has kept what it had: `Keeps` carries the
    representation on. -/
theorem keeps (hr : h.Represents s) (hs : h.Separate) (hk : Keeps changed h h')
    (hbindings : h'.bindings = h.bindings) (hvalues : s'.bindings = s.bindings)
    (hbuilders : ∀ k, s'.builderAt? k = h'.builderAt? k) : h'.Represents s' := by
  refine ⟨hbuilders, ?_⟩
  rw [hvalues, hbindings, hr.bindings]
  exact List.map_congr_left fun b hb => by rw [hk.shown (hs.sound hb)]

/-- Serial numbers do not matter, as memory has none. -/
theorem serial (hr : h.Represents s) (n : Nat) : h.Represents { s with nextSerial := n } :=
  ⟨hr.builderAt?, hr.bindings⟩

/-- A new block is nothing to the session. -/
theorem allocate (hr : h.Represents s) (hs : h.Separate) (m : Matrix Double) :
    (h.allocate m).Represents s := by
  have hkeeps : Keeps (fun _ => False) h (h.allocate m) := hs.keeps_allocate m
  refine hr.keeps hs hkeeps rfl rfl fun k => ?_
  by_cases hk : k < h.builders.length
  · exact (hr.builderAt? k).trans (hkeeps.builderAt? hk id).symm
  · rw [hr.builderAt? k]
    simp [Heap.builderAt?, Heap.allocate, List.getElem?_eq_none (Nat.le_of_not_lt hk)]

/-- One more matrix that is being built is one more for the session. -/
theorem build (hr : h.Represents s) (hs : h.Separate) (m : Matrix Double) :
    (h.build m).Represents (s.allocate m) := by
  have hkeeps : Keeps (fun _ => False) h (h.build m) := hs.keeps_build m
  refine hr.keeps hs hkeeps rfl rfl fun k => ?_
  -- The addresses that are taken, the new one, and those that are still free.
  rcases Nat.lt_trichotomy k h.builders.length with hlt | rfl | hgt
  · rw [s.builderAt?_allocate k m (hr.length ▸ hlt), hkeeps.builderAt? hlt id, hr.builderAt? k]
  · rw [builderAt?_build, ← hr.length]
    simp [Session.builderAt?, Session.allocate]
  · have hlength := hr.length
    have hnone : (h.build m).builders[k]? = none :=
      List.getElem?_eq_none (by simp [Heap.build, addBuilder, Heap.allocate]; omega)
    rw [Heap.builderAt?, hnone]
    exact List.getElem?_eq_none (by simp [Session.allocate]; omega)

/-- A change in memory is one of the value that the session has at the same address. -/
theorem writes (hr : h.Represents s) (hs : h.Separate) (hw : h.Writes k a b h') :
    h'.Represents (s.storeBuilder k (h'.contents b)) := by
  have hkeeps := hw.keeps hs
  have hlt : k < h.builders.length := (List.getElem?_eq_some_iff.mp hw.held).1
  refine hr.keeps hs hkeeps hw.bindings rfl fun j => ?_
  rw [s.builderAt?_storeBuilder k j _ (hr.length ▸ hlt)]
  by_cases hjk : k = j
  · rw [if_pos hjk, ← hjk, hw.builderAt?_self]
  · rw [if_neg hjk, hr.builderAt? j]
    by_cases hj : j < h.builders.length
    · exact (hkeeps.builderAt? hj (Ne.symm hjk)).symm
    · have hnone : h.builders[j]? = none := List.getElem?_eq_none (Nat.le_of_not_lt hj)
      simp [Heap.builderAt?, hw.getElem?_builders, Ne.symm hjk, hnone]

/-- `assign` gives a variable an object and a value that show the same. -/
theorem assign (hr : h.Represents s) (hv : v.shown? = some (h.shown o)) (name : String) :
    (h.assign name o).Represents (s.assign name v) := by
  refine ⟨hr.builderAt?, ?_⟩
  simp only [Heap.assign, Session.assign, List.map_cons, hv]
  exact congrArg _ hr.bindings

end Represents

/-! ## Operations -/

/-- A session ends as memory does: with the same failure, or with an answer that shows the same. -/
inductive Agrees : Except Failure Object × Heap → Except Failure Value × Session → Prop where
  | fails (e : Failure) {h' : Heap} {s' : Session} (hr : h'.Represents s') : Agrees (.error e, h') (.error e, s')
  | answers {o : Object} {h' : Heap} {v : Value} {s' : Session} (hv : v.shown? = some (h'.shown o))
      (hr : h'.Represents s') : Agrees (.ok o, h') (.ok v, s')

/-- An object that is a transform shows a linear transform, and so does its value. -/
theorem exists_transform {t : HeldTransform} (hshown : v.shown? = some (h.shown (.transform t))) :
    ∃ mark matrixMark linear, v = .transform (.step ⟨.linear linear, mark, matrixMark⟩) := by
  cases t with
  | numbers t =>
    obtain ⟨mark, matrixMark, rfl⟩ := Value.exists_of_shown?_transform hshown
    exact ⟨mark, matrixMark, t, rfl⟩
  | projective planar a =>
    obtain ⟨mark, matrixMark, rfl⟩ := Value.exists_of_shown?_transform hshown
    exact ⟨mark, matrixMark, _, rfl⟩

open Georef.Action HeapAction Procedure

/-- Commands that make a matrix read its numbers first, as `MatrixSource.matrix` does. -/
theorem call_command_source (source : MatrixSource) (kind : MatrixKind) (s : Session) :
    (source.command kind).execute.call s =
      ((liftM source.matrix : Procedure (Matrix Double)) >>= newMatrixOf kind).call s := by
  cases source with
  | elements rows cols given =>
    cases given with
    | none => rfl
    | some given =>
      simp only [MatrixSource.command, MatrixCommand.execute, MatrixSource.matrix, Option.mapM_some]
      cases given.mapM Numeral.value <;> rfl
  | identity size => rfl
  | zeros rows cols => rfl
  | table numbers =>
    simp only [MatrixSource.command, MatrixCommand.execute, MatrixSource.matrix]
    cases numbers.read <;> rfl

/-- Numbers are read by `MatrixChange.read` before anything is changed, but after the variable was
    looked up. -/
theorem call_command_change {shown : Shown} (hv : s.lookup name = some v) (hshown : v.shown? = some shown)
    (c : MatrixChange Numeral) :
    (c.command name).execute.call s =
      ((liftM c.read : Procedure (MatrixChange Double)) >>= fun c =>
        Procedure.change v fun m => c.result m).call s := by
  cases c with
  | element row col x =>
    simp only [MatrixChange.command, MatrixCommand.execute, MatrixChange.read]
    rw [call_bind_of_ok (call_value hv)]
    cases x.value <;> rfl
  | elements given =>
    simp only [MatrixChange.command, MatrixCommand.execute, MatrixChange.read]
    rw [call_bind_of_ok (call_value hv)]
    cases given.mapM Numeral.value <;> rfl
  | transpose =>
    simp only [MatrixChange.command, MatrixCommand.execute, MatrixChange.read]
    rw [call_bind_of_ok (call_value hv)]
    cases v with
    -- Arrays are transposed too, but memory has none.
    | array | element => cases hshown
    | _ => rfl
  | normalizeColumns =>
    simp only [MatrixChange.command, MatrixCommand.execute, MatrixChange.read]
    rw [call_bind_of_ok (call_value hv)]
    rfl

section

variable (hs : h.Separate) (hr : h.Represents s)

include hs hr

/-- `make` is the command for its source. -/
theorem agrees_make (kind : MatrixKind) (source : MatrixSource) :
    Agrees ((HeapOperation.make kind source).execute.call h)
      ((HeapOperation.make kind source).command.execute.call s) := by
  show Agrees _ ((source.command kind).execute.call s)
  rw [call_command_source]
  simp only [HeapOperation.execute, call_bind, call_lift]
  cases source.matrix with
  | error e => exact .fails e hr
  | ok m =>
    cases kind with
    | published =>
      refine .answers ?_ ((hr.allocate hs m).serial _)
      exact congrArg some shown_matrix_fresh.symm
    | builder =>
      refine .answers ?_ (hr.build hs m)
      exact congrArg (some ∘ Shown.builder) hr.length

omit hs in
/-- A variable is looked up in both, by `object` and by `value`, and what is done with the object is
    done with the value. -/
theorem agrees_object_bind {f : Object → HeapAction Object} {g : Value → Procedure Value}
    (hfound : ∀ o v, h.lookup name = some o → s.lookup name = some v → v.shown? = some (h.shown o) →
      Agrees ((f o).call h) ((g v).call s)) :
    Agrees ((object name >>= f).call h) ((value (some name) >>= g).call s) := by
  rw [call_bind]
  cases ho : h.lookup name with
  | none =>
    rw [call_object_of_none ho, call_bind_of_error (call_value_of_none (hr.lookup_of_none ho))]
    exact .fails _ hr
  | some o =>
    obtain ⟨v, hv, hshown⟩ := hr.exists_value ho
    rw [call_object ho, call_bind_of_ok (call_value hv)]
    exact hfound o v ho hv hshown

omit hs in
/-- `share` is the command that reveals a variable. -/
theorem agrees_share (name : String) :
    Agrees ((HeapOperation.share name).execute.call h)
      ((HeapOperation.share name).command.execute.call s) := by
  have hpure : Agrees ((object name >>= pure).call h) ((value (some name) >>= pure).call s) :=
    agrees_object_bind hr fun o v _ _ hshown => .answers hshown hr
  rwa [bind_pure, bind_pure] at hpure

/-- `build` publishes in both. -/
theorem agrees_build (name : String) :
    Agrees ((HeapOperation.build name).execute.call h)
      ((HeapOperation.build name).command.execute.call s) := by
  refine agrees_object_bind hr fun o v ho hv hshown => ?_
  -- Both sides see the same object, and only a matrix being built can be built.
  cases o with
  | builder k =>
    obtain rfl := Value.eq_of_shown?_builder hshown
    obtain ⟨a, ha⟩ := hs.exists_array ho
    simp only [call_bind, call_asBuilder ha, call_copyArray, call_matrix (hr.matrix?_builder ha)]
    refine .answers ?_ ((hr.allocate hs _).serial _)
    exact congrArg some shown_matrix_fresh.symm
  | matrix a =>
    obtain ⟨mark, rfl⟩ := Value.exists_of_shown?_matrix hshown
    exact .fails _ hr
  | transform t =>
    obtain ⟨mark, matrixMark, t, rfl⟩ := exists_transform hshown
    exact .fails _ hr

/-- `toBuilder` allocates in both. -/
theorem agrees_toBuilder (name : String) :
    Agrees ((HeapOperation.toBuilder name).execute.call h)
      ((HeapOperation.toBuilder name).command.execute.call s) := by
  refine agrees_object_bind hr fun o v ho hv hshown => ?_
  cases o with
  | matrix a =>
    obtain ⟨mark, rfl⟩ := Value.exists_of_shown?_matrix hshown
    simp only [call_bind, call_copyArray]
    refine .answers ?_ (hr.build hs _)
    exact congrArg (some ∘ Shown.builder) hr.length
  | builder k =>
    obtain rfl := Value.eq_of_shown?_builder hshown
    exact .fails _ hr
  | transform t =>
    obtain ⟨mark, matrixMark, t, rfl⟩ := exists_transform hshown
    exact .fails _ hr

/-- `copy` copies the elements in both, where there are any. -/
theorem agrees_copy (name : String) (mode : CopyMode) :
    Agrees ((HeapOperation.copy name mode).execute.call h)
      ((HeapOperation.copy name mode).command.execute.call s) := by
  refine agrees_object_bind hr fun o v ho hv hshown => ?_
  unfold copyValue
  rw [call_bind_of_ok (call_freshSerial s)]
  have hr' := hr.serial (s.nextSerial + 1)
  -- Which copy it is does not matter for the elements.
  have helements (m : Matrix Double) :
      Copying.elements ⟨mode, s.nextSerial⟩ m = Copying.elements ⟨mode, 0⟩ m := rfl
  match o with
  | .matrix a =>
    obtain ⟨mark, rfl⟩ := Value.exists_of_shown?_matrix hshown
    simp only [call_bind, call_copyArray, copyWith, call_lift, helements]
    cases Copying.elements ⟨mode, 0⟩ (h.contents a) with
    | error e => exact .fails e hr'
    | ok m =>
      refine .answers ?_ (hr'.allocate hs m)
      exact congrArg some shown_matrix_fresh.symm
  | .builder k =>
    obtain rfl := Value.eq_of_shown?_builder hshown
    obtain ⟨a, ha⟩ := hs.exists_array ho
    simp only [call_bind, call_builderArray ha, call_copyArray, copyWith,
      call_matrix (hr'.matrix?_builder ha), call_lift, helements]
    cases Copying.elements ⟨mode, 0⟩ (h.contents a) with
    | error e => exact .fails e hr'
    | ok m =>
      refine .answers ?_ (hr'.build hs m)
      exact congrArg (some ∘ Shown.builder) hr.length
  | .transform (.numbers t) =>
    obtain ⟨mark, matrixMark, rfl⟩ := Value.exists_of_shown?_transform hshown
    have hnumbers : ∀ planar m, t ≠ .projective planar m := hs.lookup ho
    cases t with
    | projective planar m => exact absurd rfl (hnumbers planar m)
    | _ => exact .answers rfl hr'
  | .transform (.projective planar a) =>
    obtain ⟨mark, matrixMark, rfl⟩ := Value.exists_of_shown?_transform hshown
    cases mode with
    | shallow => exact .answers rfl hr'
    | deep =>
      simp only [call_bind, call_copyArray]
      refine .answers ?_ (hr'.allocate hs _)
      exact congrArg some shown_projective_fresh.symm
    | archived =>
      simp only [call_bind, call_copyArray, copyWith, Copying.transform, Copying.step, helements]
      cases Copying.elements ⟨.archived, 0⟩ (h.contents a) with
      | error e => exact .fails e hr'
      | ok m =>
        refine .answers ?_ (hr'.allocate hs _)
        exact congrArg some shown_projective_fresh.symm

/-- `linear` makes the same transform in both. -/
theorem agrees_linear (name : String) :
    Agrees ((HeapOperation.linear name).execute.call h)
      ((HeapOperation.linear name).command.execute.call s) := by
  simp only [HeapOperation.execute, HeapOperation.command, Command.execute, TransformCommand.execute]
  refine agrees_object_bind hr fun o v ho hv hshown => ?_
  cases o with
  | matrix a =>
    obtain ⟨mark, rfl⟩ := Value.exists_of_shown?_matrix hshown
    simp only [homogeneousArray, homogeneousMatrix, call_bind, call_get, call_lift, pure_bind]
    cases ht : LinearTransform.ofMatrix (h.contents a) with
    | error e => exact .fails e hr
    | ok t =>
      cases t with
      | projective planar m =>
        obtain rfl := LinearTransform.eq_of_ofMatrix_projective ht
        exact .answers rfl (hr.serial _)
      | _ => exact .answers rfl (hr.serial _)
  | builder k =>
    obtain rfl := Value.eq_of_shown?_builder hshown
    obtain ⟨a, ha⟩ := hs.exists_array ho
    have hr' := hr.allocate hs (h.contents a)
    simp only [homogeneousArray, homogeneousMatrix, call_bind, call_builderArray ha, call_copyArray]
    simp only [Copying.elements, reduceCtorEq, if_false, call_get, call_lift, contents_fresh,
      call_matrix (hr.matrix?_builder ha), call_freshMark, call_pure]
    cases ht : LinearTransform.ofMatrix (h.contents a) with
    -- The published copy stays in memory even if no transform can be made of it.
    | error e => exact .fails e (hr'.serial _)
    | ok t =>
      cases t with
      | projective planar m =>
        obtain rfl := LinearTransform.eq_of_ofMatrix_projective ht
        refine .answers ?_ (hr'.serial _)
        exact congrArg some shown_projective_fresh.symm
      | _ => exact .answers rfl (hr'.serial _)
  | transform t =>
    obtain ⟨mark, matrixMark, t, rfl⟩ := exists_transform hshown
    simp only [homogeneousMatrix, matrixOfArray, Value.toTensor]
    exact .fails _ hr

/-- `change` writes in memory what the session computes. -/
theorem agrees_change (name : String) (c : MatrixChange Numeral) :
    Agrees ((HeapOperation.change name c).execute.call h)
      ((HeapOperation.change name c).command.execute.call s) := by
  simp only [HeapOperation.execute, call_bind, call_lift, HeapOperation.command, Command.execute]
  cases ho : h.lookup name with
  | none =>
    have hnone := call_value_of_none (hr.lookup_of_none ho)
    rw [call_object_of_none ho]
    have herror : (c.command name).execute.call s = (.error (.unknownVariable name), s) := by
      cases c <;> exact call_bind_of_error hnone
    rw [herror]
    exact .fails _ hr
  | some o =>
    obtain ⟨v, hv, hshown⟩ := hr.exists_value ho
    rw [call_object ho, call_command_change hv hshown]
    cases c.read with
    | error e => exact .fails e hr
    | ok c =>
      cases o with
      | builder k =>
        obtain rfl := Value.eq_of_shown?_builder hshown
        obtain ⟨a, ha⟩ := hs.exists_array ho
        -- Memory after a change is described by what the change makes of the matrix, which is what
        -- the session stores.
        have hchanged := changed_write ha (hs.fits ha) c
        simp only [call_asBuilder ha]
        show Agrees _ ((Procedure.change (.builder k) fun m => c.result m).call s)
        unfold Procedure.change
        rw [call_bind_of_ok (call_matrix (hr.matrix?_builder ha))]
        beta_reduce
        generalize (c.write k a).call h = outcome at hchanged ⊢
        cases hresult : c.result (h.contents a) with
        | error e =>
          rw [hresult] at hchanged
          cases hchanged
          exact .fails e hr
        | ok m =>
          rw [hresult] at hchanged
          cases hchanged with
          | writes hw hm =>
            subst hm
            exact .answers rfl (hr.writes hs hw)
      | matrix a =>
        obtain ⟨mark, rfl⟩ := Value.exists_of_shown?_matrix hshown
        exact .fails _ hr
      | transform t =>
        obtain ⟨mark, matrixMark, t, rfl⟩ := exists_transform hshown
        exact .fails _ hr

/-- `execute` of an operation does in a session what it does in memory. -/
theorem agrees_execute (op : HeapOperation) :
    Agrees (op.execute.call h) (op.command.execute.call s) := by
  cases op with
  | make kind source => exact agrees_make hs hr kind source
  | share name => exact agrees_share hr name
  | build name => exact agrees_build hs hr name
  | toBuilder name => exact agrees_toBuilder hs hr name
  | copy name mode => exact agrees_copy hs hr name mode
  | linear name => exact agrees_linear hs hr name
  | change name c => exact agrees_change hs hr name c

end

/-! ## Runs -/

/-- `perform` fails alike in both or has answers that show the same, and variables show the same
    after it. -/
theorem agrees_perform (hs : h.Separate) (hr : h.Represents s) (i : HeapInstruction) :
    (s.perform i.instruction).1.map Value.shown? =
        (h.perform i).1.map (fun o => some ((h.perform i).2.shown o)) ∧
      (h.perform i).2.Represents (s.perform i.instruction).2 := by
  have hagrees := agrees_execute hs hr i.operation
  unfold Heap.perform Session.perform
  simp only [HeapInstruction.instruction]
  generalize i.operation.execute.call h = outcome at hagrees ⊢
  generalize i.operation.command.execute.call s = result at hagrees ⊢
  cases hagrees with
  | fails e hr' => exact ⟨rfl, hr'⟩
  | answers hv hr' =>
    cases i.variableName with
    | none => exact ⟨congrArg Except.ok hv, hr'⟩
    | some name => exact ⟨congrArg Except.ok hv, hr'.assign hv name⟩

/-- A `run` in memory and the same run of a session. -/
theorem represents_run (hs : h.Separate) (hr : h.Represents s) (instructions : List HeapInstruction) :
    (h.run instructions).Represents (s.run (instructions.map HeapInstruction.instruction)) := by
  induction instructions generalizing h s with
  | nil => exact hr
  | cons i rest ih => exact ih (separate_perform hs i) (agrees_perform hs hr i).2

end Heap

end Georef
