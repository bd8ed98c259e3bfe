import Georef.Proofs.Matrix.Positive
import Georef.Proofs.Memory.Separation

/-!
# What operations do to memory

An operation leaves memory as it is, takes a new block, makes a new matrix that is being built in a new
block, or changes the one matrix being built that it is about. This is `Step`; whatever holds along all runs
follows from these cases and not from the operations one by one.

An operation that changes a matrix either changes it as `MatrixChange.result` says or fails and leaves
memory as it was.

## Key results

- `changed_write`: what becomes of the matrix that is changed
- `step_execute`: everything that an operation can do
- `separate_run`: all that is being built stays separate
- `keeps_run`: what a run leaves as it was
-/

namespace Georef

/-- `checkIndex` accepts the places that a matrix has. -/
theorem Matrix.checkIndex_eq_ok_iff {m : Matrix Double} {row col : Int} :
    m.checkIndex row col = .ok () ↔ 0 ≤ row ∧ row < m.rows ∧ 0 ≤ col ∧ col < m.cols := by
  rw [checkIndex]
  split <;> simp [*]

namespace Heap

variable {h h' : Heap} {a b : ArrayRef} {m : Matrix Double} {k : Nat} {o : Object} {name : String}
  {op : HeapOperation} {changed : Nat → Prop}

/-! ## Changes of a matrix being built -/

/-- What is there already may be put there again. -/
private theorem set_of_getElem? (ha : h.builders[k]? = some a) : h.builders.set k a = h.builders := by
  obtain ⟨hk, rfl⟩ := List.getElem?_eq_some_iff.mp ha
  exact List.set_getElem_self hk

/-- `setPlace` overwrites one place of the block. -/
theorem writes_setPlace (ha : h.builders[k]? = some a) (hfits : h.Fits a) (place : Nat) (x : Double) :
    h.Writes k a a (h.setPlace a.block place x) := by
  obtain ⟨elements, hblock, hsize⟩ := hfits
  refine ⟨ha, rfl, (set_of_getElem? ha).symm, by simp [setPlace], fun i hi hne => ?_, .inl rfl, ?_⟩
  · simp [setPlace, hne.symm]
  · exact ⟨elements.setIfInBounds place x, by simp [setPlace, hblock], by simp [hsize]⟩

/-- `setBlock` overwrites the whole block. -/
theorem writes_setBlock (ha : h.builders[k]? = some a) (hfits : h.Fits a) (hrows : a.rows = m.rows)
    (hcols : a.cols = m.cols) : h.Writes k a a (h.setBlock a.block m.elements) := by
  refine ⟨ha, rfl, (set_of_getElem? ha).symm, by simp [setBlock], fun i hi hne => ?_, .inl rfl, ?_⟩
  · simp [setBlock, hne.symm]
  · exact ⟨m.elements, by simp [setBlock, hfits.block_lt], by rw [m.size_eq, hrows, hcols]⟩

/-- The block stays, but its elements are read by columns: only the builder gets another array. -/
theorem writes_swapped (ha : h.builders[k]? = some a) (hfits : h.Fits a) :
    h.Writes k a ⟨a.block, a.cols, a.rows⟩ (h.setBuilder k ⟨a.block, a.cols, a.rows⟩) := by
  obtain ⟨elements, hblock, hsize⟩ := hfits
  exact ⟨ha, rfl, rfl, Nat.le_refl _, fun _ _ _ => rfl, .inl rfl, elements, hblock,
    hsize.trans (Nat.mul_comm _ _)⟩

/-- The matrix moves to a new block, that of `fresh`. -/
theorem writes_fresh (ha : h.builders[k]? = some a) :
    h.Writes k a (h.fresh m) ((h.allocate m).setBuilder k (h.fresh m)) :=
  ⟨ha, rfl, rfl, by simp [allocate, setBuilder], fun _ hi _ => List.getElem?_append_left hi,
    .inr (Nat.le_refl _), fits_fresh (h := h)⟩

/-- What is left after a change of the matrix with array `a` that gives another matrix or fails: memory in
which the other matrix is there, or the memory that was there. -/
inductive Changed (h : Heap) (k : Nat) (a : ArrayRef) :
    Except Failure (Matrix Double) → Except Failure Unit × Heap → Prop where
  | fails (e : Failure) : Changed h k a (.error e) (.error e, h)
  | writes {b : ArrayRef} {m : Matrix Double} {h' : Heap} (hw : h.Writes k a b h')
      (hm : h'.contents b = m) : Changed h k a (.ok m) (.ok (), h')

open Georef.Action HeapAction

/-- `write` changes a matrix that is being built as `MatrixChange.result` says, or it leaves memory
    as it was. -/
theorem changed_write (ha : h.builders[k]? = some a) (hfits : h.Fits a) (c : MatrixChange Double) :
    h.Changed k a (c.result (h.contents a)) ((c.write k a).call h) := by
  cases c with
  | element row col x =>
    simp only [MatrixChange.result, Matrix.setElement, MatrixChange.write, call_bind, call_get, call_lift]
    cases hindex : (h.contents a).checkIndex row col with
    | error e => exact .fails e
    | ok _ =>
      obtain ⟨hrow, hrow', hcol, hcol'⟩ := Matrix.checkIndex_eq_ok_iff.mp hindex
      simp only [rows_contents, cols_contents] at hrow' hcol'
      have hi : row.toNat < a.rows := by omega
      have hj : col.toNat < a.cols := by omega
      exact .writes (writes_setPlace ha hfits _ x) (contents_setPlace hfits hi hj x)
  | elements given =>
    simp only [MatrixChange.result, MatrixChange.write, call_bind, call_get, call_lift]
    cases hset : (h.contents a).setElements given with
    | error e => exact .fails e
    | ok changed =>
      obtain ⟨hrows, hcols⟩ := Matrix.size_setElements hset
      exact .writes (writes_setBlock ha hfits hrows.symm hcols.symm)
        (contents_setBlock_self hfits.block_lt hrows.symm hcols.symm)
  | transpose =>
    simp only [MatrixChange.result, MatrixChange.write, call_bind, call_get]
    -- A square matrix is transposed in its block, a single row is kept, and all others move.
    by_cases hsquare : a.rows = a.cols
    · rw [if_pos hsquare]
      exact .writes (writes_setBlock ha hfits hsquare hsquare.symm)
        (contents_setBlock_self hfits.block_lt hsquare hsquare.symm)
    · rw [if_neg hsquare]
      by_cases hsingle : a.rows ≤ 1 ∨ a.cols ≤ 1
      · rw [if_pos hsingle]
        exact .writes (writes_swapped ha hfits) (contents_swapped hsingle)
      · rw [if_neg hsingle]
        exact .writes (writes_fresh ha) contents_fresh
  | normalizeColumns =>
    exact .writes (writes_setBlock ha hfits rfl rfl) (contents_setBlock_self hfits.block_lt rfl rfl)

/-! ## Steps -/

/-- What an operation does to memory. -/
inductive Step (h : Heap) (op : HeapOperation) : Except Failure Object × Heap → Prop where
  | fails (e : Failure) : Step h op (.error e, h)
  /-- A matrix being built was copied before it turned out to be of no use. -/
  | failsLate (e : Failure) (m : Matrix Double) : Step h op (.error e, h.allocate m)
  | shares {name : String} {o : Object} (hop : op = .share name) (ho : h.lookup name = some o) :
      Step h op (.ok o, h)
  /-- A transform that takes no new block; its matrix is there already if it has one. -/
  | transforms {t : HeldTransform} (ht : h.Sound (.transform t)) : Step h op (.ok (.transform t), h)
  | publishes {m : Matrix Double} {o : Object} (ho : (h.allocate m).Sound o) (hnew : ∀ k, o ≠ .builder k) :
      Step h op (.ok o, h.allocate m)
  | builds (m : Matrix Double) : Step h op (.ok (.builder h.builders.length), h.build m)
  | changes {name : String} {c : MatrixChange Numeral} {k : Nat} {a b : ArrayRef} {h' : Heap}
      (hop : op = .change name c) (hname : h.lookup name = some (.builder k)) (hw : h.Writes k a b h') :
      Step h op (.ok (.builder k), h')

/-- The array of a matrix that is being built is there, if a variable refers to the matrix. -/
theorem Separate.exists_array (hs : h.Separate) (hname : h.lookup name = some (.builder k)) :
    ∃ a, h.builders[k]? = some a :=
  ⟨_, List.getElem?_eq_getElem (hs.lookup hname)⟩

/-- What an operation does with the `object` that it looks up is what it does. -/
theorem step_object_bind {f : Object → HeapAction Object}
    (hfound : ∀ o, h.lookup name = some o → h.Step op ((f o).call h)) :
    h.Step op ((object name >>= f).call h) := by
  rw [call_bind]
  cases hname : h.lookup name with
  | none => rw [call_object_of_none hname]; exact .fails _
  | some o => rw [call_object hname]; exact hfound o hname

/-- `share` passes an object on. -/
theorem step_share (name : String) : h.Step (.share name) ((HeapOperation.share name).execute.call h) := by
  have hpure : h.Step (.share name) ((object name >>= pure).call h) :=
    step_object_bind fun o hname => .shares rfl hname
  rwa [bind_pure] at hpure

/-- `toBuilder` copies a published matrix to one that is being built. -/
theorem step_toBuilder (name : String) :
    h.Step (.toBuilder name) ((HeapOperation.toBuilder name).execute.call h) := by
  refine step_object_bind fun o hname => ?_
  cases o with
  | matrix a =>
    simp only [call_bind, call_copyArray]
    exact .builds _
  | builder k => exact .fails _
  | transform t => exact .fails _

section

variable (hs : h.Separate)

include hs

/-- `make` publishes a new matrix or builds one. -/
theorem step_make (kind : MatrixKind) (source : MatrixSource) :
    h.Step (.make kind source) ((HeapOperation.make kind source).execute.call h) := by
  simp only [HeapOperation.execute, call_bind, call_lift]
  cases source.matrix with
  | error e => exact .fails e
  | ok m =>
    cases kind with
    | published => exact .publishes hs.published_fresh nofun
    | builder => exact .builds m

/-- `build` publishes a copy of a matrix that is being built. -/
theorem step_build (name : String) : h.Step (.build name) ((HeapOperation.build name).execute.call h) := by
  refine step_object_bind fun o hname => ?_
  cases o with
  | builder k =>
    obtain ⟨a, ha⟩ := hs.exists_array hname
    simp only [call_bind, call_asBuilder ha, call_copyArray]
    exact .publishes hs.published_fresh nofun
  | matrix a => exact .fails _
  | transform t => exact .fails _

/-- `copy` makes an object of the same kind; transforms without a matrix need no block. -/
theorem step_copy (name : String) (mode : CopyMode) :
    h.Step (.copy name mode) ((HeapOperation.copy name mode).execute.call h) := by
  refine step_object_bind fun o hname => ?_
  match o with
  | .matrix a =>
    simp only [call_bind, call_copyArray]
    cases Copying.elements ⟨mode, 0⟩ (h.contents a) with
    | error e => exact .fails e
    | ok m => exact .publishes hs.published_fresh nofun
  | .builder k =>
    obtain ⟨a, ha⟩ := hs.exists_array hname
    simp only [call_bind, call_builderArray ha, call_copyArray]
    cases Copying.elements ⟨mode, 0⟩ (h.contents a) with
    | error e => exact .fails e
    | ok m => exact .builds m
  | .transform (.numbers t) => exact .transforms (hs.lookup hname)
  | .transform (.projective planar a) =>
    -- A copy of a transform shares its matrix unless it is deep or goes through an archive.
    cases mode with
    | shallow => exact .transforms (hs.lookup hname)
    | deep =>
      simp only [call_bind, call_copyArray]
      exact .publishes hs.published_fresh nofun
    | archived =>
      simp only [call_bind, call_copyArray]
      cases Copying.elements ⟨.archived, 0⟩ (h.contents a) with
      | error e => exact .fails e
      | ok m => exact .publishes hs.published_fresh nofun

/-- `linear` makes a transform that refers to a published array if it keeps the matrix. -/
theorem step_linear (name : String) :
    h.Step (.linear name) ((HeapOperation.linear name).execute.call h) := by
  simp only [HeapOperation.execute]
  refine step_object_bind fun o hname => ?_
  cases o with
  | transform t => exact .fails _
  | matrix a =>
    -- The transform refers to the array of the matrix, which nobody writes into.
    have ha : h.Published a := hs.lookup hname
    simp only [homogeneousArray, call_bind, call_pure, call_get, call_lift]
    cases LinearTransform.ofMatrix (h.contents a) with
    | error e => exact .fails e
    | ok t =>
      cases t with
      | projective planar m => exact .transforms (t := .projective planar a) ha
      | _ => exact .transforms (t := .numbers _) nofun
  | builder k =>
    -- The transform is made of a published copy, which is in a new block.
    obtain ⟨a, ha⟩ := hs.exists_array hname
    simp only [homogeneousArray, call_bind, call_builderArray ha, call_copyArray]
    simp only [Copying.elements, reduceCtorEq, if_false, call_get, call_lift, contents_fresh]
    cases LinearTransform.ofMatrix (h.contents a) with
    | error e => exact .failsLate e _
    | ok t =>
      cases t with
      | projective planar m => exact .publishes hs.published_fresh nofun
      | _ => exact .publishes (o := .transform (.numbers _)) nofun nofun

/-- `change` fails or writes into the one matrix being built that the variable refers to. -/
theorem step_change (name : String) (c : MatrixChange Numeral) :
    h.Step (.change name c) ((HeapOperation.change name c).execute.call h) := by
  refine step_object_bind fun o hname => ?_
  simp only [call_bind, call_lift]
  cases c.read with
  | error e => exact .fails e
  | ok c =>
    cases o with
    | builder k =>
      obtain ⟨a, ha⟩ := hs.exists_array hname
      -- Of the change only its outcome matters from here on.
      have hchanged := changed_write ha (hs.fits ha) c
      simp only [call_asBuilder ha]
      generalize c.result (h.contents a) = result at hchanged
      generalize (c.write k a).call h = outcome at hchanged ⊢
      cases hchanged with
      | fails e => exact .fails e
      | writes hw hm => exact .changes rfl hname hw
    | matrix a => exact .fails _
    | transform t => exact .fails _

/-- Everything that an operation can do: `execute` takes a `Step`. -/
theorem step_execute (op : HeapOperation) : h.Step op (op.execute.call h) := by
  cases op with
  | make kind source => exact step_make hs kind source
  | share name => exact step_share name
  | build name => exact step_build hs name
  | toBuilder name => exact step_toBuilder name
  | copy name mode => exact step_copy hs name mode
  | linear name => exact step_linear hs name
  | change name c => exact step_change hs name c

end

/-! ## What steps leave as it was -/

/-- The operation is meant to change the matrix being built at an address. -/
def Changes (h : Heap) (k : Nat) : HeapOperation → Prop
  | .change name _ => h.lookup name = some (.builder k)
  | _ => False

instance (h : Heap) (k : Nat) (op : HeapOperation) : Decidable (h.Changes k op) :=
  match op with
  | .change name _ => inferInstanceAs (Decidable (h.lookup name = some (.builder k)))
  | .make .. | .share _ | .build _ | .toBuilder _ | .copy .. | .linear _ => .isFalse id

namespace Step

variable {outcome : Except Failure Object × Heap}

/-- No `Step` changes what variables refer to. -/
theorem bindings (hstep : h.Step op outcome) : outcome.2.bindings = h.bindings := by
  cases hstep with
  | changes hop hname hw => exact hw.bindings
  | _ => rfl

/-- A `Step` leaves all that is being built separate. -/
theorem separate (hstep : h.Step op outcome) (hs : h.Separate) : outcome.2.Separate := by
  cases hstep with
  | fails | shares | transforms => exact hs
  | failsLate e m => exact hs.allocate m
  | publishes => exact hs.allocate _
  | builds m => exact hs.build m
  | changes hop hname hw => exact hw.separate hs

/-- Only a change that succeeds changes anything: a `Step` keeps all else. -/
theorem keeps (hstep : h.Step op outcome) (hs : h.Separate) :
    Keeps (fun k => h.Changes k op ∧ ∃ o, outcome.1 = .ok o) h outcome.2 := by
  cases hstep with
  | fails | shares | transforms => exact .refl h
  | failsLate e m => exact hs.keeps_allocate m
  | publishes => exact hs.keeps_allocate _
  | builds m => exact hs.keeps_build m
  | changes hop hname hw =>
    -- The variable that the change is about refers to the address that is written.
    subst hop
    exact (hw.keeps hs).mono fun _ heq => ⟨heq ▸ hname, _, rfl⟩

/-- What a `Step` answers is `Sound`. -/
theorem sound (hstep : h.Step op outcome) (hs : h.Separate) (ho : outcome.1 = .ok o) :
    outcome.2.Sound o := by
  cases hstep with
  | fails | failsLate => exact nomatch ho
  | shares hop hname => exact Except.ok.inj ho ▸ hs.lookup hname
  | transforms ht => exact Except.ok.inj ho ▸ ht
  | publishes hsound => exact Except.ok.inj ho ▸ hsound
  | builds m =>
    obtain rfl := Except.ok.inj ho
    simp [Sound, build, addBuilder, allocate]
  | changes hop hname hw =>
    obtain rfl := Except.ok.inj ho
    exact (hw.keeps hs).sound (hs.lookup hname)

/-- A matrix being built that is the answer of a `Step` was there before or has a new address. -/
theorem address (hstep : h.Step op outcome) (ho : outcome.1 = .ok (.builder k)) :
    k = h.builders.length ∨ (∃ name, op = .share name) ∨ ∃ name c, op = .change name c := by
  cases hstep with
  | fails | failsLate | transforms => exact nomatch ho
  | shares hop => exact .inr (.inl ⟨_, hop⟩)
  | publishes _ hnew => exact absurd (Except.ok.inj ho) (hnew k)
  | builds => exact .inl (Object.builder.inj (Except.ok.inj ho)).symm
  | changes hop => exact .inr (.inr ⟨_, _, hop⟩)

end Step

/-! ## Runs -/

section Runs

/-- `assign` gives one variable an object and leaves the others alone. -/
theorem lookup_assign (h : Heap) (name other : String) (o : Object) :
    (h.assign name o).lookup other = if other = name then some o else h.lookup other := by
  simp only [lookup, assign, List.lookup_cons]
  by_cases heq : other = name
  · rw [if_pos heq, heq, beq_self_eq_true]
  · rw [if_neg heq, beq_false_of_ne heq]

/-- To `assign` an object to a variable changes no block. -/
theorem Keeps.assign (hk : Keeps changed h h') (name : String) (o : Object) :
    Keeps changed h (h'.assign name o) :=
  ⟨hk.published, hk.length_le, hk.builderAt?⟩

/-- So what was `Sound` is so after it. -/
theorem sound_assign (ho : h.Sound o) (name : String) (held : Object) : (h.assign name held).Sound o := by
  have hkeeps : Keeps (fun _ => False) h (h.assign name held) := (Keeps.refl h).assign name held
  exact hkeeps.sound ho

/-- An object that is `Sound` may be given to a variable. -/
theorem Separate.assign (hs : h.Separate) (ho : h.Sound o) (name : String) :
    (h.assign name o).Separate := by
  refine ⟨hs.fits, hs.apart, fun b hb => ?_⟩
  rcases List.mem_cons.mp hb with rfl | hb
  · exact sound_assign ho name o
  · exact sound_assign (hs.sound hb) name o

/-- `perform` leaves all that is being built separate. -/
theorem separate_perform (hs : h.Separate) (i : HeapInstruction) : (h.perform i).2.Separate := by
  have hstep := step_execute hs i.operation
  unfold perform
  generalize i.operation.execute.call h = outcome at hstep ⊢
  have hafter := hstep.separate hs
  obtain ⟨_ | o, h'⟩ := outcome
  · exact hafter
  · cases i.variableName with
    | none => exact hafter
    | some name => exact hafter.assign (hstep.sound hs rfl) name

/-- `perform` changes the matrix being built that its operation is meant to change, if it succeeds,
    and nothing else. -/
theorem keeps_perform (hs : h.Separate) (i : HeapInstruction) :
    Keeps (fun k => h.Changes k i.operation ∧ ∃ o, (h.perform i).1 = .ok o) h (h.perform i).2 := by
  have hkeeps := (step_execute hs i.operation).keeps hs
  unfold perform
  generalize i.operation.execute.call h = outcome at hkeeps ⊢
  obtain ⟨_ | o, h'⟩ := outcome
  · exact hkeeps
  · cases i.variableName with
    | none => exact hkeeps
    | some name => exact hkeeps.assign name o

/-- Where nothing is being built, all is separate. -/
theorem separate_start : start.Separate := ⟨nofun, nofun, nofun⟩

/-- All that is being built stays separate throughout a `run`. -/
theorem separate_run (hs : h.Separate) (instructions : List HeapInstruction) :
    (h.run instructions).Separate := by
  induction instructions generalizing h with
  | nil => exact hs
  | cons i rest ih => exact ih (separate_perform hs i)

/-- Some instruction of the run succeeds in changing the matrix being built at an address. -/
def ChangesDuring (h : Heap) (k : Nat) : List HeapInstruction → Prop
  | [] => False
  | i :: rest =>
    (h.Changes k i.operation ∧ ∃ o, (h.perform i).1 = .ok o) ∨ (h.perform i).2.ChangesDuring k rest

/-- A `run` leaves all as it was but for the matrices being built that it changes. -/
theorem keeps_run (hs : h.Separate) (instructions : List HeapInstruction) :
    Keeps (h.ChangesDuring · instructions) h (h.run instructions) := by
  induction instructions generalizing h with
  | nil => exact .refl h
  | cons i rest ih => exact (keeps_perform hs i).trans (ih (separate_perform hs i))

end Runs

end Heap

end Georef
