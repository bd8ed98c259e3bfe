import Georef.Proofs.Memory.Heap

/-!
# Separation

No matrix that is being built shares its block with another one, with a published matrix or with a
transform. This is the invariant `Separate`. Published matrices and transforms may share blocks among
themselves, since nothing writes into these.

What later memory has left of earlier memory is `Keeps`: published arrays show what they showed, and so do
the matrices being built, apart from those that were changed.

## Key results

- `Keeps.shown`: an object that was sound shows what it showed
- `Separate.build`, `Separate.keeps_build`: a new matrix being built is separate, and changes nothing
- `Writes.separate`, `Writes.keeps`: writing into a matrix being built keeps the separation, and changes that matrix only
-/

namespace Georef

namespace Heap

variable {h h' h'' : Heap} {a b : ArrayRef} {m : Matrix Double} {k : Nat} {o : Object}
  {changed changed' : Nat → Prop}

/-- The array is there, and no matrix that is being built is in its block. -/
def Published (h : Heap) (a : ArrayRef) : Prop :=
  a.block < h.blocks.length ∧ ∀ ⦃k : Nat⦄ ⦃b : ArrayRef⦄, h.builders[k]? = some b → b.block ≠ a.block

/-- What an object needs of memory: arrays that are `Published`. A transform that keeps numbers of
    its own has no matrix. -/
def Sound (h : Heap) : Object → Prop
  | .matrix a => h.Published a
  | .builder address => address < h.builders.length
  | .transform (.numbers t) => ∀ planar m, t ≠ .projective planar m
  | .transform (.projective _ a) => h.Published a

/-- The matrices that are being built are separate from each other and from all else. -/
structure Separate (h : Heap) : Prop where
  fits : ∀ ⦃k : Nat⦄ ⦃a : ArrayRef⦄, h.builders[k]? = some a → h.Fits a
  apart : ∀ ⦃j k : Nat⦄ ⦃a b : ArrayRef⦄, h.builders[j]? = some a → h.builders[k]? = some b →
    a.block = b.block → j = k
  sound : ∀ ⦃b⦄, b ∈ h.bindings → h.Sound b.2

/-- Later memory has what earlier memory had, apart from the matrices at some addresses. -/
structure Keeps (changed : Nat → Prop) (h h' : Heap) : Prop where
  published : ∀ ⦃a⦄, h.Published a → h'.Published a ∧ h'.contents a = h.contents a
  length_le : h.builders.length ≤ h'.builders.length
  builderAt? : ∀ ⦃k⦄, k < h.builders.length → ¬ changed k → h'.builderAt? k = h.builderAt? k

/-! ## Blocks and arrays -/

/-- The block of an array that `Fits` is there. -/
theorem Fits.block_lt (ha : h.Fits a) : a.block < h.blocks.length := by
  obtain ⟨elements, hblock, -⟩ := ha
  exact (List.getElem?_eq_some_iff.mp hblock).1

/-- An array still `Fits` when there is one more block. -/
theorem Fits.allocate (ha : h.Fits a) : (h.allocate m).Fits a := by
  have hlt := ha.block_lt
  obtain ⟨elements, hblock, hsize⟩ := ha
  exact ⟨elements, (List.getElem?_append_left hlt).trans hblock, hsize⟩

/-- A new array `Fits`. -/
theorem fits_fresh : (h.allocate m).Fits (h.fresh m) :=
  ⟨m.elements, by simp [Heap.allocate, fresh], m.size_eq⟩

/-- The matrix being built at an address is what its array shows. -/
theorem builderAt?_eq (ha : h.builders[k]? = some a) : h.builderAt? k = some (h.contents a) := by
  rw [Heap.builderAt?, ha]
  rfl

namespace Separate

/-- What variables refer to is `Sound`. -/
theorem lookup (hs : h.Separate) {name : String} (ho : h.lookup name = some o) : h.Sound o := by
  obtain ⟨before, after, heq, -⟩ := List.lookup_eq_some_iff.mp ho
  have hmem : (name, o) ∈ h.bindings := by simp [heq]
  exact hs.sound hmem

/-- A new array is in a block of its own, so it is `Published`. -/
theorem published_fresh (hs : h.Separate) : (h.allocate m).Published (h.fresh m) := by
  constructor
  · simp [Heap.allocate, fresh]
  · intro k b hb
    exact Nat.ne_of_lt (hs.fits hb).block_lt

end Separate

/-! ## Keeping -/

namespace Keeps

/-- Memory that stays as it is keeps everything. -/
theorem refl (h : Heap) : Keeps changed h h := ⟨fun _ ha => ⟨ha, rfl⟩, Nat.le_refl _, fun _ _ _ => rfl⟩

/-- What `Keeps` says of two stretches of time, one after the other. -/
theorem trans (hfirst : Keeps changed h h') (hsecond : Keeps changed' h' h'') :
    Keeps (fun k => changed k ∨ changed' k) h h'' := by
  constructor
  · intro a ha
    obtain ⟨ha', hcontents⟩ := hfirst.published ha
    obtain ⟨ha'', hcontents'⟩ := hsecond.published ha'
    exact ⟨ha'', hcontents'.trans hcontents⟩
  · exact Nat.le_trans hfirst.length_le hsecond.length_le
  · intro k hk hnot
    obtain ⟨hnot, hnot'⟩ := not_or.mp hnot
    exact (hsecond.builderAt? (Nat.lt_of_lt_of_le hk hfirst.length_le) hnot').trans
      (hfirst.builderAt? hk hnot)

/-- More may be said to have changed than has. -/
theorem mono (hk : Keeps changed h h') (himp : ∀ k, changed k → changed' k) : Keeps changed' h h' :=
  ⟨hk.published, hk.length_le, fun _ hlt hnot => hk.builderAt? hlt fun hc => hnot (himp _ hc)⟩

/-- Objects that are `Sound` stay so. -/
theorem sound (hk : Keeps changed h h') (ho : h.Sound o) : h'.Sound o := by
  match o with
  | .matrix a => exact (hk.published ho).1
  | .builder address => exact Nat.lt_of_lt_of_le ho hk.length_le
  | .transform (.numbers t) => exact ho
  | .transform (.projective planar a) => exact (hk.published ho).1

/-- Objects show what they showed, as all of them are published or have an address. -/
theorem shown (hk : Keeps changed h h') (ho : h.Sound o) : h'.shown o = h.shown o := by
  match o with
  | .matrix a => exact congrArg Shown.matrix (hk.published ho).2
  | .builder address => rfl
  | .transform (.numbers t) => rfl
  | .transform (.projective planar a) =>
    exact congrArg (fun m => Shown.transform (.projective planar m)) (hk.published ho).2

end Keeps

/-! ## New blocks -/

/-- A new block disturbs no array that is `Published`. -/
theorem Published.allocate (ha : h.Published a) : (h.allocate m).Published a :=
  ⟨by simp only [Heap.allocate, List.length_append]; have := ha.1; omega, ha.2⟩

/-- `allocate` changes nothing that is there. -/
theorem Separate.keeps_allocate (hs : h.Separate) (m : Matrix Double) :
    Keeps changed h (h.allocate m) := by
  constructor
  · intro a ha
    exact ⟨ha.allocate, contents_allocate ha.1⟩
  · exact Nat.le_refl _
  · intro k hk _
    obtain ⟨a, ha⟩ : ∃ a, h.builders[k]? = some a := ⟨_, List.getElem?_eq_getElem hk⟩
    rw [builderAt?_eq (h := h.allocate m) ha, builderAt?_eq ha, contents_allocate (hs.fits ha).block_lt]

/-- `allocate` leaves all that is being built separate. -/
theorem Separate.allocate (hs : h.Separate) (m : Matrix Double) : (h.allocate m).Separate := by
  have hkeeps : Keeps (fun _ => False) h (h.allocate m) := hs.keeps_allocate m
  exact ⟨fun _ _ ha => (hs.fits ha).allocate, hs.apart, fun _ hb => hkeeps.sound (hs.sound hb)⟩

/-! ## New matrices being built -/

/-- The matrices after `addBuilder` are those before and the new one. -/
theorem getElem?_addBuilder :
    (h.addBuilder a).builders[k]? = some b ↔ h.builders[k]? = some b ∨ k = h.builders.length ∧ a = b := by
  simp only [addBuilder]
  rcases Nat.lt_trichotomy k h.builders.length with hlt | heq | hgt
  · simp [List.getElem?_append_left hlt, Nat.ne_of_lt hlt]
  · simp [heq]
  · rw [List.getElem?_eq_none (by simp; omega), List.getElem?_eq_none (by omega)]
    simp
    omega

/-- The heap with one more matrix that is being built, in a block of its own. -/
def build (h : Heap) (m : Matrix Double) : Heap := (h.allocate m).addBuilder (h.fresh m)

/-- `build` changes nothing that is there. -/
theorem Separate.keeps_build (hs : h.Separate) (m : Matrix Double) : Keeps changed h (h.build m) := by
  have hkeeps : Keeps changed h (h.allocate m) := hs.keeps_allocate m
  constructor
  · intro a ha
    obtain ⟨⟨hlt, hne⟩, hcontents⟩ := hkeeps.published ha
    refine ⟨⟨hlt, fun k b hb => ?_⟩, hcontents⟩
    rcases getElem?_addBuilder.mp hb with hb | ⟨-, rfl⟩
    · exact hne hb
    -- The block of the new matrix comes after all that were there.
    · exact Ne.symm (Nat.ne_of_lt ha.1)
  · simp [build, addBuilder, Heap.allocate]
  · intro k hk hnot
    rw [← hkeeps.builderAt? hk hnot]
    have hold : (h.build m).builders[k]? = h.builders[k]? := List.getElem?_append_left hk
    rw [Heap.builderAt?, hold]
    rfl

/-- `build` leaves all that is being built separate: the new matrix is in a block that nobody had. -/
theorem Separate.build (hs : h.Separate) (m : Matrix Double) : (h.build m).Separate := by
  have hall := hs.allocate m
  constructor
  · intro k a ha
    rcases getElem?_addBuilder.mp ha with ha | ⟨-, rfl⟩
    · exact hall.fits ha
    · exact fits_fresh
  · intro j k a b ha hb heq
    -- Each of the two was there before or is the new one.
    rcases getElem?_addBuilder.mp ha with ha | ⟨rfl, rfl⟩ <;>
      rcases getElem?_addBuilder.mp hb with hb | ⟨rfl, rfl⟩
    · exact hs.apart ha hb heq
    · exact absurd heq (hs.published_fresh.2 ha)
    · exact absurd heq.symm (hs.published_fresh.2 hb)
    · rfl
  · intro b hb
    have hkeeps : Keeps (fun _ => False) h (h.build m) := hs.keeps_build m
    exact hkeeps.sound (hs.sound hb)

/-- `build` puts the matrix at the next address. -/
theorem builderAt?_build : (h.build m).builderAt? h.builders.length = some m := by
  have hnew : (h.build m).builders[h.builders.length]? = some (h.fresh m) :=
    getElem?_addBuilder.mpr (.inr ⟨rfl, rfl⟩)
  rw [builderAt?_eq hnew]
  exact congrArg some contents_fresh

/-! ## Changes of matrices being built -/

/-- The matrix being built at an address has an array `b` instead of `a` in later memory, either in the same
block or in a new one. Nothing is written into other blocks. -/
structure Writes (h : Heap) (k : Nat) (a b : ArrayRef) (h' : Heap) : Prop where
  held : h.builders[k]? = some a
  bindings : h'.bindings = h.bindings
  builders : h'.builders = h.builders.set k b
  length_le : h.blocks.length ≤ h'.blocks.length
  blocks : ∀ ⦃i : Nat⦄, i < h.blocks.length → i ≠ a.block → h'.blocks[i]? = h.blocks[i]?
  place : b.block = a.block ∨ h.blocks.length ≤ b.block
  fits : h'.Fits b

namespace Writes

variable {j : Nat} {c : ArrayRef}

/-- `Writes` gives one matrix being built another array. -/
theorem getElem?_builders (hw : h.Writes k a b h') (j : Nat) :
    h'.builders[j]? = if j = k then some b else h.builders[j]? := by
  have hk : k < h.builders.length := (List.getElem?_eq_some_iff.mp hw.held).1
  rw [hw.builders, List.getElem?_set]
  by_cases hjk : j = k
  · simp [hjk, hk]
  · simp [hjk, Ne.symm hjk]

/-- What is in other blocks shows what it showed. -/
theorem contents (hw : h.Writes k a b h') (hc : c.block < h.blocks.length) (hne : c.block ≠ a.block) :
    h'.contents c = h.contents c :=
  contents_congr (hw.blocks hc hne)

/-- The array that a matrix being built has afterwards is not in the block of any other. -/
theorem block_ne (hw : h.Writes k a b h') (hc : c.block < h.blocks.length) (hne : c.block ≠ a.block) :
    b.block ≠ c.block := by
  rcases hw.place with hplace | hplace
  -- It is still in the block that it was in.
  · exact hplace ▸ hne.symm
  -- It has moved to a block that was not there before.
  · omega

/-- Published arrays are not in the block that is written into, nor in the one that the matrix moves
    to. -/
theorem published (hw : h.Writes k a b h') (hc : h.Published c) : h'.Published c := by
  refine ⟨Nat.lt_of_lt_of_le hc.1 hw.length_le, fun j d hd => ?_⟩
  rw [hw.getElem?_builders] at hd
  split at hd
  · obtain rfl := Option.some.inj hd
    exact hw.block_ne hc.1 (hc.2 hw.held).symm
  · exact hc.2 hd

/-- Whoever `Writes` into a matrix that is being built changes this matrix only. -/
theorem keeps (hw : h.Writes k a b h') (hs : h.Separate) : Keeps (· = k) h h' := by
  constructor
  · intro c hc
    exact ⟨hw.published hc, hw.contents hc.1 (hc.2 hw.held).symm⟩
  · simp [hw.builders]
  · intro j hj hne
    obtain ⟨c, hc⟩ : ∃ c, h.builders[j]? = some c := ⟨_, List.getElem?_eq_getElem hj⟩
    have hc' : h'.builders[j]? = some c := by rw [hw.getElem?_builders, if_neg hne, hc]
    rw [builderAt?_eq hc', builderAt?_eq hc]
    exact congrArg some (hw.contents (hs.fits hc).block_lt fun heq => hne (hs.apart hc hw.held heq))

/-- This matrix is what its new array shows. -/
theorem builderAt?_self (hw : h.Writes k a b h') : h'.builderAt? k = some (h'.contents b) :=
  builderAt?_eq (by rw [hw.getElem?_builders, if_pos rfl])

/-- Whoever `Writes` into a matrix that is being built leaves all of them separate. -/
theorem separate (hw : h.Writes k a b h') (hs : h.Separate) : h'.Separate := by
  -- An array that is not the changed one is where it was, and not in the block of the changed one.
  have hother {j : Nat} {c : ArrayRef} (hc : h.builders[j]? = some c) (hj : j ≠ k) :
      h'.Fits c ∧ b.block ≠ c.block := by
    have hlt := (hs.fits hc).block_lt
    have hne : c.block ≠ a.block := fun heq => hj (hs.apart hc hw.held heq)
    obtain ⟨elements, hblock, hsize⟩ := hs.fits hc
    exact ⟨⟨elements, (hw.blocks hlt hne).trans hblock, hsize⟩, hw.block_ne hlt hne⟩
  constructor
  · intro j c hc
    rw [hw.getElem?_builders] at hc
    split at hc
    · exact Option.some.inj hc ▸ hw.fits
    · exact (hother hc ‹_›).1
  · intro i j c d hc hd heq
    rw [hw.getElem?_builders] at hc hd
    split at hc <;> split at hd
    -- Both are the changed one, one of them is, or none is.
    · rw [‹i = k›, ‹j = k›]
    · obtain rfl := Option.some.inj hc
      exact absurd heq (hother hd ‹_›).2
    · obtain rfl := Option.some.inj hd
      exact absurd heq.symm (hother hc ‹_›).2
    · exact hs.apart hc hd heq
  · intro c hc
    exact (hw.keeps hs).sound (hs.sound (hw.bindings ▸ hc))

end Writes

end Heap

end Georef
