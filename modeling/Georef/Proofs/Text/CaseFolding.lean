import Georef.Text.CaseFold
import Mathlib.Data.List.Basic

/-!
# Case folding needs to be done once only

Case folding replaces a character by characters that it leaves alone. That is a fact about the tables of the
Unicode standard, and it is checked on their runs of code points: no run leads into a run.

## Key results

- `CaseRun.not_has_imageOf`: the check for two runs
- `CaseMap.apply_of_mem_apply`: a mapping that passes the check for all its runs leaves its images alone
- `foldCase_foldCase`: a folded text stays as it is
-/

namespace Georef

/-! ## Runs of code points -/

namespace CaseRun

variable {run other : CaseRun} {code : Nat}

/-- The code point belongs to the run. -/
def Has (run : CaseRun) (code : Nat) : Prop :=
  run.first ≤ code ∧ code ≤ run.last ∧ (code - run.first) % run.step = 0

/-- Where the run moves a code point to. -/
def imageOf (run : CaseRun) (code : Nat) : Nat := ((code : Int) + run.distance).toNat

/-- A code point that stays where it is, as a run. -/
def single (code : Nat) : CaseRun := ⟨code, code, 1, 0⟩

/-- `single` has the one code point. -/
theorem single_has (code : Nat) : (single code).Has code := ⟨Nat.le_refl _, Nat.le_refl _, Nat.mod_one _⟩

/-- `single` leads to no other code point, wherever it is used from. -/
@[simp] theorem single_imageOf (code other : Nat) : (single code).imageOf other = other := by
  simp [single, imageOf]

/-- No two neighbouring code points belong to the run. -/
def alternates (run : CaseRun) : Bool := Nat.beq run.step 2 || Nat.beq run.first run.last

/-- The code points of a run that `alternates` are an even number of places from its first one. -/
theorem even_of_has (h : run.alternates = true) (hcode : run.Has code) : (code - run.first) % 2 = 0 := by
  obtain ⟨hfirst, hlast, hstep⟩ := hcode
  rw [alternates, Bool.or_eq_true, Nat.beq_eq, Nat.beq_eq] at h
  obtain h | h := h
  · rwa [h] at hstep
  · omega

/-- No image of the run is in the other run: the images are all below it or above it, or where it leaves
places out. -/
def misses (run other : CaseRun) : Bool :=
  Nat.blt (run.imageOf run.last) other.first || Nat.blt other.last (run.imageOf run.first) ||
    run.alternates && other.alternates && Nat.blt 0 (run.imageOf run.first) &&
      Nat.beq ((run.imageOf run.first + other.first) % 2) 1

/-- `misses` looks at the ends only, which is enough for all code points of the run. -/
theorem not_has_imageOf (h : run.misses other = true) (hcode : run.Has code) :
    ¬other.Has (run.imageOf code) := by
  intro himage
  have hends := hcode
  have hends' := himage
  simp only [misses, Bool.or_eq_true, Bool.and_eq_true, Nat.blt_eq, Nat.beq_eq] at h
  simp only [Has, imageOf] at h hends hends'
  obtain (hbelow | habove) | ⟨⟨⟨hrun, hother⟩, hpos⟩, hodd⟩ := h
  · omega
  · omega
  · -- The image is as far from the first image as the code point is from the first one of the run.
    have heven := even_of_has hrun hcode
    have heven' := even_of_has hother himage
    simp only [imageOf] at heven'
    omega

end CaseRun

/-! ## Case mappings -/

/-- A number that is no code point stands for the character zero. -/
theorem toNat_ofNat_eq_or (n : Nat) : (Char.ofNat n).toNat = n ∨ (Char.ofNat n).toNat = 0 := by
  by_cases hvalid : n.isValidChar
  · left
    rw [Char.ofNat, dif_pos hvalid]
    rfl
  · right
    rw [Char.ofNat, dif_neg hvalid]
    rfl

/-- `distanceIn?` finds the distance of a run with the code point. -/
theorem distanceIn?_eq_some {runs : List CaseRun} {code : Nat} {distance : Int}
    (h : distanceIn? runs code = some distance) :
    ∃ run ∈ runs, run.Has code ∧ run.distance = distance := by
  induction runs with
  | nil => cases h
  | cons run runs ih =>
    rw [distanceIn?] at h
    split at h
    · cases h
    split at h
    · rename_i hfirst hmem
      exact ⟨run, List.mem_cons_self, ⟨Nat.le_of_not_lt hfirst, hmem⟩, Option.some.inj h⟩
    · obtain ⟨found, hfound, hhas⟩ := ih h
      exact ⟨found, List.mem_cons_of_mem run hfound, hhas⟩

/-- `expansionIn?` finds an expansion that is listed. -/
theorem expansionIn?_eq_some {expansions : List (Nat × List Nat)} {code : Nat} {image : List Nat}
    (h : expansionIn? expansions code = some image) : (code, image) ∈ expansions := by
  induction expansions with
  | nil => cases h
  | cons expansion expansions ih =>
    rw [expansionIn?] at h
    split at h
    · cases h
    split at h
    · rename_i heq
      obtain rfl := Option.some.inj h
      exact heq ▸ List.mem_cons_self
    · exact List.mem_cons_of_mem expansion (ih h)

namespace CaseMap

variable {map : CaseMap}

/-- The runs of code points that the mapping changes. A code point with an expansion is a run of its own. -/
def sources (map : CaseMap) : List CaseRun :=
  map.runs ++ map.expansions.map fun expansion => .single expansion.1

/-- The runs with the code points that the mapping leads to as their images. The first one is there for
numbers that are no code points. -/
def targets (map : CaseMap) : List CaseRun :=
  .single 0 :: (map.runs ++ map.expansions.flatMap fun expansion => expansion.2.map .single)

/-- No character that the mapping leads to is changed by it. -/
def closed (map : CaseMap) : Bool := map.targets.all fun target => map.sources.all target.misses

/-- `apply` leaves a character outside of all runs as it is. -/
theorem apply_eq_self {c : Char} (h : ∀ source ∈ map.sources, ¬source.Has c.toNat) : map.apply c = [c] := by
  simp only [sources, List.forall_mem_append, List.forall_mem_map] at h
  have hexpansion : expansionIn? map.expansions c.toNat = none := by
    refine Option.eq_none_iff_forall_ne_some.mpr fun image himage => ?_
    exact h.2 _ (expansionIn?_eq_some himage) (CaseRun.single_has c.toNat)
  have hdistance : distanceIn? map.runs c.toNat = none := by
    refine Option.eq_none_iff_forall_ne_some.mpr fun distance hdistance => ?_
    obtain ⟨run, hrun, hhas, -⟩ := distanceIn?_eq_some hdistance
    exact h.1 run hrun hhas
  simp [apply, hexpansion, hdistance]

/-- `apply` leaves a character as it is, or leads to characters with code points that runs lead to. -/
theorem apply_cases (map : CaseMap) (c : Char) :
    map.apply c = [c] ∨ ∀ image ∈ map.apply c, ∃ target ∈ map.targets, ∃ code,
      target.Has code ∧ image = Char.ofNat (target.imageOf code) := by
  rw [apply]
  split
  · rename_i codes hexpansion
    -- An expansion is looked up first, and its characters are runs of their own.
    refine .inr (List.forall_mem_map.mpr fun code hcode => ⟨.single code, ?_, code, CaseRun.single_has code, ?_⟩)
    · refine List.mem_cons_of_mem _ (List.mem_append_right _ (List.mem_flatMap.mpr ?_))
      exact ⟨(c.toNat, codes), expansionIn?_eq_some hexpansion, List.mem_map_of_mem hcode⟩
    · rw [CaseRun.single_imageOf]
  · split
    · rename_i distance hdistance
      obtain ⟨run, hrun, hhas, rfl⟩ := distanceIn?_eq_some hdistance
      refine .inr ((List.forall_mem_singleton).mpr ⟨run, ?_, c.toNat, hhas, rfl⟩)
      exact List.mem_cons_of_mem _ (List.mem_append_left _ hrun)
    · exact .inl rfl

/-- `apply` leaves the characters alone that it leads to. -/
theorem apply_of_mem_apply (h : map.closed = true) {c image : Char} (himage : image ∈ map.apply c) :
    map.apply image = [image] := by
  obtain hself | htargets := map.apply_cases c
  · rw [hself, List.mem_singleton] at himage
    rw [himage, hself]
  · obtain ⟨target, htarget, code, hhas, rfl⟩ := htargets image himage
    refine apply_eq_self fun source hsource => ?_
    have hmisses {target : CaseRun} (htarget : target ∈ map.targets) : target.misses source = true :=
      List.all_eq_true.mp (List.all_eq_true.mp h target htarget) source hsource
    -- A number that is no code point stands for the character zero, which is among the targets.
    obtain hcode | hzero := toNat_ofNat_eq_or (target.imageOf code)
    · rw [hcode]
      exact CaseRun.not_has_imageOf (hmisses htarget) hhas
    · rw [hzero, ← CaseRun.single_imageOf 0 0]
      exact CaseRun.not_has_imageOf (hmisses List.mem_cons_self) (CaseRun.single_has 0)

end CaseMap

/-! ## Folded texts -/

/-- `foldCase` goes through a text character by character. -/
@[simp] theorem foldCase_append (text rest : List Char) :
    foldCase (text ++ rest) = foldCase text ++ foldCase rest := List.flatMap_append

/-- `foldCase` leaves a text of characters alone that stay as they are. -/
theorem foldCase_eq_self {text : List Char} (h : ∀ c ∈ text, caseFolding.apply c = [c]) :
    foldCase text = text := by
  rw [foldCase, List.flatMap_congr h, List.flatMap_singleton']

/-- The table of `caseFolding` passes the check, run against run. -/
theorem caseFolding_closed : caseFolding.closed = true := by decide +kernel

/-- `foldCase` leaves a folded text as it is. -/
@[simp] theorem foldCase_foldCase (text : List Char) : foldCase (foldCase text) = foldCase text := by
  refine foldCase_eq_self fun image himage => ?_
  obtain ⟨c, -, himage⟩ := List.mem_flatMap.mp himage
  exact CaseMap.apply_of_mem_apply caseFolding_closed himage

end Georef
