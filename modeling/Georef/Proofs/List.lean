import Mathlib.Algebra.BigOperators.Group.Finset.Basic
import Mathlib.Data.List.Forall2

/-!
# List lemmas

Sums that a loop adds up in order, and loops that may stop, stated so that the rest of the theory never
opens a fold again: a loop of additions is a `Finset` sum, and a loop that collects results relates its
input to its output element by element.
-/

namespace List

/-- A loop by `foldl` that adds `f 0`, `f 1`, … to a number gives the number plus their sum. -/
theorem foldl_range_add {M : Type} [AddCommMonoid M] (n : Nat) (f : Nat → M) (a : M) :
    (range n).foldl (fun sum k => sum + f k) a = a + ∑ k ∈ Finset.range n, f k := by
  induction n with
  | zero => simp
  | succ n ih =>
    rw [range_succ, foldl_append, ih, foldl_cons, foldl_nil, Finset.sum_range_succ, add_assoc]

/-- In lists related by `Forall₂` every element of the first has a partner in the second. -/
theorem Forall₂.exists_of_mem_left {α β : Type} {R : α → β → Prop} {xs : List α} {ys : List β}
    {x : α} (h : Forall₂ R xs ys) (hx : x ∈ xs) : ∃ y ∈ ys, R x y := by
  induction h with
  | nil => exact absurd hx not_mem_nil
  | @cons x' y xs ys hxy _ ih =>
    obtain rfl | hx := mem_cons.mp hx
    · exact ⟨y, mem_cons_self, hxy⟩
    · obtain ⟨y', hy', hR⟩ := ih hx
      exact ⟨y', mem_cons_of_mem _ hy', hR⟩

/-- Lists are related the other way round if their elements are. -/
theorem Forall₂.flip_of_mem {α β : Type} {R : α → β → Prop} {S : β → α → Prop} {xs : List α}
    {ys : List β} (h : Forall₂ R xs ys) (hback : ∀ x ∈ xs, ∀ y, R x y → S y x) :
    Forall₂ S ys xs := by
  induction h with
  | nil => exact .nil
  | cons hxy _ ih =>
    exact .cons (hback _ mem_cons_self _ hxy) (ih fun x hx => hback x (mem_cons_of_mem _ hx))

/-- Two relations hold together element by element if each of them does. -/
theorem Forall₂.and_iff {α β : Type} {R S : α → β → Prop} {xs : List α} {ys : List β} :
    Forall₂ (fun x y => R x y ∧ S x y) xs ys ↔ Forall₂ R xs ys ∧ Forall₂ S xs ys := by
  constructor
  · intro h
    exact ⟨h.imp fun _ _ => And.left, h.imp fun _ _ => And.right⟩
  · rintro ⟨hR, hS⟩
    induction hR with
    | nil => exact .nil
    | cons hx _ ih =>
      cases hS with
      | cons hy hS => exact .cons ⟨hx, hy⟩ (ih hS)

/-- Lists are related through a third one if the elements are. -/
theorem Forall₂.trans {α : Type} {R : α → α → Prop} [IsTrans α R] {xs ys zs : List α} (h : Forall₂ R xs ys)
    (h' : Forall₂ R ys zs) : Forall₂ R xs zs := by
  induction h generalizing zs with
  | nil => exact h'
  | cons hx _ ih =>
    cases h' with
    | cons hy h' => exact .cons (IsTrans.trans _ _ _ hx hy) (ih h')

instance Forall₂.instIsTrans {α : Type} {R : α → α → Prop} [IsTrans α R] : IsTrans (List α) (Forall₂ R) :=
  ⟨fun _ _ _ => Forall₂.trans⟩

/-- Lists that are put together element by element are related if the elements are. -/
theorem Forall₂.zipWith {α β γ α' β' γ' : Type} {R : α → α' → Prop} {S : β → β' → Prop}
    {T : γ → γ' → Prop} {f : α → β → γ} {g : α' → β' → γ'}
    (h : ∀ x x' y y', R x x' → S y y' → T (f x y) (g x' y')) {us : List α} {us' : List α'}
    {vs : List β} {vs' : List β'} (hu : Forall₂ R us us') (hv : Forall₂ S vs vs') :
    Forall₂ T (zipWith f us vs) (zipWith g us' vs') := by
  induction hu generalizing vs vs' with
  | nil => simp
  | cons hx _ ih =>
    cases hv with
    | nil => simp
    | cons hy hv => exact .cons (h _ _ _ _ hx hy) (ih hv)

/-- `zip` pairs the partners. -/
theorem Forall₂.zip {α β α' β' : Type} {R : α → α' → Prop} {S : β → β' → Prop} {us : List α}
    {us' : List α'} {vs : List β} {vs' : List β'} (hu : Forall₂ R us us') (hv : Forall₂ S vs vs') :
    Forall₂ (fun p q => R p.1 q.1 ∧ S p.2 q.2) (us.zip vs) (us'.zip vs') :=
  hu.zipWith (fun _ _ _ _ hx hy => ⟨hx, hy⟩) hv

/-- A loop by `foldlM` over related lists, each of whose steps keeps a relation, keeps it, and stops
    on both or on neither. -/
theorem Forall₂.foldlM {α β α' β' : Type} {R : α → α' → Prop} {S : β → β' → Prop}
    {f : β → α → Option β} {g : β' → α' → Option β'}
    (h : ∀ s s' x x', S s s' → R x x' → Option.Rel S (f s x) (g s' x')) {xs : List α}
    {xs' : List α'} (hxs : Forall₂ R xs xs') {s : β} {s' : β'} (hs : S s s') :
    Option.Rel S (xs.foldlM f s) (xs'.foldlM g s') := by
  induction hxs generalizing s s' with
  | nil => exact .some hs
  | @cons x x' xs xs' hx _ ih =>
    rw [foldlM_cons, foldlM_cons]
    have hstep := h s s' x x' hs hx
    -- The first step stops on both sides or on neither.
    cases hf : f s x with
    | none =>
      rw [hf] at hstep
      cases hg : g s' x' with
      | none => exact .none
      | some r => rw [hg] at hstep; exact nomatch hstep
    | some r =>
      rw [hf] at hstep
      cases hg : g s' x' with
      | none => rw [hg] at hstep; exact nomatch hstep
      | some r' =>
        rw [hg] at hstep
        cases hstep with
        | some hr => exact ih hr

/-- Elements at the same place of lists related by `Forall₂` are partners. -/
theorem Forall₂.getElem? {α β : Type} {R : α → β → Prop} {xs : List α} {ys : List β}
    (h : Forall₂ R xs ys) (i : Nat) : Option.Rel R xs[i]? ys[i]? := by
  induction h generalizing i with
  | nil => exact .none
  | cons hxy _ ih =>
    cases i with
    | zero => exact .some hxy
    | succ i => exact ih i

/-- Lists related by `Forall₂` stay so when partners are put at the same place. -/
theorem Forall₂.set {α β : Type} {R : α → β → Prop} {xs : List α} {ys : List β} {x : α} {y : β}
    (h : Forall₂ R xs ys) (hxy : R x y) (i : Nat) : Forall₂ R (xs.set i x) (ys.set i y) := by
  induction h generalizing i with
  | nil => exact .nil
  | cons hxy' h ih =>
    cases i with
    | zero => exact .cons hxy h
    | succ i => exact .cons hxy' (ih i)

/-- `mapM` in `Option` finds something exactly if it does for every element. -/
theorem mapM_eq_some_iff {α β : Type} {f : α → Option β} {xs : List α} {ys : List β} :
    xs.mapM f = some ys ↔ Forall₂ (fun x y => f x = some y) xs ys := by
  induction xs generalizing ys with
  | nil => simp [eq_comm]
  | cons x xs ih =>
    rw [mapM_cons, forall₂_cons_left_iff]
    constructor
    · intro h
      obtain ⟨y, hy, h⟩ := Option.bind_eq_some_iff.mp h
      obtain ⟨ys', hys, h⟩ := Option.bind_eq_some_iff.mp h
      exact ⟨y, ys', hy, ih.mp hys, (Option.some.inj h).symm⟩
    · rintro ⟨y, ys', hy, hys, rfl⟩
      simp [hy, ih.mpr hys]

/-- `mapM` in `Except` succeeds exactly if it does on every element. -/
theorem mapM_eq_ok_iff {α β ε : Type} {f : α → Except ε β} {xs : List α} {ys : List β} :
    xs.mapM f = .ok ys ↔ Forall₂ (fun x y => f x = .ok y) xs ys := by
  induction xs generalizing ys with
  | nil => simp [pure, Except.pure, eq_comm]
  | cons x xs ih =>
    rw [mapM_cons, forall₂_cons_left_iff]
    constructor
    · intro h
      cases hx : f x with
      | error e => rw [hx] at h; exact nomatch h
      | ok y =>
        cases hxs : xs.mapM f with
        | error e => rw [hx, hxs] at h; exact nomatch h
        | ok ys' =>
          rw [hx, hxs] at h
          exact ⟨y, ys', rfl, ih.mp hxs, (Except.ok.inj h).symm⟩
    · rintro ⟨y, ys', hy, hys, rfl⟩
      rw [hy, ih.mpr hys]
      rfl

/-- Every element has a partner, so there is a list of partners. -/
theorem exists_forall₂ {α β : Type} {R : α → β → Prop} {xs : List α} (h : ∀ x ∈ xs, ∃ y, R x y) :
    ∃ ys, Forall₂ R xs ys := by
  induction xs with
  | nil => exact ⟨[], .nil⟩
  | cons x xs ih =>
    obtain ⟨y, hy⟩ := h x mem_cons_self
    obtain ⟨ys, hys⟩ := ih fun z hz => h z (mem_cons_of_mem x hz)
    exact ⟨y :: ys, .cons hy hys⟩

/-- `mapM` in `Except` fails at the first element for which its body fails. -/
theorem mapM_eq_error_of_first {α β ε : Type} {f : α → Except ε β} {xs : List α} {j : Nat} {x : α} {e : ε}
    (hx : xs[j]? = some x) (hfail : f x = .error e)
    (hbefore : ∀ k < j, ∀ z, xs[k]? = some z → ∃ y, f z = .ok y) : xs.mapM f = .error e := by
  induction xs generalizing j with
  | nil => simp at hx
  | cons head xs ih =>
    rw [mapM_cons]
    cases j with
    | zero =>
      obtain rfl : head = x := by simpa using hx
      rw [hfail]
      rfl
    | succ j =>
      obtain ⟨y, hy⟩ := hbefore 0 j.succ_pos head rfl
      have hrest := ih (by simpa using hx) fun k hk z hz => hbefore (k + 1) (by omega) z (by simpa using hz)
      rw [hy, hrest]
      rfl

/-- `filter` leaves a single number below `n` if exactly one has the property. -/
theorem filter_range_eq_singleton {n j : Nat} {p : Nat → Bool} :
    (range n).filter p = [j] ↔ j < n ∧ p j = true ∧ ∀ k, k < n → k ≠ j → p k = false := by
  -- Both lists are without repetitions, so only their members have to be compared.
  rw [← perm_singleton,
    perm_ext_iff_of_nodup (nodup_range.filter p) (nodup_singleton j)]
  simp only [mem_filter, mem_range, mem_singleton]
  constructor
  · intro h
    obtain ⟨hj, hp⟩ := (h j).mpr rfl
    refine ⟨hj, hp, fun k hk hne => ?_⟩
    exact Bool.eq_false_iff.mpr fun hpk => hne ((h k).mp ⟨hk, hpk⟩)
  · rintro ⟨hj, hp, hrest⟩ k
    constructor
    · rintro ⟨hk, hpk⟩
      by_contra hne
      rw [hrest k hk hne] at hpk
      exact nomatch hpk
    · rintro rfl
      exact ⟨hj, hp⟩

/-- What `zipWith` makes of two lists is made of an element of each. -/
theorem exists_of_mem_zipWith {α β γ : Type} {f : α → β → γ} {xs : List α} {ys : List β} {z : γ}
    (h : z ∈ zipWith f xs ys) : ∃ x ∈ xs, ∃ y ∈ ys, f x y = z := by
  rw [← map_uncurry_zip_eq_zipWith] at h
  obtain ⟨⟨x, y⟩, hxy, rfl⟩ := mem_map.mp h
  exact ⟨x, (of_mem_zip hxy).1, y, (of_mem_zip hxy).2, rfl⟩

end List
