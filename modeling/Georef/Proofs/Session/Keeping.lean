import Georef.Proofs.Session.Procedure
import Georef.Session.Run

/-!
# What procedures keep

`Keeps I x Q` says that `x` keeps the property `I` of sessions, whether it succeeds or fails, and that its
answers have the property `Q`. There is one rule for each way in which procedures are put together and one for
each of the small procedures that others are made of, so that what a command keeps follows from what its parts
do. A new object only uses up a serial number; so these rules ask that `I` has nothing to do with serial
numbers.

## Key results

- `keeps_bind`: a procedure followed by another one
- `keeps_value`, `keeps_matrix`: what is looked up
- `keeps_marked`: new objects
-/

namespace Georef

open Georef.Action

namespace Procedure

variable {α β : Type} {I : Session → Prop} {Q : α → Prop}

/-- Started with the property, the procedure leaves a session with the property, also if it fails, and it gives
no answer without the other property. -/
def Keeps (I : Session → Prop) (x : Procedure α) (Q : α → Prop) : Prop :=
  ∀ ⦃s⦄, I s → I (x.call s).2 ∧ ∀ a, (x.call s).1 = .ok a → Q a

/-! ## Ways to put procedures together -/

/-- An answer that is there already is an answer with the property. -/
theorem keeps_pure {a : α} (h : Q a) : Keeps I (pure a) Q :=
  fun _ hs => ⟨hs, fun _ ha => Except.ok.inj ha ▸ h⟩

/-- A failure gives no answer and changes no session. -/
theorem keeps_throw (e : Failure) : Keeps I (throw e : Procedure α) Q := by
  refine fun _ hs => ⟨hs, fun a ha => ?_⟩
  cases ha

/-- If the first procedure fails, its session is the one that is left. -/
theorem keeps_bind {x : Procedure α} {f : α → Procedure β} {R : β → Prop} (hx : Keeps I x Q)
    (hf : ∀ a, Q a → Keeps I (f a) R) : Keeps I (x >>= f) R := by
  intro s hs
  obtain ⟨hbetween, hanswer⟩ := hx hs
  rw [call_bind]
  generalize x.call s = outcome at hbetween hanswer
  obtain ⟨result, between⟩ := outcome
  cases result with
  | error e => exact ⟨hbetween, fun b hb => nomatch hb⟩
  | ok a => exact hf a (hanswer a rfl) hbetween

/-- What `Keeps` says of the answers can be weakened. -/
theorem Keeps.mono {x : Procedure α} {R : α → Prop} (hx : Keeps I x Q) (h : ∀ a, Q a → R a) :
    Keeps I x R :=
  fun _ hs => ⟨(hx hs).1, fun a ha => h a ((hx hs).2 a ha)⟩

/-- Both branches of a condition have to keep the property. -/
theorem keeps_ite {p : Prop} [Decidable p] {x y : Procedure α} (hx : Keeps I x Q) (hy : Keeps I y Q) :
    Keeps I (if p then x else y) Q := by
  split
  · exact hx
  · exact hy

/-- What does not look at the session keeps everything. -/
theorem keeps_lift {x : Except Failure α} (h : ∀ a, x = .ok a → Q a) :
    Keeps I (liftM x : Procedure α) Q := by
  intro s hs
  rw [call_lift]
  exact ⟨hs, h⟩

/-- What comes after a computation that does not look at the session and may give anything. -/
theorem keeps_lift_bind {x : Except Failure β} {f : β → Procedure α} (hf : ∀ b, Keeps I (f b) Q) :
    Keeps I ((liftM x : Procedure β) >>= f) Q :=
  keeps_bind (Q := fun _ => True) (keeps_lift fun _ _ => trivial) fun b _ => hf b

/-- The session itself, if it is asked for, has the property. -/
theorem keeps_get : Keeps I get I :=
  fun _ hs => ⟨hs, fun _ ha => Except.ok.inj ha ▸ hs⟩

/-- A change of the session has to keep the property. -/
theorem keeps_modify {f : Session → Session} (h : ∀ s, I s → I (f s)) :
    Keeps I (modify f) fun _ => True :=
  fun s hs => ⟨h s hs, fun _ _ => trivial⟩

/-- One procedure for each element of a list: if each `Keeps` the property, so does the whole. -/
theorem keeps_mapM {f : β → Procedure α} {xs : List β} (h : ∀ x ∈ xs, Keeps I (f x) Q) :
    Keeps I (xs.mapM f) fun ys => ∀ y ∈ ys, Q y := by
  induction xs with
  | nil => exact keeps_pure fun _ h => absurd h List.not_mem_nil
  | cons x xs ih =>
    rw [List.mapM_cons]
    refine keeps_bind (h x List.mem_cons_self) fun y hy =>
      keeps_bind (ih fun x hx => h x (List.mem_cons_of_mem _ hx)) fun ys hys => keeps_pure ?_
    intro z hz
    obtain rfl | hz := List.mem_cons.mp hz
    · exact hy
    · exact hys z hz

/-! ## What is looked up -/

section Lookup

variable {Q : Value → Prop}

/-- `value` answers what a variable holds, or nothing. -/
theorem keeps_value {name : Option String} (hnull : Q .null)
    (hheld : ∀ held ∈ name, ∀ s v, I s → s.lookup held = some v → Q v) : Keeps I (value name) Q := by
  cases name with
  | none => exact keeps_pure hnull
  | some held =>
    refine keeps_bind keeps_get fun s hs => ?_
    cases hv : s.lookup held with
    | some v => exact keeps_pure (hheld held rfl s v hs hv)
    | none => exact keeps_throw _

/-- `direction?` looks a known direction up and changes nothing. -/
theorem keeps_direction? (name : Option String) : Keeps I (direction? name) fun _ => True := by
  cases name with
  | none => exact keeps_pure trivial
  | some known =>
    refine keeps_bind keeps_get fun s hs => ?_
    cases s.registry.find? known with
    | some d => exact keeps_pure trivial
    | none => exact keeps_throw _

/-- `required` fails for no direction and changes nothing. -/
theorem keeps_required (d : Option Direction) : Keeps I (required d) fun _ => True := by
  cases d with
  | some d => exact keeps_pure trivial
  | none => exact keeps_throw _

/-- `matrix` answers the elements of a matrix. -/
theorem keeps_matrix {v : Value} {Q : Matrix Double → Prop}
    (h : ∀ s m, I s → s.matrix? v = some m → Q m) : Keeps I (matrix v) Q := by
  refine keeps_bind keeps_get fun s hs => ?_
  cases hm : s.matrix? v with
  | some m => exact keeps_pure (h s m hs hm)
  | none => exact keeps_throw _

end Lookup

/-! ## New objects -/

section New

variable {Q : Value → Prop} (hserial : ∀ s n, I s → I { s with nextSerial := n })

include hserial

/-- `freshSerial` uses a serial number up, which the property does not see. -/
theorem keeps_freshSerial : Keeps I freshSerial fun _ => True :=
  keeps_bind keeps_get fun s _ =>
    keeps_bind (keeps_modify fun s' hs' => hserial s' (s.nextSerial + 1) hs') fun _ _ =>
      keeps_pure trivial

/-- `freshMark` does nothing else. -/
theorem keeps_freshMark : Keeps I freshMark fun _ => True :=
  keeps_bind (keeps_freshSerial hserial) fun _ _ => keeps_pure trivial

/-- An object with a mark of its own: `freshMark` is all that happens to the session. -/
theorem keeps_marked {f : Mark → Value} (h : ∀ mark, Q (f mark)) :
    Keeps I (do return f (← freshMark)) Q :=
  keeps_bind (keeps_freshMark hserial) fun mark _ => keeps_pure (h mark)

/-- `newElement` makes an element of an array. -/
theorem keeps_newElement {x : Scalar} (h : ∀ mark, Q (.element mark x)) : Keeps I (newElement x) Q := by
  unfold newElement
  split
  · exact keeps_pure (h _)
  · exact keeps_marked hserial h

/-- `newComputed` makes an array, or an element if there are no dimensions left. -/
theorem keeps_newComputed {a : ScalarArray} (helement : ∀ mark x, Q (.element mark x))
    (harray : ∀ mark, Q (.array mark a)) : Keeps I (newComputed a) Q := by
  unfold newComputed
  split
  · exact keeps_newElement hserial fun mark => helement mark _
  · exact keeps_marked hserial harray

/-- `newTexts` makes a list of texts. -/
theorem keeps_newTexts {texts : List String} (h : ∀ mark items, Q (.list mark items)) :
    Keeps I (newTexts texts) Q :=
  keeps_bind (keeps_mapM (Q := fun _ => True) fun _ _ => keeps_marked hserial fun _ => trivial)
    fun items _ => keeps_marked hserial fun mark => h mark items

/-- `compareValues` answers with a truth value, or with an array or element of truth values. -/
theorem keeps_compareValues {a b : Value} (hboolean : ∀ b, Q (.boolean b))
    (helement : ∀ mark x, Q (.element mark x)) (harray : ∀ mark a, Q (.array mark a)) :
    Keeps I (compareValues a b) Q := by
  refine keeps_bind keeps_get fun s _ => keeps_lift_bind fun verdict => ?_
  cases verdict with
  | plain b => exact keeps_pure (hboolean b)
  | places t => exact keeps_newComputed hserial helement fun mark => harray mark _

/-- `multiplyArrays` answers with an array, or with an element. -/
theorem keeps_multiplyArrays {left right : Value} (helement : ∀ mark x, Q (.element mark x))
    (harray : ∀ mark a, Q (.array mark a)) : Keeps I (multiplyArrays left right) Q :=
  keeps_lift_bind fun _ => keeps_lift_bind fun _ => keeps_lift_bind fun _ =>
    keeps_newComputed hserial helement fun mark => harray mark _

/-- `operandValue` changes nothing, whatever the operand may be. -/
theorem keeps_anyOperandValue {other : Operand} : Keeps I (operandValue other) fun _ => True := by
  cases other with
  | written array => exact keeps_lift_bind fun t => keeps_marked hserial fun _ => trivial
  | held name => exact keeps_value trivial fun _ _ _ _ _ _ => trivial

/-- `invertStep` gives the step itself, or it takes two marks. -/
theorem keeps_invertStep (x : StepObject) : Keeps I (invertStep x) fun _ => True := by
  refine keeps_lift_bind fun inverse => ?_
  split
  · exact keeps_pure trivial
  · exact keeps_bind (keeps_freshMark hserial) fun _ _ =>
      keeps_bind (keeps_freshMark hserial) fun _ _ => keeps_pure trivial

/-- `invertTransform` takes marks only, one for each step and one for a chain. -/
theorem keeps_invertTransform (t : TransformObject) : Keeps I (invertTransform t) fun _ => True := by
  cases t with
  | step x => exact keeps_bind (keeps_invertStep hserial x) fun _ _ => keeps_pure trivial
  | chain mark steps =>
    exact keeps_bind (keeps_mapM fun x _ => keeps_invertStep hserial x) fun _ _ =>
      keeps_bind (keeps_freshMark hserial) fun _ _ => keeps_pure trivial

end New

/-! ## Matrices that are being built, and copies -/

section Copies

/-- `asMatrix` changes nothing, whatever the second operand may be. -/
theorem keeps_anyMatrix {v : Value} : Keeps I (asMatrix v) fun _ => True := by
  refine keeps_bind keeps_get fun s hs => ?_
  cases s.matrix? v with
  | some m => exact keeps_pure trivial
  | none => exact keeps_lift_bind fun _ => keeps_lift fun _ _ => trivial

/-- `newBuilder` allocates one more matrix that is being built. -/
theorem keeps_newBuilder {m : Matrix Double} {Q : Value → Prop} (h : ∀ s, I s → I (s.allocate m))
    (hanswer : ∀ address, Q (.builder address)) : Keeps I (newBuilder m) Q :=
  keeps_bind keeps_get fun _ _ => keeps_bind (keeps_modify h) fun _ _ => keeps_pure (hanswer _)

/-- Sessions with the property still have it after the copy of a matrix was allocated that one of them has been
building. -/
def AllowsCopies (I : Session → Prop) (c : Copying) : Prop :=
  ∀ before address m m', I before → before.builderAt? address = some m → c.elements m = .ok m' →
    ∀ s, I s → I (s.allocate m')

variable {c : Copying}

mutual

/-- `copyWith` takes a new matrix for each matrix that is being built inside of a value, and only a
    published matrix is copied to a published matrix. -/
theorem keeps_copyWith (hcopy : AllowsCopies I c) (v : Value) :
    Keeps I (copyWith c v) fun copy => ∀ mark m, copy = .matrix mark m →
      ∃ source m₀, v = .matrix source m₀ ∧ c.elements m₀ = .ok m := by
  cases v with
  | tuple source items =>
    unfold copyWith
    exact keeps_ite
      (keeps_bind (Q := fun _ => True) (keeps_pure trivial) fun _ _ => keeps_pure fun _ _ h => nomatch h)
      (keeps_bind (keeps_copyAll hcopy items) fun _ _ => keeps_pure fun _ _ h => nomatch h)
  | list source items =>
    unfold copyWith
    exact keeps_ite
      (keeps_bind (Q := fun _ => True) (keeps_pure trivial) fun _ _ => keeps_pure fun _ _ h => nomatch h)
      (keeps_bind (keeps_copyAll hcopy items) fun _ _ => keeps_pure fun _ _ h => nomatch h)
  | record source fields =>
    unfold copyWith
    exact keeps_ite
      (keeps_bind (Q := fun _ => True) (keeps_pure trivial) fun _ _ => keeps_pure fun _ _ h => nomatch h)
      (keeps_bind (keeps_copyFields hcopy fields) fun _ _ => keeps_pure fun _ _ h => nomatch h)
  | matrix source m =>
    unfold copyWith
    refine keeps_bind (keeps_lift fun m' hm' => hm') fun m' hm' => keeps_pure fun mark copied h => ?_
    cases h
    exact ⟨source, m, rfl, hm'⟩
  | builder address =>
    unfold copyWith
    -- What is allocated is the copy of a matrix that some session with the property has at this address.
    exact keeps_bind (keeps_matrix fun before m hbefore hm m' hm' => hcopy before address m m' hbefore hm hm')
      fun m hm => keeps_bind (keeps_lift fun m' hm' => hm m' hm') fun m' hm' =>
        keeps_newBuilder hm' fun _ _ _ h => nomatch h
  | transform t =>
    unfold copyWith
    exact keeps_lift_bind fun _ => keeps_pure fun _ _ h => nomatch h
  -- Truth values out of arrays are copied in a case of their own.
  | element source x => cases x <;> exact keeps_pure fun _ _ h => nomatch h
  | _ => exact keeps_pure fun _ _ h => nomatch h

/-- `copyAll` copies one value after the other. -/
theorem keeps_copyAll (hcopy : AllowsCopies I c) (vs : List Value) : Keeps I (copyAll c vs) fun _ => True := by
  cases vs with
  | nil =>
    unfold copyAll
    exact keeps_pure trivial
  | cons v rest =>
    unfold copyAll
    exact keeps_bind (keeps_copyWith hcopy v) fun _ _ => keeps_bind (keeps_copyAll hcopy rest) fun _ _ =>
      keeps_pure trivial

/-- `copyFields` copies the value of one field after the other. -/
theorem keeps_copyFields (hcopy : AllowsCopies I c) (fields : List (String × Value)) :
    Keeps I (copyFields c fields) fun _ => True := by
  cases fields with
  | nil =>
    unfold copyFields
    exact keeps_pure trivial
  | cons field rest =>
    unfold copyFields
    exact keeps_bind (keeps_copyWith hcopy field.2) fun _ _ => keeps_bind (keeps_copyFields hcopy rest)
      fun _ _ => keeps_pure trivial

end

end Copies

end Procedure

end Georef
