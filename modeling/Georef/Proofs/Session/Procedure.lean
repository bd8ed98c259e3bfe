import Georef.Session.Basic
import Mathlib.Data.List.Forall2

/-!
# Procedures step by step

What the small procedures do that others are made of, and what a procedure has done for every element of a list.
Together with the lemmas on `Action.call` this takes a run apart from the front: a sequence of procedures
succeeds exactly if each of them does, one in the session that the one before has left.

## Key results

- `call_value`, `call_matrix`: what is looked up
- `call_freshMark`: a new mark
- `forall₂_of_call_mapM`: a procedure carried out for every element of a list
-/

namespace Georef

open Georef.Action

namespace Procedure

variable {α β : Type} {s s' : Session}

/-- A procedure that `mapM` has carried out for every element of a list has succeeded for each. -/
theorem forall₂_of_call_mapM {f : α → Procedure β} {xs : List α} {ys : List β}
    (h : (xs.mapM f).call s = (.ok ys, s')) :
    List.Forall₂ (fun x y => ∃ before after, (f x).call before = (.ok y, after)) xs ys := by
  induction xs generalizing ys s s' with
  | nil =>
    obtain ⟨rfl, -⟩ := call_pure_eq_ok_iff.mp h
    exact .nil
  | cons x xs ih =>
    rw [List.mapM_cons] at h
    obtain ⟨y, between, hy, h⟩ := call_bind_eq_ok_iff.mp h
    obtain ⟨ys', after, hys, h⟩ := call_bind_eq_ok_iff.mp h
    obtain ⟨rfl, -⟩ := call_pure_eq_ok_iff.mp h
    exact .cons ⟨s, between, hy⟩ (ih hys)

/-- `value` answers what a variable holds. -/
theorem call_value {name : String} {v : Value} (h : s.lookup name = some v) :
    (value (some name)).call s = (.ok v, s) := by
  simp only [value, call_bind, call_get, h, call_pure]

/-- `value` fails for a variable that holds nothing. -/
theorem call_value_of_none {name : String} (h : s.lookup name = none) :
    (value (some name)).call s = (.error (.unknownVariable name), s) := by
  simp only [value, call_bind, call_get, h, call_throw]

/-- `matrix` answers the elements that a matrix of the session has there. -/
theorem call_matrix {v : Value} {m : Matrix Double} (h : s.matrix? v = some m) :
    (matrix v).call s = (.ok m, s) := by
  simp only [matrix, call_bind, call_get, h, call_pure]

/-- `freshSerial` uses a serial number up. -/
theorem call_freshSerial (s : Session) :
    freshSerial.call s = (.ok s.nextSerial, { s with nextSerial := s.nextSerial + 1 }) := rfl

/-- `freshMark` makes a mark of the next serial number. -/
theorem call_freshMark (s : Session) :
    freshMark.call s = (.ok (.made s.nextSerial), { s with nextSerial := s.nextSerial + 1 }) := rfl

end Procedure

end Georef
