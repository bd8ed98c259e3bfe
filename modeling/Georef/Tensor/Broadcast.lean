import Georef.Tensor

/-!
# Arrays side by side

Two arrays are taken place by place if their shapes agree, where an axis of size one is repeated as
often as the other array needs it and missing axes in front count as such. `jointShape?` is the shape
that both are brought to, and `zipWith?` makes an array of that shape.
-/

namespace Georef

namespace Tensor

/-- The sizes that two arrays are brought to, from the last axis to the first. -/
def jointSizes : List Nat → List Nat → Option (List Nat)
  | [], sizes => some sizes
  | sizes, [] => some sizes
  | n :: ns, m :: ms =>
    if n = m ∨ m = 1 then (jointSizes ns ms).map (n :: ·)
    else if n = 1 then (jointSizes ns ms).map (m :: ·)
    else none

/-- The shape that two arrays are brought to, if there is one. -/
def jointShape? (a b : List Nat) : Option (List Nat) :=
  (jointSizes a.reverse b.reverse).map List.reverse

variable {α β γ : Type}

/-- The elements of an array of the given shape, repeated so as to fill the joint shape. -/
def fillElements (shape joint : List Nat) (elements : List α) : List α :=
  repeatElements (List.replicate (joint.length - shape.length) 1 ++ shape) joint elements

/-- The array of the given elements, if there are as many as its shape says. -/
def ofElements? (shape : List Nat) (elements : List α) : Option (Tensor α) :=
  if h : elements.length = shapeSize shape then some ⟨shape, elements, h⟩ else none

/-- What `f` makes of two arrays, place by place, each brought to the `jointShape?`. -/
def zipWith? (f : α → β → γ) (a : Tensor α) (b : Tensor β) : Option (Tensor γ) :=
  (jointShape? a.shape b.shape).bind fun shape =>
    ofElements? shape (List.zipWith f (fillElements a.shape shape a.elements)
      (fillElements b.shape shape b.elements))

/-- The array of the given shape whose elements are all the same. -/
def constant (shape : List Nat) (value : α) : Tensor α := generate shape fun _ => value

end Tensor

end Georef
