import Georef.Proofs.Session.Keeping

/-!
# What a failing command leaves behind

A command that fails undoes nothing, so it matters what it has done by then. Most commands disturb nothing at all:
they make new objects, which uses up serial numbers, and perhaps new matrices that are being built, but they leave
the known directions, the variables and the matrices that are there already alone. The others, which change a
matrix that is being built or make a name known, do so last, when nothing can fail any more. So every command that
fails leaves all of this as it was.

## Key results

- `Quiet.bind`, `Quiet.cautious_bind`: procedures that disturb nothing, and such that do so only at their end
- `quiet_execute`, `cautious_execute`: the commands of each kind
- `Session.undisturbed_of_error`: what holds after an instruction that has failed
-/

namespace Georef

open Georef.Action

/-- The known directions and the variables are as before, and so are the matrices being built. There may be more of
these, and serial numbers may have been used up. -/
structure Session.Undisturbed (before after : Session) : Prop where
  registry_eq : after.registry = before.registry
  bindings_eq : after.bindings = before.bindings
  builders_isPrefix : before.builders <+: after.builders

namespace Session.Undisturbed

variable {before s : Session}

/-- Nothing happening, nothing is disturbed: `Undisturbed` is reflexive. -/
theorem refl (s : Session) : s.Undisturbed s := ⟨rfl, rfl, List.prefix_rfl⟩

/-- Serial numbers can be used up. -/
theorem serial (s : Session) (n : Nat) (h : before.Undisturbed s) :
    before.Undisturbed { s with nextSerial := n } :=
  ⟨h.registry_eq, h.bindings_eq, h.builders_isPrefix⟩

/-- What leaves a session `Undisturbed` can be done after what does. -/
theorem trans {t : Session} (h : before.Undisturbed s) (h' : s.Undisturbed t) : before.Undisturbed t :=
  ⟨h'.registry_eq.trans h.registry_eq, h'.bindings_eq.trans h.bindings_eq,
    h.builders_isPrefix.trans h'.builders_isPrefix⟩

/-- Matrices can be put after those that are being built: `allocate` does. -/
theorem allocate (h : before.Undisturbed s) (m : Matrix Double) : before.Undisturbed (s.allocate m) :=
  ⟨h.registry_eq, h.bindings_eq, h.builders_isPrefix.trans (List.prefix_append _ _)⟩

end Session.Undisturbed

open Session (Undisturbed)

namespace Procedure

variable {α β : Type}

/-! ## Procedures that disturb nothing -/

/-- The procedure `Keeps` every session undisturbed, whether it succeeds or fails. -/
def Quiet (x : Procedure α) : Prop :=
  ∀ before : Session, Keeps before.Undisturbed x fun _ => True

/-- After a procedure that is `Quiet` the session is `Undisturbed`. -/
theorem Quiet.undisturbed {x : Procedure α} (hx : Quiet x) (s : Session) : s.Undisturbed (x.call s).2 :=
  (hx s (.refl s)).1

/-- One procedure that is `Quiet` after another disturbs nothing either. -/
theorem Quiet.bind {x : Procedure α} {f : α → Procedure β} (hx : Quiet x) (hf : ∀ a, Quiet (f a)) :
    Quiet (x >>= f) := fun before => keeps_bind (hx before) fun a _ => hf a before

/-- An answer that is there already disturbs nothing. -/
theorem quiet_pure (a : α) : Quiet (pure a) := fun _ => keeps_pure trivial

/-- Failing undoes nothing and disturbs nothing. -/
theorem quiet_throw (e : Failure) : Quiet (throw e : Procedure α) := fun _ => keeps_throw e

/-- What does not look at the session disturbs nothing. -/
theorem quiet_lift (x : Except Failure α) : Quiet (liftM x) := fun _ => keeps_lift fun _ _ => trivial

/-- Looking at the session disturbs nothing. -/
theorem quiet_get : Quiet get := fun _ => keeps_get.mono fun _ _ => trivial

/-- Both branches of a condition have to be `Quiet`. -/
theorem quiet_ite {p : Prop} [Decidable p] {x y : Procedure α} (hx : Quiet x) (hy : Quiet y) :
    Quiet (if p then x else y) := fun before => keeps_ite (hx before) (hy before)

/-- A procedure that is `Quiet` can be carried out for every element of a list. -/
theorem quiet_mapM {f : β → Procedure α} {xs : List β} (h : ∀ x, Quiet (f x)) : Quiet (xs.mapM f) :=
  fun before => (keeps_mapM fun x _ => h x before).mono fun _ _ => trivial

/-! ### What is looked up -/

/-- `value` only looks a variable up. -/
theorem quiet_value (name : Option String) : Quiet (value name) :=
  fun _ => keeps_value trivial fun _ _ _ _ _ _ => trivial

/-- `direction?` only looks a direction up. -/
theorem quiet_direction? (name : Option String) : Quiet (direction? name) :=
  fun _ => keeps_direction? name

theorem quiet_required (d : Option Direction) : Quiet (required d) := fun _ => keeps_required d

/-- `matrix` only looks the elements of a matrix up. -/
theorem quiet_matrix (v : Value) : Quiet (matrix v) := fun _ => keeps_matrix fun _ _ _ _ => trivial

/-- `operandValue` looks a variable up or makes an array. -/
theorem quiet_operandValue (other : Operand) : Quiet (operandValue other) :=
  fun _ => keeps_anyOperandValue Undisturbed.serial

theorem quiet_asMatrix (v : Value) : Quiet (asMatrix v) := fun _ => keeps_anyMatrix

/-- Asking for a value of one kind fails for those of other kinds, as `asMeridian` does. -/
theorem quiet_asMeridian (v : Value) : Quiet (asMeridian v) := by
  cases v with
  | meridian mark m => exact quiet_pure m
  | _ => exact quiet_throw _

theorem quiet_asSystem (v : Value) : Quiet (asSystem v) := by
  cases v with
  | system mark cs axisMarks => exact quiet_pure cs
  | _ => exact quiet_throw _

theorem quiet_asTransform (v : Value) : Quiet (asTransform v) := by
  cases v with
  | transform t => exact quiet_pure t
  | _ => exact quiet_throw _

theorem quiet_asManaged (v : Value) : Quiet (asManaged v) :=
  (quiet_asTransform v).bind fun _ => quiet_ite (quiet_pure _) (quiet_throw _)

theorem quiet_asUnivariate (v : Value) : Quiet (asUnivariate v) :=
  (quiet_asTransform v).bind fun _ => quiet_ite (quiet_pure _) (quiet_throw _)

theorem quiet_asPlanar (v : Value) : Quiet (asPlanar v) :=
  (quiet_asTransform v).bind fun _ => quiet_ite (quiet_pure _) (quiet_throw _)

/-- `itemAt` counts places from the front or from the end and fails for those that are outside. -/
theorem quiet_itemAt (items : List α) (place : Int) : Quiet (itemAt items place) := by
  unfold itemAt
  generalize (if place < 0 then place + items.length else place) = index
  dsimp only
  split
  · exact quiet_throw _
  · split
    · exact quiet_pure _
    · exact quiet_throw _

/-! ### New objects -/

/-- `freshMark` only uses a serial number up. -/
theorem quiet_freshMark : Quiet freshMark := fun _ => keeps_freshMark Undisturbed.serial

/-- So does anything that gets a mark of its own. -/
theorem quiet_marked (f : Mark → Value) : Quiet (do return f (← freshMark)) :=
  quiet_freshMark.bind fun mark => quiet_pure (f mark)

/-- `newComputed` makes an array or an element. -/
theorem quiet_newComputed (a : ScalarArray) : Quiet (newComputed a) :=
  fun _ => keeps_newComputed Undisturbed.serial (fun _ _ => trivial) fun _ => trivial

theorem quiet_newTexts (texts : List String) : Quiet (newTexts texts) :=
  fun _ => keeps_newTexts Undisturbed.serial fun _ _ => trivial

theorem quiet_compareValues (a b : Value) : Quiet (compareValues a b) :=
  fun _ => keeps_compareValues Undisturbed.serial (fun _ => trivial) (fun _ _ => trivial) fun _ _ => trivial

/-- `newMeridian?` makes a direction along a meridian, or nothing. -/
theorem quiet_newMeridian? (m : Option MeridianDirection) : Quiet (newMeridian? m) := by
  cases m with
  | some m => exact quiet_marked _
  | none => exact quiet_pure _

theorem quiet_newAngle (angle : Double) (isReplaced : Bool) : Quiet (newAngle angle isReplaced) := by
  unfold newAngle
  split
  · exact quiet_pure _
  · split
    · exact quiet_pure _
    · exact quiet_marked _

theorem quiet_newAngleBetween (source target : Direction) : Quiet (newAngleBetween source target) := by
  unfold newAngleBetween
  split
  · exact quiet_marked _
  · split
    · exact quiet_newAngle _ _
    · exact quiet_newAngle _ _

/-- A matrix of `newMatrixOf` that is being built is a new one, after those that are there. -/
theorem quiet_newMatrixOf (kind : MatrixKind) (m : Matrix Double) : Quiet (newMatrixOf kind m) := by
  cases kind with
  | published => exact quiet_marked _
  | builder => exact fun _ => keeps_newBuilder (fun _ hs => hs.allocate m) fun _ => trivial

/-- `copyValue` copies the matrices being built inside a value to new ones, also if a later copy
    fails. -/
theorem quiet_copyValue (mode : CopyMode) (v : Value) : Quiet (copyValue mode v) :=
  fun _ => keeps_bind (keeps_freshSerial Undisturbed.serial) fun _ _ =>
    (keeps_copyWith (fun _ _ _ m _ _ _ _ hs => hs.allocate m) v).mono fun _ _ => trivial

/-! ### Searches and products -/

/-- `searchAmong` fails at the first candidate that is no direction. -/
theorem quiet_searchAmong (name : List Char) (candidates : List (Option Direction)) :
    Quiet (searchAmong name candidates) := by
  induction candidates with
  | nil => exact quiet_pure _
  | cons candidate rest ih =>
    cases candidate with
    | none => exact quiet_throw _
    | some d =>
      unfold searchAmong
      split
      · exact quiet_pure _
      · exact ih

/-- `sortedNames` fails if one of the directions is missing. -/
theorem quiet_sortedNames (ds : List (Option Direction)) : Quiet (sortedNames ds) := by
  unfold sortedNames
  split
  · exact quiet_newTexts _
  · exact quiet_throw _

theorem quiet_formAxis (form : AxisForm) : Quiet (formAxis form) := by
  cases form with
  | full name abbreviation d unit => exact (quiet_direction? d).bind fun _ => quiet_pure _
  | short d => exact (quiet_direction? d).bind fun _ => quiet_pure _

/-- `multiplyArrays` makes an array or an element. -/
theorem quiet_multiplyArrays (left right : Value) : Quiet (multiplyArrays left right) :=
  fun _ => keeps_multiplyArrays Undisturbed.serial (fun _ _ => trivial) fun _ _ => trivial

/-- `timesValue` makes a matrix, an array or an element. -/
theorem quiet_timesValue (left right : Value) : Quiet (timesValue left right) := by
  refine quiet_get.bind fun s => quiet_get.bind fun _ => ?_
  split
  · exact (quiet_lift _).bind fun m => quiet_marked _
  · exact (quiet_lift _).bind fun _ => (quiet_lift _).bind fun _ => quiet_marked _
  · exact quiet_multiplyArrays _ _
  · exact quiet_multiplyArrays _ _
  · exact quiet_throw _

/-- `invertValue` makes a matrix or a transform. -/
theorem quiet_invertValue (v : Value) : Quiet (invertValue v) := by
  unfold invertValue
  split
  · have hinvert (t : TransformObject) : Quiet (invertTransform t) :=
      fun _ => keeps_invertTransform Undisturbed.serial t
    exact (hinvert _).bind fun _ => quiet_pure _
  · exact (quiet_matrix _).bind fun _ => (quiet_lift _).bind fun _ => quiet_marked _

end Procedure

/-! ### Transforms and ellipsoids -/

namespace Procedure

/-- `newLinearOf` makes a transform that knows the mark of its matrix. -/
theorem quiet_newLinearOf (t : LinearTransform Double) (mark : Mark) : Quiet (newLinearOf t mark) :=
  quiet_marked _

theorem quiet_newLinear (t : LinearTransform Double) : Quiet (newLinear t) :=
  quiet_freshMark.bind fun mark => quiet_newLinearOf t mark

/-- `matrixOfArray` makes a published matrix of an array. -/
theorem quiet_matrixOfArray (v : Value) : Quiet (matrixOfArray v) :=
  (quiet_lift _).bind fun _ => (quiet_lift _).bind fun _ => quiet_freshMark.bind fun _ => quiet_pure _

/-- `homogeneousMatrix` takes a matrix as it is and makes one of an array. -/
theorem quiet_homogeneousMatrix (v : Value) : Quiet (homogeneousMatrix v) := by
  unfold homogeneousMatrix
  split
  · exact quiet_pure _
  · exact (quiet_matrix _).bind fun _ => quiet_freshMark.bind fun _ => quiet_pure _
  · exact quiet_throw _
  · exact quiet_throw _
  · exact quiet_throw _
  · exact quiet_throw _
  · exact quiet_matrixOfArray _

/-- `formTransform` makes a transform of each of the forms, or fails. -/
theorem quiet_formTransform (form : TransformForm) : Quiet (formTransform form) := by
  cases form with
  | scaleOffset scale offset =>
    exact (quiet_lift _).bind fun _ => (quiet_lift _).bind fun _ => quiet_newLinear _
  | affine coefficients =>
    refine (quiet_mapM fun _ => quiet_lift _).bind fun _ => ?_
    split
    · exact quiet_newLinear _
    · exact quiet_throw _
  | selection source indices => exact (quiet_lift _).bind fun t => quiet_newLinear t
  | projective planar operand =>
    refine (quiet_operandValue operand).bind fun v => ?_
    -- The matrix that is given may be one of the session or a new one.
    have hgiven (given : MarkedMatrix) : Quiet (newLinearOf (.projective planar given.matrix) given.mark) :=
      quiet_newLinearOf _ _
    cases v with
    | matrix mark m => exact (quiet_pure _).bind hgiven
    | _ => exact (quiet_matrixOfArray _).bind hgiven

/-- `newMapping` makes a mapping with a mark of its own. -/
theorem quiet_newMapping (step : Mark → Step Double) : Quiet (newMapping step) :=
  quiet_freshMark.bind fun _ => quiet_pure _

/-- `join` makes a new chain, or fails because of the dimensions. -/
theorem quiet_join (a b : TransformObject) : Quiet (join a b) :=
  (quiet_lift _).bind fun _ => quiet_freshMark.bind fun _ => quiet_pure _

/-- `matrixOf` makes a new matrix unless the transform has kept its own. -/
theorem quiet_matrixOf (v : Value) : Quiet (matrixOf v) := by
  unfold matrixOf
  split
  · exact quiet_pure _
  · refine (quiet_lift _).bind fun m => ?_
    split
    · exact quiet_marked _
    · exact quiet_pure _
  · split
    · exact (quiet_lift _).bind fun _ => quiet_marked _
    · exact quiet_pure _
  · exact quiet_pure _

theorem quiet_isIdentityValue (v : Value) : Quiet (isIdentityValue v) := by
  unfold isIdentityValue
  split
  · exact (quiet_asManaged _).bind fun _ => quiet_pure _
  · exact (quiet_matrix _).bind fun _ => quiet_pure _

/-- `foreignDerivative` makes nothing known either. -/
theorem quiet_foreignDerivative (m : Mapping Double) (point : PointsForm) :
    Quiet (foreignDerivative m point) := by
  cases point with
  | empty shape => exact (quiet_lift _).bind fun _ => quiet_lift _
  | array a =>
    refine (quiet_lift _).bind fun _ => ?_
    split
    · exact quiet_throw _
    · exact quiet_throw _
    · exact quiet_lift _
    · exact quiet_throw _

theorem quiet_elementAt (t : Tensor Double) (i : Nat) : Quiet (elementAt t i) := by
  unfold elementAt
  split
  · exact quiet_marked _
  · exact quiet_throw _

/-- `newDestination` makes the arrays that were written to. -/
theorem quiet_newDestination (destination : DestinationForm) (result points : Tensor Double) :
    Quiet (newDestination destination result points) := by
  refine (quiet_marked _).bind fun _ => ?_
  cases destination with
  | inPlace => exact quiet_pure _
  | _ => exact (quiet_marked _).bind fun _ => quiet_pure _

/-- `newEllipsoid` makes an ellipsoid. -/
theorem quiet_newEllipsoid (e : Ellipsoid) : Quiet (newEllipsoid e) :=
  quiet_freshMark.bind fun _ => quiet_freshMark.bind fun _ => quiet_pure _

theorem quiet_standardEllipsoid (code : EllipsoidCode) : Quiet (standardEllipsoid code) :=
  (quiet_lift _).bind fun _ => (quiet_lift _).bind fun _ => quiet_pure _

end Procedure

/-! ## Commands that disturb nothing -/

/-- The command can make a name known: each of the three kinds of commands about directions has one
    that can. -/
def Command.CanTeach : Command → Prop
  | .direction (.find _ create) => create = true
  | .meridian (.direction _) => True
  | .system (.parseDirection _) => True
  | _ => False

open Procedure

/-- All commands about directions but one that can teach are `Quiet`: they look directions up and
    answer with what they find. -/
theorem DirectionCommand.quiet_execute {c : DirectionCommand} (hc : ¬(Command.direction c).CanTeach) :
    Quiet c.execute := by
  cases c with
  | known => exact quiet_get.bind fun _ => quiet_newTexts _
  | find name create =>
    -- A name that is only looked up teaches nothing.
    obtain rfl : create = false := Bool.eq_false_iff.mpr hc
    exact quiet_get.bind fun _ => quiet_pure _
  | text d => exact (quiet_direction? d).bind fun _ => quiet_get.bind fun _ => quiet_newTexts _
  | survivesArchive d =>
    refine (quiet_direction? d).bind fun d => ?_
    cases d with
    | some d => exact quiet_get.bind fun _ => quiet_pure _
    | none => exact quiet_pure _
  | compare a b =>
    refine (quiet_direction? a).bind fun _ => (quiet_direction? b).bind fun _ => ?_
    split
    · exact quiet_marked _
    · exact quiet_throw _
  | sort names => exact (quiet_mapM quiet_direction?).bind fun ds => quiet_sortedNames ds
  | opposite d => exact (quiet_direction? d).bind fun _ => quiet_pure _
  | absolute d => exact (quiet_direction? d).bind fun _ => quiet_pure _
  | isOpposite d => exact (quiet_direction? d).bind fun _ => quiet_pure _
  | isGrid d => exact (quiet_direction? d).bind fun _ => quiet_pure _
  | isSpatialOrCustom d imageAxes => exact (quiet_direction? d).bind fun _ => quiet_pure _
  | search name candidates =>
    cases candidates with
    | none => exact quiet_get.bind fun _ => quiet_pure _
    | some candidates =>
      exact (quiet_mapM quiet_direction?).bind fun ds => quiet_searchAmong _ ds
  | lookup name => exact quiet_get.bind fun _ => quiet_pure _

/-- All commands about directions along a meridian are `Quiet`, except for the question for an axis
    direction. -/
theorem MeridianCommand.quiet_execute {c : MeridianCommand} (hc : ¬(Command.meridian c).CanTeach) :
    Quiet c.execute := by
  cases c with
  | create base meridian =>
    refine (quiet_direction? base).bind fun base => (quiet_lift _).bind fun _ => ?_
    cases base with
    | some base => exact (quiet_lift _).bind fun _ => quiet_newMeridian? _
    | none => exact (quiet_lift _).bind fun _ => quiet_throw _
  | parse name => exact quiet_newMeridian? _
  | ofDirection d =>
    exact (quiet_direction? d).bind fun d => (quiet_required d).bind fun _ => quiet_newMeridian? _
  | direction m => exact absurd trivial hc
  | text m => exact (quiet_value m).bind fun _ => quiet_get.bind fun _ => quiet_newTexts _
  | angle a b =>
    exact (quiet_value a).bind fun a => (quiet_asMeridian a).bind fun _ =>
      (quiet_value b).bind fun b => (quiet_asMeridian b).bind fun _ => quiet_newAngle _ _
  | compare a b =>
    exact (quiet_value a).bind fun a => (quiet_value b).bind fun b =>
      (quiet_asMeridian a).bind fun _ => (quiet_asMeridian b).bind fun _ =>
        (quiet_marked _).bind fun _ => quiet_marked _
  | sort names =>
    exact (quiet_mapM quiet_value).bind fun _ => quiet_get.bind fun _ =>
      (quiet_lift _).bind fun _ => quiet_newTexts _

/-- All commands about coordinate systems are `Quiet`, except for reading the name of an axis
    direction. -/
theorem SystemCommand.quiet_execute {c : SystemCommand} (hc : ¬(Command.system c).CanTeach) :
    Quiet c.execute := by
  cases c with
  | create name axes =>
    refine (quiet_mapM quiet_formAxis).bind fun _ => ?_
    split
    · -- The axes get marks of their own, one after the other.
      exact (quiet_lift _).bind fun _ => quiet_freshMark.bind fun _ =>
        (quiet_mapM fun _ => quiet_freshMark).bind fun _ => quiet_pure _
    · exact quiet_throw _
  | axis cs place =>
    refine (quiet_value cs).bind fun _ => ?_
    split
    · exact (quiet_itemAt _ place).bind fun _ => (quiet_lift _).bind fun _ => quiet_pure _
    · exact quiet_throw _
  | same cs other =>
    exact (quiet_value cs).bind fun a => (quiet_value other).bind fun b => quiet_compareValues a b
  | indexOf cs d =>
    refine (quiet_value cs).bind fun _ => (quiet_direction? d).bind fun _ => ?_
    split
    · exact quiet_marked _
    · refine (quiet_asSystem _).bind fun _ => ?_
      split
      · exact quiet_marked _
      · exact quiet_marked _
  | parseDirection name => exact absurd trivial hc
  | compassSteps source target =>
    refine (quiet_direction? source).bind fun a => (quiet_direction? target).bind fun b =>
      (quiet_required a).bind fun _ => (quiet_required b).bind fun _ => ?_
    split
    · exact quiet_marked _
    · exact quiet_pure _
  | angle source target =>
    exact (quiet_direction? source).bind fun a => (quiet_direction? target).bind fun b =>
      (quiet_required a).bind fun a => (quiet_required b).bind fun b => quiet_newAngleBetween a b
  | swapAxes source target =>
    exact (quiet_value source).bind fun a => (quiet_value target).bind fun b =>
      (quiet_asSystem a).bind fun _ => (quiet_asSystem b).bind fun _ =>
        (quiet_lift _).bind fun _ => quiet_marked _

/-- Commands about transforms make new objects and write to arrays of their own, so all of them are
    `Quiet`. -/
theorem TransformCommand.quiet_execute (c : TransformCommand) : Quiet c.execute := by
  cases c with
  | identity dimension => exact (quiet_lift _).bind fun t => quiet_newLinear t
  | ofMatrix operand =>
    exact (quiet_operandValue operand).bind fun v => (quiet_homogeneousMatrix v).bind fun _ =>
      (quiet_lift _).bind fun t => quiet_newLinearOf t _
  | ofScale scale offset =>
    cases offset with
    | some offset => exact (quiet_lift _).bind fun _ => (quiet_lift _).bind fun _ => quiet_newLinear _
    | none => exact (quiet_lift _).bind fun _ => quiet_throw _
  | ofForm form => exact quiet_formTransform form
  | selectionOf m =>
    refine (quiet_value m).bind fun v => (quiet_matrix v).bind fun a => (quiet_lift _).bind fun t => ?_
    split
    · exact quiet_newLinear _
    · exact quiet_pure _
  | foreignSquaring => exact quiet_newMapping _
  | managedSquaring => exact quiet_newMapping _
  | frame array => exact (quiet_lift _).bind fun _ => quiet_marked _
  | concatenate first second third =>
    refine (quiet_value first).bind fun a => (quiet_value second).bind fun b =>
      (quiet_value third).bind fun c => ?_
    split
    · exact quiet_throw _
    · exact quiet_throw _
    · -- Two transforms, or three: the first two are joined in any case.
      refine (quiet_asTransform _).bind fun t => (quiet_asTransform _).bind fun u =>
        (quiet_join t u).bind fun joined => ?_
      split
      · exact quiet_pure _
      · exact (quiet_asTransform _).bind fun w => (quiet_join joined w).bind fun _ => quiet_pure _
  | reveal t => exact quiet_value t
  | steps t => exact (quiet_value t).bind fun _ => quiet_marked _
  | step t place => exact (quiet_value t).bind fun v => quiet_itemAt _ place
  | matrix t => exact (quiet_value t).bind fun v => quiet_matrixOf v
  | isIdentity t =>
    exact (quiet_value t).bind fun v => (quiet_isIdentityValue v).bind fun _ => quiet_pure _
  | transform t points destination =>
    cases destination with
    | fresh =>
      exact (quiet_value t).bind fun v => (quiet_lift _).bind fun _ => (quiet_asTransform v).bind fun _ =>
        (quiet_lift _).bind fun _ => quiet_newComputed _
    | _ =>
      exact (quiet_value t).bind fun v => (quiet_lift _).bind fun _ => (quiet_lift _).bind fun _ =>
        (quiet_asTransform v).bind fun _ => (quiet_lift _).bind fun _ =>
          (quiet_newDestination _ _ _).bind fun _ => quiet_marked _
  | derivative t point =>
    refine (quiet_value t).bind fun v => (quiet_asTransform v).bind fun x => ?_
    split
    · exact (quiet_foreignDerivative _ point).bind fun _ => quiet_marked _
    · exact (quiet_lift _).bind fun _ => (quiet_lift _).bind fun _ => quiet_marked _
  | transformAndDerivative t point =>
    exact (quiet_value t).bind fun v => (quiet_asManaged v).bind fun _ => (quiet_lift _).bind fun _ =>
      (quiet_lift _).bind fun _ => (quiet_marked _).bind fun _ => (quiet_marked _).bind fun _ =>
        quiet_marked _
  | derivativeAndTransform t point destination =>
    refine (quiet_value t).bind fun v => (quiet_lift _).bind fun _ => (quiet_lift _).bind fun _ =>
      (quiet_asTransform v).bind fun _ => (quiet_lift _).bind fun _ => (quiet_marked _).bind fun _ => ?_
    cases destination with
    | fresh => exact (quiet_marked _).bind fun _ => quiet_marked _
    | _ => exact (quiet_newDestination _ _ _).bind fun _ => quiet_marked _
  | inverse t => exact (quiet_value t).bind fun v => quiet_invertValue v
  | same t other =>
    exact (quiet_value t).bind fun a => (quiet_value other).bind fun b => quiet_compareValues a b
  | sameHash t other =>
    exact (quiet_value t).bind fun _ => (quiet_value other).bind fun _ => (quiet_lift _).bind fun _ =>
      (quiet_lift _).bind fun _ => quiet_pure _
  | sameObject t other =>
    exact (quiet_value t).bind fun _ => (quiet_value other).bind fun _ => quiet_pure _
  | text t =>
    refine (quiet_value t).bind fun v => ?_
    split
    · exact quiet_pure _
    · exact quiet_get.bind fun _ => quiet_marked _
  | transformValue t x =>
    exact (quiet_value t).bind fun v => (quiet_asUnivariate v).bind fun _ => (quiet_lift _).bind fun _ =>
      (quiet_lift _).bind fun _ => quiet_elementAt _ _
  | derivativeValue t x =>
    exact (quiet_value t).bind fun v => (quiet_asUnivariate v).bind fun _ => (quiet_lift _).bind fun _ =>
      (quiet_lift _).bind fun _ => (quiet_lift _).bind fun _ => quiet_marked _
  | transformXY t x y =>
    exact (quiet_value t).bind fun v => (quiet_asPlanar v).bind fun _ => (quiet_lift _).bind fun _ =>
      (quiet_lift _).bind fun _ => (quiet_lift _).bind fun _ => (quiet_elementAt _ _).bind fun _ =>
        (quiet_elementAt _ _).bind fun _ => quiet_marked _
  | derivativeXY t x y =>
    exact (quiet_value t).bind fun v => (quiet_asPlanar v).bind fun _ => (quiet_lift _).bind fun _ =>
      (quiet_lift _).bind fun _ => (quiet_lift _).bind fun _ => quiet_marked _
  | determinant t =>
    refine (quiet_value t).bind fun v => (quiet_asTransform v).bind fun x => ?_
    split
    · split
      · exact quiet_marked _
      · exact quiet_throw _
    · exact quiet_throw _

/-- Commands about ellipsoids and datums make new objects only, so all of them are `Quiet`. -/
theorem EllipsoidCommand.quiet_execute (c : EllipsoidCommand) : Quiet c.execute := by
  cases c with
  | ofCode code => exact quiet_standardEllipsoid code
  | ofNumber code => exact (quiet_lift _).bind fun _ => quiet_standardEllipsoid _
  | flattenedSphere properties a f unit =>
    exact (quiet_lift _).bind fun _ => (quiet_lift _).bind fun _ => (quiet_lift _).bind fun e =>
      quiet_newEllipsoid e
  | ofAxes properties a b unit =>
    exact (quiet_lift _).bind fun _ => (quiet_lift _).bind fun _ => (quiet_lift _).bind fun e =>
      quiet_newEllipsoid e
  | same e other =>
    exact (quiet_value e).bind fun a => (quiet_value other).bind fun b => quiet_compareValues a b
  | greenwich => exact quiet_pure _
  | datum name =>
    exact (quiet_lift _).bind fun _ => (quiet_marked _).bind fun _ => (quiet_marked _).bind fun _ =>
      (quiet_standardEllipsoid _).bind fun _ => quiet_marked _
  | datumNames => exact quiet_newTexts _

/-! ## Commands that disturb something last -/

namespace Procedure

variable {α β : Type}

/-- If the procedure fails, it has left the session `Undisturbed`. -/
def Cautious (x : Procedure α) : Prop :=
  ∀ s e, (x.call s).1 = .error e → s.Undisturbed (x.call s).2

/-- What disturbs nothing at all disturbs nothing if it fails. -/
theorem Quiet.cautious {x : Procedure α} (hx : Quiet x) : Cautious x := fun s _ _ => hx.undisturbed s

/-- What comes after a procedure that is `Quiet` decides. -/
theorem Quiet.cautious_bind {x : Procedure α} {f : α → Procedure β} (hx : Quiet x)
    (hf : ∀ a, Cautious (f a)) : Cautious (x >>= f) := by
  intro s e herror
  have hbetween := hx.undisturbed s
  rw [call_bind] at herror ⊢
  generalize x.call s = outcome at herror hbetween ⊢
  obtain ⟨result, between⟩ := outcome
  cases result with
  | error e => exact hbetween
  | ok a => exact hbetween.trans (hf a between e herror)

/-- `learn` makes a direction known without fail. -/
theorem cautious_learn (result : Direction × Registry) : Cautious (learn result) :=
  fun _ _ herror => nomatch herror

/-- `change` overwrites a matrix that is being built without fail, once there is something to put
    there. -/
theorem cautious_change {f : Matrix Double → Procedure (Matrix Double)} (hf : ∀ m, Quiet (f m)) (v : Value) :
    Cautious (change v f) := by
  unfold change
  split
  · exact (quiet_matrix _).cautious_bind fun m => (hf m).cautious_bind fun _ _ _ herror => nomatch herror
  · exact (quiet_throw _).cautious

end Procedure

/-- Four commands about matrices change one that is being built, as the last thing they do. All
    others are `Quiet`. -/
theorem MatrixCommand.cautious_execute (c : MatrixCommand) : Cautious c.execute := by
  cases c with
  | create kind rows cols given =>
    refine Quiet.cautious (Quiet.bind ?_ fun _ => (quiet_lift _).bind fun m => quiet_newMatrixOf kind m)
    cases given with
    | none => exact quiet_pure _
    | some elements => exact (quiet_lift _).bind fun _ => quiet_pure _
  | identity kind size => exact ((quiet_lift _).bind fun m => quiet_newMatrixOf kind m).cautious
  | zeros kind rows cols => exact ((quiet_lift _).bind fun m => quiet_newMatrixOf kind m).cautious
  | ofArray kind array =>
    exact ((quiet_lift _).bind fun _ => (quiet_lift _).bind fun m => quiet_newMatrixOf kind m).cautious
  | reveal m => exact (quiet_value m).cautious
  | info m =>
    have hinteger (n : Int) : Quiet (newInteger n) := quiet_marked _
    exact ((quiet_value m).bind fun v => (quiet_matrix v).bind fun _ => (hinteger _).bind fun _ =>
      (hinteger _).bind fun _ => (hinteger _).bind fun _ => (hinteger _).bind fun _ =>
        (quiet_marked _).bind fun _ => (quiet_lift _).bind fun _ => quiet_marked _).cautious
  | element m row col =>
    exact ((quiet_value m).bind fun v => (quiet_matrix v).bind fun _ => (quiet_lift _).bind fun _ =>
      quiet_marked _).cautious
  | elements m =>
    exact ((quiet_value m).bind fun v => (quiet_matrix v).bind fun _ => quiet_marked _).cautious
  | multiply m other =>
    exact ((quiet_value m).bind fun v => (quiet_matrix v).bind fun _ => (quiet_operandValue other).bind fun w =>
      (quiet_asMatrix w).bind fun _ => (quiet_lift _).bind fun _ => quiet_marked _).cautious
  | times m other =>
    exact ((quiet_value m).bind fun v => (quiet_operandValue other).bind fun w =>
      quiet_timesValue v w).cautious
  | timesList m items =>
    refine ((quiet_value m).bind fun v => (quiet_lift _).bind fun _ => ?_).cautious
    split
    · exact (quiet_lift _).bind fun _ => (quiet_marked _).bind fun _ => quiet_multiplyArrays _ _
    · exact quiet_throw _
  | solve m other =>
    exact ((quiet_value m).bind fun v => (quiet_matrix v).bind fun _ => (quiet_operandValue other).bind fun w =>
      (quiet_asMatrix w).bind fun _ => (quiet_lift _).bind fun _ => quiet_marked _).cautious
  | inverse m => exact ((quiet_value m).bind fun v => quiet_invertValue v).cautious
  | equals m other tolerance =>
    exact ((quiet_value m).bind fun v => (quiet_matrix v).bind fun _ => (quiet_operandValue other).bind fun w =>
      (quiet_lift _).bind fun _ => (quiet_asMatrix w).bind fun _ => quiet_pure _).cautious
  | same m other =>
    exact ((quiet_value m).bind fun a => (quiet_value other).bind fun b => quiet_compareValues a b).cautious
  | sameHash m other =>
    exact ((quiet_value m).bind fun _ => (quiet_value other).bind fun _ => (quiet_lift _).bind fun _ =>
      (quiet_lift _).bind fun _ => quiet_pure _).cautious
  | text m =>
    refine ((quiet_value m).bind fun v => ?_).cautious
    split
    · exact quiet_pure _
    · exact quiet_pure _
    · exact quiet_pure _
    · exact quiet_get.bind fun _ => quiet_marked _
  | copy m mode => exact ((quiet_value m).bind fun v => quiet_copyValue mode v).cautious
  | toBuilder m =>
    refine ((quiet_value m).bind fun v => ?_).cautious
    split
    · exact quiet_newMatrixOf .builder _
    · exact quiet_throw _
  | build m =>
    refine ((quiet_value m).bind fun v => ?_).cautious
    split
    · exact (quiet_matrix _).bind fun _ => quiet_marked _
    · exact quiet_throw _
  | setElement m row col x =>
    -- From here on the session may change, but by the last action only, and nothing can fail after
    -- it.
    exact (quiet_value m).cautious_bind fun v => (quiet_lift _).cautious_bind fun _ =>
      cautious_change (fun _ => quiet_lift _) v
  | setElements m given =>
    exact (quiet_value m).cautious_bind fun v => (quiet_lift _).cautious_bind fun _ =>
      cautious_change (fun _ => quiet_lift _) v
  | transpose m =>
    refine (quiet_value m).cautious_bind fun v => ?_
    split
    · exact (quiet_pure _).cautious
    · exact (quiet_pure _).cautious
    · exact cautious_change (fun _ => quiet_pure _) _
  | normalizeColumns m =>
    exact (quiet_value m).cautious_bind fun v => cautious_change (fun _ => quiet_pure _) v

/-- The command that makes an exact name known cannot fail. -/
theorem DirectionCommand.cautious_execute (c : DirectionCommand) : Cautious c.execute := by
  by_cases hteach : (Command.direction c).CanTeach
  · cases c with
    | find name create =>
      obtain rfl : create = true := hteach
      exact quiet_get.cautious_bind fun _ => cautious_learn _
    | _ => exact hteach.elim
  · exact (quiet_execute hteach).cautious

/-- The question for an axis direction fails before anything is made known, or not at all. -/
theorem MeridianCommand.cautious_execute (c : MeridianCommand) : Cautious c.execute := by
  by_cases hteach : (Command.meridian c).CanTeach
  · cases c with
    | direction m =>
      have hlearn (v : Value) : Cautious (do learn ((← asMeridian v).direction (← get).registry)) :=
        (quiet_asMeridian v).cautious_bind fun _ => quiet_get.cautious_bind fun _ => cautious_learn _
      refine (quiet_value m).cautious_bind fun v => ?_
      cases v with
      | axis mark a => exact (quiet_pure _).cautious
      | _ => exact hlearn _
    | _ => exact hteach.elim
  · exact (quiet_execute hteach).cautious

/-- A name that is not understood is not made known. -/
theorem SystemCommand.cautious_execute (c : SystemCommand) : Cautious c.execute := by
  by_cases hteach : (Command.system c).CanTeach
  · cases c with
    | parseDirection name =>
      exact quiet_get.cautious_bind fun _ => (quiet_lift _).cautious_bind fun _ => cautious_learn _
    | _ => exact hteach.elim
  · exact (quiet_execute hteach).cautious

/-- A command that fails has disturbed nothing, whichever command it is: all of them are `Cautious`. -/
theorem Command.cautious_execute (c : Command) : Cautious c.execute := by
  cases c with
  | matrix c => exact c.cautious_execute
  | transform c => exact c.quiet_execute.cautious
  | direction c => exact c.cautious_execute
  | meridian c => exact c.cautious_execute
  | system c => exact c.cautious_execute
  | ellipsoid c => exact c.quiet_execute.cautious

namespace Session

variable {s : Session} {i : Instruction}

/-- After an instruction that has failed the known directions and the variables are what they were,
    and every matrix that was being built has the elements that it had: the session is
    `Undisturbed`. -/
theorem undisturbed_of_error {e : Failure} (h : (s.perform i).1 = .error e) :
    s.Undisturbed (s.perform i).2 := by
  have hcautious := i.command.cautious_execute s
  unfold perform at h ⊢
  generalize i.command.execute.call s = outcome at h hcautious ⊢
  obtain ⟨result, after⟩ := outcome
  cases result with
  | error e => exact hcautious e rfl
  | ok v => exact nomatch h

end Session

end Georef
