import Georef.Proofs.Matrix.Positive
import Georef.Proofs.Session.Keeping

/-!
# Matrices throughout a session

Whatever is done with matrices in a session, all matrices that are being built and all that variables hold
have at least one row and one column. There is one way around this: the second operand of a product or of a
linear system may be an array, whose shape is only looked at as far as it must fit. An array without columns
gives a matrix without columns, which cannot be written down and read back.

## Key results

- `keeps_matrixCommand`: what a single command leaves behind and answers
- `matrices_usable`: all matrices of a session have entries, if all arrays that were operands had some
- `emptied_by_multiply`: what an array without columns leads to
-/

namespace Georef

open Georef.Action Procedure

/-! ## What holds of a session -/

/-- A matrix that is held directly has entries. -/
def Value.Positive : Value → Prop
  | .matrix _ m => m.Positive
  | _ => True

namespace Session

/-- All matrices being built have entries. -/
def BuildersPositive (s : Session) : Prop := ∀ m ∈ s.builders, m.Positive

/-- All matrices of the session have entries. -/
structure MatricesPositive (s : Session) : Prop where
  builders : s.BuildersPositive
  held (name : String) (v : Value) : s.lookup name = some v → v.Positive

/-- The array that an operand stands for is no table without columns. Matrices stand for no arrays. -/
def OperandHasColumns (s : Session) : Operand → Prop
  | .written array => ∀ t rows, array.read = .ok t → t.shape ≠ [rows, 0]
  | .held none => True
  | .held (some name) =>
    ∀ v t rows, s.lookup name = some v → v.toTensor = .ok t → t.shape ≠ [rows, 0]

end Session

/-- The operand whose columns are those of the answer. -/
def MatrixCommand.rightOperand? : MatrixCommand → Option Operand
  | .multiply _ other | .times _ other | .solve _ other => some other
  | _ => none

/-! ## What the parts of a command keep -/

namespace Procedure

/-- During a command the variables hold what they did before, and the matrices being built have entries. -/
def During (before s : Session) : Prop := s.bindings = before.bindings ∧ s.BuildersPositive

variable {before : Session} {v : Value} {m : Matrix Double}

/-- Serial numbers can be used up. -/
theorem During.serial (s : Session) (n : Nat) (h : During before s) :
    During before { s with nextSerial := n } := h

/-- `newMatrix` publishes a matrix with entries. -/
theorem keeps_newMatrix (hm : m.Positive) : Keeps (During before) (newMatrix m) Value.Positive :=
  keeps_marked During.serial fun _ => hm

/-- `allocate` puts one more matrix with entries after those that are being built. -/
theorem During.allocate {s : Session} (hs : During before s) (hm : m.Positive) :
    During before (s.allocate m) := by
  refine ⟨hs.1, fun m' hm' => ?_⟩
  obtain hm' | hm' := List.mem_append.mp hm'
  · exact hs.2 m' hm'
  · rwa [List.mem_singleton.mp hm']

/-- `newBuilder` answers with an address, which is no published matrix. -/
theorem keeps_positiveBuilder (hm : m.Positive) : Keeps (During before) (newBuilder m) Value.Positive :=
  keeps_newBuilder (fun _ hs => hs.allocate hm) fun _ => trivial

/-- `newMatrixOf` does one or the other. -/
theorem keeps_newMatrixOf {kind : MatrixKind} (hm : m.Positive) :
    Keeps (During before) (newMatrixOf kind m) Value.Positive := by
  cases kind with
  | published => exact keeps_newMatrix hm
  | builder => exact keeps_positiveBuilder hm

/-- `value` answers what a variable holds, which has not changed. -/
theorem keeps_held (h : before.MatricesPositive) (name : Option String) :
    Keeps (During before) (value name) Value.Positive :=
  keeps_value trivial fun held _ s v hs hv => h.held held v (by rwa [Session.lookup, ← hs.1])

/-- A matrix of the session has entries, published or not. -/
theorem During.positive_of_matrix? {s : Session} (hs : During before s) (hv : v.Positive)
    (hm : s.matrix? v = some m) : m.Positive := by
  cases v with
  | matrix mark a =>
    cases hm
    exact hv
  | builder address => exact hs.2 m (List.mem_of_getElem? hm)
  | _ => cases hm

/-- `matrix` answers the elements of a matrix of the session, be it published or being built. -/
theorem keeps_elements (hv : v.Positive) : Keeps (During before) (matrix v) Matrix.Positive :=
  keeps_matrix fun _ _ hs hm => hs.positive_of_matrix? hv hm

/-- `operandValue` answers a matrix with entries, or no table without columns. -/
theorem keeps_operandValue (h : before.MatricesPositive) {other : Operand}
    (hother : before.OperandHasColumns other) :
    Keeps (During before) (operandValue other) fun v =>
      v.Positive ∧ ∀ t rows, v.toTensor = .ok t → t.shape ≠ [rows, 0] := by
  cases other with
  | written array =>
    refine keeps_bind (keeps_lift fun t ht rows => hother t rows ht) fun t ht =>
      keeps_marked During.serial fun mark => ⟨trivial, fun t' rows ht' => ?_⟩
    cases ht'
    exact ht rows
  | held name =>
    refine keeps_value ⟨trivial, fun t rows ht => ?_⟩ fun held hname s v hs hv => ?_
    · cases ht
      exact List.cons_ne_nil rows [0] ∘ Eq.symm
    · obtain rfl : name = some held := hname
      rw [Session.lookup, hs.1] at hv
      exact ⟨h.held held v hv, fun t rows ht => hother v t rows hv ht⟩

/-- `asMatrix` makes a matrix with columns of a second operand. -/
theorem keeps_asMatrix (hv : v.Positive)
    (harray : ∀ t rows, v.toTensor = .ok t → t.shape ≠ [rows, 0]) :
    Keeps (During before) (asMatrix v) fun m => 0 < m.cols := by
  refine keeps_bind keeps_get fun s hs => ?_
  cases hm : s.matrix? v with
  | some m => exact keeps_pure (hs.positive_of_matrix? hv hm).2
  | none =>
    refine keeps_bind (keeps_lift fun t ht rows => harray t rows ht) fun t ht =>
      keeps_lift fun m hm => Nat.pos_of_ne_zero fun hcols => ht m.rows ?_
    rw [Matrix.shape_of_operand hm, hcols]

/-- `change` puts a matrix with entries in the place of one. -/
theorem keeps_change {f : Matrix Double → Procedure (Matrix Double)}
    (hf : ∀ m, m.Positive → Keeps (During before) (f m) Matrix.Positive) :
    Keeps (During before) (change v f) Value.Positive := by
  unfold change
  split
  · refine keeps_bind (keeps_elements trivial) fun m hm => keeps_bind (hf m hm) fun changed hchanged => ?_
    refine keeps_bind (keeps_modify fun s hs => ⟨hs.1, fun m' hm' => ?_⟩) fun _ _ => keeps_pure trivial
    -- What is in the list afterwards was there before, or it is the changed matrix.
    obtain hm' | rfl := List.mem_or_eq_of_mem_set hm'
    · exact hs.2 m' hm'
    · exact hchanged
  · exact keeps_throw _

/-- `invertValue` answers a matrix with entries; the inverse of a transform is no matrix. -/
theorem keeps_invertValue (hv : v.Positive) : Keeps (During before) (invertValue v) Value.Positive := by
  unfold invertValue
  split
  · exact keeps_bind (keeps_invertTransform During.serial _) fun _ _ => keeps_pure trivial
  · exact keeps_bind (keeps_elements hv) fun m hm =>
      keeps_bind (keeps_lift fun x hx => hm.inverse hx) fun x hx => keeps_newMatrix hx

/-! ## Copies -/

/-- `Copying.elements` copies a matrix with entries to one. -/
theorem positive_of_elements {c : Copying} {m m' : Matrix Double} (h : c.elements m = .ok m')
    (hm : m.Positive) : m'.Positive := by
  unfold Copying.elements at h
  split at h
  · exact Matrix.positive_of_ofArray h
  · cases h
    exact hm

/-- `copyValue` copies matrices with entries to such. -/
theorem keeps_copyValue {mode : CopyMode} (hv : v.Positive) :
    Keeps (During before) (copyValue mode v) Value.Positive := by
  refine keeps_bind (keeps_freshSerial During.serial) fun serial _ => ?_
  have hcopy := keeps_copyWith (I := During before) (c := ⟨mode, serial⟩)
    (fun s address m m' hs hm hm' _ hs' =>
      hs'.allocate (positive_of_elements hm' (hs.2 m (List.mem_of_getElem? hm)))) v
  refine hcopy.mono fun copy hof => ?_
  cases copy with
  | matrix mark m =>
    obtain ⟨source, m₀, rfl, hm⟩ := hof mark m rfl
    exact positive_of_elements hm hv
  | _ => trivial

/-! ## Commands -/

/-- `multiplyArrays` answers no matrix. -/
theorem keeps_arrayProduct (left right : Value) :
    Keeps (During before) (multiplyArrays left right) Value.Positive :=
  keeps_multiplyArrays During.serial (fun _ _ => trivial) fun _ _ => trivial

/-- `timesValue` answers matrices with entries, if no right operand is a table without columns. -/
theorem keeps_timesValue {left right : Value} (hleft : left.Positive) (hright : right.Positive)
    (harray : ∀ t rows, right.toTensor = .ok t → t.shape ≠ [rows, 0]) :
    Keeps (During before) (timesValue left right) Value.Positive := by
  refine keeps_bind keeps_get fun s hs => keeps_bind keeps_get fun s' hs' => ?_
  -- Two matrices, a matrix and an array, an array on either side, and all else.
  split
  · rename_i a b ha hb
    exact keeps_bind (keeps_lift fun m hm =>
      (hs.positive_of_matrix? hleft ha).multiply (hs'.positive_of_matrix? hright hb).2 hm)
      fun m hm => keeps_newMatrix hm
  · rename_i a mark array ha _
    -- The operand as a matrix has the columns of the array.
    have hcols (b : Matrix Double) (hb : Matrix.operand array.toNumbers = .ok b) : 0 < b.cols :=
      Nat.pos_of_ne_zero fun hcols => harray _ b.rows rfl (by rw [Matrix.shape_of_operand hb, hcols])
    exact keeps_bind (keeps_lift hcols) fun b hb =>
      keeps_bind (keeps_lift fun m hm => (hs.positive_of_matrix? hleft ha).multiply hb hm)
        fun m hm => keeps_newMatrix hm
  · exact keeps_arrayProduct _ _
  · exact keeps_arrayProduct _ _
  · exact keeps_throw _

/-- A command on matrices answers no matrix without entries and leaves none behind, if the right operand of a
product or of a linear system is no table without columns. -/
theorem keeps_matrixCommand (h : before.MatricesPositive) (c : MatrixCommand)
    (hc : ∀ other ∈ c.rightOperand?, before.OperandHasColumns other) :
    Keeps (During before) c.execute Value.Positive := by
  have hheld (name : Option String) := keeps_held h name
  cases c with
  | create kind rows cols given =>
    refine keeps_bind (Q := fun _ => True) ?_ fun _ _ =>
      keeps_bind (keeps_lift fun m hm => Matrix.positive_of_create hm) fun m hm => keeps_newMatrixOf hm
    cases given with
    | none => exact keeps_pure trivial
    | some elements => exact keeps_lift_bind fun _ => keeps_pure trivial
  | identity kind size =>
    exact keeps_bind (keeps_lift fun m hm => Matrix.positive_of_create hm) fun m hm =>
      keeps_newMatrixOf hm
  | zeros kind rows cols =>
    exact keeps_bind (keeps_lift fun m hm => Matrix.positive_of_createZeros hm) fun m hm =>
      keeps_newMatrixOf hm
  | ofArray kind array =>
    exact keeps_lift_bind fun _ =>
      keeps_bind (keeps_lift fun m hm => Matrix.positive_of_ofArray hm) fun m hm => keeps_newMatrixOf hm
  | reveal m => exact hheld m
  | info m =>
    have hnumber (n : Int) : Keeps (During before) (newInteger n) fun _ => True :=
      keeps_marked During.serial fun _ => trivial
    have htuple (items : List Value) : Keeps (During before) (newTuple items) fun _ => True :=
      keeps_marked During.serial fun _ => trivial
    exact keeps_bind (hheld m) fun v hv => keeps_bind (keeps_elements hv) fun a ha =>
      keeps_bind (hnumber _) fun _ _ => keeps_bind (hnumber _) fun _ _ =>
      keeps_bind (hnumber _) fun _ _ => keeps_bind (hnumber _) fun _ _ =>
      keeps_bind (htuple _) fun _ _ => keeps_lift_bind fun _ =>
      keeps_marked During.serial fun _ => trivial
  | element m row col =>
    exact keeps_bind (hheld m) fun v hv => keeps_bind (keeps_elements hv) fun a ha =>
      keeps_lift_bind fun _ => keeps_marked During.serial fun _ => trivial
  | elements m =>
    exact keeps_bind (hheld m) fun v hv => keeps_bind (keeps_elements hv) fun a ha =>
      keeps_marked During.serial fun _ => trivial
  | multiply m other =>
    exact keeps_bind (hheld m) fun v hv => keeps_bind (keeps_elements hv) fun a ha =>
      keeps_bind (keeps_operandValue h (hc other rfl)) fun w hw =>
        keeps_bind (keeps_asMatrix hw.1 hw.2) fun b hb =>
          keeps_bind (keeps_lift fun m hm => ha.multiply hb hm) fun m hm => keeps_newMatrix hm
  | times m other =>
    exact keeps_bind (hheld m) fun v hv => keeps_bind (keeps_operandValue h (hc other rfl)) fun w hw =>
      keeps_timesValue hv hw.1 hw.2
  | timesList m items =>
    refine keeps_bind (hheld m) fun v hv => keeps_lift_bind fun _ => ?_
    split
    · exact keeps_lift_bind fun _ =>
        keeps_bind (keeps_marked During.serial (Q := fun _ => True) fun _ => trivial) fun _ _ =>
          keeps_arrayProduct _ _
    · exact keeps_throw _
  | solve m other =>
    exact keeps_bind (hheld m) fun v hv => keeps_bind (keeps_elements hv) fun a ha =>
      keeps_bind (keeps_operandValue h (hc other rfl)) fun w hw =>
        keeps_bind (keeps_asMatrix hw.1 hw.2) fun b hb =>
          keeps_bind (keeps_lift fun m hm => ha.solve hb hm) fun m hm => keeps_newMatrix hm
  | inverse m => exact keeps_bind (hheld m) fun v hv => keeps_invertValue hv
  | equals m other tolerance =>
    exact keeps_bind (hheld m) fun v hv => keeps_bind (keeps_elements hv) fun a ha =>
      keeps_bind (keeps_anyOperandValue During.serial) fun w hw => keeps_lift_bind fun _ =>
        keeps_bind keeps_anyMatrix fun b _ => keeps_pure trivial
  | same m other =>
    exact keeps_bind (hheld m) fun v hv => keeps_bind (hheld other) fun w hw =>
      keeps_compareValues During.serial (fun _ => trivial) (fun _ _ => trivial) fun _ _ => trivial
  | sameHash m other =>
    exact keeps_bind (hheld m) fun v _ => keeps_bind (hheld other) fun w _ =>
      keeps_lift_bind fun _ => keeps_lift_bind fun _ => keeps_pure trivial
  | text m =>
    refine keeps_bind (hheld m) fun v hv => ?_
    cases v
    case text | boolean | direction => exact keeps_pure trivial
    all_goals
      exact keeps_bind keeps_get fun s hs => keeps_marked During.serial fun _ => trivial
  | copy m mode => exact keeps_bind (hheld m) fun v hv => keeps_copyValue hv
  | toBuilder m =>
    refine keeps_bind (hheld m) fun v hv => ?_
    cases v with
    | matrix mark a => exact keeps_positiveBuilder hv
    | _ => exact keeps_throw _
  | build m =>
    refine keeps_bind (hheld m) fun v hv => ?_
    cases v with
    | builder address => exact keeps_bind (keeps_elements hv) fun a ha => keeps_newMatrix ha
    | _ => exact keeps_throw _
  | setElement m row col x =>
    exact keeps_bind (hheld m) fun v _ => keeps_lift_bind fun x =>
      keeps_change fun a ha => keeps_lift fun a' ha' => ha.setElement ha'
  | setElements m given =>
    exact keeps_bind (hheld m) fun v _ => keeps_lift_bind fun elements =>
      keeps_change fun a ha => keeps_lift fun a' ha' => ha.setElements ha'
  | transpose m =>
    refine keeps_bind (hheld m) fun v hv => ?_
    cases v
    -- Arrays make a new array of this, which nobody asks for.
    case array | element => exact keeps_pure trivial
    all_goals exact keeps_change fun a ha => keeps_pure ha.transposed
  | normalizeColumns m =>
    exact keeps_bind (hheld m) fun v hv => keeps_change fun a ha => keeps_pure ha.normalizedColumns

end Procedure

/-! ## Runs -/

namespace Session

variable {s : Session}

/-- The instructions are commands on matrices, and when the right operand of a product or of a linear system
is used, it is no table without columns. -/
def UsesMatrices (s : Session) : List Instruction → Prop
  | [] => True
  | i :: rest =>
    (∃ c, i.command = .matrix c ∧ ∀ other ∈ c.rightOperand?, s.OperandHasColumns other) ∧
      (s.perform i).2.UsesMatrices rest

/-- A new session has no matrices. -/
theorem matricesPositive_start : start.MatricesPositive where
  builders _ hm := absurd hm List.not_mem_nil
  held _ _ hv := by cases hv

/-- What a single instruction leaves is `MatricesPositive` as well. -/
theorem MatricesPositive.perform (h : s.MatricesPositive) {c : MatrixCommand} {name : Option String}
    (hc : ∀ other ∈ c.rightOperand?, s.OperandHasColumns other) :
    (s.perform ⟨.matrix c, name⟩).2.MatricesPositive := by
  obtain ⟨⟨hbindings, hbuilders⟩, hanswer⟩ := keeps_matrixCommand h c hc ⟨rfl, h.builders⟩
  simp only [Session.perform, Command.execute]
  generalize c.execute.call s = outcome at hbindings hbuilders hanswer
  obtain ⟨result, after⟩ := outcome
  -- Only an answer is given to a variable; all others hold what they held.
  have hheld (held : String) (v : Value) (hv : after.lookup held = some v) : v.Positive :=
    h.held held v (by rwa [lookup, ← hbindings])
  cases result with
  | error e => exact ⟨hbuilders, hheld⟩
  | ok answer =>
    cases name with
    | none => exact ⟨hbuilders, hheld⟩
    | some name =>
      refine ⟨hbuilders, fun held v hv => ?_⟩
      rw [lookup_assign] at hv
      split at hv
      · cases hv
        exact hanswer _ rfl
      · exact hheld held v hv

/-- A whole run, by induction on the instructions. -/
theorem MatricesPositive.run (h : s.MatricesPositive) {instructions : List Instruction}
    (hrun : s.UsesMatrices instructions) : (s.run instructions).MatricesPositive := by
  induction instructions generalizing s with
  | nil => exact h
  | cons i rest ih =>
    obtain ⟨command, name⟩ := i
    obtain ⟨⟨c, rfl, hc⟩, hrest⟩ := hrun
    exact ih (h.perform hc) hrest

/-! ## Using the matrices -/

section Use

variable {name : String} {v : Value} {m : Matrix Double}

/-- A matrix with entries can be asked what it is, by the command `info`. -/
theorem perform_info (hv : s.lookup name = some v) (hm : s.matrix? v = some m) (hpos : m.Positive) :
    ∃ mark fields after,
      s.perform ⟨.matrix (.info (some name)), none⟩ = (.ok (.record mark fields), after) ∧
        fields.lookup "is_affine" = some (.boolean m.isAffine) ∧
        fields.lookup "is_identity" = some (.boolean m.isIdentity) := by
  have hrun : ∃ mark fields after,
      (MatrixCommand.info (some name)).execute.call s = (.ok (.record mark fields), after) ∧
        fields.lookup "is_affine" = some (.boolean m.isAffine) ∧
        fields.lookup "is_identity" = some (.boolean m.isIdentity) := by
    unfold MatrixCommand.execute
    rw [call_bind_of_ok (call_value hv), call_bind_of_ok (call_matrix hm), hpos.affinity]
    exact ⟨_, _, _, rfl, rfl, rfl⟩
  obtain ⟨mark, fields, after, hrun, hfields⟩ := hrun
  refine ⟨mark, fields, after, ?_, hfields⟩
  simp only [perform, Command.execute, hrun]

/-- A matrix with entries can be written down and read back, by the command `copy`. -/
theorem perform_copy (hv : s.lookup name = some v) (hm : s.matrix? v = some m) (hpos : m.Positive) :
    ∃ copy after, s.perform ⟨.matrix (.copy (some name) .archived), none⟩ = (.ok copy, after) ∧
      after.matrix? copy = some m := by
  have helements (serial : Nat) : Copying.elements ⟨.archived, serial⟩ m = .ok m :=
    hpos.ofArray_toTensor
  have hrun : ∃ copy after,
      (MatrixCommand.copy (some name) .archived).execute.call s = (.ok copy, after) ∧
        after.matrix? copy = some m := by
    unfold MatrixCommand.execute copyValue
    rw [call_bind_of_ok (call_value hv), call_bind_of_ok (call_freshSerial s)]
    cases v with
    | matrix mark a =>
      cases hm
      unfold copyWith
      rw [helements]
      exact ⟨_, _, rfl, rfl⟩
    | builder address =>
      have hm' : Session.matrix? { s with nextSerial := s.nextSerial + 1 } (.builder address) =
          some m := hm
      unfold copyWith
      rw [call_bind_of_ok (call_matrix hm'), helements]
      -- The copy is at the next address.
      exact ⟨_, _, rfl, by simp [matrix?, builderAt?, allocate]⟩
    | _ => cases hm
  obtain ⟨copy, after, hrun, hcopy⟩ := hrun
  refine ⟨copy, after, ?_, hcopy⟩
  simp only [perform, Command.execute, hrun]

end Use

/-- Throughout a run on matrices, each matrix that a variable holds, be it published or being built, has rows
and columns and an element for each of its places, can be asked whether it is affine and whether it is an
identity, and can be written down and read back. -/
theorem matrices_usable {instructions : List Instruction} (h : start.UsesMatrices instructions)
    {name : String} {v : Value} {m : Matrix Double}
    (hv : (start.run instructions).lookup name = some v)
    (hm : (start.run instructions).matrix? v = some m) :
    0 < m.rows ∧ 0 < m.cols ∧ m.elements.size = m.rows * m.cols ∧
      (∃ mark fields after, (start.run instructions).perform ⟨.matrix (.info (some name)), none⟩ =
          (.ok (.record mark fields), after) ∧
        fields.lookup "is_affine" = some (.boolean m.isAffine) ∧
        fields.lookup "is_identity" = some (.boolean m.isIdentity)) ∧
      ∃ copy after, (start.run instructions).perform ⟨.matrix (.copy (some name) .archived), none⟩ =
          (.ok copy, after) ∧ after.matrix? copy = some m := by
  have hrun := matricesPositive_start.run h
  have hpos : m.Positive :=
    During.positive_of_matrix? ⟨rfl, hrun.builders⟩ (hrun.held name v hv) hm
  exact ⟨hpos.1, hpos.2, m.size_eq, perform_info hv hm hpos, perform_copy hv hm hpos⟩

/-- A row that was made a column, times a number that is written down. -/
theorem matrices_usable_product :
    let instructions : List Instruction :=
      [⟨.matrix (.create .builder 1 2 none), some "b"⟩, ⟨.matrix (.transpose (some "b")), none⟩,
        ⟨.matrix (.multiply (some "b") (.written (.list [.list [.scalar (.named 1)]]))), some "p"⟩]
    start.UsesMatrices instructions ∧ ∃ v m,
      (start.run instructions).lookup "p" = some v ∧ (start.run instructions).matrix? v = some m ∧
      (m.rows = 2 ∧ m.cols = 1) ∧ 0 < m.rows ∧ 0 < m.cols ∧ m.elements.size = m.rows * m.cols ∧
      (∃ mark fields after, (start.run instructions).perform ⟨.matrix (.info (some "p")), none⟩ =
          (.ok (.record mark fields), after) ∧
        fields.lookup "is_affine" = some (.boolean m.isAffine) ∧
        fields.lookup "is_identity" = some (.boolean m.isIdentity)) ∧
      ∃ copy after, (start.run instructions).perform ⟨.matrix (.copy (some "p") .archived), none⟩ =
          (.ok copy, after) ∧ after.matrix? copy = some m := by
  intro instructions
  have h : start.UsesMatrices instructions := by
    refine ⟨⟨_, rfl, fun _ h => by cases h⟩, ⟨_, rfl, fun _ h => by cases h⟩,
      ⟨_, rfl, fun other h => ?_⟩, trivial⟩
    cases h
    intro t rows ht hshape
    cases ht
    cases hshape
  refine ⟨h, _, _, rfl, rfl, ⟨rfl, rfl⟩, ?_⟩
  exact matrices_usable h rfl rfl

/-- The product of a matrix and an array without columns has no columns, so it cannot be written down and read
back. Transposed and multiplied once more, it becomes a matrix without rows and columns, which cannot be asked
whether it is affine. -/
theorem emptied_by_multiply :
    let nothing : Operand := .written (.list [.list []])
    let s := start.run [⟨.matrix (.identity .published 1), some "m"⟩,
      ⟨.matrix (.multiply (some "m") nothing), some "e"⟩, ⟨.matrix (.toBuilder (some "e")), some "b"⟩,
      ⟨.matrix (.transpose (some "b")), none⟩, ⟨.matrix (.multiply (some "b") nothing), some "z"⟩]
    (s.lookup "e").bind s.matrix? = some ⟨1, 0, #[], rfl⟩ ∧
      (s.perform ⟨.matrix (.copy (some "e") .archived), none⟩).1 = .error (.notTable [1, 0]) ∧
      (s.lookup "z").bind s.matrix? = some ⟨0, 0, #[], rfl⟩ ∧
      (s.perform ⟨.matrix (.info (some "z")), none⟩).1 = .error .positionOutOfRange :=
  ⟨rfl, rfl, rfl, rfl⟩

end Session

end Georef
