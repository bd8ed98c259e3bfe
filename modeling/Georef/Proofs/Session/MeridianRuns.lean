import Georef.Proofs.Meridian.Identity
import Georef.Proofs.Session.RegistryRuns

/-!
# Directions along a meridian throughout a session

The directions along a meridian that variables hold were made, were read, or were read from the name of a
direction that is known, and this stays so whatever becomes known later. So the axis direction that one of them
is asked for and the one that another is asked for later on can be compared, however much has happened before
and in between.

## Key results

- `MeridiansObtained.run`: what holds of the directions along a meridian throughout a run
- `direction_identity`: axis directions and equality of directions along a meridian
- `direction_of_other_spelling`: equal directions along a meridian with different axis directions
-/

namespace Georef

open Georef.Action Procedure MeridianDirection

/-- The command asks for a direction by its exact name, or it makes a direction along a meridian, reads one or
asks one for its axis direction. -/
def Command.MakesMeridians : Command → Prop
  | .direction (.find _ _) => True
  | .meridian (.create _ _) | .meridian (.parse _) | .meridian (.ofDirection _) => True
  | .meridian (.direction _) => True
  | _ => False

/-- Commands that make directions along a meridian are among those about directions. -/
theorem Command.MakesMeridians.concernsDirections {c : Command} (h : c.MakesMeridians) :
    c.ConcernsDirections := by
  cases c with
  | direction c => trivial
  | meridian c => trivial
  | _ => exact h.elim

/-- If the value is a direction along a meridian, it can have come about when the directions of the registry
were known. -/
def Value.MeridianObtained (r : Registry) : Value → Prop
  | .meridian _ m => Obtained r m
  | _ => True

namespace Procedure

variable {before : Session}

/-- What holds while a command is carried out that makes nothing known. -/
structure Beside (before s : Session) : Prop where
  bindings : s.bindings = before.bindings
  registry : s.registry = before.registry

/-- Serial numbers can be used up. -/
theorem Beside.serial (s : Session) (n : Nat) (h : Beside before s) :
    Beside before { s with nextSerial := n } :=
  ⟨h.bindings, h.registry⟩

/-- `direction?` answers a known direction if it is given by its name. -/
theorem keeps_knownDirection? (h : before.registry.Grown) (name : Option String) :
    Keeps (Beside before) (direction? name) fun d => ∀ known ∈ d, known ∈ before.registry.values := by
  cases name with
  | none => exact keeps_pure fun _ hknown => nomatch hknown
  | some name =>
    refine keeps_bind keeps_get fun s hs => ?_
    cases hfound : s.registry.find? name with
    | some d =>
      refine keeps_pure fun known hknown => ?_
      obtain rfl := Option.mem_some_iff.mp hknown
      rw [hs.registry] at hfound
      exact (h.of_find?_eq_some hfound).1
    | none => exact keeps_throw _

/-- `newMeridian?` answers the direction along a meridian that it was given. -/
theorem keeps_newMeridian? {m : Option MeridianDirection}
    (h : ∀ obtained ∈ m, Obtained before.registry obtained) :
    Keeps (Beside before) (newMeridian? m) (Value.MeridianObtained before.registry) := by
  cases m with
  | some m => exact keeps_marked Beside.serial fun _ => h m rfl
  | none => exact keeps_pure trivial

/-- `learn` answers the direction that becomes known, and no variable changes. -/
theorem keeps_learn {bindings : List (String × Value)} {r : Registry} (result : Direction × Registry) :
    Keeps (·.bindings = bindings) (learn result) (Value.MeridianObtained r) :=
  keeps_bind (Q := fun _ => True) (keeps_modify fun _ hs => hs) fun _ _ => keeps_pure trivial

/-- The command `find` asks for a direction by its exact name. -/
theorem keeps_find {bindings : List (String × Value)} {r : Registry} (name : String) (create : Bool) :
    Keeps (·.bindings = bindings) (DirectionCommand.find name create).execute
      (Value.MeridianObtained r) := by
  cases create with
  | true => exact keeps_bind keeps_get fun s _ => keeps_learn _
  | false =>
    refine keeps_bind keeps_get fun s _ => keeps_pure ?_
    cases s.registry.find? name <;> trivial

/-- The command `direction` asks a direction along a meridian, or an axis, for its axis direction. -/
theorem keeps_direction {bindings : List (String × Value)} {r : Registry} (m : Option String) :
    Keeps (·.bindings = bindings) (MeridianCommand.direction m).execute
      (Value.MeridianObtained r) := by
  have hlearn (v : Value) : Keeps (·.bindings = bindings)
      (do learn ((← asMeridian v).direction (← get).registry)) (Value.MeridianObtained r) := by
    have hmeridian : Keeps (·.bindings = bindings) (asMeridian v) fun _ => True := by
      cases v with
      | meridian mark m => exact keeps_pure trivial
      | _ => exact keeps_throw _
    exact keeps_bind hmeridian fun m _ => keeps_bind keeps_get fun s _ => keeps_learn _
  refine keeps_bind (keeps_value (Q := fun _ => True) trivial fun _ _ _ _ _ _ => trivial) fun v _ => ?_
  cases v with
  | axis mark a => exact keeps_pure trivial
  | _ => exact hlearn _

/-- The directions along a meridian that are made are among those that can have come about,
    `Obtained`. -/
theorem keeps_make {c : MeridianCommand} (hc : (Command.meridian c).MakesMeridians)
    (hask : ∀ m, c ≠ .direction m) (h : before.registry.Grown) :
    Keeps (Beside before) c.execute (Value.MeridianObtained before.registry) := by
  -- A direction along a meridian is made, read, or read from the name of a known direction.
  cases c with
  | create base longitude =>
    refine keeps_bind (keeps_direction? base) fun base _ => keeps_lift_bind fun x => ?_
    cases base with
    | some base =>
      exact keeps_bind (keeps_lift fun m hm => Obtained.made hm) fun m hm =>
        keeps_newMeridian? fun _ hobtained => Option.mem_some_iff.mp hobtained ▸ hm
    | none => exact keeps_lift_bind fun _ => keeps_throw _
  | parse name => exact keeps_newMeridian? fun _ hread => .read hread
  | ofDirection d =>
    refine keeps_bind (keeps_knownDirection? h d) fun d hd => ?_
    have hrequired : Keeps (Beside before) (required d) (· ∈ before.registry.values) := by
      cases d with
      | some d => exact keeps_pure (hd d rfl)
      | none => exact keeps_throw _
    exact keeps_bind hrequired fun known hknown => keeps_newMeridian? fun _ hread => .named hknown hread
  | direction m => exact absurd rfl (hask m)
  | _ => exact hc.elim

/-- A command leaves the variables alone, and if it answers a direction along a meridian, that is one that can
have come about. -/
theorem meridianObtained_of_call {c : Command} (hc : c.MakesMeridians) (h : before.registry.Grown) :
    (c.execute.call before).2.bindings = before.bindings ∧
      ∀ v, (c.execute.call before).1 = .ok v → v.MeridianObtained before.registry := by
  cases c with
  | direction c =>
    cases c with
    | find name create => exact keeps_find name create rfl
    | _ => exact hc.elim
  | meridian c =>
    by_cases hask : ∃ m, c = .direction m
    · obtain ⟨m, rfl⟩ := hask
      exact keeps_direction m rfl
    · obtain ⟨hs, hanswer⟩ := keeps_make hc (fun m hm => hask ⟨m, hm⟩) h ⟨rfl, rfl⟩
      exact ⟨hs.bindings, hanswer⟩
  | _ => exact hc.elim

end Procedure

/-! ## Runs -/

namespace Session

variable {s : Session} {i : Instruction} {instructions : List Instruction}

/-- The known directions have grown from the standard ones, and the directions along a meridian that variables
hold can have come about. -/
structure MeridiansObtained (s : Session) : Prop where
  grown : s.registry.Grown
  held (name : String) (v : Value) : s.lookup name = some v → v.MeridianObtained s.registry

/-- A new session has standard directions and no variables. -/
theorem meridiansObtained_start : start.MeridiansObtained where
  grown := .standard
  held _ _ hv := by cases hv

/-- More can have come about when more is known: `MeridianObtained` is monotonic. -/
theorem MeridianObtained.mono {r r' : Registry} {v : Value} (h : v.MeridianObtained r)
    (hmore : r.values <+: r'.values) : v.MeridianObtained r' := by
  cases v with
  | meridian mark m => exact Obtained.mono h fun known hknown => hmore.subset hknown
  | _ => trivial

/-- What a single instruction leaves is `MeridiansObtained` as well. -/
theorem MeridiansObtained.perform (h : s.MeridiansObtained) (hi : i.command.MakesMeridians) :
    (s.perform i).2.MeridiansObtained := by
  have hlearns := learns_perform (s := s) hi.concernsDirections
  refine ⟨hlearns.grown h.grown, fun name v hv => ?_⟩
  refine MeridianObtained.mono ?_ hlearns.values_isPrefix
  obtain ⟨hbindings, hanswer⟩ := meridianObtained_of_call hi h.grown
  unfold Session.perform at hv
  generalize i.command.execute.call s = outcome at hbindings hanswer hv
  obtain ⟨result, after⟩ := outcome
  have hheld (hv : after.lookup name = some v) : v.MeridianObtained s.registry :=
    h.held name v (by rwa [lookup, ← hbindings])
  cases result with
  | error e => exact hheld hv
  | ok answer =>
    cases hname : i.variableName with
    | none =>
      rw [hname] at hv
      exact hheld hv
    | some held =>
      rw [hname] at hv
      dsimp only at hv
      rw [lookup_assign] at hv
      -- The variable for the answer holds the answer, the others hold what they held.
      split at hv
      · exact Option.some.inj hv ▸ hanswer answer rfl
      · exact hheld hv

/-- A whole run, by induction on the instructions. -/
theorem MeridiansObtained.run (h : s.MeridiansObtained)
    (hi : ∀ i ∈ instructions, i.command.MakesMeridians) : (s.run instructions).MeridiansObtained := by
  induction instructions generalizing s with
  | nil => exact h
  | cons i rest ih =>
    exact ih (h.perform (hi i List.mem_cons_self)) fun j hj => hi j (List.mem_cons_of_mem i hj)

/-! ## Axis directions -/

/-- The question for the axis direction of what a variable holds. -/
def axisRequest (held : String) : Instruction := ⟨.meridian (.direction (some held)), none⟩

/-- The answer to `axisRequest`, which may become known by it. -/
theorem perform_axisRequest {held : String} {mark : Mark} {m : MeridianDirection}
    (h : s.lookup held = some (.meridian mark m)) :
    s.perform (axisRequest held) =
      (.ok (.direction (m.direction s.registry).1), { s with registry := (m.direction s.registry).2 }) := by
  have hcall : (MeridianCommand.direction (some held)).execute.call s =
      (.ok (.direction (m.direction s.registry).1), { s with registry := (m.direction s.registry).2 }) := by
    unfold MeridianCommand.execute
    rw [call_bind_of_ok (call_value h)]
    rfl
  simp only [perform, axisRequest, Command.execute, hcall]

/-- Suppose that in a run a direction along a meridian that a variable holds is asked for its axis direction, and
later another one, both from a pole and not along the meridian 180 degrees west. Both have one. If it is the same,
the directions along the meridian are equal. If these are equal and both axis directions have their canonical
texts as names, it is the same. Such a name it has unless it is the direction whose name was read. -/
theorem direction_identity {earlier later : List Instruction}
    (hrun : ∀ i ∈ earlier ++ later, i.command.MakesMeridians) {a b : String} {mark mark' : Mark}
    {m n : MeridianDirection}
    (hm : (start.run earlier).lookup a = some (.meridian mark m))
    (hn : (start.run (earlier ++ axisRequest a :: later)).lookup b = some (.meridian mark' n))
    (hmpole : m.base = .north ∨ m.base = .south) (hnpole : n.base = .north ∨ n.base = .south)
    (hmleast : m.meridian ≠ leastLongitude) (hnleast : n.meridian ≠ leastLongitude) :
    ∃ d e : Direction,
      ((start.run earlier).perform (axisRequest a)).1 = .ok (.direction d) ∧
      ((start.run (earlier ++ axisRequest a :: later)).perform (axisRequest b)).1 = .ok (.direction e) ∧
      (d = e → m.sameAs n = true) ∧
      (d.name = m.text → e.name = n.text → m.sameAs n = true → d = e) ∧
      (m.origin = none ∧ d.name = m.text ∨ m.origin = some d) ∧
      (n.origin = none ∧ e.name = n.text ∨ n.origin = some e) := by
  -- What holds of both sessions, before the first question and before the second.
  have hearlier : (start.run earlier).MeridiansObtained :=
    meridiansObtained_start.run fun i hi => hrun i (List.mem_append_left later hi)
  have hsplit : start.run (earlier ++ axisRequest a :: later) =
      ((start.run earlier).perform (axisRequest a)).2.run later := by
    rw [run, List.foldl_append]
    rfl
  have hanswer := perform_axisRequest hm
  have hlearnt : ((start.run earlier).perform (axisRequest a)).2.registry =
      (m.direction (start.run earlier).registry).2 := by rw [hanswer]
  have hasked : ((start.run earlier).perform (axisRequest a)).2.MeridiansObtained :=
    hearlier.perform trivial
  have hlater : (start.run (earlier ++ axisRequest a :: later)).MeridiansObtained := by
    rw [hsplit]
    exact hasked.run fun i hi => hrun i (List.mem_append_right earlier hi)
  -- What was known after the first question is still known at the second.
  have hprefix : (m.direction (start.run earlier).registry).2.values <+:
      (start.run (earlier ++ axisRequest a :: later)).registry.values := by
    rw [hsplit, ← hlearnt]
    exact values_isPrefix_run fun i hi => (hrun i (List.mem_append_right earlier hi)).concernsDirections
  have hmobtained : Obtained (start.run earlier).registry m := hearlier.held a _ hm
  have hnobtained : Obtained (start.run (earlier ++ axisRequest a :: later)).registry n := hlater.held b _ hn
  refine ⟨_, _, by rw [hanswer], by rw [perform_axisRequest hn], fun h => ?_, fun hmname hnname h => ?_,
    (hmobtained.direction_spec hearlier.grown).2, (hnobtained.direction_spec hlater.grown).2⟩
  · exact hmobtained.sameAs_of_direction_eq hnobtained hearlier.grown hlater.grown hmpole hnpole hmleast
      hnleast h
  · exact hmobtained.direction_eq_of_sameAs hnobtained hearlier.grown hlater.grown
      (fun known hknown => hprefix.subset hknown) hmname hnname (Accepted.finite ⟨hmpole, hmobtained.inRange⟩)
      (Accepted.finite ⟨hnpole, hnobtained.inRange⟩) h

/-- The direction along a meridian that a variable holds, with its mark. -/
def heldMeridian? (s : Session) (name : String) : Option (Mark × MeridianDirection) :=
  match s.lookup name with
  | some (.meridian mark m) => some (mark, m)
  | _ => none

/-- What `heldMeridian?` finds is what the variable holds. -/
theorem lookup_of_heldMeridian? {name : String} {mark : Mark} {m : MeridianDirection}
    (h : s.heldMeridian? name = some (mark, m)) : s.lookup name = some (.meridian mark m) := by
  unfold heldMeridian? at h
  split at h
  · rename_i hlookup
    cases h
    exact hlookup
  · exact nomatch h

/-- Another spelling is read, and later the direction that it meant is made. -/
theorem direction_identity_canonical :
    let earlier : List Instruction := [⟨.meridian (.parse "North along 90 deg East"), some "a"⟩]
    let later : List Instruction := [⟨.direction (.find "TURNWISE" true), none⟩,
      ⟨.meridian (.create (some "NORTH") (.integer 90)), some "b"⟩]
    (∀ i ∈ earlier ++ later, i.command.MakesMeridians) ∧
    ∃ d : Direction,
      ((start.run earlier).perform (axisRequest "a")).1 = .ok (.direction d) ∧
      ((start.run (earlier ++ axisRequest "a" :: later)).perform (axisRequest "b")).1 = .ok (.direction d) ∧
      d.name = "North along 90°E" := by
  intro earlier later
  have hrun : ∀ i ∈ earlier ++ later, i.command.MakesMeridians := by
    intro i hi
    simp only [earlier, later, List.cons_append, List.nil_append, List.mem_cons, List.not_mem_nil,
      or_false] at hi
    obtain rfl | rfl | rfl := hi
    all_goals exact trivial
  let m : MeridianDirection := ⟨.north, 90.0, none⟩
  have hm : (start.run earlier).heldMeridian? "a" = some (.made 0, m) := by decide +kernel
  have hn : (start.run (earlier ++ axisRequest "a" :: later)).heldMeridian? "b" = some (.made 1, m) := by
    decide +kernel
  have htext : m.text = "North along 90°E" := by decide +kernel
  -- Both axis directions have the canonical text for their name, as neither meridian remembers one.
  obtain ⟨d, e, hd, he, -, hequal, hmname, hnname⟩ := direction_identity hrun (lookup_of_heldMeridian? hm)
    (lookup_of_heldMeridian? hn) (.inl rfl) (.inl rfl) (by decide +kernel) (by decide +kernel)
  obtain ⟨-, hmname⟩ := hmname.resolve_right nofun
  obtain ⟨-, hnname⟩ := hnname.resolve_right nofun
  obtain rfl := hequal hmname hnname (by decide +kernel)
  exact ⟨hrun, d, hd, he, hmname.trans htext⟩

/-- Equal directions along a meridian can have different axis directions: one remembers the axis direction whose
name was read, which is another spelling, and the other has the one named by the canonical text. And different
ones can have the same axis direction: the western and the eastern half turn have the same text. -/
theorem direction_of_other_spelling :
    (let s := start.run [⟨.direction (.find "North along 90 deg East" true), none⟩,
        ⟨.meridian (.ofDirection (some "North along 90 deg East")), some "a"⟩,
        ⟨.meridian (.create (some "NORTH") (.integer 90)), some "b"⟩]
      let d : Direction := ⟨"North along 90 deg East", 32⟩
      let m : MeridianDirection := ⟨.north, 90.0, some d⟩
      let n : MeridianDirection := ⟨.north, 90.0, none⟩
      s.lookup "a" = some (.meridian (.made 0) m) ∧ s.lookup "b" = some (.meridian (.made 1) n) ∧
        (s.perform (axisRequest "a")).1 = .ok (.direction d) ∧
        ((s.perform (axisRequest "a")).2.perform (axisRequest "b")).1 =
          .ok (.direction ⟨"North along 90°E", 33⟩) ∧
        m.sameAs n = true ∧ d.name ≠ m.text) ∧
    (let s := start.run [⟨.meridian (.create (some "NORTH") (.integer (-180))), some "a"⟩,
        ⟨.meridian (.create (some "NORTH") (.integer 180)), some "b"⟩]
      let m : MeridianDirection := ⟨.north, leastLongitude, none⟩
      let n : MeridianDirection := ⟨.north, greatestLongitude, none⟩
      s.lookup "a" = some (.meridian (.made 0) m) ∧ s.lookup "b" = some (.meridian (.made 1) n) ∧
        (s.perform (axisRequest "a")).1 = .ok (.direction ⟨"North along 180°", 32⟩) ∧
        ((s.perform (axisRequest "a")).2.perform (axisRequest "b")).1 =
          .ok (.direction ⟨"North along 180°", 32⟩) ∧
        m.sameAs n = false) := by
  -- What the two requests answer is read off what the session holds.
  have hask {s : Session} {m n : MeridianDirection} {d e : Direction}
      (hm : s.heldMeridian? "a" = some (.made 0, m)) (hn : s.heldMeridian? "b" = some (.made 1, n))
      (hd : (m.direction s.registry).1 = d) (he : (n.direction (m.direction s.registry).2).1 = e) :
      s.lookup "a" = some (.meridian (.made 0) m) ∧ s.lookup "b" = some (.meridian (.made 1) n) ∧
        (s.perform (axisRequest "a")).1 = .ok (.direction d) ∧
        ((s.perform (axisRequest "a")).2.perform (axisRequest "b")).1 = .ok (.direction e) := by
    have ha := lookup_of_heldMeridian? hm
    have hb := lookup_of_heldMeridian? hn
    refine ⟨ha, hb, ?_⟩
    rw [perform_axisRequest ha]
    dsimp only
    rw [perform_axisRequest (s := { s with registry := (m.direction s.registry).2 }) hb, hd, he]
    exact ⟨rfl, rfl⟩
  constructor
  · intro s d m n
    have hm : s.heldMeridian? "a" = some (.made 0, m) := by decide +kernel
    have hn : s.heldMeridian? "b" = some (.made 1, n) := by decide +kernel
    have he : (n.direction (m.direction s.registry).2).1 = ⟨"North along 90°E", 33⟩ := by decide +kernel
    obtain ⟨ha, hb, hd, he⟩ := hask hm hn rfl he
    exact ⟨ha, hb, hd, he, by decide +kernel, by decide +kernel⟩
  · intro s m n
    have hm : s.heldMeridian? "a" = some (.made 0, m) := by decide +kernel
    have hn : s.heldMeridian? "b" = some (.made 1, n) := by decide +kernel
    have hd : (m.direction s.registry).1 = ⟨"North along 180°", 32⟩ := by decide +kernel
    have he : (n.direction (m.direction s.registry).2).1 = ⟨"North along 180°", 32⟩ := by decide +kernel
    obtain ⟨ha, hb, hd, he⟩ := hask hm hn hd he
    exact ⟨ha, hb, hd, he, by decide +kernel⟩

end Session

end Georef
