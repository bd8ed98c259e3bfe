import Georef.Proofs.Direction.Naming
import Georef.Proofs.Session.Undisturbed

/-!
# Known directions throughout a session

A session starts with the standard directions, and names become known in three ways: by a request for an exact
name, by the name of a direction along a meridian that is read, and by the axis direction of a meridian that is
asked for. Each adds at most one direction at the end of the list. All other commands, and all that fail, leave
the known directions alone: nothing can fail any more once a name was made known. So whatever is done, the list
and the index agree, and a direction that a name has once stood for is the one it stands for ever after.

## Key results

- `registry_perform_of_not_canTeach`: the commands that make no name known
- `learns_perform`: what an instruction can do to the known directions
- `known_directions`: what holds of the known directions throughout a session
-/

namespace Georef

open Georef.Action Procedure Registry

/-- The command is about directions, directions along a meridian or coordinate systems. -/
def Command.ConcernsDirections : Command → Prop
  | .direction _ | .meridian _ | .system _ => True
  | _ => False

/-! ## Commands that may make a name known -/

/-- The registry stays as it is, or an exact name becomes known. -/
def Registry.Learns (r r' : Registry) : Prop := r' = r ∨ ∃ name, r' = (r.intern name).2

namespace Registry

variable {r r' : Registry}

/-- Nothing need become known. -/
theorem Learns.refl (r : Registry) : r.Learns r := .inl rfl

/-- `intern` makes one name known at most. -/
theorem learns_intern (r : Registry) (name : String) : r.Learns (r.intern name).2 := .inr ⟨name, rfl⟩

/-- The axis direction of a meridian may become known, by `intern`. -/
theorem learns_direction (r : Registry) (m : MeridianDirection) : r.Learns (m.direction r).2 := by
  unfold MeridianDirection.direction
  split
  · exact .refl r
  · exact learns_intern r _

/-- A name that `resolve` understands may become known. -/
theorem learns_resolve {name : String} {d : Direction} (h : r.resolve name = .ok (d, r')) :
    r.Learns r' := by
  obtain ⟨m, -, hm⟩ | ⟨rfl, -⟩ := resolve_eq_ok_cases h
  · have hr : r' = (r.intern m.text).2 := by rw [hm]
    exact hr ▸ learns_intern r m.text
  · exact .refl r'

/-- What `Learns` from known directions that have grown has grown as well. -/
theorem Learns.grown (h : r.Learns r') (hr : r.Grown) : r'.Grown := by
  obtain rfl | ⟨name, rfl⟩ := h
  · exact hr
  · exact hr.intern name

/-- What becomes known comes at the end of the list: `Learns` changes nothing before it. -/
theorem Learns.values_isPrefix (h : r.Learns r') : r.values <+: r'.values := by
  obtain rfl | ⟨name, rfl⟩ := h
  · exact List.prefix_rfl
  · obtain hsame | hmore := r.values_intern name
    · exact hsame ▸ List.prefix_rfl
    · rw [hmore]
      exact List.prefix_append _ _

end Registry

namespace Session

variable {s : Session} {i : Instruction}

/-- `perform` does to the known directions what the command does, also if it fails. -/
theorem registry_perform (s : Session) (i : Instruction) :
    (s.perform i).2.registry = (i.command.execute.call s).2.registry := by
  unfold perform
  generalize i.command.execute.call s = outcome
  obtain ⟨result, after⟩ := outcome
  cases result with
  | error e => rfl
  | ok v => cases i.variableName <;> rfl

/-- `perform` leaves the known directions alone if the command cannot make a name known. -/
theorem registry_perform_of_not_canTeach (hi : i.command.ConcernsDirections)
    (hteach : ¬i.command.CanTeach) : (s.perform i).2.registry = s.registry := by
  have hquiet : Quiet i.command.execute := by
    obtain ⟨command, name⟩ := i
    cases command with
    | direction c => exact c.quiet_execute hteach
    | meridian c => exact c.quiet_execute hteach
    | system c => exact c.quiet_execute hteach
    | _ => exact hi.elim
  rw [registry_perform]
  exact (hquiet.undisturbed s).registry_eq

/-- The axis direction of what a variable holds may become known, and nothing else. -/
theorem learns_meridianDirection (s : Session) (m : Option String) :
    s.registry.Learns ((MeridianCommand.direction m).execute.call s).2.registry := by
  have hvalue : ((value m).call s).2 = s :=
    (keeps_value (I := (· = s)) (Q := fun _ => True) trivial (fun _ _ _ _ _ _ => trivial) rfl).1
  rw [MeridianCommand.execute, call_bind]
  generalize (value m).call s = outcome at hvalue
  obtain ⟨result, between⟩ := outcome
  obtain rfl : between = s := hvalue
  cases result with
  | error e => exact .refl _
  | ok held =>
    cases held with
    -- An axis has a direction, which need not be made known.
    | axis mark a => exact .refl _
    | meridian mark m => exact learns_direction _ m
    | _ => exact .refl _

/-- A name that is understood may become known, and nothing else. -/
theorem learns_parseDirection (s : Session) (name : String) :
    s.registry.Learns ((SystemCommand.parseDirection name).execute.call s).2.registry := by
  rw [SystemCommand.execute, call_bind, call_get]
  dsimp only
  rw [call_bind, call_lift]
  cases hresolve : s.registry.resolve name with
  | error e => exact .refl _
  | ok result => exact learns_resolve hresolve

/-- Whatever `perform` does with an instruction about directions, at most one name becomes known. -/
theorem learns_perform (hi : i.command.ConcernsDirections) :
    s.registry.Learns (s.perform i).2.registry := by
  by_cases hteach : i.command.CanTeach
  · rw [registry_perform]
    obtain ⟨command, name⟩ := i
    -- Each of the three kinds has one command that can teach.
    cases command with
    | direction c =>
      cases c with
      | find name create =>
        obtain rfl : create = true := hteach
        exact learns_intern _ name
      | _ => exact hteach.elim
    | meridian c =>
      cases c with
      | direction m => exact learns_meridianDirection s m
      | _ => exact hteach.elim
    | system c =>
      cases c with
      | parseDirection name => exact learns_parseDirection s name
      | _ => exact hteach.elim
    | _ => exact hi.elim
  · rw [registry_perform_of_not_canTeach hi hteach]
    exact .refl _

/-! ## Runs -/

variable {instructions : List Instruction}

/-- After any run of such instructions the known directions have grown from what they were. -/
theorem grown_run (h : s.registry.Grown) (hi : ∀ i ∈ instructions, i.command.ConcernsDirections) :
    (s.run instructions).registry.Grown := by
  induction instructions generalizing s with
  | nil => exact h
  | cons i rest ih =>
    exact ih ((learns_perform (hi i List.mem_cons_self)).grown h)
      fun j hj => hi j (List.mem_cons_of_mem i hj)

/-- A `run` adds directions at the end of the list. -/
theorem values_isPrefix_run (hi : ∀ i ∈ instructions, i.command.ConcernsDirections) :
    s.registry.values <+: (s.run instructions).registry.values := by
  induction instructions generalizing s with
  | nil => exact List.prefix_rfl
  | cons i rest ih =>
    exact (learns_perform (hi i List.mem_cons_self)).values_isPrefix.trans
      (ih fun j hj => hi j (List.mem_cons_of_mem i hj))

/-! ## Requests for an exact name -/

variable {name : String} {create : Bool} {held : Option String} {d : Direction}

/-- The request for the direction of exactly this name. -/
def request (name : String) (create : Bool) (held : Option String) : Instruction :=
  ⟨.direction (.find name create), held⟩

/-- The answer to a `request` is what `intern` or `find?` gives. -/
theorem answer_request (s : Session) (name : String) (create : Bool) (held : Option String) :
    (s.perform (request name create held)).1 =
      .ok (if create then .direction (s.registry.intern name).1
        else .ofDirection? (s.registry.find? name)) := by
  cases create <;> rfl

/-- A `request` makes a name known only if it is told to. -/
theorem registry_request (s : Session) (name : String) (create : Bool) (held : Option String) :
    (s.perform (request name create held)).2.registry =
      if create then (s.registry.intern name).2 else s.registry := by
  cases create <;> cases held <;> rfl

/-- The direction that is known by a name is the answer to every `request` for the name. -/
theorem answer_request_of_mem (h : s.registry.Grown) (hd : d ∈ s.registry.values)
    (hname : d.name = name) : (s.perform (request name create held)).1 = .ok (.direction d) := by
  subst hname
  rw [answer_request, h.intern_name hd, h.find?_name hd]
  cases create <;> rfl

/-- By a `request`, a name that is not known has no direction, or it gets one at the end of the
    list. -/
theorem perform_request_of_notMem (h : s.registry.Grown) (hname : name ∉ s.registry.names) :
    (s.perform (request name false held)).1 = .ok .null ∧
      (s.perform (request name true held)).1 =
        .ok (.direction ⟨name, s.registry.values.length⟩) ∧
      (s.perform (request name true held)).2.registry.values =
        s.registry.values ++ [⟨name, s.registry.values.length⟩] := by
  have hnone : s.registry.find? name = none := h.consistent.find?_eq_none_iff.mpr hname
  rw [answer_request, answer_request, registry_request, hnone, if_pos rfl, if_pos rfl]
  unfold Registry.intern
  rw [hnone]
  exact ⟨rfl, rfl, rfl⟩

/-- The direction that is the answer to a `request` is known afterwards. -/
theorem mem_values_of_answer (h : s.registry.Grown)
    (hd : (s.perform (request name create held)).1 = .ok (.direction d)) :
    d ∈ (s.perform (request name create held)).2.registry.values ∧ d.name = name := by
  rw [answer_request] at hd
  rw [registry_request]
  -- A name is interned, or it has to be known already.
  cases create with
  | true =>
    obtain rfl : (s.registry.intern name).1 = d := by
      cases hd
      rfl
    exact h.intern_spec name
  | false =>
    refine h.of_find?_eq_some ?_
    cases hfound : s.registry.find? name with
    | none =>
      rw [hfound] at hd
      cases hd
    | some e =>
      rw [hfound] at hd
      cases hd
      rfl

/-- The answer to a `request` stays the same for ever. -/
theorem answer_request_again (h : s.registry.Grown)
    (hi : ∀ i ∈ instructions, i.command.ConcernsDirections)
    (hd : (s.perform (request name create held)).1 = .ok (.direction d))
    (create' : Bool) (held' : Option String) :
    (((s.perform (request name create held)).2.run instructions).perform
      (request name create' held')).1 = .ok (.direction d) := by
  -- The direction is in the list from now on, and the list has no other one of its name.
  obtain ⟨hmem, hname⟩ := mem_values_of_answer h hd
  have hgrown : (s.perform (request name create held)).2.registry.Grown :=
    (learns_perform (i := request name create held) trivial).grown h
  exact answer_request_of_mem (grown_run hgrown hi) ((values_isPrefix_run hi).subset hmem) hname

/-! ## The known directions throughout a session -/

/-- In every run of commands about directions: the place of a direction is its ordinal, no name is known twice,
the standard directions come first in their order, and what is known stays known at its place. A request for an
exact name has the direction of the name as its answer if there is one, and otherwise either none or a new
direction at the end; an answer stays the same for ever. Nothing becomes known by any other command, except for
the names of directions along a meridian that are read or asked for, and an instruction that fails has made nothing
known. -/
theorem known_directions {earlier later : List Instruction}
    (h : ∀ i ∈ earlier ++ later, i.command.ConcernsDirections) :
    let s := start.run earlier
    (∀ (place : Nat) (d : Direction), s.registry.values[place]? = some d → d.ordinal = place) ∧
    s.registry.names.Nodup ∧
    s.registry.names.take 32 = standardNames ∧
    s.registry.values <+: (start.run (earlier ++ later)).registry.values ∧
    (∀ name create held,
      (∀ d ∈ s.registry.values, d.name = name →
        (s.perform (request name create held)).1 = .ok (.direction d)) ∧
      (name ∉ s.registry.names →
        (s.perform (request name false held)).1 = .ok .null ∧
        (s.perform (request name true held)).1 =
          .ok (.direction ⟨name, s.registry.values.length⟩) ∧
        (s.perform (request name true held)).2.registry.values =
          s.registry.values ++ [⟨name, s.registry.values.length⟩]) ∧
      ∀ d, (s.perform (request name create held)).1 = .ok (.direction d) → ∀ create' held',
        (((s.perform (request name create held)).2.run later).perform
          (request name create' held')).1 = .ok (.direction d)) ∧
    (∀ i : Instruction, i.command.ConcernsDirections → ¬i.command.CanTeach →
      (s.perform i).2.registry = s.registry) ∧
    ∀ (i : Instruction) (f : Failure), (s.perform i).1 = .error f →
      (s.perform i).2.registry = s.registry := by
  intro s
  have hlater : ∀ i ∈ later, i.command.ConcernsDirections := fun i hi =>
    h i (List.mem_append_right earlier hi)
  have hgrown : s.registry.Grown := grown_run .standard fun i hi => h i (List.mem_append_left later hi)
  have hstandard : s.registry.names.take 32 = standardNames := by
    -- What was learnt comes after the standard directions.
    obtain ⟨more, hmore⟩ := hgrown.standard_isPrefix
    rw [names, ← hmore, List.map_append, List.take_left' (by decide +kernel)]
    decide +kernel
  have hprefix : s.registry.values <+: (start.run (earlier ++ later)).registry.values := by
    rw [run, List.foldl_append]
    exact values_isPrefix_run hlater
  exact ⟨hgrown.consistent.ordinal_eq, hgrown.nodup, hstandard, hprefix, fun name create held =>
    ⟨fun d hd hname => answer_request_of_mem hgrown hd hname, perform_request_of_notMem hgrown,
      fun d hd => answer_request_again hgrown hlater hd⟩,
    fun i hi hteach => registry_perform_of_not_canTeach hi hteach,
    fun i f hfails => (undisturbed_of_error hfails).registry_eq⟩

/-- A name of one's own is known at the place after the standard names, also after a direction along a meridian
was read. -/
theorem known_directions_turnwise :
    let earlier := [request "TURNWISE" true none]
    let later : List Instruction :=
      [⟨.system (.parseDirection "South along 90 deg East"), none⟩, request "NORTH" true none]
    let s := start.run earlier
    (∀ i ∈ earlier ++ later, i.command.ConcernsDirections) ∧
    s.registry.names.take 32 = standardNames ∧
    s.registry.values <+: (start.run (earlier ++ later)).registry.values ∧
    (s.perform (request "TURNWISE" false none)).1 = .ok (.direction ⟨"TURNWISE", 32⟩) ∧
    (((s.perform (request "TURNWISE" false none)).2.run later).perform
      (request "TURNWISE" true none)).1 = .ok (.direction ⟨"TURNWISE", 32⟩) := by
  intro earlier later s
  have h : ∀ i ∈ earlier ++ later, i.command.ConcernsDirections := by
    intro i hi
    simp only [earlier, later, List.cons_append, List.nil_append, List.mem_cons, List.not_mem_nil,
      or_false] at hi
    obtain rfl | rfl | rfl := hi
    all_goals exact trivial
  have hanswer : (s.perform (request "TURNWISE" false none)).1 = .ok (.direction ⟨"TURNWISE", 32⟩) := by
    have hfound : s.registry.find? "TURNWISE" = some ⟨"TURNWISE", 32⟩ := by decide +kernel
    rw [answer_request, hfound]
    rfl
  obtain ⟨-, -, hstandard, hprefix, hrequest, -, -⟩ := known_directions h
  exact ⟨h, hstandard, hprefix, hanswer, (hrequest "TURNWISE" false none).2.2 _ hanswer true none⟩

end Session

end Georef
