import Georef.Proofs.Direction.Learning
import Georef.Proofs.Session.Procedure
import Georef.Session.Run

/-!
# Reading directions after other directions

Directions along a meridian become known when they are read, and a lenient search looks at all known
directions. So what a text means may depend on the texts that were read before: `NA15E` means nothing at
first, and after `North along 15 deg East` it is an acronym of that direction. It depends on them in no other
way. A text that means something at first keeps its meaning, and any other text means the first direction
that was learnt and that it matches.

## Key results

- `registry_afterParsing`: what a session knows after any texts were read
- `parsed_dependsOnly`: two histories make a difference only by what they have made known
-/

namespace Georef

open Georef.Action Procedure Registry

namespace Session

variable {s : Session} {text : String} {history : List String}

/-! ## Calls -/

/-- The instruction to read the name of an axis direction. -/
def parsing (text : String) : Instruction := ⟨.system (.parseDirection text), none⟩

/-- A new session in which texts were read, whether they were understood or not. -/
def afterParsing (history : List String) : Session := start.run (history.map parsing)

/-- The answer to a text that is read after other texts. -/
def parsed (history : List String) (text : String) : Except Failure Value :=
  ((afterParsing history).perform (parsing text)).1

/-- Directions that were made known by texts that were read. -/
def learntFrom (history : List String) : List Direction := (afterParsing history).registry.learnt

/-- `parsing` has a text read with the directions that the session knows, and perhaps adds to them. -/
theorem perform_parsing (s : Session) (text : String) :
    s.perform (parsing text) =
      match s.registry.resolve text with
      | .ok (d, r) => (.ok (.direction d), { s with registry := r })
      | .error f => (.error f, s) := by
  have hcall : (parsing text).command.execute.call s =
      (liftM (s.registry.resolve text) >>= learn : Procedure Value).call s := rfl
  unfold perform
  rw [hcall, call_bind, call_lift]
  cases s.registry.resolve text <;> rfl

/-- What is known afterwards is what `afterReading` says. -/
theorem registry_perform_parsing (s : Session) (text : String) :
    (s.perform (parsing text)).2.registry = s.registry.afterReading text := by
  rw [perform_parsing, Registry.afterReading]
  cases s.registry.resolve text <;> rfl

/-- `afterParsing` knows what its texts have made known one after the other. -/
theorem registry_afterParsing (history : List String) :
    (afterParsing history).registry = history.foldl Registry.afterReading .standard := by
  -- The session before the first text may be any.
  suffices h : ∀ s : Session, (s.run (history.map parsing)).registry =
      history.foldl Registry.afterReading s.registry from h start
  induction history with
  | nil => exact fun s => rfl
  | cons text history ih =>
    intro s
    show ((s.perform (parsing text)).2.run (history.map parsing)).registry = _
    rw [ih, registry_perform_parsing]
    rfl

/-- The directions of `afterParsing` have grown from the standard ones. -/
theorem grown_afterParsing (history : List String) : (afterParsing history).registry.Grown := by
  rw [registry_afterParsing]
  induction history using List.reverseRecOn with
  | nil => exact .standard
  | append_singleton history text ih =>
    rw [List.foldl_append]
    exact ih.afterReading text

/-- Those that came to them were `Learnt` from the texts. -/
theorem learnt_afterParsing (history : List String) :
    Learnt history (afterParsing history).registry :=
  registry_afterParsing history ▸ .after history

/-- `parsed` answers what the known directions of the history `resolve` the text to. -/
theorem parsed_eq (history : List String) (text : String) :
    parsed history text =
      ((afterParsing history).registry.resolve text).map fun result => .direction result.1 := by
  rw [parsed, perform_parsing]
  cases (afterParsing history).registry.resolve text <;> rfl

/-- `parsed` without a history is what the standard directions say. -/
theorem parsed_nil {text : String} {f : Failure} (h : Registry.standard.resolve text = .error f) :
    parsed [] text = .error f := by
  rw [parsed_eq, registry_afterParsing, List.foldl_nil, h]
  rfl

/-! ## Two histories -/

/-- Both answers say that the text names no direction, or both are directions of the same name. -/
def SameAnswer (a b : Except Failure Value) : Prop :=
  (∃ name name', a = .error (.unknownDirection name) ∧ b = .error (.unknownDirection name')) ∨
    ∃ d d', a = .ok (.direction d) ∧ b = .ok (.direction d') ∧ d.name = d'.name

/-- The text that is searched for among the known directions. -/
def asked (text : String) : List Char := searchText (String.ofList (trimBlanks text.toList))

/-- Why a text is not understood. -/
def unknown (text : String) : Failure := .unknownDirection (String.ofList (trimBlanks text.toList))

/-- A text means the same after any history, or it means nothing at first: then `parsed` answers the
    first direction that was made known and that it matches. -/
theorem parsed_cases (text : String) :
    (∃ name, ∀ history, ∃ d, parsed history text = .ok (.direction d) ∧ d.name = name) ∨
    ∀ history, parsed history text =
      match findDirection (asked text) (learntFrom history) with
      | some d => .ok (.direction d)
      | none => .error (unknown text) := by
  cases hparse : MeridianDirection.parse? (trimBlanks text.toList) with
  | some m =>
    -- A direction along a meridian is named by its canonical text, whatever is known.
    refine .inl ⟨m.text, fun history => ⟨((afterParsing history).registry.intern m.text).1, ?_,
      ((grown_afterParsing history).intern_spec m.text).2⟩⟩
    rw [parsed_eq, resolve_of_parse hparse]
    rfl
  | none =>
    have hlookup (history : List String) := (learnt_afterParsing history).lookup_eq
      (String.ofList (trimBlanks text.toList))
    cases hstandard : Registry.standard.lookup (String.ofList (trimBlanks text.toList)) with
    | some d =>
      -- The standard directions come first, so a match among them is found after any history.
      refine .inl ⟨d.name, fun history => ⟨d, ?_, rfl⟩⟩
      rw [parsed_eq, resolve_of_lookup hparse (by rw [hlookup, hstandard]; rfl)]
      rfl
    | none =>
      refine .inr fun history => ?_
      simp only [hstandard, Option.none_or] at hlookup
      rw [parsed_eq]
      cases hfind : findDirection (asked text) (learntFrom history) with
      | some d =>
        rw [resolve_of_lookup hparse ((hlookup history).trans hfind)]
        rfl
      | none =>
        rw [resolve_of_unknown hparse ((hlookup history).trans hfind)]
        rfl

/-- After two histories the same text has the same answer, or it means nothing in a new session and matches
    a direction that one of the two has made known. A text that means nothing in a new session is answered
    by the first direction made known that it matches, and all directions made known are named for the
    meridians that were read. -/
theorem parsed_dependsOnly (text : String) :
    (∀ first second : List String,
      SameAnswer (parsed first text) (parsed second text) ∨
        (∃ f, parsed [] text = .error f) ∧
          ∃ d ∈ learntFrom first ++ learntFrom second, d.matches (asked text) = true) ∧
    (∀ (history : List String) (f : Failure), parsed [] text = .error f →
      parsed history text =
        match (learntFrom history).find? (·.matches (asked text)) with
        | some d => .ok (.direction d)
        | none => .error f) ∧
    (∀ history : List String, ∀ d ∈ learntFrom history, ∃ earlier ∈ history, ∃ m,
      MeridianDirection.parse? (trimBlanks earlier.toList) = some m ∧ d.name = m.text) := by
  refine ⟨fun first second => ?_, fun history f hf => ?_, fun history d hd =>
    (learnt_afterParsing history).name_of_mem hd⟩
  · obtain ⟨name, hsame⟩ | hsearch := parsed_cases text
    · obtain ⟨d, hd, hname⟩ := hsame first
      obtain ⟨d', hd', hname'⟩ := hsame second
      exact .inl (.inr ⟨d, d', hd, hd', hname.trans hname'.symm⟩)
    · by_cases hmatch : ∃ d ∈ learntFrom first ++ learntFrom second, d.matches (asked text) = true
      · exact .inr ⟨⟨_, hsearch []⟩, hmatch⟩
      · -- Neither history has made a direction known that the text matches.
        have hnone (history : List String)
            (hsub : learntFrom history ⊆ learntFrom first ++ learntFrom second) :
            parsed history text = .error (unknown text) := by
          have hfind : findDirection (asked text) (learntFrom history) = none :=
            List.find?_eq_none.mpr fun d hd hd' => hmatch ⟨d, hsub hd, hd'⟩
          rw [hsearch, hfind]
        exact .inl (.inl ⟨_, _, hnone first (List.subset_append_left _ _),
          hnone second (List.subset_append_right _ _)⟩)
  · obtain ⟨name, hsame⟩ | hsearch := parsed_cases text
    · obtain ⟨d, hd, -⟩ := hsame []
      rw [hf] at hd
      exact nomatch hd
    · obtain rfl : unknown text = f := Except.error.inj ((hsearch []).symm.trans hf)
      exact hsearch history

/-- The second of two directions that were made known is the first one with the acronym. -/
theorem parsed_dependsOnly_second :
    parsed ["South along 90 deg East", "North along 15 deg East"] "NA15E" =
      .ok (.direction ⟨"North along 15°E", 33⟩) := by
  have hnew : parsed [] "NA15E" = .error (.unknownDirection "NA15E") := parsed_nil (by decide +kernel)
  have hfind : (learntFrom ["South along 90 deg East", "North along 15 deg East"]).find?
      (·.matches (asked "NA15E")) = some ⟨"North along 15°E", 33⟩ := by
    rw [learntFrom, registry_afterParsing]
    decide +kernel
  have hanswer := (parsed_dependsOnly "NA15E").2.1
    ["South along 90 deg East", "North along 15 deg East"] _ hnew
  rw [hanswer, hfind]

/-- An acronym of a direction along a meridian means nothing before the direction was read, and that
    direction afterwards. -/
theorem parsed_acronym :
    parsed [] "NA15E" = .error (.unknownDirection "NA15E") ∧
      parsed ["North along 15 deg East"] "NA15E" = .ok (.direction ⟨"North along 15°E", 32⟩) ∧
      ¬SameAnswer (parsed [] "NA15E") (parsed ["North along 15 deg East"] "NA15E") := by
  have hbefore : parsed [] "NA15E" = .error (.unknownDirection "NA15E") :=
    parsed_nil (by decide +kernel)
  have hafter : parsed ["North along 15 deg East"] "NA15E" =
      .ok (.direction ⟨"North along 15°E", 32⟩) := by
    have hresolve : ((Registry.standard.afterReading "North along 15 deg East").resolve "NA15E").map
        (·.1) = .ok ⟨"North along 15°E", 32⟩ := by
      decide +kernel
    rw [parsed_eq, registry_afterParsing, List.foldl_cons, List.foldl_nil]
    cases hresult : (Registry.standard.afterReading "North along 15 deg East").resolve "NA15E" with
    | error f => rw [hresult] at hresolve; exact nomatch hresolve
    | ok result =>
      rw [hresult] at hresolve
      exact congrArg (fun d => Except.ok (Value.direction d)) (Except.ok.inj hresolve)
  refine ⟨hbefore, hafter, ?_⟩
  rw [hbefore, hafter]
  rintro (⟨_, _, -, h⟩ | ⟨_, _, h, -⟩)
  · exact nomatch h
  · exact nomatch h

end Session

end Georef
