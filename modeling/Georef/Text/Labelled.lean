import Georef.Text.Quoted

/-!
# Composed texts

Texts of values that are made of parts: parts with labels, parts that may be missing, and lists.
-/

namespace Georef

/-- What is written for a value that is missing. -/
def missingText : String := "None"

/-- A truth value. -/
def truthText (b : Bool) : String := if b then "True" else "False"

/-- A text in quotes, if there is one. -/
def quotedOrMissing : Option String → String
  | some s => quoted s
  | none => missingText

/-- A kind of value with its labelled parts. -/
def labelledText (kind : String) (parts : List (String × String)) : String :=
  kind ++ "(" ++ ", ".intercalate (parts.map fun (label, part) => label ++ "=" ++ part) ++ ")"

/-- Items between brackets. -/
def listText (items : List String) : String := "[" ++ ", ".intercalate items ++ "]"

/-- Items between parentheses; a single item is followed by a comma. -/
def tupleText : List String → String
  | [] => "()"
  | [item] => "(" ++ item ++ ",)"
  | items => "(" ++ ", ".intercalate items ++ ")"

/-- Keys in quotes with what belongs to them, between braces. -/
def recordText (fields : List (String × String)) : String :=
  let parts := fields.map fun (key, part) => quoted key ++ ": " ++ part
  "\x7b" ++ ", ".intercalate parts ++ "\x7d"

end Georef
