/-!
# Records and tagged values as text

`Name { field: value, other: value }`, `Name(value)` and the text of a value that may be missing.
-/

namespace ConnectionLeasing.Text

/-- A named record with its fields in order. -/
def record (name : String) (fields : List (String × String)) : String :=
  name ++ " \x7b " ++ ", ".intercalate (fields.map fun f => f.1 ++ ": " ++ f.2) ++ " \x7d"

/-- A name applied to one value. -/
def tagged (name value : String) : String := name ++ "(" ++ value ++ ")"

/-- A value that may be missing. -/
def optional : Option String → String
  | none => "None"
  | some value => tagged "Some" value

def bool (b : Bool) : String := if b then "true" else "false"

end ConnectionLeasing.Text
