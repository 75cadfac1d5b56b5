/-!
# Compact JSON text

Objects and arrays without blanks, fields in the order given, and strings with the escapes the
format asks for: the quote, the backslash, the five named controls and every other control below
a blank as four hexadecimal digits.
-/

namespace ConnectionLeasing.Text.Json

def hexDigit (n : Nat) : Char := (Nat.toDigits 16 (n % 16)).headD '0'

/-- The written form of one character of a string. -/
def stringChar (c : Char) : String :=
  match c with
  | '"' => "\\\""
  | '\\' => "\\\\"
  | '\x08' => "\\b"
  | '\x0c' => "\\f"
  | '\n' => "\\n"
  | '\r' => "\\r"
  | '\t' => "\\t"
  | c =>
    if c.toNat < 32 then "\\u00" ++ String.ofList [hexDigit (c.toNat / 16), hexDigit c.toNat]
    else c.toString

def string (s : String) : String :=
  "\"" ++ String.join (s.toList.map stringChar) ++ "\""

def array (items : List String) : String := "[" ++ ",".intercalate items ++ "]"

/-- An object whose values are texts already. -/
def object (fields : List (String × String)) : String :=
  "\x7b" ++ ",".intercalate (fields.map fun f => string f.1 ++ ":" ++ f.2) ++ "\x7d"

end ConnectionLeasing.Text.Json
