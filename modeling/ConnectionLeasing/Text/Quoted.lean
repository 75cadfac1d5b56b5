import ConnectionLeasing.Text.Printable

/-!
# Quoted text

A text between double quotes, with what cannot be shown as it is written as an escape: the quote
and the backslash, the four named controls, and every other character that has no printed form of
its own by its number in lower-case hexadecimal.
-/

namespace ConnectionLeasing.Text

/-- Lower-case hexadecimal digits without padding. -/
def hex (n : Nat) : String := String.ofList (Nat.toDigits 16 n)

/-- The written form of one character inside double quotes. -/
def quotedChar (c : Char) : String :=
  match c with
  | '"' => "\\\""
  | '\\' => "\\\\"
  | '\n' => "\\n"
  | '\r' => "\\r"
  | '\t' => "\\t"
  | '\x00' => "\\0"
  | c => if isPrintable c then c.toString else "\\u\x7b" ++ hex c.toNat ++ "\x7d"

/-- A text in double quotes. -/
def quoted (s : String) : String :=
  "\"" ++ String.join (s.toList.map quotedChar) ++ "\""

end ConnectionLeasing.Text
