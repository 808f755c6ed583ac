import BatchShader.Text.Printable

/-
  Text between quotes, every character visible.

  The quote itself, the backslash and the four named controls are written with a backslash; other
  characters that have no visible form of their own are written by number.
-/

namespace BatchShader.Text

/-- A character by its number in hexadecimal, `\u\x7b1f\x7d` for the character 31. -/
def numbered (c : Char) : String :=
  "\\u\x7b" ++ String.ofList (Nat.toDigits 16 c.toNat) ++ "\x7d"

/-- How a character is written between two `quote`s. -/
def escaped (quote c : Char) : String :=
  if c = '\x00' then "\\0"
  else if c = '\t' then "\\t"
  else if c = '\r' then "\\r"
  else if c = '\n' then "\\n"
  else if c = '\\' || c = quote then "\\" ++ c.toString
  else if isPrintable c then c.toString
  else numbered c

/-- A character between single quotes. -/
def quotedChar (c : Char) : String := "'" ++ escaped '\'' c ++ "'"

/-- A text between double quotes. -/
def quoted (s : String) : String :=
  "\"" ++ String.join (s.toList.map (escaped '"')) ++ "\""

end BatchShader.Text
