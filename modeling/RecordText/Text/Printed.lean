/-
Printed texts: a text as it appears inside a printed value.

A text is put between single quotes, or between double quotes when it holds a single quote and no
double quote. The chosen quote, the backslash, line ends and tabs are escaped with a backslash; a
character without a visible mark is written by its code point, with two, four or eight hexadecimal
digits; all else stands for itself.
-/
import RecordText.Text.Blank
import RecordText.Text.Quoted

namespace RecordText.Text

/-- The hexadecimal digits of `n`, at least `width` of them. -/
def hex (width n : Nat) : String :=
  let digits := Nat.toDigits 16 n
  String.ofList (List.replicate (width - digits.length) '0' ++ digits)

/-- The quote that a printed text stands between. -/
def printedQuote (s : List Char) : Char :=
  if singleQuote ∈ s ∧ doubleQuote ∉ s then doubleQuote else singleQuote

/-- One character of a printed text that stands between quotes `q`. -/
def printedChar (q c : Char) : String :=
  if c = q ∨ c = backslash then String.ofList [backslash, c]
  else if c = '\n' then "\\n"
  else if c = '\r' then "\\r"
  else if c = '\t' then "\\t"
  else if isBlank c then
    if c.toNat < 256 then "\\x" ++ hex 2 c.toNat
    else if c.toNat < 65536 then "\\u" ++ hex 4 c.toNat
    else "\\U" ++ hex 8 c.toNat
  else c.toString

/-- A text as it appears inside a printed value. -/
def printed (s : String) : String :=
  let q := printedQuote s.toList
  q.toString ++ String.join (s.toList.map (printedChar q)) ++ q.toString

end RecordText.Text
