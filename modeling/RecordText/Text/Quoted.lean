/-
Quoted fragments: texts between two quotes, with the quote and the backslash escaped.

* `escape q` writes a backslash before every `q` and every backslash, character by character.
* `replaceEach` replaces every occurrence of one character; `escapeTwice q` doubles the
  backslashes first and escapes the quotes second, which is how string members are written.
* `quoted q s` puts the escaped text between two quotes.
* `unquote q` reads one quoted fragment from the front of a text and gives back what follows it.
-/
namespace RecordText.Text

/-- The quote of string members. -/
def doubleQuote : Char := '"'

/-- The quote of single characters. -/
def singleQuote : Char := Char.ofNat 39

/-- The character that escapes. -/
def backslash : Char := Char.ofNat 92

/-- Writes `r` for every occurrence of `c`. -/
def replaceEach (c : Char) (r : List Char) (s : List Char) : List Char :=
  s.flatMap fun x => if x = c then r else [x]

/-- A backslash before every quote and every backslash, in one pass. -/
def escape (q : Char) (s : List Char) : List Char :=
  s.flatMap fun x => if x = q ∨ x = backslash then [backslash, x] else [x]

/-- The same escapes in two passes over the whole text: backslashes, then quotes. -/
def escapeTwice (q : Char) (s : List Char) : List Char :=
  replaceEach q [backslash, q] (replaceEach backslash [backslash, backslash] s)

/-- A text between two quotes, escaped in one pass. -/
def quoted (q : Char) (s : String) : String :=
  String.ofList (q :: escape q s.toList ++ [q])

/-- A text between two quotes, escaped in two passes. -/
def quotedTwice (q : Char) (s : String) : String :=
  String.ofList (q :: escapeTwice q s.toList ++ [q])

/-- The body of a quoted fragment whose opening quote has been read, and what follows it. -/
def unquoteBody (q : Char) : List Char → Option (List Char × List Char)
  | [] => none
  | c :: s =>
    if c = backslash then
      match s with
      | [] => none
      | d :: r => (unquoteBody q r).map fun p => (d :: p.1, p.2)
    else if c = q then some ([], s)
    else (unquoteBody q s).map fun p => (c :: p.1, p.2)

/-- Reads one quoted fragment from the front of a text. -/
def unquote (q : Char) : List Char → Option (List Char × List Char)
  | [] => none
  | c :: s => if c = q then unquoteBody q s else none

end RecordText.Text
