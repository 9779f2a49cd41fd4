/-
Phrases: annotations written as text.

The grammar, with `|` binding least and the operators of one level taken from the left:

    phrase  ::=  sum ( "|" sum )*
    sum     ::=  product ( ( "+" | "-" ) product )*
    product ::=  factor ( ( "*" | "/" ) factor )*
    factor  ::=  ( "+" | "-" ) factor | operand
    operand ::=  atom ( "." name | "[" phrase ("," phrase)* "]" )*
    atom    ::=  name | number | text | "..." | "(" phrase ")"

Blanks between tokens mean nothing, and neither do comments, nor line breaks in brackets.  A blank
before the first token is a mistake.

Annotations can be any expressions, and this is a part of them.  A text that is a mistake in every
grammar of expressions cannot be read (`Fault.badText`), and one that this grammar does not know is
told apart from it (`Phrase.beyond`).
-/
import RecordText.Fault

namespace RecordText

/-- An annotation written as text, read but not yet given a meaning. -/
inductive Phrase
  | name (s : String)
  | number (n : Nat)
  | text (s : String)
  | ellipsis
  | attribute (base : Phrase) (name : String)
  | subscript (base : Phrase) (args : List Phrase)
  | either (left right : Phrase)
  | plus (left right : Phrase)
  | minus (left right : Phrase)
  | times (left right : Phrase)
  | over (left right : Phrase)
  | positive (p : Phrase)
  | negative (p : Phrase)
  deriving Repr, Inhabited

namespace Phrase

/-- The tokens of a phrase. -/
inductive Token
  | name (s : String)
  | number (n : Nat)
  | text (s : String)
  | ellipsis
  | mark (c : Char)
  deriving DecidableEq, Repr, Inhabited

/-- The fault of a text that may be an expression, but none of this grammar. -/
def beyond : Fault := .raised "UnknownExpression"

/-- Words that stand between the operands of other expressions. -/
def operators : List String :=
  ["and", "async", "await", "else", "for", "if", "in", "is", "lambda", "not", "or", "yield"]

/-- Words that stand in no expression. -/
def reserved : List String :=
  ["as", "assert", "break", "class", "continue", "def", "del", "elif", "except", "finally", "from",
   "global", "import", "nonlocal", "pass", "raise", "return", "try", "while", "with"]

/-- Characters that stand in a name; every character beyond the ASCII ones is taken for a
letter. -/
def isNameChar (c : Char) : Bool := c.isAlphanum || c == '_' || 127 < c.toNat

/-- Characters between tokens. -/
def isGap (c : Char) : Bool := c == ' ' || c == '\t'

/-- The token that a run of name characters is: a number starts with a digit and has no needless
zero before it. -/
def word (s : List Char) : Except Fault Token :=
  if s.head?.any Char.isDigit then
    if !s.all Char.isDigit then throw beyond
    else if s.head? == some '0' && !s.all (· == '0') then throw .badText
    else pure (.number (s.foldl (fun n d => 10 * n + (d.toNat - '0'.toNat)) 0))
  else
    let w := String.ofList s
    if reserved.contains w then throw .badText
    else if operators.contains w then throw beyond
    else pure (.name w)

/-- What the reader of tokens is in the middle of. Characters are collected last one first. -/
inductive Midst
  | word (run : List Char)
  | text (quote : Char) (run : List Char)
  | comment
  /-- After a line break outside of brackets, which ends the phrase. -/
  | rest
  deriving Inhabited

/-- Between two tokens. -/
def Midst.gap : Midst := .word []

/-- Puts a collected run, if there is one, before the tokens that follow it. -/
def flush (run : List Char) (ts : List Token) : Except Fault (List Token) := do
  if run.isEmpty then return ts else return (← word run.reverse) :: ts

/-- How many brackets are open after a mark. -/
def depthAfter (depth : Nat) : Char → Nat
  | '(' | '[' => depth + 1
  | ')' | ']' => depth - 1
  | _ => depth

/-- What a reader of tokens is in the middle of after a line break. -/
def afterLine (depth : Nat) : Midst := if depth = 0 then .rest else .gap

/-- Whether a character right after a collected run makes it part of a token of another grammar: a
number with a point, or a text with letters before it. -/
def extends? (run : List Char) (c : Char) : Bool :=
  match run.getLast? with
  | some d => if d.isDigit then c == '.' else "'\"".toList.contains c
  | none => false

/-- Cuts a text into tokens. A text that ends within brackets is a mistake in every grammar. -/
def tokens : Midst → Nat → List Char → Except Fault (List Token)
  | .word run, depth, [] => if depth = 0 then flush run [] else throw .badText
  | .text _ _, _, [] => throw .badText
  | .comment, depth, [] => if depth = 0 then pure [] else throw .badText
  | .rest, _, [] => pure []
  | .word run, depth, '.' :: '.' :: '.' :: s => do flush run (.ellipsis :: (← tokens .gap depth s))
  | .word run, depth, c :: s =>
    if isNameChar c then tokens (.word (c :: run)) depth s
    else if extends? run c then throw beyond
    else if isGap c then do flush run (← tokens .gap depth s)
    else if c == '\n' then do flush run (← tokens (afterLine depth) depth s)
    else if c == '#' then do flush run (← tokens .comment depth s)
    else if "'\"".toList.contains c then do flush run (← tokens (.text c []) depth s)
    else if "[](),.|+-*/".toList.contains c then do
      flush run (.mark c :: (← tokens .gap (depthAfter depth c) s))
    else if "$?`".toList.contains c then throw .badText
    else throw beyond
  | .text quote run, depth, c :: s =>
    if c == quote then do return .text (String.ofList run.reverse) :: (← tokens .gap depth s)
    else if c == '\n' then throw .badText
    else if c == '\\' then throw beyond
    else tokens (.text quote (c :: run)) depth s
  | .comment, depth, c :: s => tokens (if c == '\n' then afterLine depth else .comment) depth s
  | .rest, depth, c :: s =>
    if isGap c || c == '\n' then tokens .rest depth s
    else if c == '#' then tokens .comment depth s
    else throw .badText

/-- A reader takes tokens from the front and gives back the rest. -/
abbrev Reader (α : Type) := List Token → Except Fault (α × List Token)

/-- The operators between two operands, by how strongly they bind. -/
def operator? : Nat → Token → Option (Phrase → Phrase → Phrase)
  | 0, .mark '|' => some .either
  | 1, .mark '+' => some .plus
  | 1, .mark '-' => some .minus
  | 2, .mark '*' => some .times
  | 2, .mark '/' => some .over
  | _, _ => none

/-- Whether a mark may go on where an operand has ended or begin one, in another grammar. -/
def opens : Token → Bool
  | .mark '(' | .mark '[' | .mark '*' | .mark '/' | .mark '.' | .text _ => true
  | _ => false

mutual

/-- Reads a phrase; each step of the grammar spends one unit of fuel. -/
def phrase : Nat → Reader Phrase
  | 0, _ => throw .tooDeep
  | n + 1, ts => level n 0 ts

/-- Reads operands with operators that bind at least so strongly between them. -/
def level : Nat → Nat → Reader Phrase
  | 0, _, _ => throw .tooDeep
  | n + 1, k, ts =>
    if k = 3 then factor n ts
    else do
      let (p, ts) ← level n (k + 1) ts
      joined n k p ts

/-- Reads further operands after operators of one level and joins them to the left. -/
def joined : Nat → Nat → Phrase → Reader Phrase
  | 0, _, _, _ => throw .tooDeep
  | n + 1, k, p, t :: ts =>
    match operator? k t with
    | some f => do
      let (q, ts) ← level n (k + 1) ts
      joined n k (f p q) ts
    | none => pure (p, t :: ts)
  | _ + 1, _, p, [] => pure (p, [])

/-- Reads an operand with its signs. -/
def factor : Nat → Reader Phrase
  | 0, _ => throw .tooDeep
  | n + 1, .mark '+' :: ts => do let (p, ts) ← factor n ts; pure (.positive p, ts)
  | n + 1, .mark '-' :: ts => do let (p, ts) ← factor n ts; pure (.negative p, ts)
  | n + 1, ts => operand n ts

/-- Reads an atom with what is attached to it. -/
def operand : Nat → Reader Phrase
  | 0, _ => throw .tooDeep
  | n + 1, .name s :: ts => attached n (.name s) ts
  | n + 1, .number k :: ts => attached n (.number k) ts
  | n + 1, .text s :: ts => attached n (.text s) ts
  | n + 1, .ellipsis :: ts => attached n .ellipsis ts
  | _ + 1, .mark '(' :: .mark ')' :: _ => throw beyond
  | n + 1, .mark '(' :: ts => do
    let (p, ts) ← phrase n ts
    match ts with
    | .mark ')' :: ts => attached n p ts
    | .mark ',' :: _ => throw beyond
    | _ => throw .badText
  | _ + 1, t :: _ => if opens t then throw beyond else throw .badText
  | _ + 1, [] => throw .badText

/-- Reads dotted names and subscripts after an operand. -/
def attached : Nat → Phrase → Reader Phrase
  | 0, _, _ => throw .tooDeep
  | n + 1, p, .mark '.' :: .name s :: ts => attached n (.attribute p s) ts
  | _ + 1, _, .mark '.' :: _ => throw .badText
  | n + 1, p, .mark '[' :: ts => do
    let (args, ts) ← arguments n ts
    attached n (.subscript p args) ts
  | _ + 1, _, .mark '(' :: _ => throw beyond
  | _ + 1, .text _, .text _ :: _ => throw beyond
  | _ + 1, p, ts => pure (p, ts)

/-- Reads the arguments of a subscript up to the closing bracket; a comma may stand before it. -/
def arguments : Nat → Reader (List Phrase)
  | 0, _ => throw .tooDeep
  | n + 1, ts => do
    let (p, ts) ← phrase n ts
    match ts with
    | .mark ']' :: ts => pure ([p], ts)
    | .mark ',' :: .mark ']' :: ts => pure ([p], ts)
    | .mark ',' :: ts => do
      let (ps, ts) ← arguments n ts
      pure (p :: ps, ts)
    | _ => throw .badText

end

/-- Reads a whole text. Every token is passed by at most eight steps of the grammar, so the fuel is
enough for any text. -/
def read (text : String) : Except Fault Phrase := do
  let chars := text.toList
  if chars.head?.any isGap then throw .badText
  let ts ← tokens .gap 0 chars
  match ← phrase (8 * ts.length + 8) ts with
  | (p, []) => pure p
  | (_, .mark ',' :: _) => throw beyond
  | _ => throw .badText

end Phrase

end RecordText
