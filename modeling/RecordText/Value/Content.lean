/-
The content of a value: whether it counts as true, how long it is, what its elements are, which
number is in it, and what it becomes when characters are replaced.

Only data has a content here; a record has the content of the value that it wraps. What a class
defines about its own instances comes first and is not looked at in this module.
-/
import RecordText.Value.Order
import RecordText.Text.Digit
import RecordText.Text.Case
import RecordText.Text.Quoted

namespace RecordText.Value

open Number (Binary64 Exact)

/-- Whether a value counts as true. The marker for missing data of no kind refuses the question. -/
def truth (v : Value) : Except Fault Bool :=
  match v.plain with
  | .absent => pure false
  | .missing .na => throw .wrongType
  | .text s => pure !s.isEmpty
  | .list xs | .tuple xs => pure !xs.isEmpty
  | .dict es => pure !es.isEmpty
  | .scalar .pdTimedelta s => pure (s != "0 days 00:00:00")
  | v =>
    match v.number? with
    | some x => pure !x.isZero
    | none => pure true

/-- The members of an enumeration. -/
def membersOf (k : KnownClass) : List EnumMember := EnumMember.all.filter fun m => m.owner == k

/-- The elements of a value: the characters of a text, the keys of a dictionary, the members of an
enumeration, and the flags that a flag consists of. -/
def elements (v : Value) : Except Fault (List Value) :=
  match v with
  | .member .readable | .member .writable => pure [v]
  | v =>
    match v.plain with
    | .text s => pure (s.toList.map fun c => .text c.toString)
    | .list xs | .tuple xs => pure xs
    | .dict es => pure (es.map Prod.fst)
    | .type (.cls (.known k)) =>
      if k.isEnumeration then pure ((membersOf k).map .member) else throw .wrongType
    | _ => throw .wrongType

/-- The absolute value of a number. -/
def abs (v : Value) : Except Fault Value :=
  match v.plain with
  | .float x => pure (.float x.abs)
  | .scalar k s =>
    if isNumberKind k then pure (.scalar k (String.ofList (Number.signed s.toList).2))
    else throw .wrongType
  | v =>
    match v.int? with
    | some i => pure (.int i.natAbs)
    | none => throw .wrongType

/-- Characters around a number that mean nothing. -/
def isSpace (c : Char) : Bool :=
  Text.inRanges [(9, 13), (28, 32), (133, 133), (160, 160), (5760, 5760), (8192, 8202),
    (8232, 8233), (8239, 8239), (8287, 8287), (12288, 12288)] c.toNat

/-- Drops single underscores between digits. -/
def joinDigits : List Char → List Char
  | c :: '_' :: d :: s => if c.isDigit && d.isDigit then c :: joinDigits (d :: s)
    else c :: '_' :: joinDigits (d :: s)
  | c :: s => c :: joinDigits s
  | [] => []

/-- The characters of a number in a text, with blanks around it and underscores between its
digits. -/
def numeral (s : String) : List Char :=
  let trimmed := ((s.toList.dropWhile isSpace).reverse.dropWhile isSpace).reverse
  joinDigits (trimmed.map Text.plainDigit)

/-- The integer written in a text. -/
def parseInt (s : String) : Option Int := Number.integer? (numeral s)

/-- The floating-point number written in a text. -/
def parseFloat (s : String) : Option Binary64 :=
  let body := (Number.signed (numeral s)).2
  let name := String.ofList (body.map Char.toLower)
  if name = "nan" then some .nan
  else if name = "inf" ∨ name = "infinity" ∨ (Number.decimal? body).isSome
  then some (Binary64.ofText (String.ofList (numeral s)))
  else none

/-- The integer in a value: written in a text, what is left of a number without its fraction, or
the digits of an identifier. -/
def toInt (v : Value) : Except Fault Int :=
  match v.plain with
  | .text s =>
    match parseInt s with
    | some i => pure i
    | none => throw .badValue
  | .scalar .uuid s => pure (Number.hexadecimal s.toList)
  | v =>
    match v.number? with
    | some (.ratio n d) => pure (n.tdiv d)
    | some (.infinite _) => throw .overflow
    | some .nan => throw .badValue
    | none => throw .wrongType

/-- The member of an enumeration with a given value. Flags may be joined, and joined flags are no
members. -/
def toMember (k : KnownClass) (v : Value) : Except Fault (Option Value) :=
  match (membersOf k).find? fun m => v.equal (.member m) || v.equal (ofLiteral m.content) with
  | some m => pure (some (.member m))
  | none => if k == .perm && v.int?.isSome then pure none else throw .badValue

/-- The text of a value that has the operations of texts and none of its own. The class of an
instance may define some. -/
def ownText? (v : Value) : Option String :=
  match v with
  | .record _ _ _ | .stored _ _ _ => none
  | v => v.text?

/-- A text with another text in the place of every occurrence of a character. Other data that can
replace parts of itself takes no texts. -/
def replaceEach (c : Char) (r : List Char) (v : Value) : Except Fault Value :=
  match v.plain with
  | .text s => pure (.text (String.ofList (Text.replaceEach c r s.toList)))
  | .scalar .pdTimestamp _ => throw .badValue
  | _ => throw .wrongType

end RecordText.Value
