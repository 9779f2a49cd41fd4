/-
Values in print.

A value has two written forms: its text, and its printed form, which is what a container shows of
its elements. They differ for texts, scalars and enumeration members. Records have forms of their
own, so `Value.textWith` and `Value.printedWith` are given a function for them.
-/
import RecordText.Value.Basic

namespace RecordText

/-- The two forms in which a value is written. -/
inductive Form
  | text
  | printed
  deriving DecidableEq, Repr, Inhabited

namespace Value

/-- The parts of a date or time text: its runs of digits, without needless zeros. -/
def numberParts (s : String) : List String :=
  ((s.toList.splitBy fun a b => a.isDigit && b.isDigit).filter fun run => run.all Char.isDigit).map
    fun run => toString ((Number.digits? run).getD 0)

/-- The parts of a time of day lose their zeros at the end, seconds first; hours and minutes
stay. -/
def dropSeconds : List String → List String
  | [y, m, d, hour, minute, "0"] => [y, m, d, hour, minute]
  | parts => parts

/-- A word with a body in parentheses. -/
def called (head body : String) : String := head ++ "(" ++ body ++ ")"

/-- The printed form of a scalar. -/
def printedScalar (k : KnownClass) (s : String) : String :=
  match k with
  | .npBool => "np." ++ s ++ "_"
  | .npStr => called "np.str_" (Text.printed s)
  | .date => called "datetime.date" (commaSeparated (numberParts s))
  | .datetime => called "datetime.datetime" (commaSeparated (dropSeconds (numberParts s)))
  | .fraction =>
    match s.splitOn "/" with
    | [n, d] => called "Fraction" (commaSeparated [n, d])
    | _ => called "Fraction" (commaSeparated [s, "1"])
  | .decimal | .uuid | .path | .pdTimestamp | .pdTimedelta => called k.title (Text.printed s)
  | k => if k.below .npGeneric then called ("np." ++ k.title) s else s

/-- The printed form of missing data. -/
def printedMissing : Missing → String
  | .na => "<NA>"
  | .nat => "NaT"

/-- The text of a member of an enumeration: those of numbers show the number. -/
def memberText (m : EnumMember) : String :=
  match m.owner with
  | .level | .perm => m.content.printed
  | _ => m.path

mutual

/-- The printed form of a value; `own` prints the records. -/
def printedWith {ε : Type} (own : Value → Except ε String) : Value → Except ε String
  | .absent => pure "None"
  | .missing m => pure (printedMissing m)
  | .bool b => pure (printedBool b)
  | .int i => pure (toString i)
  | .float x => pure x.text
  | .text s => pure (Text.printed s)
  | .list xs => do return "[" ++ commaSeparated (← printedAll own xs) ++ "]"
  | .tuple xs => do
    match ← printedAll own xs with
    | [x] => return "(" ++ x ++ ",)"
    | ps => return "(" ++ commaSeparated ps ++ ")"
  | .dict es => do return "\x7b" ++ commaSeparated (← printedEntries own es) ++ "\x7d"
  | .scalar k s => pure (printedScalar k s)
  | .member m => pure m.printed
  | .type t => pure t.printed
  | .routine n => pure ("<bound method " ++ n ++ ">")
  | v => own v

/-- The printed forms of several values, in order. -/
def printedAll {ε : Type} (own : Value → Except ε String) : List Value → Except ε (List String)
  | [] => pure []
  | v :: vs => do
    let p ← printedWith own v
    return p :: (← printedAll own vs)

/-- The printed forms of the entries of a dictionary, in order. -/
def printedEntries {ε : Type} (own : Value → Except ε String) :
    List (Value × Value) → Except ε (List String)
  | [] => pure []
  | (k, v) :: es => do
    let p ← printedWith own k
    let q ← printedWith own v
    return (p ++ ": " ++ q) :: (← printedEntries own es)

end

/-- The text of a value; `own` and `ownPrinted` write and print the records. -/
def textWith {ε : Type} (own ownPrinted : Value → Except ε String) : Value → Except ε String
  | .text s => pure s
  | .scalar _ s => pure s
  | .member m => pure (memberText m)
  | .record c b as => own (.record c b as)
  | .stored a c b => own (.stored a c b)
  | v => printedWith ownPrinted v

end Value

end RecordText
