/-
Fragments: the written form of a single member.

Each strategy has a writer. Primitive values and objects are written as their texts, single
characters and texts are quoted, and verbatim values are fragments already. Missing data leaves an
empty fragment, except that primitive members write it out unless their type allows for it
(`Writer.ofStrategy`). A fragment is a text for every strategy but the verbatim one.
-/
import RecordText.Strategy
import RecordText.Behaviour

namespace RecordText

namespace Fragment

/-- The empty fragment. -/
def empty : Value := .text ""

/-- One piece between single quotes: a quote or a backslash alone is escaped. -/
def piece (s : String) : String :=
  if s.toList = [Text.singleQuote] ∨ s.toList = [Text.backslash]
  then String.ofList (Text.backslash :: s.toList) else s

/-- The pieces of a value between single quotes. -/
def quotedPieces (vs : List Value) : Except Fault String := do
  let body ← Behaviour.joined "" (vs.map escaped)
  return Text.singleQuote.toString ++ body ++ Text.singleQuote.toString
where
  /-- A piece that is a text is escaped; the others are refused later. -/
  escaped (v : Value) : Value :=
    match v.text? with
    | some s => .text (piece s)
    | none => v

/-- A text between single quotes. A value whose elements may be its own is written piece by
piece. -/
def ofChar (B : Behaviour) (v : Value) : Except Failure String :=
  match v.ownText? with
  | some s => pure (Text.quoted Text.singleQuote s)
  | none => do Fault.lift (quotedPieces (← B.elements v))

/-- A value with a backslash before every occurrence of a character. -/
def escaped (B : Behaviour) (c : Char) (v : Value) : Except Failure Value :=
  match v.ownText? with
  | some s => pure (.text (String.ofList (Text.replaceEach c [Text.backslash, c] s.toList)))
  | none => B.replace v c [Text.backslash, c]

/-- What stands between quotes: a text as it is, any other value as its text. -/
def spelled (B : Behaviour) : Value → Except Failure String
  | .text s => pure s
  | v => B.text v

/-- A text between double quotes, escaped in two passes. A value that may replace characters in its
own way is asked for it, and so is what comes out of the first pass. -/
def ofString (B : Behaviour) (v : Value) : Except Failure String := do
  let once ← escaped B Text.backslash v
  let twice ← escaped B Text.doubleQuote once
  return Text.doubleQuote.toString ++ (← spelled B twice) ++ Text.doubleQuote.toString

end Fragment

/-- How the values of a member are written. -/
structure Writer where
  strategy : Strategy
  /-- Whether missing data leaves an empty fragment although the strategy would write it out. -/
  skipsAbsent : Bool
  deriving DecidableEq, Repr, Inhabited

namespace Writer

/-- Whether a declared type allows for the absent value. -/
def allowsAbsent (declared : Ty) : Bool := declared.core.stripOptional.2

/-- The writer of a strategy for members of a declared type. -/
def ofStrategy (k : Strategy) (declared : Ty) : Except Rejection Writer :=
  match k with
  | .unsupported => throw (.noWriter declared)
  | .primitive => pure ⟨.primitive, allowsAbsent declared⟩
  | k => pure ⟨k, false⟩

/-- The fragment of a value. -/
def write (B : Behaviour) (w : Writer) (v : Value) : Except Failure Value :=
  if w.skipsAbsent && v.isAbsent then pure Fragment.empty
  else match w.strategy with
    | .primitive => return .text (← B.text v)
    | .verbatim => pure v
    | .char => if v.isAbsent then pure Fragment.empty else return .text (← Fragment.ofChar B v)
    | .string =>
      if v.isAbsent then pure Fragment.empty
      else return .text (← Fragment.ofString B v)
    | .object => if v.isAbsent then pure Fragment.empty else return .text (← B.text v)
    | .unsupported => throw (Failure.fault .wrongType)

end Writer

end RecordText
