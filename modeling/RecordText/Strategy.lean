/-
Strategies: how the value of a member becomes text.

The strategy of a member is found from its declared type alone. Annotations are taken off, then
the absent value is taken out of a union once, and the first rule that fits decides: numbers and
truth values are primitive, single characters and texts are quoted, the universal types and
everything that iterates over elements are not supported, and all else is an object with a text of
its own.
-/
import RecordText.Ty.Assignable

namespace RecordText

/-- How the value of a member becomes text. `verbatim` is never found from a type: it is for
values that are fragments already. -/
inductive Strategy
  | primitive
  | char
  | string
  | unsupported
  | object
  | verbatim
  deriving DecidableEq, Repr, Inhabited

namespace Strategy

/-- The name of the strategy. -/
def title : Strategy → String
  | .primitive => "Primitive"
  | .char => "Char"
  | .string => "String"
  | .unsupported => "Unsupported"
  | .object => "Object"
  | .verbatim => "Verbatim"

/-- The strategy of a given name. -/
def ofTitle? (s : String) : Option Strategy :=
  [primitive, char, string, unsupported, object, verbatim].find? fun k => k.title == s

end Strategy

namespace Hierarchy

/-- The classes whose values are written as they are. -/
def primitiveClasses : List KnownClass := [.bool, .int, .float, .npBool, .npNumber]

/-- The classes of arrays and tables. -/
def arrayClasses : List KnownClass := [.npArray, .pdSeries, .pdDataFrame, .pdIndex]

/-- The fixed enumerations. -/
def enumerations : List KnownClass := [.color, .level, .tag, .perm, .ratio]

/-- A class of numbers or truth values that is no enumeration. -/
def isPrimitive (H : Hierarchy) : Ty → Bool
  | .cls c => H.belowAny c primitiveClasses && !H.belowAny c enumerations
  | _ => false

/-- Whether a type describes something that iterates over elements. Texts do not count, and
neither do models, which are records although they iterate over their fields. -/
def isIterable (H : Hierarchy) : Ty → Bool
  | .newType _ _ t => H.isIterable t
  | t =>
    match t.originClass? with
    | none => false
    | some c =>
      !H.belowAny c [.str, .model] && (H.belowAny c arrayClasses || H.belowAny c [.abcIterable])

/-- The strategy of a type that is no annotation and from which the absent value is taken out. -/
def strategyOfBare (H : Hierarchy) (t : Ty) : Strategy :=
  if H.isPrimitive t then .primitive
  else if t.isChar then .char
  else if t.isStr then .string
  else if t.isAny || H.isIterable t then .unsupported
  else .object

/-- The strategy of a member declared with the type `t`. -/
def strategy (H : Hierarchy) (t : Ty) : Strategy :=
  H.strategyOfBare t.core.stripOptional.1

end Hierarchy

end RecordText
