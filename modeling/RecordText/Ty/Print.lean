/-
Declared types in print.

`Ty.inside` is the form that a type has inside another one, `Ty.printed` the form it has as a
value, and `Ty.describe` the short form of error messages: a bare name for classes and new names,
and the printed form without the word `typing.` for all else.
-/
import RecordText.Ty.Basic
import RecordText.Text.Printed

namespace RecordText

/-- A truth value in print. -/
def printedBool (b : Bool) : String := if b then "True" else "False"

/-- A literal value in print, members of enumerations apart. -/
def Literal.printedContent : Literal → String
  | .absent => "None"
  | .bool b => printedBool b
  | .int i => toString i
  | .text s => Text.printed s
  | .member m => m.title
  | .scalar _ p => p

/-- The member with its enumeration's name before it. -/
def EnumMember.path (m : EnumMember) : String := m.owner.title ++ "." ++ m.title

/-- The member with the value behind it. -/
def EnumMember.printed (m : EnumMember) : String :=
  "<" ++ m.path ++ ": " ++ m.content.printedContent ++ ">"

/-- A literal value in print. -/
def Literal.printed : Literal → String
  | .member m => m.printed
  | v => v.printedContent

/-- A remark in print. -/
def Remark.printed : Remark → String
  | .absent => "None"
  | .bool b => printedBool b
  | .int i => toString i
  | .text s => Text.printed s
  | .ignored => "Ignored"
  | .ignoredClass => "<class 'tostring.primitives.types._IgnoredMarker'>"
  | .other p => p

/-- Items with a comma between them. -/
def commaSeparated (items : List String) : String := ", ".intercalate items

namespace Ty

/-- The type in brackets after the word for a form. -/
def bracketed (head body : String) : String := head ++ "[" ++ body ++ "]"

mutual

/-- The type as it is printed inside another type. -/
def inside : Ty → String
  | .absent => "None"
  | .cls c => c.path
  | .bare n _ => "typing." ++ n
  | .generic (.named "Callable") _ [p, r] =>
    let parameter := match p with
      | .ellipsis => "..."
      | p => "[" ++ inside p ++ "]"
    bracketed "typing.Callable" (commaSeparated [parameter, inside r])
  | .generic (.named n) _ ts => bracketed ("typing." ++ n) (insideArguments ts)
  | .generic _ c ts => bracketed c.path (insideArguments ts)
  | .union .form ts =>
    match ts with
    | [t, u] =>
      if t.isNoneType then bracketed "typing.Optional" (inside u)
      else if u.isNoneType then bracketed "typing.Optional" (inside t)
      else bracketed "typing.Union" (commaSeparated [inside t, inside u])
    | ts => bracketed "typing.Union" (commaSeparated (insideAll ts))
  | .union .bars ts => " | ".intercalate (insideBars ts)
  | .annotated t rs =>
    bracketed "typing.Annotated" (commaSeparated (inside t :: rs.map Remark.printed))
  | .literal vs => bracketed "typing.Literal" (commaSeparated (vs.map Literal.printed))
  | .classVarForm => "typing.ClassVar"
  | .classVar t => bracketed "typing.ClassVar" (inside t)
  | .initVar t =>
    bracketed "dataclasses.InitVar" (match t with | .cls c => c.title | t => inside t)
  | .newType id home _ => home ++ "." ++ id.name
  | .typeVar id _ _ => "~" ++ id.name
  | .forward s => "ForwardRef(" ++ Text.printed s ++ ")"
  | .text s => Text.printed s
  | .ellipsis => "..."
  | .form n => "typing." ++ n
  | .constant p => p

/-- The members or arguments, printed one by one. -/
def insideAll : List Ty → List String
  | [] => []
  | t :: ts => inside t :: insideAll ts

/-- The arguments of a generic form; none at all are printed as an empty tuple. -/
def insideArguments : List Ty → String
  | [] => "()"
  | t :: ts => commaSeparated (inside t :: insideAll ts)

/-- The members of a union with bars, where the absent value stands for its class. -/
def insideBars : List Ty → List String
  | [] => []
  | t :: ts => (if t.isNoneType then "None" else inside t) :: insideBars ts

end

/-- The type printed as a value. -/
def printed : Ty → String
  | .cls c => c.printed
  | .ellipsis => "Ellipsis"
  | t => t.inside

/-- The name that the type itself carries, if it has one. -/
def title? : Ty → Option String
  | .cls c => some c.title
  | .bare n _ | .generic (.named n) _ _ => some n
  | .generic _ c _ => some c.title
  | .union .form ts => some (if ts.length = 2 ∧ ts.any isNoneType then "Optional" else "Union")
  | .annotated t _ => t.title?
  | .literal _ => some "Literal"
  | .classVarForm | .classVar _ => some "ClassVar"
  | .newType id _ _ | .typeVar id _ _ => some id.name
  | .form n => some n
  | _ => none

/-- The short form of error messages. -/
def describe : Ty → String
  | .absent => "None"
  | .newType id _ _ => id.name
  | .cls (.known .noneType) => "None"
  | .cls c => c.title
  | t => t.inside.replace "typing." ""

end Ty

end RecordText
