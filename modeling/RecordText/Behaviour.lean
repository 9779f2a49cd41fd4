/-
Behaviour: what values do when they are asked, and what functions compute from them.

A `Behaviour` answers the questions that depend on the classes of values: what a name stands for,
what an attribute holds, how a value is written, what a class makes of it. On top of it `Body.eval`
runs the body of a getter or a substitute, and `Function.apply` calls a substitute with one
argument. Nothing here depends on how the questions are answered.
-/
import RecordText.Description
import RecordText.Failure
import RecordText.Value.Arithmetic
import RecordText.Value.Content

namespace RecordText

/-- The answers to everything that is asked of a value. -/
structure Behaviour where
  /-- The value of a description. -/
  make : ValueExpr → Except Failure Value
  /-- The attribute of a value by name. -/
  read : Value → String → Except Failure Value
  /-- The text of a value. -/
  text : Value → Except Failure String
  /-- The printed form of a value. -/
  printed : Value → Except Failure String
  /-- Whether a value counts as true. -/
  truth : Value → Except Failure Bool
  /-- The length of a value. -/
  length : Value → Except Failure Int
  /-- The elements of a value. -/
  elements : Value → Except Failure (List Value)
  /-- A value with a text in the place of every occurrence of a character. -/
  replace : Value → Char → List Char → Except Failure Value
  /-- What a type makes of a value. -/
  construct : Ty → Value → Except Failure Value

namespace Behaviour

/-- A value in one of its forms. -/
def written (B : Behaviour) : Form → Value → Except Failure String
  | .text => B.text
  | .printed => B.printed

/-- The names of an attribute path, with dots between them. -/
def pathNames (path : String) : List String := (path.toList.splitOn '.').map String.ofList

/-- A name without dots is a path by itself. -/
theorem pathNames_of_not_mem {name : String} (h : '.' ∉ name.toList) : pathNames name = [name] := by
  rw [pathNames, List.splitOn_eq_singleton h, List.map_singleton, String.ofList_toList]

/-- Reads an attribute path: names with dots between them. -/
def readPath (B : Behaviour) (v : Value) (path : String) : Except Failure Value :=
  (pathNames path).foldlM B.read v

theorem readPath_of_not_mem {name : String} (h : '.' ∉ name.toList) (B : Behaviour) (v : Value) :
    B.readPath v name = B.read v name := by
  rw [readPath, pathNames_of_not_mem h, List.foldlM_cons]
  exact bind_pure (B.read v name)

/-- Puts texts one after the other with a separator between them; anything but texts is
refused. -/
def joined (separator : String) (parts : List Value) : Except Fault String := do
  return separator.intercalate (← parts.mapM textOf)
where
  /-- The text behind a part. -/
  textOf (v : Value) : Except Fault String :=
    match v.text? with
    | some s => pure s
    | none => throw .wrongType

end Behaviour

namespace Body

/-- A text in upper case, ASCII letters only. -/
def upperText (v : Value) : Except Fault Value :=
  match v.text? with
  | some s => pure (.text (s.map Char.toUpper))
  | none => throw .noAttribute

mutual

/-- What a body computes from an argument. -/
def eval (B : Behaviour) (arg : Value) : Body → Except Failure Value
  | .argument => pure arg
  | .value e => B.make e
  | .attribute b name => do B.read (← eval B arg b) name
  | .text b => do return .text (← B.text (← eval B arg b))
  | .concat bs => do return .text (String.join (← evalTexts B arg bs))
  | .upper b => do Fault.lift (upperText (← eval B arg b))
  | .length b => do return .int (← B.length (← eval B arg b))
  | .add b c => do
    let v ← eval B arg b
    let w ← eval B arg c
    Fault.lift (v.add w)
  | .mul b c => do
    let v ← eval B arg b
    let w ← eval B arg c
    Fault.lift (v.mul w)
  | .equal b c => do
    let v ← eval B arg b
    let w ← eval B arg c
    return .bool (v.equal w)
  | .cond b c d => do
    if ← B.truth (← eval B arg b) then eval B arg c else eval B arg d
  | .join separator b => do
    let parts ← B.elements (← eval B arg b)
    return .text (← Fault.lift (Behaviour.joined separator parts))
  | .raise kind message => throw (.raised kind message)

/-- The texts of what several bodies compute, in order. -/
def evalTexts (B : Behaviour) (arg : Value) : List Body → Except Failure (List String)
  | [] => pure []
  | b :: bs => do
    let s ← B.text (← eval B arg b)
    return s :: (← evalTexts B arg bs)

end

end Body

namespace Signature

/-- The parameters that take positional arguments. -/
def positional {τ : Type} (s : Signature τ) : List (Param τ) :=
  s.params.filter fun p => p.kind == .positional || p.kind == .positionalOnly

/-- Whether a call with exactly one positional argument fits. -/
def takesOne {τ : Type} (s : Signature τ) : Bool :=
  (!s.positional.isEmpty || s.params.any fun p => p.kind == .rest)
    && (s.positional.drop 1).all Param.hasDefault
    && (s.params.filter fun p => p.kind == .keywordOnly).all Param.hasDefault

end Signature

/-- A substitute. Types are values that can be called. -/
inductive Function
  | defined (signature : Signature Ty) (body : Body)
  | builtin (b : Builtin)
  | value (v : Value)
  deriving Repr, Inhabited

namespace Function

/-- A text for a function that takes nothing but texts. -/
def onText (f : String → String) (v : Value) : Except Fault Value :=
  match v.text? with
  | some s => pure (.text (f s))
  | none => throw .wrongType

/-- What a built-in function computes. -/
def applyBuiltin (B : Behaviour) (v : Value) : Builtin → Except Failure Value
  | .text => do return .text (← B.text v)
  | .length => do return .int (← B.length v)
  | .printed => do return .text (← B.printed v)
  | .abs => Fault.lift v.abs
  | .int => do return .int (← Fault.lift v.toInt)
  | .upper => Fault.lift (onText Text.upper v)
  | .title => Fault.lift (onText Text.title v)

/-- What a type makes of a value: a new name changes nothing. -/
def applyType (B : Behaviour) (v : Value) : Ty → Except Failure Value
  | .newType _ _ _ => pure v
  | t => B.construct t v

/-- Calls a function with one argument. -/
def apply (B : Behaviour) (f : Function) (v : Value) : Except Failure Value :=
  match f with
  | .defined s b => if s.takesOne then b.eval B v else throw (Failure.fault .wrongType)
  | .builtin b => applyBuiltin B v b
  | .value (.type t) => applyType B v t
  | .value _ => throw (Failure.fault .wrongType)

end Function

end RecordText
