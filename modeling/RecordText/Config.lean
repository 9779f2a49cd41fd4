/-
Configurations: what a builder has been told so far.

A configuration holds the modes, the ignored names in the order in which they were first given, and
the substitutes in the order in which their names were first given. Names may be any values that
have a key; names with equal keys are one name, and a substitute that is given again for a name
replaces the earlier one. Malformed arguments are refused at once, and nothing else is checked here.
-/
import RecordText.World.Define
import RecordText.Check

namespace RecordText

/-- A name, known by its key, as it was first given. -/
structure Name where
  key : Value.Key
  value : Value
  deriving Repr, Inhabited

/-- Names are equal when their keys are. -/
instance : BEq Name := ⟨fun n m => n.key == m.key⟩

/-- Whether a name stands for a member of the given name. -/
def Name.matches (n : Name) (member : String) : Bool := n.key == .text member

/-- A substitute with the type that it was explicitly said to accept. -/
structure Substitute where
  function : Function
  input : Option Ty
  deriving Repr, Inhabited

/-- What a builder has been told so far. -/
structure Config where
  useFields : Bool
  useProperties : Bool
  ignored : List Name
  substitutes : List (Name × Substitute)
  deriving Repr, Inhabited

namespace Config

/-- Nothing has been said. -/
def empty : Config := ⟨false, false, [], []⟩

/-- Includes the fields. -/
def withFields (c : Config) : Config := { c with useFields := true }

/-- Includes the properties. -/
def withProperties (c : Config) : Config := { c with useProperties := true }

/-- Adds names to ignore; those that are there already are left out. -/
def withIgnored (c : Config) (names : List Name) : Config :=
  { c with ignored := names.foldl (fun ns n => if ns.contains n then ns else ns ++ [n]) c.ignored }

/-- Sets the substitute of a name. -/
def withSubstitute (c : Config) (name : Name) (s : Substitute) : Config :=
  { c with substitutes := Table.put name s c.substitutes }

/-- Whether a name is ignored. -/
def ignores (c : Config) (member : String) : Bool := c.ignored.any fun n => n.matches member

/-- The substitute for a member. -/
def substitute? (c : Config) (member : String) : Option Substitute :=
  (c.substitutes.find? fun e => e.1.matches member).map Prod.snd

end Config

namespace World

/-- A value as a name. -/
def nameOf (W : World) (v : Value) : Except Fault Name :=
  match v.key? W.isMutable with
  | some k => pure ⟨k, v⟩
  | none => throw .wrongType

/-- An argument that is missing. -/
def absentArgument (name : String) : Failure :=
  .rejected (.absentArgument ⟨.text name, name⟩)

/-- Ignores several names. Absent ones are refused before anything else is looked at. -/
def ignore (W : World) (c : Config) (names : List Value) : Except Failure Config := do
  if names.any Check.isNone then throw (.rejected .absentName)
  return c.withIgnored (← Fault.lift (names.mapM W.nameOf))

/-- Ignores the names that a value holds. -/
def ignoreAll (W : World) (c : Config) (names : Value) : Except Failure Config := do
  if Check.isNone names then throw (absentArgument "names")
  if names.text?.isSome then throw (.rejected .bareText)
  W.ignore c (← W.behaviour.elements names)

/-- The printed form of a substitute, where it is a value. -/
def printedFunction (W : World) : Function → Except Failure String
  | .value v => W.behaviour.printed v
  | _ => pure ""

/-- Whether a substitute is the absent value. -/
def isNoFunction : Function → Bool
  | .value v => Check.isNone v
  | _ => false

/-- Sets a substitute. -/
def substitute (W : World) (c : Config) (name : Value) (f : Function) (input : Option Ty) :
    Except Failure Config := do
  if Check.isNone name then throw (absentArgument "name")
  if isNoFunction f then throw (absentArgument "function")
  let printed ← W.printedFunction f
  if !W.isCallableFunction f then throw (.rejected (.notCallable printed))
  return c.withSubstitute (← Fault.lift (W.nameOf name)) ⟨f, input⟩

end World

end RecordText
