/-
Builders: from a configuration to a renderer.

A renderer is built in stages, and the first one that fails decides:

1. some mode was chosen;
2. every ignored name is a candidate;
3. every substituted name is a surviving member, one that no mark and no name hides;
4. every substitute accepts the declared type of its member;
5. every other member has a strategy that writes it;
6. no label stands twice.

The type that a substitute accepts is given with it or taken from its first positional parameter
(`World.inputType`). A class that is called as a function has the parameters of its constructor.
-/
import RecordText.Config
import RecordText.Plan

namespace RecordText

/-! ### What a substitute accepts -/

/-- The faults after which the annotations of a signature are left as they are. A missing attribute
and a text that cannot be read are not among them, although annotations of members may have them
(`Fault.isUnresolved`). -/
def Fault.leavesRaw : Fault → Bool
  | .unknownName | .wrongType | .badValue => true
  | _ => false

namespace Scope

/-- What is read of a text in a signature: blanks before it are overlooked. -/
def signatureSource (s : String) : String := String.ofList (s.toList.dropWhile Phrase.isGap)

/-- The type that an annotation in a signature stands for. What a text denotes is not looked
into. -/
def signatureType (S : Scope) : Ty → Except Fault Ty
  | .text s => do return (← S.denote (signatureSource s)).asTy
  | t => pure t

/-- The annotations of a signature: those of the plain positional parameters, those of all other
parameters, and that of the result. -/
def signatureTypes (s : Signature Ty) : List Ty :=
  let (plain, others) := s.params.partition fun p => p.kind == .positional
  (plain ++ others).filterMap Param.type ++ s.returns.toList

/-- The annotation of the first positional parameter. -/
def firstType (s : Signature Ty) : Option Ty := s.positional.head?.bind Param.type

/-- A text that is left counts as the universal type. -/
def orAny : Option Ty → Ty
  | none | some (.text _) => Ty.any
  | some t => t

/-- The type that the first positional parameter accepts. If some annotation cannot be resolved, all
of them are left as they are, or its fault goes through. -/
def inputType (S : Scope) (s : Signature Ty) : Except Fault Ty :=
  match (signatureTypes s).mapM S.signatureType with
  | .ok _ =>
    match firstType s with
    | none => pure Ty.any
    | some t => do return orAny (some (← S.signatureType t))
  | .error f => if f.leavesRaw then pure (orAny (firstType s)) else throw f

end Scope

namespace World

/-- How a class is called. The parameters of models take no positional arguments. -/
def constructor (W : World) (c : ClassRef) : Signature Ty :=
  if W.isModel c then unknownSignature
  else ((W.lineage c).findSome? W.constructorOf?).getD unknownSignature

/-- The signature of a function. A class is called as its instances are made. -/
def signatureOf (W : World) : Function → Signature Ty
  | .defined s _ => s
  | .value (.type (.cls c)) => W.constructor c
  | .builtin _ | .value _ => unknownSignature

/-- The type that a function accepts. -/
def inputType (W : World) (f : Function) : Except Fault Ty := W.scope.inputType (W.signatureOf f)

/-- The type that a substitute accepts: the one that was given with it, or that of its function. -/
def acceptedType (W : World) (s : Substitute) : Except Fault Ty :=
  match s.input with
  | some t => pure t
  | none => W.inputType s.function

/-- The part of a member with a substitute, if the substitute accepts the member's type. -/
def substitutePart (W : World) (m : Member) (target : String) (s : Substitute) :
    Except Failure Part := do
  let input ← Fault.lift (W.acceptedType s)
  if ← Fault.lift (W.hierarchy.assignable m.declared input) then
    return .substituted m s.function input
  else throw (.rejected (.notConvertible m.name target m.declared input))

end World

/-! ### Builders -/

/-- A builder for the instances of a class. -/
structure Builder where
  target : ClassRef
  settings : Settings
  config : Config
  deriving Inhabited

namespace World

/-- Described settings, if there are any; the usual ones otherwise. -/
def settingsOf (W : World) : Option (List (String × ValueExpr)) → Except Failure Settings
  | none => pure .usual
  | some es => do Settings.ofEntries (← W.attrsOf es)

/-- A builder for the class that a value is. -/
def builder (W : World) (target : Value) (settings : Settings) : Except Failure Builder := do
  if Check.isNone target then throw (absentArgument "target_type")
  let printed ← W.behaviour.printed target
  match target with
  | .type (.cls c) => return ⟨c, settings, .empty⟩
  | _ => throw (.rejected (.notClass printed))

/-- The members that no mark and no ignored name hides. -/
def survivors (c : Config) (catalog : Catalog) : List Member :=
  catalog.members.filter fun m => !c.ignores m.name

/-- Refuses the first name that is not known; the refusal shows the name as a text. -/
def checkNames (W : World) (isKnown : Name → Bool) (refusal : String → Rejection) :
    List Name → Except Failure Unit
  | [] => pure ()
  | n :: ns => do
    if isKnown n then W.checkNames isKnown refusal ns
    else throw (.rejected (refusal (← W.behaviour.text n.value)))

/-- Refuses ignored names that are no candidates. -/
def checkIgnored (W : World) (target : String) (catalog : Catalog) (names : List Name) :
    Except Failure Unit :=
  W.checkNames (fun n => catalog.names.any n.matches) (.unknownIgnored · target) names

/-- Refuses substituted names that are no surviving members. -/
def checkSubstituted (W : World) (target : String) (members : List Member) (names : List Name) :
    Except Failure Unit :=
  W.checkNames (fun n => members.any fun m => n.matches m.name) (.unknownSubstituted · target)
    names

/-- The part of a member, with its substitute if it has one. -/
def partOf (W : World) (c : Config) (target : String) (m : Member) : Except Failure Part :=
  match c.substitute? m.name with
  | none => pure (.base m)
  | some s => W.substitutePart m target s

/-- The parts that a configuration leaves of a catalog. -/
def partsOf (W : World) (c : Config) (target : String) (catalog : Catalog) :
    Except Failure (List Part) := do
  W.checkIgnored target catalog c.ignored
  let members := survivors c catalog
  W.checkSubstituted target members (c.substitutes.map Prod.fst)
  members.mapM (W.partOf c target)

/-- The renderer that a builder builds, with the notes made on the way. -/
def build (W : World) (b : Builder) : Except Failure (Renderer × List Note) := do
  let c := b.config
  let target := b.target.title
  if !(c.useFields || c.useProperties) then throw (.rejected (.noMode target))
  let (catalog, notes) ← Fault.lift (W.catalog b.target c.useFields c.useProperties)
  let parts ← W.partsOf c target catalog
  let note := Note.building target parts.length c.substitutes.length c.ignored.length
  let plan ← Plan.compose W.hierarchy parts target b.settings
  let renderer ← Plan.rejecting plan.compile
  return (renderer, notes ++ note :: plan.compiledNotes)

end World

end RecordText
