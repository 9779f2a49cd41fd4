/-
How values behave in a world.

`World.behaviour n` answers what is asked of values when getters, methods and texts may call each
other `n` levels deep; a call that goes deeper is a fault. An attribute is a property of the class
if there is one, else an attribute of the instance, else an attribute of the class. An instance is
written by the rule of the first class in its lineage that has one.
-/
import RecordText.World.Describe
import RecordText.Annotation.Hints

namespace RecordText.World

/-- The meaning of the names that stand in annotations only. -/
def annotationName? : String → Option Meaning
  | "Annotated" => some (.type (.form "Annotated"))
  | "Optional" => some (.type (.form "Optional"))
  | "Union" => some (.type (.form "Union"))
  | "Literal" => some (.type (.form "Literal"))
  | "Ignored" => some .mark
  | "True" => some (.value (.bool true))
  | "False" => some (.value (.bool false))
  | _ => none

/-- The attribute of a class, as an annotation sees it. -/
def classAttribute? (W : World) (c : ClassRef) (name : String) : Option Meaning :=
  let attribute? := (Layer.find? (W.layers c) name).map (Attribute.meaning name)
  match c with
  | .known k => (EnumMember.find? k.title name).map (fun m => .value (.member m)) <|> attribute?
  | .defined _ => attribute?

/-- The scope of annotations. -/
def scope (W : World) : Scope where
  name? n := (W.named? n).map Meaning.ofTy <|> annotationName? n
  member? := W.classAttribute?
  brackets := W.brackets
  language := W.language

/-! ### Attributes -/

/-- The attributes that an instance has itself. -/
def ownAttrs (W : World) : Value → List (String × Value)
  | .record _ _ as => as
  | .stored a _ _ => (W.store.lookup a).getD []
  | _ => []

/-- What a getter gives for a value. -/
def runGetter (B : Behaviour) (v : Value) (g : Getter) : Except Failure Value :=
  match g.body with
  | .computed b => b.eval B v
  | .path p => B.readPath v p

/-- An attribute that is no property: of the instance first, of the class second. -/
def plainAttribute (W : World) (v : Value) (name : String) : Except Failure Value :=
  match (W.ownAttrs v).lookup name, Layer.find? (W.layers v.classOf) name with
  | some w, _ => pure w
  | none, some (.value w) => pure w
  | none, some (.method _) => pure (.routine name)
  | none, _ => throw (Failure.fault .noAttribute)

/-- Whether a value, or what a type stands for, can replace parts of itself. -/
def replacesParts (W : World) (v : Value) : Bool :=
  let owner := match v with
    | .type t => t.core.originClass?
    | v => some v.classOf
  owner.any fun c => W.hierarchy.belowAny c [.str, .bytes, .bytearray, .date, .time]

/-- The replacement of parts, as an attribute. -/
def replacement (W : World) (v : Value) (name : String) : Except Failure Value :=
  if name = "replace" ∧ W.replacesParts v then pure (.routine name)
  else throw (Failure.fault .noAttribute)

/-- The attributes of data, of enumeration members and of classes. -/
def dataAttribute (W : World) (v : Value) (name : String) : Except Failure Value :=
  match v, name with
  | v, "__class__" => pure (.type (.cls v.classOf))
  | .member m, "name" => pure (.text m.title)
  | .member m, "value" => pure (.ofLiteral m.content)
  | .type t, "__name__" =>
    match t.title? with
    | some s => pure (.text s)
    | none => throw (Failure.fault .noAttribute)
  | .type (.cls c), name =>
    match W.classAttribute? c name with
    | some (.value w) => pure w
    | some (.type t) => pure (Value.ofTy t)
    | _ => W.replacement v name
  | v, name => W.replacement v name

/-- The attribute of a value. -/
def read (W : World) (B : Behaviour) (v : Value) (name : String) : Except Failure Value :=
  match Layer.find? (W.layers v.classOf) name with
  | some (.property (some g)) => runGetter B v g
  | some (.property none) => throw (Failure.fault .noAttribute)
  | some .builtin | none =>
    if ((W.ownAttrs v).lookup name).isSome then W.plainAttribute v name
    else W.dataAttribute v name
  | some (.value _) | some (.method _) => W.plainAttribute v name

/-! ### Texts -/

/-- A text that a method has to give. -/
def textResult (v : Value) : Except Failure String :=
  match v.text? with
  | some s => pure s
  | none => throw (Failure.fault .wrongType)

/-- Whether a class has a rule of its own for a written form. -/
def decides (W : World) (f : Form) : ClassRef → Bool
  | .known c => c.brings f
  | .defined id => !((W.class? id).map (Class.rule f)).any TextRule.isInherited

/-- The class that decides how the instances of a class are written: the first one of its lineage
that has a rule of its own for the form. -/
def decider? (W : World) (f : Form) (c : ClassRef) : Option ClassRef :=
  (W.lineage c).find? (W.decides f)

/-- The name of the class of a value, in the place of a form that tells more. -/
def titled (f : Form) (v : Value) : String :=
  match f with
  | .text => "<" ++ v.classOf.title ++ ">"
  | .printed => "<repr " ++ v.classOf.title ++ ">"

/-- A form of an instance by the rule of a class. A known class writes the value that the instance
wraps. -/
def writtenAs (W : World) (B : Behaviour) (f : Form) (v : Value) (c : ClassRef) :
    Except Failure String :=
  match (W.definition? c).map (Class.rule f), v.wrapped? with
  | some (.computed b), _ => do textResult (← b.eval B v)
  | some (.rendered r), _ => r.render B v
  | none, some w => B.written f w
  | _, _ => pure (titled f v)

/-- The printed form of an instance: the name of its class if no class has a rule. -/
def instancePrinted (W : World) (B : Behaviour) (v : Value) : Except Failure String :=
  match W.decider? .printed v.classOf with
  | some c => W.writtenAs B .printed v c
  | none => pure (titled .printed v)

/-- The text of an instance: its printed form if no class has a rule for texts. -/
def instanceText (W : World) (B : Behaviour) (v : Value) : Except Failure String :=
  match W.decider? .text v.classOf with
  | some c => W.writtenAs B .text v c
  | none => W.instancePrinted B v

/-! ### Contents -/

/-- What a method of an instance gives, if a defined class of its lineage says so first. -/
def runMethod? (W : World) (B : Behaviour) (v : Value) (name : String) :
    Option (Except Failure Value) :=
  match Layer.find? (W.layers v.classOf) name with
  | some (.method b) => some (b.eval B v)
  | some (.property _) | some (.value _) => some (throw (Failure.fault .wrongType))
  | some .builtin | none => none

/-- The length of data. -/
def dataLength (v : Value) : Except Failure Int :=
  match v, v.plain with
  | .member _, _ | _, .type _ | _, .dict _ | _, .list _ | _, .tuple _ | _, .text _ => do
    return (← Fault.lift v.elements).length
  | _, _ => throw (Failure.fault .wrongType)

/-- The length of a value. A method has to give a number that is not negative. -/
def length (W : World) (B : Behaviour) (v : Value) : Except Failure Int :=
  match W.runMethod? B v "__len__" with
  | some r => do
    match (← r).int? with
    | some n => if n < 0 then throw (Failure.fault .badValue) else return n
    | none => throw (Failure.fault .wrongType)
  | none => dataLength v

/-- Whether a value counts as true. -/
def truth (W : World) (B : Behaviour) (v : Value) : Except Failure Bool :=
  match W.runMethod? B v "__bool__", W.runMethod? B v "__len__" with
  | some r, _ => do
    match ← r with
    | .bool b => return b
    | _ => throw (Failure.fault .wrongType)
  | none, some _ => do return (← W.length B v) != 0
  | none, none => Fault.lift v.truth

/-- The elements of a value. What a method gives is never an iterator; a model has its fields for
elements. -/
def elements (W : World) (B : Behaviour) (v : Value) : Except Failure (List Value) :=
  match W.runMethod? B v "__iter__" with
  | some r => do
    let _ ← r
    throw (Failure.fault .wrongType)
  | none =>
    match v with
    | .record c _ _ | .stored _ c _ =>
      if W.isModel c then pure ((W.ownAttrs v).map fun e => .tuple [.text e.1, e.2])
      else Fault.lift v.elements
    | v => Fault.lift v.elements

/-- A value with a text in the place of every occurrence of a character. A method of the class
comes before the replacement that the data behind the value has. -/
def replace (W : World) (B : Behaviour) (v : Value) (c : Char) (r : List Char) :
    Except Failure Value := do
  match Layer.find? (W.layers v.classOf) "replace", ← W.read B v "replace" with
  | some (.property _), .routine name => throw (.unreadable name)
  | some (.method b), .routine _ => b.eval B v
  | _, .routine _ => Fault.lift (v.replaceEach c r)
  | _, _ => throw (Failure.fault .wrongType)

/-! ### New values -/

/-- What an enumeration makes of a value: the member behind it. -/
def makeMember (v : Value) (k : KnownClass) : Except Failure Value := do
  match ← Fault.lift (v.toMember k) with
  | some m => return m
  | none => throw (.unreadable k.title)

/-- What a known class makes of a value. Classes that hold data of other kinds are left out. -/
def makeKnown (B : Behaviour) (v : Value) (k : KnownClass) : Except Failure Value :=
  match k with
  | .int => do return .int (← Fault.lift v.toInt)
  | .float => do return .float (← Fault.lift v.toBinary64)
  | .bool => do return .bool (← B.truth v)
  | .str => do return .text (← B.text v)
  | .list => do return .list (← B.elements v)
  | .tuple => do return .tuple (← B.elements v)
  | .type => pure (.type (.cls v.classOf))
  | .object | .noneType | .any | .generic | .proto | .model | .number | .integral =>
    throw (Failure.fault .wrongType)
  | .color | .level | .tag | .perm | .ratio => makeMember v k
  | k =>
    if k.home = "collections.abc" then throw (Failure.fault .wrongType)
    else throw (.unreadable k.title)

/-- What the built-in class in a lineage, if there is one, makes of a value. -/
def makeBase (B : Behaviour) (v : Value) (line : List ClassRef) : Except Failure (Option Value) :=
  match line.findSome? ClassRef.laidOut? with
  | some k => some <$> makeKnown B v k
  | none => pure none

/-- A new instance that is given one value, by the signature of its class if that has one. A
constructor that a class defines itself is not run. -/
def makeInstance (c : ClassRef) (v : Value) (base : Option Value) :
    Option (Signature Ty) → Except Failure Value
  | some s =>
    match s.positional with
    | [] => throw (.unreadable c.title)
    | p :: _ =>
      if s.takesOne then pure (.record c base [(p.name, v)]) else throw (Failure.fault .wrongType)
  | none => if base.isSome then pure (.record c base []) else throw (Failure.fault .wrongType)

/-- What a defined class makes of a value. A data class gives it to its first field, and an instance
wraps what the built-in class above it makes of the value. Models take no positional arguments. -/
def makeDefined (W : World) (B : Behaviour) (v : Value) (c : ClassRef) : Except Failure Value :=
  if W.isModel c then throw (Failure.fault .wrongType)
  else do
    let base ← makeBase B v (W.lineage c)
    makeInstance c v base ((W.lineage c).findSome? W.constructorOf?)

/-- What a type makes of a value. Arguments in brackets and remarks do not matter. -/
def construct (W : World) (B : Behaviour) (t : Ty) (v : Value) : Except Failure Value :=
  match t.core with
  | .newType _ _ _ => pure v
  | .cls (.known k) | .generic _ (.known k) _ => makeKnown B v k
  | .cls c | .generic _ c _ => W.makeDefined B v c
  | _ => throw (Failure.fault .wrongType)

/-! ### Behaviour -/

/-- Every question is a fault. -/
def tooDeep : Behaviour where
  make _ := throw (Failure.fault .tooDeep)
  read _ _ := throw (Failure.fault .tooDeep)
  text _ := throw (Failure.fault .tooDeep)
  printed _ := throw (Failure.fault .tooDeep)
  truth _ := throw (Failure.fault .tooDeep)
  length _ := throw (Failure.fault .tooDeep)
  elements _ := throw (Failure.fault .tooDeep)
  replace _ _ _ := throw (Failure.fault .tooDeep)
  construct _ _ := throw (Failure.fault .tooDeep)

/-- How values behave when calls may go `n` levels deep. -/
def behaviourWithin (W : World) : Nat → Behaviour
  | 0 => tooDeep
  | n + 1 =>
    let B := W.behaviourWithin n
    { make := W.valueOf
      read := W.read B
      text := fun v => v.textWith (W.instanceText B) (W.instancePrinted B)
      printed := fun v => v.printedWith (W.instancePrinted B)
      truth := W.truth B
      length := W.length B
      elements := W.elements B
      replace := W.replace B
      construct := W.construct B }

/-- How deep calls may go. -/
def depth : Nat := 300

/-- How values behave. -/
def behaviour (W : World) : Behaviour := W.behaviourWithin depth

end RecordText.World
