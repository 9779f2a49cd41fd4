/-
The world of a request: the names, classes and instances that have been made so far, the language
of its annotations and what the known classes bring.

* `World.named?` is the type that a name stands for; names of the request come before the common
  ones, later ones before earlier ones.
* `World.lineage` and `World.layers` give the classes above a class and what each of them brings.
* `World.hierarchy` is the order between all classes. A defined class is below everything in its
  lineage and below what the known classes in it are below; it meets an interface when the first
  class of its lineage that has an opinion on each of the interface's methods provides it.
* `World.brackets` says what brackets after a class mean, and `World.constructorOf?` how a class is
  called.
-/
import RecordText.Annotation.Meaning
import RecordText.Class.Library

namespace RecordText

/-- The names, classes and instances that have been made so far. The language and the library are
given and never change. -/
structure World where
  /-- How annotations are read. -/
  language : Language
  /-- What the known classes bring. -/
  library : Library
  /-- The names, newest first. -/
  names : List (String × Ty)
  /-- The defined classes, newest first. -/
  classes : List Class
  /-- The instances that were given a name, newest first. -/
  instances : List (String × Value)
  /-- The attributes of stored instances. -/
  store : List (Nat × List (String × Value))
  /-- A number that has not been given out yet. -/
  fresh : Nat

namespace World

/-- The world without any definition. The numbers below the first fresh one belong to the names
that need none. -/
def blank (language : Language) (library : Library) : World :=
  ⟨language, library, [], [], [], [], 1⟩

/-- The world without any definition, with the usual language and library. -/
def empty : World := blank .phrases .standard

instance : Inhabited World := ⟨empty⟩

/-- The type that a name stands for. -/
def named? (W : World) (name : String) : Option Ty := W.names.lookup name <|> Ty.named? name

/-- A world in which a name stands for a type. -/
def bind (W : World) (name : String) (t : Ty) : World := { W with names := (name, t) :: W.names }

/-- A number that has not been given out yet, and the world that has given it out. -/
def freshId (W : World) : Nat × World := (W.fresh, { W with fresh := W.fresh + 1 })

/-- The definition of a class. -/
def class? (W : World) (id : Ident) : Option Class := W.classes.find? fun c => c.ident == id

/-- The definition behind a class, if it was defined. -/
def definition? (W : World) : ClassRef → Option Class
  | .known _ => none
  | .defined id => W.class? id

/-- A class and those above it, in the order in which they are searched. -/
def lineage (W : World) : ClassRef → List ClassRef
  | .known c => Lineage.ofKnown c
  | .defined id => ((W.class? id).map Class.lineage).getD [.defined id, .known .object]

/-- What a class brings itself. -/
def layerOf (W : World) (c : ClassRef) : Layer :=
  match c with
  | .known k => W.library.brings k
  | .defined id => ((W.class? id).map Class.layer).getD .empty

/-- What the classes of a lineage bring, in the order in which they are searched. -/
def layers (W : World) (c : ClassRef) : List Layer := (W.lineage c).map W.layerOf

/-! ### The order between classes -/

/-- The methods that an interface asks for. -/
def required : KnownClass → List String
  | .abcIterable => ["__iter__"]
  | .abcSized => ["__len__"]
  | .abcContainer => ["__contains__"]
  | .abcCollection => ["__len__", "__iter__", "__contains__"]
  | .abcCallable => ["__call__"]
  | .abcIterator => ["__iter__", "__next__"]
  | .abcReversible => ["__reversed__", "__iter__"]
  | _ => []

/-- The interface that asks for one method alone. -/
def interfaceOf : String → Option KnownClass
  | "__iter__" => some .abcIterable
  | "__len__" => some .abcSized
  | "__contains__" => some .abcContainer
  | "__call__" => some .abcCallable
  | "__reversed__" => some .abcReversible
  | "__next__" => some .abcIterator
  | _ => none

/-- The opinion of one class on a method: it provides it, denies it, or has none. -/
def opinion? (W : World) (method : String) : ClassRef → Option Bool
  | .known c => if (interfaceOf method).any c.below then some true else none
  | .defined id =>
    match (W.layerOf (.defined id)).attributes.lookup method with
    | some (.value .absent) => some false
    | some _ => some true
    | none => none

/-- Whether the first class of a lineage with an opinion on a method provides it. -/
def provides (W : World) (line : List ClassRef) (method : String) : Bool :=
  (line.findSome? (W.opinion? method)).getD false

/-- Whether a known class meets an interface by its methods alone, so that a class derived from it
may lose the interface. -/
def meetsByMethods (c d : KnownClass) : Bool :=
  match c with
  | .model | .type | .npArray | .pdSeries | .pdDataFrame | .pdIndex => !(required d).isEmpty
  | .dict | .defaultDict | .orderedDict | .counter => d == .abcReversible
  | _ => false

/-- Whether a known class stands in a lineage or above one of its classes by declaration. -/
def inherits (line : List ClassRef) (d : KnownClass) : Bool :=
  line.any fun
    | .known c => c.below d && !meetsByMethods c d
    | .defined _ => false

/-- Whether instances of a defined class are compared by a rule of the class itself. -/
def compares (W : World) (id : Ident) : Bool :=
  ((W.layerOf (.defined id)).attributes.lookup "__eq__").isSome
    || ((W.class? id).map Class.comparesFields).getD false

/-- The opinion of one class on whether instances have a key. A class that says how its instances
are compared and not what their key is denies it. -/
def keyOpinion? (W : World) : ClassRef → Option Bool
  | .known c =>
    if !c.below .abcHashable then some false else if c.hasLayout then some true else none
  | .defined id =>
    match (W.layerOf (.defined id)).attributes.lookup "__hash__" with
    | some (.value .absent) => some false
    | some _ => some true
    | none => if W.compares id then some false else none

/-- Whether instances can be told apart by a key: the first class of the lineage with an opinion
decides. -/
def isHashable (W : World) (line : List ClassRef) : Bool :=
  (line.findSome? W.keyOpinion?).getD true

/-- Whether a class with the given lineage is below a known class. -/
def belowKnown (W : World) (line : List ClassRef) (d : KnownClass) : Bool :=
  if d == .abcHashable then W.isHashable line
  else inherits line d
    || (!(required d).isEmpty && (required d).all fun m => W.provides line m)

/-- The order between all classes. -/
def hierarchy (W : World) : Hierarchy where
  below
    | .known c, .known d => c.below d
    | .known _, .defined _ => false
    | .defined a, .defined b => a == b || (W.lineage (.defined a)).contains (.defined b)
    | .defined a, .known d => d == .object || W.belowKnown (W.lineage (.defined a)) d

/-- Whether a class is a model. -/
def isModel (W : World) (c : ClassRef) : Bool := (W.lineage c).contains (.known .model)

/-- How many type variables a class takes. -/
def parameterCount (W : World) (c : ClassRef) : Nat :=
  (((W.definition? c).bind Class.parameters).getD []).length

/-- What one class of a lineage says about brackets, for a class with so many type variables. -/
def bracketsOf (count : Nat) : ClassRef → Option Ty.Brackets
  | .known .generic => some (.parameters count)
  | .known k => if Ty.knownBrackets k = .plain then some .plain else none
  | .defined _ => none

/-- What brackets after a class mean: the first class of the lineage that takes arguments
decides. -/
def brackets (W : World) (c : ClassRef) : Ty.Brackets :=
  ((W.lineage c).findSome? (bracketsOf (W.parameterCount c))).getD .refused

/-- Whether the instances of a class have no key. -/
def isMutable (W : World) (c : ClassRef) : Bool := !W.isHashable (W.lineage c)

/-! ### How classes are called -/

/-- A signature without parameters, for whatever has none that are known. -/
def unknownSignature : Signature Ty := ⟨[], none⟩

/-- How one class of a lineage is called, if it says so. What stands under the names of constructors
is not annotated. -/
def constructorOf? (W : World) : ClassRef → Option (Signature Ty)
  | .known c => W.library.constructor? c
  | .defined id =>
    if ["__new__", "__init__"].any fun n => ((W.layerOf (.defined id)).attributes.lookup n).isSome
    then some unknownSignature
    else (W.class? id).bind Class.constructor?

end World

end RecordText
