/-
Names of classes, and the order between classes.

* `ClassRef` names a class: one of the known ones, or one that has been defined, told apart by a
  number.
* `EnumMember` lists the members of the fixed enumerations, with the value behind each.
* `Hierarchy` is the order between classes as a plain function; `Hierarchy.subclass?` asks it and
  reports the one class that refuses to be compared with.
-/
import RecordText.Class.Known

namespace RecordText

/-- A name together with the number that tells it from other things of that name. -/
structure Ident where
  uid : Nat
  name : String
  deriving DecidableEq, Repr, Inhabited

/-- A class: a known one or a defined one. -/
inductive ClassRef
  | known (c : KnownClass)
  | defined (id : Ident)
  deriving DecidableEq, Repr, Inhabited

namespace ClassRef

/-- The module that defined classes live in. -/
def definedHome : String := "m"

/-- The name of the class. -/
def title : ClassRef → String
  | .known c => c.title
  | .defined id => id.name

/-- The dotted path of the module that holds the class; empty for the built-in classes. -/
def home : ClassRef → String
  | .known c => c.home
  | .defined _ => definedHome

/-- The name of the class with the path before it. -/
def path (c : ClassRef) : String :=
  if c.home = "" then c.title else c.home ++ "." ++ c.title

/-- The known class, if it has a layout of its own. -/
def laidOut? : ClassRef → Option KnownClass
  | .known k => if k.hasLayout then some k else none
  | .defined _ => none

/-- The class printed as a value. -/
def printed : ClassRef → String
  | .known .any => "typing.Any"
  | .known .perm => "<flag 'Perm'>"
  | .known c =>
    if c.isEnumeration then "<enum '" ++ c.title ++ "'>"
    else "<class '" ++ (ClassRef.known c).path ++ "'>"
  | .defined id => "<class '" ++ (ClassRef.defined id).path ++ "'>"

end ClassRef

/-- The members of the fixed enumerations. -/
inductive EnumMember
  | red | blue | low | high | letterA | quote | readable | writable | half
  deriving DecidableEq, Repr, Inhabited

namespace EnumMember

/-- The enumeration that the member belongs to. -/
def owner : EnumMember → KnownClass
  | .red | .blue => .color
  | .low | .high => .level
  | .letterA | .quote => .tag
  | .readable | .writable => .perm
  | .half => .ratio

/-- The name of the member. -/
def title : EnumMember → String
  | .red => "RED"
  | .blue => "BLUE"
  | .low => "LOW"
  | .high => "HIGH"
  | .letterA => "A"
  | .quote => "QUOTE"
  | .readable => "R"
  | .writable => "W"
  | .half => "HALF"

/-- All members, in the order of their enumerations. -/
def all : List EnumMember :=
  [.red, .blue, .low, .high, .letterA, .quote, .readable, .writable, .half]

/-- The member of an enumeration by name. -/
def find? (owner title : String) : Option EnumMember :=
  all.find? fun m => m.owner.title == owner && m.title == title

end EnumMember

/-- The order between classes. -/
structure Hierarchy where
  below : ClassRef → ClassRef → Bool

namespace Hierarchy

/-- The class that refuses to be compared with. -/
def refuses : ClassRef → Bool
  | .known .proto => true
  | _ => false

/-- Whether `a` is a subclass of `b`, or nothing when `b` refuses the question. -/
def subclass? (H : Hierarchy) (a b : ClassRef) : Option Bool :=
  if refuses b then none else some (H.below a b)

/-- Whether `a` is below some class of a list. -/
def belowAny (H : Hierarchy) (a : ClassRef) (bs : List KnownClass) : Bool :=
  bs.any fun b => H.below a (.known b)

/-- The order of the known classes alone; a defined class is below itself and `object`. -/
def known : Hierarchy where
  below
    | .known c, .known d => c.below d
    | .defined _, .known d => d == .object
    | .defined a, .defined b => a == b
    | .known _, .defined _ => false

end Hierarchy

end RecordText
