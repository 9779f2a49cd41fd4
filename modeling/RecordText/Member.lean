/-
Members: what a renderer reads from a record.

A `Member` is a name with a declared type. A `Part` is what a plan takes from it: the member itself,
or the result of a substitute for its value. A substituted part is a text once it is read.

Whatever reading a part needs from outside is a `Demand`: the value of a member, or what a function
makes of a value. `Part.readWith` leaves open how demands are met and what else happens then;
`Demand.answer` meets them for a record.
-/
import RecordText.Behaviour

namespace RecordText

/-- Where a member was found: among the fields or among the properties of a class. -/
inductive MemberKind
  | field
  | property
  deriving DecidableEq, Repr, Inhabited

/-- The name of the kind. -/
def MemberKind.title : MemberKind → String
  | .field => "Field"
  | .property => "Property"

/-- A member of a class. -/
structure Member where
  name : String
  declared : Ty
  kind : MemberKind
  /-- Whether a mark hides the member. -/
  ignored : Bool
  deriving Repr, Inhabited

/-- The value of a member. A name with dots is a path. -/
def Member.read (B : Behaviour) (m : Member) (v : Value) : Except Failure Value :=
  B.readPath v m.name

/-- What is needed to write a record: the value of a member, or what a function makes of a
value. -/
inductive Demand
  | member (m : Member)
  | call (f : Function) (v : Value)
  deriving Repr, Inhabited

/-- What meets a demand for the record `v`. -/
def Demand.answer (B : Behaviour) (v : Value) : Demand → Except Failure Value
  | .member m => m.read B v
  | .call f w => f.apply B w

/-- What a plan takes from a member. -/
inductive Part
  | base (m : Member)
  /-- The result of a function that accepts values of the type `input`. -/
  | substituted (m : Member) (f : Function) (input : Ty)
  deriving Repr, Inhabited

namespace Part

/-- The member behind the part. -/
def member : Part → Member
  | .base m => m
  | .substituted m _ _ => m

/-- The name of the member. -/
def name (p : Part) : String := p.member.name

/-- The declared type of the member. -/
def declared (p : Part) : Ty := p.member.declared

/-- The text of what a substitute gives: nothing for the absent value, a text as it is. -/
def substituteText (B : Behaviour) (v : Value) : Except Failure String :=
  match v with
  | .absent => pure ""
  | v =>
    match v.text? with
    | some s => pure s
    | none => B.text v

/-- The value of the part, where `answer` meets the demands. -/
def readWith {M : Type → Type} [Monad M] [MonadLiftT (Except Failure) M] (B : Behaviour)
    (answer : Demand → M Value) : Part → M Value
  | .base m => answer (.member m)
  | .substituted m f _ => do
    let v ← answer (.member m)
    let w ← answer (.call f v)
    return .text (← substituteText B w)

/-- The value of the part for a record. -/
def read (B : Behaviour) (p : Part) (v : Value) : Except Failure Value :=
  p.readWith B (Demand.answer B v)

end Part

end RecordText
