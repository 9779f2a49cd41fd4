/-
Descriptions: types, values, functions and definitions as users write them.

A description names things; it is given its meaning later, against the names that are known then.

* `TypeExpr` and `ValueExpr` describe types and values;
* `Body` describes what a getter, a method or a substitute computes from its argument;
* `FunctionExpr` describes substitutes, with their parameters;
* `Definition` describes new names: types under a new name, type variables, and classes with their
  items.
-/
import RecordText.Value.Print

namespace RecordText

/-- A described type. -/
inductive TypeExpr
  | name (s : String)
  /-- A named form with arguments in brackets. -/
  | subscript (head : String) (args : List TypeExpr)
  | optional (t : TypeExpr)
  | union (ts : List TypeExpr)
  /-- Several types with bars between them. -/
  | bars (ts : List TypeExpr)
  | annotated (t : TypeExpr) (remarks : List Remark)
  | literal (values : List Literal)
  | classVar (t : TypeExpr)
  | initVar (t : TypeExpr)
  /-- A text in the place of a type. -/
  | text (s : String)
  deriving Repr, Inhabited

/-- A described value. -/
inductive ValueExpr
  /-- A value that needs no names. -/
  | plain (v : Value)
  | list (vs : List ValueExpr)
  | tuple (vs : List ValueExpr)
  | dict (entries : List (ValueExpr × ValueExpr))
  /-- An instance that was made before. -/
  | reference (id : String)
  | type (t : TypeExpr)
  /-- A new instance, with its attributes and the value it wraps. -/
  | instance (cls : TypeExpr) (attrs : List (String × ValueExpr)) (base : Option ValueExpr)
  /-- A description that cannot be read. -/
  | unreadable (tag : String)
  deriving Repr, Inhabited

/-- What is computed from an argument. -/
inductive Body
  | argument
  | value (v : ValueExpr)
  | attribute (b : Body) (name : String)
  /-- The text of a value. -/
  | text (b : Body)
  /-- The texts of several values, one after the other. -/
  | concat (bs : List Body)
  | upper (b : Body)
  | length (b : Body)
  | add (b c : Body)
  | mul (b c : Body)
  | equal (b c : Body)
  | cond (b c d : Body)
  /-- The elements of a value with a text between them. -/
  | join (separator : String) (b : Body)
  | raise (kind message : String)
  deriving Repr, Inhabited

/-- How a parameter takes its arguments. -/
inductive ParamKind
  | positional
  | positionalOnly
  | keywordOnly
  /-- All positional arguments that are left. -/
  | rest
  /-- All keyword arguments that are left. -/
  | keywords
  deriving DecidableEq, Repr, Inhabited

/-- A parameter; its type is described or known. -/
structure Param (τ : Type) where
  name : String
  kind : ParamKind
  type : Option τ
  hasDefault : Bool
  deriving Repr, Inhabited

/-- The parameters and the result of a function. -/
structure Signature (τ : Type) where
  params : List (Param τ)
  returns : Option τ
  deriving Repr, Inhabited

/-- Functions that need no description. -/
inductive Builtin
  | text | length | printed | abs | int | upper | title
  deriving DecidableEq, Repr, Inhabited

/-- A described substitute. -/
inductive FunctionExpr
  | defined (signature : Signature TypeExpr) (body : Body)
  | builtin (b : Builtin)
  | type (t : TypeExpr)
  | value (v : ValueExpr)
  /-- A function behind a wrapper that changes nothing. -/
  | wrapped (f : FunctionExpr)
  deriving Repr, Inhabited

/-- What a getter runs. -/
inductive GetterBody
  | computed (b : Body)
  /-- A bare attribute path, without any annotations. -/
  | path (p : String)
  deriving Repr, Inhabited

/-- A described property with a getter. -/
structure PropertyExpr where
  returns : Option TypeExpr
  selfType : Option TypeExpr
  body : GetterBody
  hidden : Bool
  computed : Bool
  deriving Repr, Inhabited

/-- An item in the body of a class. -/
inductive Item
  | field (name : String) (type : TypeExpr) (default : Option ValueExpr)
  | property (name : String) (p : PropertyExpr)
  /-- A property that can only be written. -/
  | writeOnly (name : String)
  | attribute (name : String) (v : ValueExpr)
  | method (name : String) (b : Body)
  /-- How instances are written as text. -/
  | text (b : Body)
  /-- Instances are written as text, or printed, as the classes above say. -/
  | inherit (f : Form)
  deriving Repr, Inhabited

/-- What a data class is given besides its fields. -/
structure DataStyle where
  /-- A constructor that takes the values of the fields. -/
  constructs : Bool
  /-- A comparison of instances by their fields. -/
  compares : Bool
  deriving DecidableEq, Repr, Inhabited

namespace DataStyle

/-- A data class is given both unless it is told otherwise. -/
def usual : DataStyle := ⟨true, true⟩

end DataStyle

/-- The styles of classes: plain ones, data classes with declared fields, and models with checked
fields. -/
inductive Style
  | plain
  | data (d : DataStyle)
  | model
  deriving DecidableEq, Repr, Inhabited

/-- A described definition. -/
inductive Definition
  | newType (name : String) (base : TypeExpr)
  | typeVar (name : String) (bound : Option TypeExpr) (constraints : List TypeExpr)
  | alias (name : String) (t : TypeExpr)
  | cls (name : String) (style : Style) (bases : List TypeExpr) (items : List Item)
  deriving Repr, Inhabited

end RecordText
