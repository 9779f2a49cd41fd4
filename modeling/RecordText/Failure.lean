/-
Failures: every way in which a request can go wrong.

* `Rejection` — a configuration that the library turns down, by its cause. `Rejection.kind` sorts
  the causes, `Rejection.message` words them, and `Rejection.refused?` is the type that an
  unsupported member was declared with.
* `Issue` — an entry of a settings or plan record that does not fit its declaration.
* `Failure` — a rejection, a list of issues, a fault, or what a user's own function raised.
-/
import RecordText.Value.Basic
import RecordText.Fault

namespace RecordText

/-- A value with the text it has. -/
structure Shown where
  value : Value
  text : String
  deriving Repr, Inhabited

/-- A configuration that is turned down, by its cause. -/
inductive Rejection
  /-- A condition does not hold; the complaint is the caller's own. -/
  | condition (complaint : String)
  /-- The target is not a class. -/
  | notClass (printed : String)
  /-- A single text stands where several names are asked for. -/
  | bareText
  /-- A name is absent. -/
  | absentName
  /-- A substitute is nothing that can be called. -/
  | notCallable (printed : String)
  /-- A required argument is absent. -/
  | absentArgument (name : Shown)
  /-- An argument lies outside of its inclusive range. -/
  | outOfRange (name argument low high : Shown)
  /-- Neither fields nor properties were chosen. -/
  | noMode (target : String)
  /-- An ignored name is no candidate. -/
  | unknownIgnored (name target : String)
  /-- A substituted name is no surviving member. -/
  | unknownSubstituted (name target : String)
  /-- A substitute does not accept the type of its member. -/
  | notConvertible (member target : String) (declared input : Ty)
  /-- A member of a declared type that has no text. -/
  | unsupported (member target : String) (declared : Ty)
  /-- Members without support have no writer. -/
  | noWriter (declared : Ty)
  deriving Repr, Inhabited

namespace Rejection

/-- The kinds of rejections. Absent and out-of-range arguments are bad arguments too, and `any` is
above all others. -/
inductive Kind
  | any
  | argument
  | absentArgument
  | range
  | configuration
  | unsupported
  deriving DecidableEq, Repr, Inhabited

namespace Kind

/-- The name of the kind. -/
def title : Kind → String
  | .any => "ToStringError"
  | .argument => "ArgumentError"
  | .absentArgument => "ArgumentNullError"
  | .range => "ArgumentRangeError"
  | .configuration => "InvalidConfigurationError"
  | .unsupported => "NotSupportedError"

/-- All kinds. -/
def all : List Kind := [any, argument, absentArgument, range, configuration, unsupported]

/-- The kind of a given name. -/
def ofTitle? (s : String) : Option Kind := all.find? fun k => k.title == s

/-- The general kind of error that a rejection is at the same time. -/
def general? : Kind → Option String
  | .any => none
  | .argument | .absentArgument | .range => some "ValueError"
  | .configuration => some "RuntimeError"
  | .unsupported => some "TypeError"

/-- The kinds between this one and the top, itself first. -/
def upward : Kind → List Kind
  | .any => [.any]
  | .absentArgument => [.absentArgument, .argument, .any]
  | .range => [.range, .argument, .any]
  | k => [k, .any]

/-- The names of everything that a rejection of this kind is, the most special first. -/
def lineage (k : Kind) : List String :=
  k.upward.map title ++ k.general?.toList ++ ["Exception", "BaseException", "object"]

end Kind

/-- The kind of a rejection. -/
def kind : Rejection → Kind
  | .condition _ | .notClass _ | .bareText | .absentName | .notCallable _ => .argument
  | .absentArgument _ => .absentArgument
  | .outOfRange _ _ _ _ => .range
  | .noMode _ | .unknownIgnored _ _ | .unknownSubstituted _ _ | .notConvertible _ _ _ _ =>
    .configuration
  | .unsupported _ _ _ | .noWriter _ => .unsupported

/-- A text between double quotes, as it stands. -/
def inQuotes (s : String) : String := "\"" ++ s ++ "\""

/-- The wording of a rejection. -/
def message : Rejection → String
  | .condition complaint => complaint
  | .notClass p => p ++ " is not a class"
  | .bareText => "names must be an iterable of names, not a str"
  | .absentName => "A name cannot be None"
  | .notCallable p => p ++ " is not callable"
  | .absentArgument n => "Argument " ++ inQuotes n.text ++ " cannot be None"
  | .outOfRange n x low high =>
    "Argument " ++ inQuotes n.text ++ " must be between " ++ low.text ++ " and " ++ high.text
      ++ ", got " ++ x.text
  | .noMode target =>
    "No member to use in ToStringMethod for type " ++ inQuotes target
      ++ ": call use_fields() and/or use_properties() before build()"
  | .unknownIgnored name target =>
    "Cannot ignore member named " ++ inQuotes name ++ " because it doesn't exist in type "
      ++ inQuotes target
  | .unknownSubstituted name target =>
    "Cannot substitute member named " ++ inQuotes name ++ " because it doesn't exist in type "
      ++ inQuotes target ++ " or was ignored"
  | .notConvertible member target declared input =>
    "Cannot substitute member named " ++ inQuotes member ++ " in type " ++ inQuotes target
      ++ " because it can't be converted from type " ++ inQuotes declared.describe
      ++ " to type " ++ inQuotes input.describe
  | .unsupported member target declared =>
    "Cannot generate a string for member " ++ inQuotes member ++ " of type " ++ inQuotes target
      ++ ": values of type " ++ inQuotes declared.describe
      ++ " are not supported (Any, object and iterables other than str)"
  | .noWriter _ => "No appender exists for Unsupported members"

/-- The type that was refused, for members without support. -/
def refused? : Rejection → Option Ty
  | .unsupported _ _ t | .noWriter t => some t
  | _ => none

end Rejection

/-- An entry of a record that does not fit its declaration. -/
inductive Issue
  /-- A setting that is no text. -/
  | notText (setting : String)
  /-- A setting that does not exist. -/
  | unknownSetting (name : String)
  /-- A setting that was to be changed in place. -/
  | frozen (name : String)
  /-- Labels that stand twice in a plan, in order. -/
  | duplicateLabels (labels : List String)
  deriving DecidableEq, Repr, Inhabited

/-- The wording of the complaint about labels that stand twice. -/
def duplicateLabelsMessage (labels : List String) : String :=
  "Duplicate member labels in render plan: [" ++ commaSeparated (labels.map Text.printed) ++ "]"

/-- Every way in which a request can go wrong. -/
inductive Failure
  | fault (f : Fault)
  /-- What a user's own function raised. -/
  | raised (kind message : String)
  | rejected (r : Rejection)
  | invalid (issues : List Issue)
  /-- A part of a description that cannot be read; `tag` says which. -/
  | unreadable (tag : String)
  deriving Repr, Inhabited

instance : Coe Fault Failure := ⟨Failure.fault⟩

/-- A step that can only run into a fault. -/
def Fault.lift {α : Type} : Except Fault α → Except Failure α
  | .ok a => .ok a
  | .error f => .error (.fault f)

end RecordText
