/-
Checks of arguments.

Three conditions on a value: it is there (`Check.present`), a condition holds (`Check.holds`), it
lies between two others, both included (`Check.within`). The text of a value is given by a
function, because records have texts of their own.
-/
import RecordText.Settings

namespace RecordText.Check

/-- How texts of values are found. -/
abbrev Texts := Value → Except Failure String

/-- A value with its text. -/
def shown (texts : Texts) (v : Value) : Except Failure Shown := return ⟨v, ← texts v⟩

/-- Whether the value is the absent one. -/
def isNone : Value → Bool
  | .absent => true
  | _ => false

/-- Refuses the absent value. -/
def present (texts : Texts) (argument name : Value) : Except Failure Unit := do
  if isNone argument then throw (.rejected (.absentArgument (← shown texts name)))

/-- Refuses a condition that does not hold. -/
def holds (texts : Texts) (condition : Bool) (complaint : Value) : Except Failure Unit := do
  if !condition then throw (.rejected (.condition (← texts complaint)))

/-- Refuses a value below `low` or above `high`. The lower end is looked at first. -/
def within (texts : Texts) (argument low high name : Value) : Except Failure Unit := do
  if ← inside then pure ()
  else throw (.rejected (.outOfRange (← shown texts name) (← shown texts argument)
    (← shown texts low) (← shown texts high)))
where
  /-- Whether the value lies between both ends. -/
  inside : Except Failure Bool := do
    if ← Fault.lift (argument.less low) then return false
    return !(← Fault.lift (high.less argument))

end RecordText.Check
