/-
Settings: the tokens that stand between the members of a written record.

A record is written as the opening token, the members with the separator between them, each one a
label, the assignment token and a fragment, and the closing token. `Settings.ofEntries` checks the
tokens that are given and takes the usual ones for all others; `Tokens.update` replaces tokens by
any values at all, which is not checked.
-/
import RecordText.Failure
import RecordText.Value.Arithmetic

namespace RecordText

/-- The four tokens of a written record. -/
structure Tokens (α : Type) where
  opening : α
  closing : α
  separator : α
  assignment : α
  deriving Repr, DecidableEq

/-- Tokens that are texts. -/
abbrev Settings := Tokens String

namespace Tokens

/-- The names of the tokens. -/
def names : List String := ["opening", "closing", "separator", "assignment"]

/-- The tokens, in the order of their names. -/
def toList {α : Type} (t : Tokens α) : List α := [t.opening, t.closing, t.separator, t.assignment]

/-- The same function on every token. -/
def map {α β : Type} (f : α → β) (t : Tokens α) : Tokens β :=
  ⟨f t.opening, f t.closing, f t.separator, f t.assignment⟩

/-- Replaces tokens by name; other names have no effect. -/
def update {α : Type} (t : Tokens α) (entries : List (String × α)) : Tokens α where
  opening := (entries.lookup "opening").getD t.opening
  closing := (entries.lookup "closing").getD t.closing
  separator := (entries.lookup "separator").getD t.separator
  assignment := (entries.lookup "assignment").getD t.assignment

end Tokens

namespace Settings

/-- Braces around the members, a comma between them, an equals sign after each label. -/
def usual : Settings := ⟨"\x7b", "\x7d", ", ", "="⟩

instance : Inhabited Settings := ⟨usual⟩

/-- The text that a value gives as a token: texts of all kinds, and members of enumerations with a
text behind them. -/
def token? : Value → Option String
  | .member m =>
    match m.content with
    | .text s => some s
    | _ => none
  | v => v.text?

/-- What is wrong with given tokens: those that are no texts, in the order of the tokens, and then
the names that are no tokens, in the order given. -/
def issues (entries : List (String × Value)) : List Issue :=
  (Tokens.names.filterMap fun n =>
    (entries.lookup n).bind fun v => if (token? v).isNone then some (.notText n) else none)
  ++ (entries.filter fun e => !Tokens.names.contains e.1).map fun e => .unknownSetting e.1

/-- Settings from given tokens. -/
def ofEntries (entries : List (String × Value)) : Except Failure Settings :=
  match issues entries with
  | [] => pure (usual.update (entries.filterMap fun e => (token? e.2).map fun s => (e.1, s)))
  | is => throw (.invalid is)

/-- What a record without members is written as. -/
def empty (s : Settings) : String := s.opening ++ s.closing

/-- What a record without members is written as, for tokens that were not checked. -/
def looseEmpty (t : Tokens Value) : Except Fault Value := t.opening.add t.closing

end Settings

end RecordText
