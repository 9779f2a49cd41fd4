/-
Plans: which parts a renderer writes, under which labels and by which strategies.

`Plan.compose` gives every part the strategy of its declared type, and the verbatim one to every
part with a substitute; it refuses parts without support and labels that stand twice.
`Plan.compile` fuses tokens and labels into the leads of the steps of a renderer. `Plan.written` is
what a renderer has to write, said without it: the opening token, the members with the separator
between them, and the closing token.
-/
import RecordText.Renderer
import RecordText.Catalog
import RecordText.Settings

namespace RecordText

/-- One member of a plan. -/
structure Entry where
  label : String
  part : Part
  strategy : Strategy
  deriving Repr, Inhabited

/-- What a renderer for a class writes. -/
structure Plan where
  target : String
  entries : List Entry
  settings : Settings
  deriving Repr, Inhabited

namespace Plan

/-- The labels, in order. -/
def labels (p : Plan) : List String := p.entries.map Entry.label

/-- Order of texts by their characters. -/
def textLe (s t : String) : Bool := decide (s ≤ t)

/-- The labels that stand at least twice, sorted, each one once. -/
def duplicates (labels : List String) : List String :=
  ((labels.filter fun l => 1 < labels.count l).eraseDups).mergeSort textLe

/-- A plan, unless a label stands twice. -/
def ofEntries (target : String) (entries : List Entry) (settings : Settings) :
    Except Failure Plan :=
  match duplicates (entries.map Entry.label) with
  | [] => pure ⟨target, entries, settings⟩
  | ds => throw (.invalid [.duplicateLabels ds])

/-- The strategy of a member, unless it has no support. -/
def supported (H : Hierarchy) (declared : Ty) (member target : String) :
    Except Rejection Strategy :=
  match H.strategy declared with
  | .unsupported => throw (.unsupported member target declared)
  | k => pure k

/-- The entry of a part. -/
def entryOf (H : Hierarchy) (target : String) (p : Part) : Except Rejection Entry :=
  match p with
  | .substituted _ _ _ => pure ⟨p.name, p, .verbatim⟩
  | .base m => do return ⟨m.name, p, ← supported H m.declared m.name target⟩

/-- A rejection as a failure. -/
def rejecting {α : Type} : Except Rejection α → Except Failure α
  | .ok a => .ok a
  | .error r => .error (.rejected r)

/-- The plan that writes the given parts in their order. -/
def compose (H : Hierarchy) (parts : List Part) (target : String) (settings : Settings) :
    Except Failure Plan := do
  ofEntries target (← rejecting (parts.mapM (entryOf H target))) settings

/-! ### Compilation -/

/-- The step that writes an entry after a token. -/
def stepOf (settings : Settings) (token : String) (e : Entry) : Except Rejection Step := do
  return ⟨token ++ e.label ++ settings.assignment, e.part,
    ← Writer.ofStrategy e.strategy e.part.declared⟩

/-- The steps for entries: the first one writes the opening token, the others the separator. -/
def stepsOf (settings : Settings) (token : String) : List Entry → Except Rejection (List Step)
  | [] => pure []
  | e :: es => do
    let s ← stepOf settings token e
    return s :: (← stepsOf settings settings.separator es)

/-- The renderer of a plan. -/
def compile (p : Plan) : Except Rejection Renderer :=
  match p.entries with
  | [] => pure (.constant p.settings.empty)
  | es => do return .steps (← stepsOf p.settings p.settings.opening es) p.settings.closing

/-- The note about a compiled plan; a plan without members leaves none. -/
def compiledNotes (p : Plan) : List Note :=
  if p.entries.isEmpty then []
  else [.compiled p.target (p.entries.map fun e => (e.label, e.strategy))]

/-! ### What is written -/

/-- What a record is written as, when its members have the given labels and fragments. -/
def written (settings : Settings) (members : List (String × String)) : String :=
  settings.opening
    ++ settings.separator.intercalate (members.map fun m => m.1 ++ settings.assignment ++ m.2)
    ++ settings.closing

end Plan

end RecordText
