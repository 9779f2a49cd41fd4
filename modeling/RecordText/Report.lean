/-
Reports: answers about types, values, classes and plans that need no session.

Where several things are asked about at once, each of them has an answer of its own, and one that
fails leaves the others alone (`settle`); only a description that cannot be read stops everything.
-/
import RecordText.Builder

namespace RecordText

/-- Keeps a failure as an answer, unless something cannot be read. -/
def settle {α : Type} : Except Failure α → Except Failure (Except Failure α)
  | .error (.unreadable tag) => .error (.unreadable tag)
  | r => .ok r

/-- Asks the same of several things, one after the other. -/
def settleAll {α β : Type} (f : α → Except Failure β) (xs : List α) :
    Except Failure (List (Except Failure β)) := xs.mapM fun x => settle (f x)

namespace World

/-- The world after some definitions. -/
def ofDefinitions (ds : List Definition) : Except Failure World := ds.foldlM define .empty

/-! ### Types -/

/-- Whether a value declared as one described type may be passed where the other is asked for. -/
def assignableExpr (W : World) (p : TypeExpr × TypeExpr) : Except Failure Bool := do
  let s ← W.typeOf p.1
  let t ← W.typeOf p.2
  Fault.lift (W.hierarchy.assignable s t)

/-- The strategy of a described member of a described class. -/
def supportedExpr (W : World) (t : TypeExpr) (member : String) (owner : TypeExpr) :
    Except Failure Strategy := do
  let t ← W.typeOf t
  match (← W.typeOf owner).title? with
  | some target => Plan.rejecting (Plan.supported W.hierarchy t member target)
  | none => throw (Failure.fault .noAttribute)

/-- The type that a described function accepts. -/
def inputTypeExpr (W : World) (f : FunctionExpr) : Except Failure Ty := do
  Fault.lift (W.inputType (← W.functionOf f))

/-! ### Values -/

/-- The fragments of several values, and whether each value stands for missing data. -/
def fragments (W : World) (strategy : String) (t : Option TypeExpr) (vs : List ValueExpr) :
    Except Failure (List (Except Failure (Value × Bool))) := do
  let t ← W.typeOf? t
  match Strategy.ofTitle? strategy with
  | none => throw (Failure.fault .badValue)
  | some k =>
    let w ← Plan.rejecting (Writer.ofStrategy k (t.getD .absent))
    settleAll (fun e => do
      let v ← W.valueOf e
      return (← w.write W.behaviour v, v.isAbsent)) vs

/-- The checks of arguments. -/
inductive Inspection
  | present (argument name : ValueExpr)
  | holds (condition complaint : ValueExpr)
  | within (argument low high name : ValueExpr)

/-- Runs a check. -/
def inspect (W : World) : Inspection → Except Failure Unit
  | .present x n => do
    let x ← W.valueOf x
    Check.present W.behaviour.text x (← W.valueOf n)
  | .holds x c => do
    let x ← W.valueOf x
    let c ← W.valueOf c
    Check.holds W.behaviour.text (← W.behaviour.truth x) c
  | .within x low high n => do
    let x ← W.valueOf x
    let low ← W.valueOf low
    let high ← W.valueOf high
    Check.within W.behaviour.text x low high (← W.valueOf n)

/-- Settings with replaced tokens, and what a record without members is written as. Settings cannot
be changed in place. -/
def settingsReport (W : World) (given updates : List (String × ValueExpr))
    (assign : Option (String × ValueExpr)) : Except Failure (Tokens Value × Value) := do
  let s ← W.settingsOf (some given)
  let tokens := (s.map Value.text).update (← W.attrsOf updates)
  match assign with
  | some (name, e) => do
    let _ ← W.valueOf e
    throw (.invalid [.frozen name])
  | none => return (tokens, ← Fault.lift (Settings.looseEmpty tokens))

/-- Whether a value is the mark that hides a member. -/
def isMark : Value → Bool
  | .type (.constant s) => s == Remark.ignored.printed
  | _ => false

/-- Which of several described values are the mark that hides a member. -/
def marks (W : World) (vs : List ValueExpr) : Except Failure (List Bool) := do
  return (← W.valuesOf vs).map isMark

/-! ### Classes -/

/-- The class that a described type is. A type that is no class has no fields, and no lineage
either unless it is a plain generic form. -/
def targetOf (W : World) (t : TypeExpr) (asksFields : Bool) : Except Failure ClassRef := do
  match ← W.typeOf t with
  | .cls c => pure c
  | .generic .plain c _ => if asksFields then throw (Failure.fault .wrongType) else pure c
  | _ => throw (Failure.fault (if asksFields then .wrongType else .noAttribute))

/-- A catalog, with the values of all candidates for a record if one is given. -/
structure CatalogReport where
  catalog : Catalog
  notes : List Note
  values : Option (List (Except Failure Value))

namespace CatalogReport

/-- The names of all candidates, sorted, each one once. -/
def sortedNames (r : CatalogReport) : List String :=
  r.catalog.names.eraseDups.mergeSort Plan.textLe

end CatalogReport

/-- The catalog of a described class. -/
def catalogReport (W : World) (t : TypeExpr) (useFields useProperties : Bool)
    (read : Option ValueExpr) : Except Failure CatalogReport := do
  let c ← W.targetOf t useFields
  let (catalog, notes) ← Fault.lift (W.catalog c useFields useProperties)
  match read with
  | none => return ⟨catalog, notes, none⟩
  | some e =>
    let v ← W.valueOf e
    let values ← settleAll (fun m => m.read W.behaviour v) catalog.candidates
    return ⟨catalog, notes, some values⟩

/-! ### Plans -/

/-- A described part of a plan. -/
structure PartExpr where
  member : String
  substitute : Option FunctionExpr
  input : Option TypeExpr
  label : Option String
  strategy : Option String
  deriving Repr, Inhabited

/-- The part that is described. -/
def partExpr (W : World) (catalog : Catalog) (target : String) (p : PartExpr) :
    Except Failure Part :=
  match catalog.candidates.find? fun m => m.name == p.member with
  | none => throw (.unreadable p.member)
  | some m =>
    match p.substitute with
    | none => pure (.base m)
    | some f => do
      let f ← W.functionOf f
      W.substitutePart m target ⟨f, ← W.inputOf? p.input⟩

/-- The entry that is described, for a part that has been found. -/
def entryExpr (p : PartExpr × Part) : Except Failure Entry :=
  match Strategy.ofTitle? (p.1.strategy.getD "") with
  | none => throw (Failure.fault .badValue)
  | some k => pure ⟨p.1.label.getD p.2.name, p.2, k⟩

/-- A plan, with the written forms of several records. -/
structure PlanReport where
  plan : Plan
  written : List (Except Failure String)

/-- The plan for described parts. Entries with strategies of their own are taken as they are. -/
def planReport (W : World) (t : TypeExpr) (parts : List PartExpr) (asEntries : Bool)
    (settings : Option (List (String × ValueExpr))) (records : List ValueExpr) :
    Except Failure PlanReport := do
  let c ← W.targetOf t true
  let (catalog, _) ← Fault.lift (W.catalog c true true)
  let found ← parts.mapM fun p => do return (p, ← W.partExpr catalog c.title p)
  let plan ←
    if asEntries then do
      let entries ← found.mapM entryExpr
      Plan.ofEntries c.title entries (← W.settingsOf settings)
    else do
      let settings ← W.settingsOf settings
      Plan.compose W.hierarchy (found.map Prod.snd) c.title settings
  let renderer ← Plan.rejecting plan.compile
  let written ← settleAll (fun e => do renderer.render W.behaviour (← W.valueOf e)) records
  return ⟨plan, written⟩

end World

end RecordText
