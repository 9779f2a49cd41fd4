/-
The order of properties.

The properties of a class are collected on a walk through its lineage.  A property that is defined
again stays where it is, anything else takes it out, and a property that is defined after that comes
last.  What comes of it is an order by places alone: the latest definitions of a name that are all
properties form its run (`Catalog.runStart?`), and

* `Catalog.keys_propertiesOf` — the names that are collected are those that the walk retains;
* `Catalog.runStart?_cons` — what one more class makes of a run: **an override keeps its start, and
  a property that is defined where there is no run starts one**;
* `properties_in_run_order` — **one property comes before another one exactly when its run starts
  before.**
-/
import RecordText.Proofs.Candidates
import RecordText.Proofs.Places

namespace RecordText

namespace Catalog

/-- Where the run of a name starts: its latest definitions, as long as they are properties. -/
def runStart? (layers : List Layer) (name : String) : Option Place :=
  Located.runStart? Attribute.isProperty (Layer.walk Layer.attributes layers) name

/-- Where a class defines a name. -/
def position (l : Layer) (name : String) : ℕ := (l.attributes.map Prod.fst).idxOf name

/-- What one more class makes of the run of a name: nothing where it does not define the name. -/
theorem runStart?_cons {l : Layer} (h : l.Distinct) (ls : List Layer) (n : String) :
    runStart? (l :: ls) n =
      match l.attributes.lookup n with
      | none => runStart? ls n
      | some a =>
        if a.isProperty then (runStart? ls n).or (some (toLex (ls.length, position l n)))
        else none := by
  rw [runStart?, Layer.walk, Located.runStart?_append_ofEntries Attribute.isProperty _ _ h]
  cases l.attributes.lookup n <;> rfl

/-! ### Names in order -/

theorem keys_ownProperties (found : List (String × Option Getter)) (l : Layer) :
    (ownProperties found l).map Prod.fst =
      l.attributes.foldl (retain Attribute.isProperty) (found.map Prod.fst) := by
  refine (List.foldl_hom (List.map Prod.fst) fun fs e => ?_).symm
  obtain ⟨n, a⟩ := e
  cases a with
  | property g => exact (Table.keys_put n g fs).symm
  | value v => exact (Table.keys_erase n fs).symm
  | method b => exact (Table.keys_erase n fs).symm
  | builtin => exact (Table.keys_erase n fs).symm

/-- **The properties of a lineage have the names that the walk through it retains.** -/
theorem keys_propertiesOf (layers : List Layer) :
    (propertiesOf layers).map Prod.fst =
      retained Attribute.isProperty (Layer.walk Layer.attributes layers) := by
  rw [retained, Layer.map_entry_walk, List.foldl_flatMap]
  exact (List.foldl_hom (List.map Prod.fst) fun fs l => (keys_ownProperties fs l).symm).symm

/-- The names of the properties of a lineage stand in the order in which their runs start. -/
theorem pairwise_propertiesOf (layers : List Layer) :
    ((propertiesOf layers).map Prod.fst).Pairwise (Precedes (runStart? layers)) := by
  rw [keys_propertiesOf]
  exact pairwise_retained Attribute.isProperty (Layer.pairwise_walk Layer.attributes layers)

/-- Every property of a lineage has a run. -/
theorem exists_runStart? {layers : List Layer} {n : String}
    (h : n ∈ (propertiesOf layers).map Prod.fst) : ∃ s, runStart? layers n = some s := by
  rw [keys_propertiesOf] at h
  exact (mem_retained_iff Attribute.isProperty _ n).mp h

/-! ### Members in order -/

/-- The properties of a lineage stand in the order in which their runs start. -/
structure InRunOrder (layers : List Layer) (ps : List Member) : Prop where
  /-- Every one of them has a run. -/
  starts : ∀ m ∈ ps, ∃ s, runStart? layers m.name = some s
  /-- One comes before another one exactly when its run starts before. -/
  before_iff : ∀ i j (hi : i < ps.length) (hj : j < ps.length),
    i < j ↔ Precedes (runStart? layers) ps[i].name ps[j].name
  /-- An override keeps the place of the run, in whatever class of the lineage it stands. -/
  overridden : ∀ l ls, l :: ls <:+ layers → ∀ n g, l.attributes.lookup n = some (.property g) →
    ∀ s, runStart? ls n = some s → runStart? (l :: ls) n = some s
  /-- Anything else under the name ends the run. -/
  ended : ∀ l ls, l :: ls <:+ layers → ∀ n a, l.attributes.lookup n = some a →
    a.isProperty = false → runStart? (l :: ls) n = none
  /-- A property that is defined where there is no run starts one there. -/
  started : ∀ l ls, l :: ls <:+ layers → ∀ n g, l.attributes.lookup n = some (.property g) →
    runStart? ls n = none → runStart? (l :: ls) n = some (toLex (ls.length, position l n))
  /-- A class that does not define the name changes nothing. -/
  undefined : ∀ l ls, l :: ls <:+ layers → ∀ n, l.attributes.lookup n = none →
    runStart? (l :: ls) n = runStart? ls n

end Catalog

/-- **The properties of a class stand in the order in which their runs start.** -/
theorem properties_in_run_order {s : Session} (hs : s.Reached) {c : ClassRef} {ps : List Member}
    (h : s.world.properties c = .ok ps) : Catalog.InRunOrder (s.world.layers c) ps := by
  have hnames := Catalog.names_propertyMembers h
  have hpairwise := (Catalog.pairwise_propertiesOf _).sublist hnames
  have hdistinct : ∀ l ls, l :: ls <:+ s.world.layers c → l.Distinct := fun l ls hsuffix =>
    hs.consistent.distinct c l (hsuffix.subset List.mem_cons_self)
  refine ⟨fun m hm => ?_, fun i j hi hj => ?_, fun l ls hl n g hg s hrun => ?_,
    fun l ls hl n a ha hp => ?_, fun l ls hl n g hg hrun => ?_, fun l ls hl n hn => ?_⟩
  · exact Catalog.exists_runStart? (hnames.subset (List.mem_map_of_mem hm))
  · exact lt_iff_precedes hpairwise hi hj
  · rw [Catalog.runStart?_cons (hdistinct l ls hl), hg, hrun]
    rfl
  · rw [Catalog.runStart?_cons (hdistinct l ls hl), ha]
    exact if_neg (by rw [hp]; decide)
  · rw [Catalog.runStart?_cons (hdistinct l ls hl), hg, hrun]
    rfl
  · rw [Catalog.runStart?_cons (hdistinct l ls hl), hn]

/-- Three properties, of which the class in the middle shadows one and overrides another one, and
the class below defines the first one again. -/
def returningDefinitions : List Definition :=
  let getter : PropertyExpr := ⟨some (.name "int"), none, .computed .argument, false, false⟩
  [.cls "Base" .plain [] [.property "p" getter, .property "q" getter, .property "r" getter],
   .cls "Mid" .plain [.name "Base"] [.attribute "p" (.plain .absent), .property "q" getter],
   .cls "Sub" .plain [.name "Mid"] [.property "p" getter]]

/-- The class below. -/
def returningClass : ClassRef := .defined ⟨3, "Sub"⟩

theorem properties_returning :
    (do
      let W ← World.ofDefinitions returningDefinitions
      return W.properties returningClass) =
    .ok (.ok [⟨"q", .cls (.known .int), .property, false⟩,
      ⟨"r", .cls (.known .int), .property, false⟩,
      ⟨"p", .cls (.known .int), .property, false⟩]) := by
  with_unfolding_all rfl

/-- The property that is overridden keeps its place, and the one that returns comes last. -/
theorem properties_in_run_order_returning : ∃ W ps,
    World.ofDefinitions returningDefinitions = .ok W ∧ (Session.start W).Reached ∧
      W.properties returningClass = .ok ps ∧ ps.map Member.name = ["q", "r", "p"] ∧
      Catalog.InRunOrder (W.layers returningClass) ps := by
  obtain ⟨W, hW, h⟩ := bind_eq_ok_iff.mp properties_returning
  have hps := Except.ok.inj h
  have hs := Session.reached_of_definitions hW
  exact ⟨W, _, hW, hs, hps, rfl, properties_in_run_order hs hps⟩

end RecordText
