/-
The fields of a class, by its annotations.

Annotations are collected on a walk through the lineage of a class, and every later annotation of a
name replaces the type and leaves the place.  So the place of a field is that of the first
annotation on the walk (`Layer.firstAnnotated?`), and all else is that of the last one, which stands
in the first class that is searched (`Layer.annotation?`):

* `Session.Reached.annotatesOnce` — no class annotates a name twice;
* `Catalog.FieldsFollow` — which names are listed, with which types, and in which order;
* `fields_by_annotations` — **the fields follow the annotations on both ways of resolution.**
-/
import RecordText.Proofs.Candidates
import RecordText.Proofs.Places
import RecordText.Proofs.Unresolved

namespace RecordText

/-! ### Annotations of a lineage -/

namespace Layer

/-- The annotation that a lineage gives to a name: that of the first class which annotates it. -/
def annotation? (layers : List Layer) (n : String) : Option Placed :=
  layers.findSome? fun l => (l.annotations.lookup n).map fun t => ⟨l.attributes, n, t⟩

/-- Where a name is annotated first on the walk through a lineage. -/
def firstAnnotated? (layers : List Layer) (n : String) : Option Place :=
  ((walk annotations layers).find? fun d => d.name == n).map Located.place

theorem firstAnnotated?_eq (layers : List Layer) :
    firstAnnotated? layers = Located.runStart? (fun _ => true) (walk annotations layers) :=
  funext fun n => (Located.runStart?_of_all _ n).symm

theorem annotation?_cons (l : Layer) (ls : List Layer) (n : String) :
    annotation? (l :: ls) n =
      ((l.annotations.lookup n).map fun t => ⟨l.attributes, n, t⟩).or (annotation? ls n) := by
  rw [annotation?, List.findSome?_cons]
  cases l.annotations.lookup n <;> rfl

/-- A class that annotates the name once more does not move it. -/
theorem firstAnnotated?_cons_of_some (l : Layer) {ls : List Layer} {n : String} {s : Place}
    (h : firstAnnotated? ls n = some s) : firstAnnotated? (l :: ls) n = some s := by
  obtain ⟨d, hd, rfl⟩ := Option.map_eq_some_iff.mp h
  rw [firstAnnotated?, walk, List.find?_append, hd]
  rfl

end Layer

namespace Placed

theorem ofLayers_cons (l : Layer) (ls : List Layer) :
    ofLayers (l :: ls) =
      ofLayers ls ++ l.annotations.map fun e => ⟨l.attributes, e.1, e.2⟩ := by
  rw [ofLayers, List.reverse_cons, List.flatMap_append, List.flatMap_singleton]
  rfl

theorem latest?_annotations (attributes : List (String × Attribute)) {es : List (String × Ty)}
    (h : (es.map Prod.fst).Nodup) (n : String) :
    Scope.latest? name n (es.map fun e => ⟨attributes, e.1, e.2⟩) =
      (es.lookup n).map fun t => ⟨attributes, n, t⟩ := by
  induction es with
  | nil => rfl
  | cons e es ih =>
    obtain ⟨m, t⟩ := e
    rw [List.map_cons, List.nodup_cons] at h
    rw [List.map_cons, Scope.latest?_cons, ih h.2, Table.lookup_cons]
    by_cases hn : n = m
    · subst hn
      rw [Table.lookup_eq_none_iff.mpr h.1, if_pos rfl, if_pos rfl]
      rfl
    · rw [if_neg hn, if_neg (Ne.symm hn), Option.or_none]

/-- The last annotation on the walk is the one that the lineage gives. -/
theorem latest?_ofLayers {layers : List Layer} (h : ∀ l ∈ layers, l.AnnotatesOnce) (n : String) :
    Scope.latest? name n (ofLayers layers) = Layer.annotation? layers n := by
  induction layers with
  | nil => rfl
  | cons l ls ih =>
    rw [ofLayers_cons, Scope.latest?_append, latest?_annotations _ (h l List.mem_cons_self),
      ih fun m hm => h m (List.mem_cons_of_mem _ hm), Layer.annotation?_cons]

theorem names_ofLayers (layers : List Layer) :
    (ofLayers layers).map name = (layers.reverse.flatMap Layer.annotations).map Prod.fst := by
  rw [ofLayers, List.map_flatMap, List.map_flatMap]
  simp only [List.map_map]
  rfl

end Placed

/-! ### No name is annotated twice -/

namespace World

variable {W : World}

/-- Only a field annotates a name. -/
theorem annotations_addItem {d d' : Draft} {i : Item} (h : W.addItem d i = .ok d') :
    d'.annotations = d.annotations ∨ ∃ n t, d'.annotations = Table.put n t d.annotations := by
  cases i with
  | field name t default =>
    obtain ⟨t, -, h⟩ := bind_eq_ok_iff.mp h
    cases default with
    | none =>
      obtain rfl := Except.ok.inj h
      exact .inr ⟨name, t, rfl⟩
    | some e =>
      obtain ⟨v, -, h⟩ := bind_eq_ok_iff.mp h
      obtain rfl := Except.ok.inj h
      exact .inr ⟨name, t, rfl⟩
  | property name p =>
    obtain ⟨t, -, h⟩ := bind_eq_ok_iff.mp h
    obtain ⟨u, -, h⟩ := bind_eq_ok_iff.mp h
    obtain rfl := Except.ok.inj h
    exact .inl rfl
  | «attribute» name e =>
    obtain ⟨v, -, h⟩ := bind_eq_ok_iff.mp h
    obtain rfl := Except.ok.inj h
    exact .inl rfl
  | writeOnly _ | method _ _ | text _ =>
    obtain rfl := Except.ok.inj h
    exact .inl rfl
  | inherit f =>
    cases f with
    | text | printed =>
      obtain rfl := Except.ok.inj h
      exact .inl rfl

theorem nodup_annotations_addItem {d d' : Draft} {i : Item} (h : W.addItem d i = .ok d')
    (hd : (d.annotations.map Prod.fst).Nodup) : (d'.annotations.map Prod.fst).Nodup := by
  rcases annotations_addItem h with hsame | ⟨n, t, hput⟩
  · rwa [hsame]
  · rw [hput]
    exact Table.nodup_put n t hd

/-- A class keeps the annotations of the draft that it is made from. -/
theorem annotations_makeClass {ident : Ident} {style : Style} {bases : List Ty} {d : Draft}
    {c : Class} (h : W.makeClass ident style bases d = .ok c) :
    c.layer.annotations = d.annotations := by
  obtain ⟨classes, line, parameters, -, h⟩ := makeClass_eq_ok h
  obtain ⟨-, h⟩ | ⟨-, ⟨s, h⟩ | rfl⟩ := finish_cases h
  · unfold finishModel at h
    split_ifs at h
    · cases h
    obtain ⟨fields, -, h⟩ := bind_eq_ok_iff.mp h
    obtain rfl := Except.ok.inj h
    rfl
  · unfold finishData at h
    obtain ⟨-, -, h⟩ := bind_eq_ok_iff.mp h
    dsimp only at h
    split_ifs at h
    · cases h
    obtain rfl := Except.ok.inj h
    rfl
  · rfl

end World

theorem Class.Made.annotatesOnce {c : Class} (h : c.Made) : c.layer.AnnotatesOnce := by
  obtain ⟨W, V, ident, style, bases, items, d, hd, hc⟩ := h
  rw [Layer.AnnotatesOnce, World.annotations_makeClass hc]
  exact foldlM_invariant (p := fun e : World.Draft => (e.annotations.map Prod.fst).Nodup)
    (fun _ _ _ he h => World.nodup_annotations_addItem he h) hd List.nodup_nil

/-- **No class of a session annotates a name twice.** -/
theorem Session.Reached.annotatesOnce {s : Session} (h : s.Reached) (c : ClassRef) :
    ∀ l ∈ s.world.layers c, l.AnnotatesOnce := by
  have hclasses := h.forall_classes (fun _ hc => hc.annotatesOnce) fun _ _ _ hc => hc
  intro l hl
  obtain ⟨d, -, rfl⟩ := List.mem_map.mp hl
  cases d with
  | known k => exact s.world.library.annotatesOnce_brings k
  | defined id =>
    rw [World.layerOf]
    cases hd : s.world.class? id with
    | none => exact List.nodup_nil
    | some e => exact hclasses e (List.mem_of_find?_eq_some hd)

/-! ### Types and their faults -/

namespace Scope

variable {S : Scope} {allow : Bool} {ps : List Placed} {hints : List (String × Ty)}

/-- Where the types are told, the way on which they were found. -/
theorem hintsOf_ways (h : S.hintsOf allow ps = .ok hints) :
    gather Placed.name (Placed.resolve S allow) [] ps = .ok hints ∨
      (∃ p ∈ ps, ∃ f, p.resolve S allow = .error f) ∧
        gather Placed.name (Placed.resolveApart S) [] ps = .ok hints := by
  rcases hintsOf_eq_ok h with hr | ⟨⟨f, hf, -⟩, hr⟩
  · exact .inl hr
  · obtain ⟨p, hp, hpf⟩ := exists_of_gather_error hf
    exact .inr ⟨⟨p, hp, f, hpf⟩, hr⟩

end Scope

/-! ### Fields -/

namespace Catalog

/-- The fields of a class follow the annotations of its lineage, where `typeOf` says what the type
of an annotation is. -/
structure FieldsFollow (layers : List Layer) (typeOf : Placed → Except Fault Ty)
    (fs : List Member) : Prop where
  /-- Every annotation has a type. -/
  typed : ∀ p ∈ Placed.ofLayers layers, ∃ t, typeOf p = .ok t
  /-- The public names are listed whose annotation is no class variable and that the lineage does
  not define as properties. -/
  listed_iff : ∀ n, n ∈ fs.map Member.name ↔ isPrivate n = false ∧
    (∃ p t, Layer.annotation? layers n = some p ∧ typeOf p = .ok t ∧ t.isClassVar = false) ∧
      ∀ g, Layer.find? layers n ≠ some (.property g)
  /-- The annotation says what the declared type is, and whether the field is hidden. -/
  declared : ∀ m ∈ fs, ∃ p t, Layer.annotation? layers m.name = some p ∧ typeOf p = .ok t ∧
    m = memberOf .field m.name t false
  /-- No name stands twice. -/
  distinct : (fs.map Member.name).Nodup
  /-- Every field is annotated somewhere on the walk. -/
  annotated : ∀ m ∈ fs, ∃ s, Layer.firstAnnotated? layers m.name = some s
  /-- One comes before another one exactly when it is annotated before. -/
  before_iff : ∀ i j (hi : i < fs.length) (hj : j < fs.length),
    i < j ↔ Precedes (Layer.firstAnnotated? layers) fs[i].name fs[j].name
  /-- A field that the class itself annotates once more keeps its place and takes the type of that
  annotation. -/
  redeclared : ∀ l ls, layers = l :: ls → ∀ m ∈ fs, ∀ t, l.annotations.lookup m.name = some t →
    (∃ u, typeOf ⟨l.attributes, m.name, t⟩ = .ok u ∧ m = memberOf .field m.name u false) ∧
      ∀ s, Layer.firstAnnotated? ls m.name = some s →
        Layer.firstAnnotated? layers m.name = some s

section

variable {layers : List Layer} {typeOf : Placed → Except Fault Ty} {hints : List (String × Ty)}

/-- The names that are annotated are those that the walk retains. -/
theorem keys_hints
    (h : Scope.gather Placed.name typeOf [] (Placed.ofLayers layers) = .ok hints) :
    hints.map Prod.fst = retained (fun _ => true) (Layer.walk Layer.annotations layers) := by
  rw [Scope.keys_gather h, Placed.names_ofLayers, retained, Layer.map_entry_walk, List.foldl_map]
  rfl

/-- They stand in the order in which they are first annotated. -/
theorem pairwise_hints
    (h : Scope.gather Placed.name typeOf [] (Placed.ofLayers layers) = .ok hints) :
    (hints.map Prod.fst).Pairwise (Precedes (Layer.firstAnnotated? layers)) := by
  rw [keys_hints h, Layer.firstAnnotated?_eq]
  exact pairwise_retained _ (Layer.pairwise_walk Layer.annotations layers)

/-- The names of fields are those whose annotation is no class variable. -/
theorem mem_fieldNames_iff (hl : ∀ l ∈ layers, l.AnnotatesOnce)
    (h : Scope.gather Placed.name typeOf [] (Placed.ofLayers layers) = .ok hints) {n : String} :
    n ∈ fieldNames none hints ↔
      ∃ p t, Layer.annotation? layers n = some p ∧ typeOf p = .ok t ∧ t.isClassVar = false := by
  have hnodup : (hints.map Prod.fst).Nodup := Scope.nodup_gather h List.nodup_nil
  rw [fieldNames_none hnodup, List.mem_filter, Bool.not_eq_true']
  rw [← Placed.latest?_ofLayers hl]
  cases hp : Scope.latest? Placed.name n (Placed.ofLayers layers) with
  | none =>
    have hlookup := Scope.lookup_gather_of_none h hp
    rw [List.lookup_nil, Table.lookup_eq_none_iff] at hlookup
    simp [hlookup]
  | some p =>
    obtain ⟨t, ht, hlookup⟩ := Scope.lookup_gather h hp
    have hmem : n ∈ hints.map Prod.fst := by
      by_contra hn
      cases hlookup.symm.trans (Table.lookup_eq_none_iff.mpr hn)
    simp [hmem, hlookup, ht]

/-- **Fields follow the annotations that their types were gathered from.** -/
theorem fieldsOf_follow (hl : ∀ l ∈ layers, l.AnnotatesOnce)
    (h : Scope.gather Placed.name typeOf [] (Placed.ofLayers layers) = .ok hints) :
    FieldsFollow layers typeOf (fieldsOf layers none hints) := by
  have hnodup : (hints.map Prod.fst).Nodup := Scope.nodup_gather h List.nodup_nil
  have hsub : ((fieldsOf layers none hints).map Member.name).Sublist (hints.map Prod.fst) := by
    rw [names_fieldsOf]
    exact List.filter_sublist.trans (List.filter_sublist.map _)
  have hpairwise := (pairwise_hints h).sublist hsub
  have hdeclared : ∀ m ∈ fieldsOf layers none hints, ∃ p t,
      Layer.annotation? layers m.name = some p ∧ typeOf p = .ok t ∧
        m = memberOf .field m.name t false := by
    intro m hm
    obtain ⟨hname, -, -, hmember⟩ := mem_fieldsOf_iff.mp hm
    obtain ⟨p, t, hp, ht, -⟩ := (mem_fieldNames_iff hl h).mp hname
    obtain ⟨u, hu, hlookup⟩ :=
      Scope.lookup_gather h ((Placed.latest?_ofLayers hl m.name).trans hp)
    obtain rfl := Except.ok.inj (ht.symm.trans hu)
    rw [hlookup] at hmember
    exact ⟨p, t, hp, ht, hmember⟩
  refine ⟨Scope.exists_of_gather h, fun n => ?_, hdeclared, hnodup.sublist hsub, fun m hm => ?_,
    fun i j hi hj => ?_, fun l ls hlayers m hm t ht => ⟨?_, fun s hs => ?_⟩⟩
  · rw [names_fieldsOf, List.mem_filter, mem_fieldNames_iff hl h, Bool.and_eq_true,
      Bool.not_eq_true', Bool.not_eq_true', Bool.eq_false_iff (b := isShadowed layers n), Ne,
      isShadowed_iff, not_exists]
    exact and_left_comm
  · have hmem := hsub.subset (List.mem_map_of_mem hm)
    rw [keys_hints h, mem_retained_iff] at hmem
    rwa [Layer.firstAnnotated?_eq]
  · exact lt_iff_precedes hpairwise hi hj
  · obtain ⟨p, u, hp, hu, hmember⟩ := hdeclared m hm
    rw [hlayers, Layer.annotation?_cons, ht, Option.map_some, Option.some_or] at hp
    obtain rfl := Option.some.inj hp
    exact ⟨u, hu, hmember⟩
  · rw [hlayers]
    exact Layer.firstAnnotated?_cons_of_some l hs

end

end Catalog

namespace Catalog.FieldsFollow

variable {layers : List Layer} {typeOf : Placed → Except Fault Ty} {fs : List Member} {n : String}
  {p : Placed} {t : Ty}

/-- Whether a name is listed, by the type of its annotation. -/
theorem mem_names_iff (h : FieldsFollow layers typeOf fs)
    (hp : Layer.annotation? layers n = some p) (ht : typeOf p = .ok t) :
    n ∈ fs.map Member.name ↔ isPrivate n = false ∧ t.isClassVar = false ∧
      ∀ g, Layer.find? layers n ≠ some (.property g) := by
  rw [h.listed_iff]
  simp [hp, ht]

/-- The field of a name, by the type of its annotation. -/
theorem eq_memberOf (h : FieldsFollow layers typeOf fs)
    (hp : Layer.annotation? layers n = some p) (ht : typeOf p = .ok t) {m : Member} (hm : m ∈ fs)
    (hn : m.name = n) : m = memberOf .field n t false := by
  subst hn
  obtain ⟨q, u, hq, hu, hmember⟩ := h.declared m hm
  obtain rfl := Option.some.inj (hp.symm.trans hq)
  obtain rfl := Except.ok.inj (ht.symm.trans hu)
  exact hmember

end Catalog.FieldsFollow

/-- The fields of a class follow its annotations, on whichever way these are resolved. -/
structure World.FieldsByAnnotations (W : World) (c : ClassRef) : Prop where
  /-- The fields are told unless a fault ends both ways of resolution. -/
  error_iff : ∀ f, W.fields c = .error f ↔
    W.scope.Escapes true (Placed.ofLayers (W.layers c)) f
  /-- Where all annotations of the lineage are resolved together, the fields follow these types. -/
  together : (∀ p ∈ Placed.ofLayers (W.layers c), ∃ t, p.resolve W.scope true = .ok t) →
    ∃ fs notes, W.fields c = .ok (fs, notes) ∧
      Catalog.FieldsFollow (W.layers c) (Placed.resolve W.scope true) fs
  /-- Where one of them cannot be resolved, the fields follow the types of single annotations. -/
  apart : (∃ p ∈ Placed.ofLayers (W.layers c), ∃ f, p.resolve W.scope true = .error f) →
    (∀ f, ¬W.scope.Escapes true (Placed.ofLayers (W.layers c)) f) →
      ∃ fs notes, W.fields c = .ok (fs, notes) ∧
        Catalog.FieldsFollow (W.layers c) (Placed.resolveApart W.scope) fs

section

variable {s : Session} {c : ClassRef}

/-- Fields that are told follow the annotations on the way on which these were resolved. -/
theorem Session.Reached.fields_ways (hs : s.Reached) (hm : s.world.isModel c = false)
    (hd : s.world.dataFields? c = none) {fs : List Member} {notes : List Note}
    (hf : s.world.fields c = .ok (fs, notes)) :
    Catalog.FieldsFollow (s.world.layers c) (Placed.resolve s.world.scope true) fs ∨
      (∃ p ∈ Placed.ofLayers (s.world.layers c), ∃ f, p.resolve s.world.scope true = .error f) ∧
        Catalog.FieldsFollow (s.world.layers c) (Placed.resolveApart s.world.scope) fs := by
  have hl := hs.annotatesOnce c
  obtain ⟨hints, hh, rfl⟩ := World.fields_of_not_model hs.consistent hm hf
  rw [Scope.classHints_eq] at hh
  rw [hd]
  rcases Scope.hintsOf_ways hh with hg | ⟨hsome, hg⟩
  · exact .inl (Catalog.fieldsOf_follow hl hg)
  · exact .inr ⟨hsome, Catalog.fieldsOf_follow hl hg⟩

/-- **The fields of a class that is neither a model nor a data class follow its annotations on both
ways of resolution.** -/
theorem fields_by_annotations (hs : s.Reached) (hm : s.world.isModel c = false)
    (hd : s.world.dataFields? c = none) : s.world.FieldsByAnnotations c := by
  have herror : ∀ f, s.world.fields c = .error f ↔
      s.world.scope.Escapes true (Placed.ofLayers (s.world.layers c)) f := by
    intro f
    rw [World.fields_eq hs.consistent hm, Scope.classHints_eq, ← Scope.hintsOf_eq_error_iff]
    cases s.world.scope.hintsOf true (Placed.ofLayers (s.world.layers c)) <;> simp [Except.map]
  have htold : (∀ f, ¬s.world.scope.Escapes true (Placed.ofLayers (s.world.layers c)) f) →
      ∃ fs notes, s.world.fields c = .ok (fs, notes) := by
    intro hno
    cases hf : s.world.fields c with
    | error f => exact absurd ((herror f).mp hf) (hno f)
    | ok r => exact ⟨r.1, r.2, rfl⟩
  refine ⟨herror, fun hall => ?_, fun ⟨p, hp, f, hpf⟩ hno => ?_⟩
  · obtain ⟨fs, notes, hf⟩ := htold (Scope.not_escapes_of_forall hall)
    rcases hs.fields_ways hm hd hf with hfollow | ⟨⟨p, hp, f, hpf⟩, -⟩
    · exact ⟨fs, notes, hf, hfollow⟩
    · obtain ⟨t, ht⟩ := hall p hp
      cases hpf.symm.trans ht
  · obtain ⟨fs, notes, hf⟩ := htold hno
    rcases hs.fields_ways hm hd hf with hfollow | ⟨-, hfollow⟩
    · obtain ⟨t, ht⟩ := hfollow.typed p hp
      cases hpf.symm.trans ht
    · exact ⟨fs, notes, hf, hfollow⟩

end

/-- A class that turns a field of the class above into a class variable, a class variable into a
field, and gives another type to the third name. -/
def redeclaredDefinitions : List Definition :=
  [.cls "Base" .plain [] [.field "size" (.name "int") none, .field "note" (.name "str") none,
    .field "count" (.classVar (.name "int")) none],
   .cls "Sub" .plain [.name "Base"] [.field "extra" (.name "int") none,
    .field "count" (.name "int") none, .field "note" (.classVar (.name "str")) none,
    .field "size" (.name "str") none]]

/-- That class. -/
def redeclaredClass : ClassRef := .defined ⟨2, "Sub"⟩

theorem fields_redeclared :
    (do
      let W ← World.ofDefinitions redeclaredDefinitions
      return (W.isModel redeclaredClass, W.dataFields? redeclaredClass,
        W.fields redeclaredClass)) =
    .ok (false, none, .ok ([⟨"size", .cls (.known .str), .field, false⟩,
      ⟨"count", .cls (.known .int), .field, false⟩,
      ⟨"extra", .cls (.known .int), .field, false⟩], [])) := by
  with_unfolding_all rfl

/-- The fields keep the places of the class above and take the types of the class below. -/
theorem fields_by_annotations_redeclared : ∃ W fs notes,
    World.ofDefinitions redeclaredDefinitions = .ok W ∧ (Session.start W).Reached ∧
      W.isModel redeclaredClass = false ∧ W.dataFields? redeclaredClass = none ∧
      W.fields redeclaredClass = .ok (fs, notes) ∧
      fs.map Member.name = ["size", "count", "extra"] ∧
      W.FieldsByAnnotations redeclaredClass := by
  obtain ⟨W, hW, h⟩ := bind_eq_ok_iff.mp fields_redeclared
  obtain ⟨hm, h⟩ := Prod.mk.inj (Except.ok.inj h)
  obtain ⟨hd, hf⟩ := Prod.mk.inj h
  have hs := Session.reached_of_definitions hW
  exact ⟨W, _, _, hW, hs, hm, hd, hf, rfl, fields_by_annotations hs hm hd⟩

end RecordText
