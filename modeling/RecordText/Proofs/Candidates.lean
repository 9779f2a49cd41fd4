/-
Which names become candidates.

Fields are found by annotations and properties by attributes, and a name may have both.  Whether it
becomes a candidate twice depends on the kind of class:

* `candidates_follow` — **the candidates of a class that is no model follow its lineage**: a
  public name is a property when the first class that defines it says so, a field is never one, no
  name stands twice, and what is read is what was reported;
* `twice_of_clashes` — **the candidates of a model stand twice exactly where a property of a class
  above comes first under the name of a field.**  A property of the model itself never does.
-/
import RecordText.Proofs.Answers
import RecordText.Proofs.Building
import RecordText.Proofs.Lineages
import RecordText.Proofs.Sessions

namespace RecordText

namespace World

variable {W : World} {c : ClassRef} {catalog : Catalog} {notes : List Note} {fs ps : List Member}

/-! ### Fields and properties -/

/-- The fields of a class that is no model come from its annotations. -/
theorem fields_eq (hW : W.Consistent) (hm : W.isModel c = false) : W.fields c =
    (W.scope.classHints (W.layers c)).map fun hints =>
      (Catalog.fieldsOf (W.layers c) (W.dataFields? c) hints,
        (Catalog.shadowedNames (W.layers c) (W.dataFields? c) hints).map
          (Note.shadowed c.title)) := by
  rw [fields, hW.modelFields_eq_none hm]
  simp only [hm, Bool.false_eq_true, if_false]
  rfl

theorem fields_of_not_model (hW : W.Consistent) (hm : W.isModel c = false)
    (h : W.fields c = .ok (fs, notes)) :
    ∃ hints, W.scope.classHints (W.layers c) = .ok hints ∧
      fs = Catalog.fieldsOf (W.layers c) (W.dataFields? c) hints := by
  rw [fields_eq hW hm] at h
  cases hh : W.scope.classHints (W.layers c) with
  | error f =>
    rw [hh] at h
    cases h
  | ok hints =>
    rw [hh] at h
    obtain ⟨rfl, -⟩ := Prod.mk.inj (Except.ok.inj h)
    exact ⟨hints, rfl, rfl⟩

theorem fields_of_model (hm : W.isModel c = true) (h : W.fields c = .ok (fs, notes)) :
    fs = Catalog.modelFieldsOf (((W.definition? c).bind Class.modelFields).getD []) := by
  unfold fields at h
  split at h
  · next mfs hmfs =>
    obtain ⟨rfl, -⟩ := Prod.mk.inj (Except.ok.inj h)
    rw [hmfs]
    rfl
  · next hmfs =>
    rw [if_pos hm] at h
    obtain ⟨rfl, -⟩ := Prod.mk.inj (Except.ok.inj h)
    rw [hmfs]
    rfl

theorem kind_of_mem_fields (hW : W.Consistent) (h : W.fields c = .ok (fs, notes)) {m : Member}
    (hm : m ∈ fs) : m.kind = .field := by
  cases hmodel : W.isModel c with
  | true =>
    rw [fields_of_model hmodel h] at hm
    obtain ⟨f, -, rfl⟩ := List.mem_map.mp hm
    rfl
  | false =>
    obtain ⟨hints, -, rfl⟩ := fields_of_not_model hW hmodel h
    rw [(Catalog.mem_fieldsOf_iff.mp hm).2.2.2]
    rfl

theorem nodup_fieldNames (hW : W.Consistent) {hints : List (String × Ty)}
    (hh : W.scope.classHints (W.layers c) = .ok hints) :
    (Catalog.fieldNames (W.dataFields? c) hints).Nodup := by
  unfold Catalog.fieldNames
  split
  · next fields hf => exact (hW.nodup_dataFields hf).sublist (List.filter_sublist.map _)
  · exact (Scope.nodup_classHints hh).sublist (List.filter_sublist.map _)

/-- The properties of a class, by its lineage. -/
theorem mem_properties_iff (hW : W.Consistent) (h : W.properties c = .ok ps) {m : Member} :
    m ∈ ps ↔ isPrivate m.name = false ∧ ∃ g hints,
      Layer.find? (W.layers c) m.name = some (.property (some g)) ∧
        W.scope.hints g.annotations = .ok hints ∧
        m = Catalog.memberOf .property m.name ((hints.lookup "return").getD Ty.any) g.hidden :=
  Catalog.mem_propertyMembers_iff_find? (hW.distinct c) h

theorem exists_property_iff (hW : W.Consistent) (h : W.properties c = .ok ps) {name : String} :
    (∃ m ∈ ps, m.name = name) ↔ isPrivate name = false ∧
      ∃ g, Layer.find? (W.layers c) name = some (.property (some g)) := by
  constructor
  · rintro ⟨m, hm, rfl⟩
    obtain ⟨hp, g, -, hg, -⟩ := (mem_properties_iff hW h).mp hm
    exact ⟨hp, g, hg⟩
  · rintro ⟨hp, g, hg⟩
    obtain ⟨hints, hh⟩ := Catalog.exists_hints_of_propertyMembers (hW.distinct c) h hp hg
    exact ⟨Catalog.memberOf .property name ((hints.lookup "return").getD Ty.any) g.hidden,
      (mem_properties_iff hW h).mpr ⟨hp, g, hints, hg, hh, rfl⟩, rfl⟩

theorem nodup_properties (h : W.properties c = .ok ps) : (ps.map Member.name).Nodup :=
  (Catalog.nodup_propertiesOf _).sublist (Catalog.names_propertyMembers h)

theorem kind_of_mem_properties (hW : W.Consistent) (h : W.properties c = .ok ps) {m : Member}
    (hm : m ∈ ps) : m.kind = .property := by
  obtain ⟨-, g, hints, -, -, hmember⟩ := (mem_properties_iff hW h).mp hm
  rw [hmember]
  rfl

/-- The candidates of both modes are told apart by their kinds. -/
theorem candidates_by_kind (hW : W.Consistent)
    (hc : W.catalog c true true = .ok (catalog, notes)) :
    ∃ fs ns ps, W.fields c = .ok (fs, ns) ∧ W.properties c = .ok ps ∧
      (∀ m, m ∈ catalog.candidates ∧ m.kind = .field ↔ m ∈ fs) ∧
      (∀ m, m ∈ catalog.candidates ∧ m.kind = .property ↔ m ∈ ps) ∧
      catalog.names = fs.map Member.name ++ ps.map Member.name := by
  obtain ⟨⟨fs, ns⟩, hf, h⟩ := bind_eq_ok_iff.mp hc
  obtain ⟨ps, hp, h⟩ := bind_eq_ok_iff.mp h
  obtain ⟨rfl, -⟩ := Prod.mk.inj (Except.ok.inj h)
  have hfs : ∀ m ∈ fs, m.kind = .field := fun m => kind_of_mem_fields hW hf
  have hps : ∀ m ∈ ps, m.kind = .property := fun m => kind_of_mem_properties hW hp
  refine ⟨fs, ns, ps, hf, hp, fun m => ?_, fun m => ?_, List.map_append⟩
  · constructor
    · rintro ⟨hm, hk⟩
      rcases List.mem_append.mp hm with h | h
      · exact h
      · exact absurd (hk.symm.trans (hps m h)) (by decide)
    · exact fun h => ⟨List.mem_append_left _ h, hfs m h⟩
  · constructor
    · rintro ⟨hm, hk⟩
      rcases List.mem_append.mp hm with h | h
      · exact absurd (hk.symm.trans (hfs m h)) (by decide)
      · exact h
    · exact fun h => ⟨List.mem_append_right _ h, hps m h⟩

/-! ### Builds -/

/-- Candidates of different names leave survivors of different names. -/
theorem distinct_holds (h : catalog.names.Nodup) (b : Builder) :
    Condition.distinct.Holds W b catalog :=
  h.sublist ((List.filter_sublist.trans List.filter_sublist).map _)

/-- Where no label can stand twice, no stage of a build complains about one: what users ask of
their own names and functions never does. -/
theorem build_ne_duplicates (h : catalog.names.Nodup) {b : Builder}
    (hc : W.catalog b.target b.config.useFields b.config.useProperties = .ok (catalog, notes))
    (labels : List String) : W.build b ≠ .error (.invalid [.duplicateLabels labels]) := by
  intro hb
  obtain ⟨k, -, hk⟩ := (build_eq_error_iff hc).mp hb
  cases k with
  | mode =>
    obtain ⟨-, hf⟩ := hk
    cases hf
  | ignored =>
    obtain ⟨n, -, ⟨t, -, hf⟩ | ht⟩ := hk
    · cases hf
    · exact W.uncomplaining_behaviour.text n.value _ ht _ rfl
  | substituted =>
    obtain ⟨n, -, ⟨t, -, hf⟩ | ht⟩ := hk
    · cases hf
    · exact W.uncomplaining_behaviour.text n.value _ ht _ rfl
  | accepted =>
    obtain ⟨m, -, s, -, ⟨g, -, hf⟩ | ⟨t, -, ⟨g, -, hf⟩ | ⟨-, hf⟩⟩⟩ := hk
    · cases hf
    · cases hf
    · cases hf
  | supported =>
    obtain ⟨m, -, hf⟩ := hk
    cases hf
  | distinct => exact hk.1 (distinct_holds (W := W) h b)

/-- A field and a property of one name that both survive stop every build. -/
theorem build_ne_ok_of_twice {b : Builder}
    (hc : W.catalog b.target b.config.useFields b.config.useProperties = .ok (catalog, notes))
    {m m' : Member} (hm : m ∈ survivors b.config catalog) (hm' : m' ∈ survivors b.config catalog)
    (hname : m.name = m'.name) (hkind : m.kind ≠ m'.kind) (y : Renderer × List Note) :
    W.build b ≠ .ok y := by
  intro hb
  obtain ⟨hholds, -⟩ := (build_eq_ok_iff hc).mp hb
  have hdistinct : ((survivors b.config catalog).map Member.name).Nodup := hholds .distinct
  exact hkind (congrArg Member.kind (List.inj_on_of_nodup_map hdistinct hm hm' hname))

theorem mem_survivors {b : Builder} {m : Member} (hm : m ∈ catalog.candidates)
    (hmark : m.ignored = false) (hconfig : b.config.ignores m.name = false) :
    m ∈ survivors b.config catalog := by
  refine List.mem_filter.mpr ⟨List.mem_filter.mpr ⟨hm, ?_⟩, ?_⟩
  · rw [hmark, Bool.not_false]
  · rw [hconfig, Bool.not_false]

theorem catalog_of_modes (hc : W.catalog c true true = .ok (catalog, notes)) {b : Builder}
    (hb : b.target = c) (hbf : b.config.useFields = true) (hbp : b.config.useProperties = true) :
    W.catalog b.target b.config.useFields b.config.useProperties = .ok (catalog, notes) := by
  rw [hb, hbf, hbp]
  exact hc

end World

/-! ### Classes that are no models -/

/-- The candidates of a class follow its lineage. -/
structure Catalog.Follows (W : World) (c : ClassRef) (catalog : Catalog) : Prop where
  /-- The properties are the public names that the first class which defines them defines as
  properties with a getter. -/
  property_iff : ∀ name, isPrivate name = false →
    ((∃ m ∈ catalog.candidates, m.kind = .property ∧ m.name = name) ↔
      ∃ g, Layer.find? (W.layers c) name = some (.property (some g)))
  /-- That getter says what the candidate is. -/
  declared : ∀ m ∈ catalog.candidates, m.kind = .property → ∃ g hints,
    Layer.find? (W.layers c) m.name = some (.property (some g)) ∧
      W.scope.hints g.annotations = .ok hints ∧
      m = memberOf .property m.name ((hints.lookup "return").getD Ty.any) g.hidden
  /-- No field is a property, readable or not. -/
  field : ∀ m ∈ catalog.candidates, m.kind = .field →
    ∀ g, Layer.find? (W.layers c) m.name ≠ some (.property g)
  /-- No name stands twice. -/
  distinct : catalog.names.Nodup
  /-- So no build complains about labels that stand twice. -/
  build : ∀ b : Builder, b.target = c → b.config.useFields = true →
    b.config.useProperties = true →
      ∀ labels, W.build b ≠ .error (.invalid [.duplicateLabels labels])
  /-- Reading a property of an instance runs that very getter. -/
  read_property : ∀ x : Value, x.classOf = c → ∀ m ∈ catalog.candidates, m.kind = .property →
    '.' ∉ m.name.toList → ∃ g, Layer.find? (W.layers c) m.name = some (.property (some g)) ∧
      ∀ n, m.read (W.behaviourWithin (n + 1)) x = World.runGetter (W.behaviourWithin n) x g
  /-- Reading a field of an instance runs nothing: the result is the same for every behaviour. -/
  read_field : ∀ x : Value, x.classOf = c → ∀ m ∈ catalog.candidates, m.kind = .field →
    '.' ∉ m.name.toList →
      ∀ n B, m.read (W.behaviourWithin (n + 1)) x = W.read B x m.name

/-- **The candidates of a class that is no model follow its lineage.** -/
theorem candidates_follow {s : Session} (hs : s.Reached) {c : ClassRef}
    (hm : s.world.isModel c = false) {catalog : Catalog} {notes : List Note}
    (hc : s.world.catalog c true true = .ok (catalog, notes)) : catalog.Follows s.world c := by
  have hW := hs.consistent
  obtain ⟨fs, ns, ps, hf, hp, hfield, hproperty, hnames⟩ := World.candidates_by_kind hW hc
  obtain ⟨hints, hh, rfl⟩ := World.fields_of_not_model hW hm hf
  have hdeclared := fun m hmem hk =>
    (World.mem_properties_iff hW hp).mp ((hproperty m).mp ⟨hmem, hk⟩)
  have hnofield := fun m hmem hk =>
    (Catalog.mem_fieldsOf_iff.mp ((hfield m).mp ⟨hmem, hk⟩)).2.2.1
  have hdistinct : catalog.names.Nodup := by
    rw [hnames]
    refine List.Nodup.append ?_ (World.nodup_properties hp) ?_
    · rw [Catalog.names_fieldsOf]
      exact (World.nodup_fieldNames hW hh).filter _
    -- a field is no property, so the two groups share no name
    · rintro n hn hn'
      obtain ⟨m, hmf, rfl⟩ := List.mem_map.mp hn
      obtain ⟨-, g, hg⟩ := (World.exists_property_iff hW hp).mp (List.mem_map.mp hn')
      exact (Catalog.mem_fieldsOf_iff.mp hmf).2.2.1 _ hg
  refine ⟨fun name hpriv => ?_, fun m hmem hk => (hdeclared m hmem hk).2, hnofield, hdistinct,
    fun b hb hbf hbp => ?_, fun x hx m hmem hk hd => ?_, fun x hx m hmem hk hd n B => ?_⟩
  · simp only [← and_assoc, hproperty]
    exact (World.exists_property_iff hW hp).trans (and_iff_right hpriv)
  · exact World.build_ne_duplicates hdistinct (World.catalog_of_modes hc hb hbf hbp)
  · obtain ⟨-, g, -, hg, -⟩ := hdeclared m hmem hk
    subst hx
    exact ⟨g, hg, World.read_property hd hg⟩
  · subst hx
    exact World.read_of_not_property hd (hnofield m hmem hk) n B

/-- A class with a property, and one below it that annotates the name of the property. -/
def overriddenDefinitions : List Definition :=
  [.cls "Base" .plain [] [.property "size" ⟨some (.name "int"), none, .computed .argument, false,
    false⟩],
   .cls "Sub" .plain [.name "Base"] [.field "size" (.name "str") none]]

/-- The class below. -/
def overriddenClass : ClassRef := .defined ⟨2, "Sub"⟩

theorem catalog_overridden :
    (do
      let W ← World.ofDefinitions overriddenDefinitions
      return (W.isModel overriddenClass, W.catalog overriddenClass true true)) =
    .ok (false, .ok (⟨[⟨"size", .cls (.known .int), .property, false⟩]⟩,
      [.shadowed "Sub" "size"])) := by
  with_unfolding_all rfl

/-- An annotation alone defines no name, so the property is what the class below reports. -/
theorem candidates_follow_overridden : ∃ W catalog notes,
    World.ofDefinitions overriddenDefinitions = .ok W ∧ (Session.start W).Reached ∧
      W.isModel overriddenClass = false ∧
      W.catalog overriddenClass true true = .ok (catalog, notes) ∧
      catalog.Follows W overriddenClass := by
  obtain ⟨W, hW, h⟩ := bind_eq_ok_iff.mp catalog_overridden
  obtain ⟨hm, hc⟩ := Prod.mk.inj (Except.ok.inj h)
  have hs := Session.reached_of_definitions hW
  exact ⟨W, _, _, hW, hs, hm, hc, candidates_follow hs hm hc⟩

/-! ### Models -/

/-- A class above gives the name of a public field of a model to a property first. -/
def World.Clashes (W : World) (c : ClassRef) (name : String) : Prop :=
  isPrivate name = false ∧
    (∃ fields, (W.definition? c).bind Class.modelFields = some fields ∧
      name ∈ fields.map ModelField.name) ∧
    ∃ g, Layer.find? (W.layers c) name = some (.property (some g))

/-- The candidates of a model stand twice where names clash, and nowhere else. -/
structure Catalog.TwiceWhereClashing (W : World) (c : ClassRef) (catalog : Catalog) : Prop where
  /-- A name is a field and a property exactly when it clashes. -/
  both_iff : ∀ name,
    ((∃ m ∈ catalog.candidates, m.kind = .field ∧ m.name = name) ∧
      ∃ m ∈ catalog.candidates, m.kind = .property ∧ m.name = name) ↔ W.Clashes c name
  /-- The property stands in a class above the model, never in the model itself. -/
  above : ∀ name, W.Clashes c name → ∃ d ∈ (W.lineage c).tail, ∃ g,
    (W.layerOf d).attributes.lookup name = some (.property (some g))
  /-- All names are different exactly when none clashes. -/
  distinct_iff : catalog.names.Nodup ↔ ∀ name, ¬W.Clashes c name
  /-- Then no build complains about labels that stand twice. -/
  build : (∀ name, ¬W.Clashes c name) → ∀ b : Builder, b.target = c →
    b.config.useFields = true → b.config.useProperties = true →
      ∀ labels, W.build b ≠ .error (.invalid [.duplicateLabels labels])
  /-- A name that clashes, and that neither a mark nor the configuration takes out, stops every
  build. -/
  rejects : ∀ name, W.Clashes c name →
    (∀ m ∈ catalog.candidates, m.name = name → m.ignored = false) →
      ∀ b : Builder, b.target = c → b.config.useFields = true → b.config.useProperties = true →
        b.config.ignores name = false → ∀ y, W.build b ≠ .ok y

namespace World

variable {W : World} {c : ClassRef} {name : String}

/-- The own attributes of a model do not have the names of its fields. -/
theorem Clashes.above (hW : W.Consistent) (h : W.Clashes c name) :
    ∃ d ∈ (W.lineage c).tail, ∃ g,
      (W.layerOf d).attributes.lookup name = some (.property (some g)) := by
  obtain ⟨-, ⟨fields, hfields, hname⟩, g, hg⟩ := h
  obtain ⟨d, hd, hdf⟩ := Option.bind_eq_some_iff.mp hfields
  obtain ⟨f, hf, rfl⟩ := List.mem_map.mp hname
  rw [hW.layers_eq hd, Catalog.find?_cons, (hW.definition hd).released fields hdf f hf] at hg
  obtain ⟨l, hl, hlookup⟩ := List.exists_of_findSome?_eq_some hg
  obtain ⟨e, he, rfl⟩ := List.mem_map.mp hl
  exact ⟨e, he, g, hlookup⟩

theorem exists_modelField_iff {fs : List Member} {notes : List Note} (hm : W.isModel c = true)
    (hf : W.fields c = .ok (fs, notes)) :
    (∃ m ∈ fs, m.name = name) ↔ isPrivate name = false ∧
      ∃ fields, (W.definition? c).bind Class.modelFields = some fields ∧
        name ∈ fields.map ModelField.name := by
  rw [fields_of_model hm hf, Catalog.modelFieldsOf]
  cases (W.definition? c).bind Class.modelFields with
  | none => simp
  | some fields =>
    simp only [Option.getD_some, List.mem_map, List.mem_filter, Option.some.injEq,
      exists_eq_left', Bool.not_eq_true']
    constructor
    · rintro ⟨m, ⟨f, ⟨hf, hp⟩, rfl⟩, rfl⟩
      exact ⟨hp, f, hf, rfl⟩
    · rintro ⟨hp, f, hf, rfl⟩
      exact ⟨_, ⟨f, ⟨hf, hp⟩, rfl⟩, rfl⟩

theorem nodup_modelFields (hW : W.Consistent) {fs : List Member} {notes : List Note}
    (hm : W.isModel c = true) (hf : W.fields c = .ok (fs, notes)) :
    (fs.map Member.name).Nodup := by
  rw [fields_of_model hm hf, Catalog.modelFieldsOf, List.map_map]
  refine List.Nodup.sublist (List.filter_sublist.map _) ?_
  show (List.map ModelField.name _).Nodup
  cases hd : (W.definition? c).bind Class.modelFields with
  | none => exact List.nodup_nil
  | some fields =>
    obtain ⟨d, hd, hdf⟩ := Option.bind_eq_some_iff.mp hd
    exact (hW.definition hd).modelFields fields hdf

end World

/-- **The candidates of a model stand twice exactly where a property of a class above comes first
under the name of a field.** -/
theorem twice_of_clashes {s : Session} (hs : s.Reached) {c : ClassRef}
    (hm : s.world.isModel c = true) {catalog : Catalog} {notes : List Note}
    (hc : s.world.catalog c true true = .ok (catalog, notes)) :
    catalog.TwiceWhereClashing s.world c := by
  have hW := hs.consistent
  obtain ⟨fs, ns, ps, hf, hp, hfield, hproperty, hnames⟩ := World.candidates_by_kind hW hc
  have hboth : ∀ name, ((∃ m ∈ fs, m.name = name) ∧ ∃ m ∈ ps, m.name = name) ↔
      s.world.Clashes c name := by
    intro name
    rw [World.exists_modelField_iff hm hf, World.exists_property_iff hW hp]
    constructor
    · rintro ⟨⟨hpriv, hfields⟩, -, hg⟩
      exact ⟨hpriv, hfields, hg⟩
    · rintro ⟨hpriv, hfields, hg⟩
      exact ⟨⟨hpriv, hfields⟩, hpriv, hg⟩
  have hdistinct : catalog.names.Nodup ↔ ∀ name, ¬s.world.Clashes c name := by
    rw [hnames]
    constructor
    · intro h name hclash
      obtain ⟨hf, hp⟩ := (hboth name).mpr hclash
      exact (List.nodup_append'.mp h).2.2 (List.mem_map.mpr hf) (List.mem_map.mpr hp)
    · intro h
      refine List.Nodup.append (World.nodup_modelFields hW hm hf) (World.nodup_properties hp) ?_
      exact fun name hf hp => h name
        ((hboth name).mp ⟨List.mem_map.mp hf, List.mem_map.mp hp⟩)
  have hbothKinds : ∀ name, ((∃ m ∈ catalog.candidates, m.kind = .field ∧ m.name = name) ∧
      ∃ m ∈ catalog.candidates, m.kind = .property ∧ m.name = name) ↔
      s.world.Clashes c name := by
    intro name
    simp only [← and_assoc, hproperty, hfield]
    exact hboth name
  refine ⟨hbothKinds, fun name => World.Clashes.above hW, hdistinct, fun h b hb hbf hbp => ?_,
    fun name hclash hmark b hb hbf hbp hconfig y => ?_⟩
  · exact World.build_ne_duplicates (hdistinct.mpr h) (World.catalog_of_modes hc hb hbf hbp)
  · obtain ⟨⟨m, hm, hkind, rfl⟩, m', hm', hkind', hname⟩ := (hbothKinds name).mpr hclash
    have hcb := World.catalog_of_modes hc hb hbf hbp
    refine World.build_ne_ok_of_twice hcb (World.mem_survivors hm (hmark m hm rfl) hconfig)
      (World.mem_survivors hm' (hmark m' hm' hname) (hname ▸ hconfig)) hname.symm ?_ y
    rw [hkind, hkind']
    exact fun h => by cases h

/-- A model below a class with a property and a model with a field of that name. -/
def mixedDefinitions : List Definition :=
  [.cls "Mix" .plain [] [.property "x" ⟨some (.name "int"), none,
    .computed (.value (.plain (.int 1))), false, false⟩],
   .cls "M" .model [] [.field "x" (.name "int") none],
   .cls "D" .model [.name "Mix", .name "M"] []]

/-- That model. -/
def mixedClass : ClassRef := .defined ⟨3, "D"⟩

theorem catalog_mixed :
    (do
      let W ← World.ofDefinitions mixedDefinitions
      return (W.isModel mixedClass, W.catalog mixedClass true true)) =
    .ok (true, .ok (⟨[⟨"x", .cls (.known .int), .field, false⟩,
      ⟨"x", .cls (.known .int), .property, false⟩]⟩, [])) := by
  with_unfolding_all rfl

/-- The name is a candidate twice, so it clashes: no annotation or attribute of the model tells
which of the two is meant. -/
theorem twice_of_clashes_mixed : ∃ W catalog notes,
    World.ofDefinitions mixedDefinitions = .ok W ∧ (Session.start W).Reached ∧
      W.isModel mixedClass = true ∧
      W.catalog mixedClass true true = .ok (catalog, notes) ∧
      W.Clashes mixedClass "x" ∧ ¬catalog.names.Nodup := by
  obtain ⟨W, hW, h⟩ := bind_eq_ok_iff.mp catalog_mixed
  obtain ⟨hm, hc⟩ := Prod.mk.inj (Except.ok.inj h)
  have hs := Session.reached_of_definitions hW
  have htwice := twice_of_clashes hs hm hc
  have hclash : W.Clashes mixedClass "x" := (htwice.both_iff "x").mp
    ⟨⟨_, List.mem_cons_self, rfl, rfl⟩, ⟨_, List.mem_cons_of_mem _ List.mem_cons_self, rfl, rfl⟩⟩
  exact ⟨W, _, _, hW, hs, hm, hc, hclash, fun h => htwice.distinct_iff.mp h "x" hclash⟩

end RecordText
