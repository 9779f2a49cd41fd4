/-
Hidden members.

A member is hidden by a name that is ignored, or by a mark: a remark beside its declared type, which
a field has in the annotations of its class or in its model, and a property in the annotations of
its getter, or a getter that is itself marked (`World.Marks`).  Marks are taken out by one filter
and names by another:

* `ignored_iff_marks` — a candidate is taken out by the first filter exactly when it is marked;
* `mem_survivors_iff` — the survivors are the candidates that nothing hides;
* `survivor_of_read` — a rendering reads surviving members and no other ones;
* `hidden_unread` — **hidden members have no label in the plan, they cannot be substituted, and what
  a record holds in them, or raises from them, makes no difference to what is written.**
-/
import RecordText.Proofs.Candidates
import RecordText.Proofs.Configurations
import RecordText.Proofs.Fragments
import RecordText.Proofs.Substitution

namespace RecordText

/-! ### Marks -/

/-- Whether a remark around a type hides the member of the type. -/
def Ty.isMarked (t : Ty) : Bool := t.stripAnnotated.2.any Remark.hides

@[simp] theorem Catalog.ignored_memberOf (kind : MemberKind) (name : String) (t : Ty)
    (hidden : Bool) : (memberOf kind name t hidden).ignored = (hidden || t.isMarked) := rfl

/-- A mark of the class hides a member. -/
inductive World.Marks (W : World) (c : ClassRef) (m : Member) : Prop
  /-- Beside the annotation of a field. -/
  | annotated {hints : List (String × Ty)} (kind : m.kind = .field) (plain : W.isModel c = false)
      (resolved : W.scope.classHints (W.layers c) = .ok hints)
      (marked : ((hints.lookup m.name).getD Ty.any).isMarked = true)
  /-- Beside the type of a field of a model, or among its own remarks. -/
  | modelField {fields : List ModelField} {f : ModelField} (kind : m.kind = .field)
      (model : (W.definition? c).bind Class.modelFields = some fields) (mem : f ∈ fields)
      (name : f.name = m.name)
      (marked : (f.remarks.any Remark.hides || f.declared.isMarked) = true)
  /-- On the getter of a property. -/
  | getter {g : Getter} (kind : m.kind = .property)
      (found : Layer.find? (W.layers c) m.name = some (.property (some g)))
      (marked : g.hidden = true)
  /-- Beside the type that the getter of a property returns. -/
  | returned {g : Getter} {hints : List (String × Ty)} (kind : m.kind = .property)
      (found : Layer.find? (W.layers c) m.name = some (.property (some g)))
      (resolved : W.scope.hints g.annotations = .ok hints)
      (marked : ((hints.lookup "return").getD Ty.any).isMarked = true)

/-- Something hides a candidate from a builder: a name or a mark. -/
def World.Hides (W : World) (b : Builder) (m : Member) : Prop :=
  b.config.ignores m.name = true ∨ W.Marks b.target m

namespace World

variable {W : World} {c : ClassRef} {catalog : Catalog} {notes notes' : List Note} {m : Member}

/-- The candidates are fields and properties of the class, whatever the modes are. -/
theorem field_or_property {useFields useProperties : Bool}
    (hc : W.catalog c useFields useProperties = .ok (catalog, notes))
    (hm : m ∈ catalog.candidates) :
    (∃ fs ns, W.fields c = .ok (fs, ns) ∧ m ∈ fs) ∨ ∃ ps, W.properties c = .ok ps ∧ m ∈ ps := by
  rw [catalog_eq] at hc
  obtain ⟨⟨fs, ns⟩, hf, h⟩ := bind_eq_ok_iff.mp hc
  obtain ⟨ps, hp, h⟩ := bind_eq_ok_iff.mp h
  obtain ⟨rfl, -⟩ := Prod.mk.inj (Except.ok.inj h)
  rcases List.mem_append.mp hm with hm | hm
  · cases useFields with
    | true => exact .inl ⟨fs, ns, hf, hm⟩
    | false =>
      obtain ⟨rfl, -⟩ := Prod.mk.inj (Except.ok.inj hf)
      cases hm
  · cases useProperties with
    | true => exact .inr ⟨ps, hp, hm⟩
    | false =>
      obtain rfl := Except.ok.inj hp
      cases hm

/-- The mark of a field in a class that is no model stands in the annotations of the class. -/
theorem marks_of_annotated (hW : W.Consistent) (hmodel : W.isModel c = false)
    {hints : List (String × Ty)} (hh : W.scope.classHints (W.layers c) = .ok hints)
    (hk : m.kind = .field) :
    W.Marks c m ↔ ((hints.lookup m.name).getD Ty.any).isMarked = true := by
  constructor
  · rintro (⟨-, -, hh', h⟩ | ⟨-, hfields, -, -, -⟩ | ⟨hk', -, -⟩ | ⟨hk', -, -, -⟩)
    · obtain rfl := Except.ok.inj (hh.symm.trans hh')
      exact h
    · rw [hW.modelFields_eq_none hmodel] at hfields
      cases hfields
    · cases hk.symm.trans hk'
    · cases hk.symm.trans hk'
  · exact .annotated hk hmodel hh

/-- The mark of a field of a model stands in the model, which has one field of each name. -/
theorem marks_of_modelField (hW : W.Consistent) {fields : List ModelField}
    (hmodel : (W.definition? c).bind Class.modelFields = some fields) {f : ModelField}
    (hf : f ∈ fields) (hname : f.name = m.name) (hk : m.kind = .field) :
    W.Marks c m ↔ (f.remarks.any Remark.hides || f.declared.isMarked) = true := by
  obtain ⟨d, hd, hdf⟩ := Option.bind_eq_some_iff.mp hmodel
  constructor
  · rintro (⟨-, hplain, -, -⟩ | ⟨-, hfields, hf', hname', h⟩ | ⟨hk', -, -⟩ | ⟨hk', -, -, -⟩)
    · rw [hW.modelFields_eq_none hplain] at hmodel
      cases hmodel
    · obtain rfl := Option.some.inj (hmodel.symm.trans hfields)
      obtain rfl := List.inj_on_of_nodup_map ((hW.definition hd).modelFields _ hdf) hf hf'
        (hname.trans hname'.symm)
      exact h
    · cases hk.symm.trans hk'
    · cases hk.symm.trans hk'
  · exact .modelField hk hmodel hf hname

/-- The mark of a property stands on its getter or beside the type that the getter returns. -/
theorem marks_of_property {g : Getter} {hints : List (String × Ty)}
    (hg : Layer.find? (W.layers c) m.name = some (.property (some g)))
    (hh : W.scope.hints g.annotations = .ok hints) (hk : m.kind = .property) :
    W.Marks c m ↔ (g.hidden || ((hints.lookup "return").getD Ty.any).isMarked) = true := by
  rw [Bool.or_eq_true]
  constructor
  · rintro (⟨hk', -, -, -⟩ | ⟨hk', -, -, -, -⟩ | ⟨-, hg', h⟩ | ⟨-, hg', hh', h⟩)
    · cases hk.symm.trans hk'
    · cases hk.symm.trans hk'
    · cases hg.symm.trans hg'
      exact .inl h
    · cases hg.symm.trans hg'
      cases hh.symm.trans hh'
      exact .inr h
  · rintro (h | h)
    · exact .getter hk hg h
    · exact .returned hk hg hh h

/-- **A candidate is marked as ignored exactly when a mark of its class says so.** -/
theorem ignored_iff_marks (hW : W.Consistent) {useFields useProperties : Bool}
    (hc : W.catalog c useFields useProperties = .ok (catalog, notes))
    (hm : m ∈ catalog.candidates) : m.ignored = true ↔ W.Marks c m := by
  obtain ⟨fs, ns, hf, hm⟩ | ⟨ps, hp, hm⟩ := field_or_property hc hm
  · have hk := kind_of_mem_fields hW hf hm
    cases hmodel : W.isModel c with
    | false =>
      obtain ⟨hints, hh, rfl⟩ := fields_of_not_model hW hmodel hf
      obtain ⟨-, -, -, hmember⟩ := Catalog.mem_fieldsOf_iff.mp hm
      rw [marks_of_annotated hW hmodel hh hk, hmember, Catalog.ignored_memberOf, Bool.false_or,
        Catalog.name_memberOf]
    | true =>
      rw [fields_of_model hmodel hf] at hm
      obtain ⟨f, hfmem, rfl⟩ := List.mem_map.mp hm
      have hfmem := List.mem_of_mem_filter hfmem
      cases hfields : (W.definition? c).bind Class.modelFields with
      | none => simp [hfields] at hfmem
      | some fields =>
        rw [hfields, Option.getD_some] at hfmem
        rw [marks_of_modelField hW hfields hfmem rfl rfl, Catalog.ignored_memberOf]
  · obtain ⟨-, g, hints, hg, hh, hmember⟩ := (mem_properties_iff hW hp).mp hm
    rw [marks_of_property hg hh (kind_of_mem_properties hW hp hm), hmember,
      Catalog.ignored_memberOf]

/-! ### Survivors -/

variable {b : Builder} {r : Renderer} {B : Behaviour} {x : Value}

/-- The survivors are the candidates that neither a mark nor a name hides. -/
theorem mem_survivors_iff (hW : W.Consistent)
    (hc : W.catalog b.target b.config.useFields b.config.useProperties = .ok (catalog, notes)) :
    m ∈ survivors b.config catalog ↔ m ∈ catalog.candidates ∧ ¬W.Hides b m := by
  rw [survivors, Catalog.members, List.mem_filter, List.mem_filter, and_assoc, Hides, not_or,
    Bool.not_eq_true', Bool.not_eq_true', ← Bool.not_eq_true, ← Bool.not_eq_true]
  refine and_congr_right fun hm => ?_
  rw [ignored_iff_marks hW hc hm, and_comm]

/-- A rendering reads surviving members and no other ones. -/
theorem survivor_of_read (hb : W.build b = .ok (r, notes))
    (hc : W.catalog b.target b.config.useFields b.config.useProperties = .ok (catalog, notes'))
    (hm : m ∈ r.membersRead B x) : m ∈ survivors b.config catalog := by
  obtain ⟨d, hd, hdm⟩ := List.mem_filterMap.mp hm
  obtain ⟨k, hk, hdk, -⟩ := survivor_of_demand hb hc hd
  cases d with
  | call f v => cases hdm
  | member m' =>
    obtain rfl := Option.some.inj hdm
    obtain rfl : k = m' := (member_partFor W b.config k).symm.trans (member_mem_demands hdk)
    exact hk

theorem labels_planFor (W : World) (b : Builder) (catalog : Catalog) :
    (W.planFor b catalog).labels = (survivors b.config catalog).map Member.name := by
  rw [planFor, Plan.labels, Plan.labels_ofPart, List.map_map,
    show Part.name ∘ W.partFor b.config = Member.name from funext (name_partFor W b.config)]

/-- No survivor stands under the name of a hidden candidate, where names are distinct. -/
theorem name_ne_of_hides (hW : W.Consistent)
    (hc : W.catalog b.target b.config.useFields b.config.useProperties = .ok (catalog, notes))
    (hd : catalog.names.Nodup) (hm : m ∈ catalog.candidates) (hhid : W.Hides b m) {k : Member}
    (hk : k ∈ survivors b.config catalog) : k.name ≠ m.name := by
  intro h
  obtain ⟨hkmem, hknot⟩ := (mem_survivors_iff hW hc).mp hk
  obtain rfl : k = m := List.inj_on_of_nodup_map hd hkmem hm h
  exact hknot hhid

/-- A build that succeeds has a survivor under every substituted name. -/
theorem exists_survivor_of_substituted (hb : W.build b = .ok (r, notes))
    (hc : W.catalog b.target b.config.useFields b.config.useProperties = .ok (catalog, notes'))
    {n : Name} {s : String} (hn : n ∈ b.config.substitutes.map Prod.fst)
    (hns : n.matches s = true) : ∃ k ∈ survivors b.config catalog, k.name = s := by
  obtain ⟨hk, -⟩ := (build_eq_ok_iff hc).mp hb
  obtain ⟨k, hkmem, hnk⟩ := hk .substituted n hn
  rw [Name.matches_iff] at hnk hns
  exact ⟨k, hkmem, Value.Key.text.inj (hnk.symm.trans hns)⟩

end World

/-- **Hidden members do not leak.**  Let the candidates of a class have different names.  A hidden
candidate has no label in the plan, and a substitute for it stops the build.  When the build
succeeds, its renderer is that of the plan, no rendering reads a hidden member, and two records have
the same written form, or the same failure, when the members that nothing hides are read alike. -/
theorem hidden_unread {s : Session} (hs : s.Reached) {b : Builder} {catalog : Catalog}
    {notes : List Note}
    (hc : s.world.catalog b.target b.config.useFields b.config.useProperties =
      .ok (catalog, notes)) (hd : catalog.names.Nodup) :
    (∀ m ∈ catalog.candidates, s.world.Hides b m →
      m.name ∉ (s.world.planFor b catalog).labels ∧
      ((∃ n ∈ b.config.substitutes.map Prod.fst, n.matches m.name = true) →
        ∃ f, s.world.build b = .error f)) ∧
    ∀ r notes', s.world.build b = .ok (r, notes') →
      r = (s.world.planFor b catalog).renderer ∧
      (∀ B x, ∀ m ∈ r.membersRead B x, m ∈ catalog.candidates ∧ ¬s.world.Hides b m) ∧
      ∀ B x y, (∀ m ∈ catalog.candidates, ¬s.world.Hides b m → m.read B x = m.read B y) →
        r.render B x = r.render B y := by
  have hW := hs.consistent
  have hsurvivor : ∀ m, m ∈ World.survivors b.config catalog ↔
      m ∈ catalog.candidates ∧ ¬s.world.Hides b m := fun m => World.mem_survivors_iff hW hc
  refine ⟨fun m hm hhid => ⟨fun hlabel => ?_, ?_⟩, fun r notes' hb => ⟨?_, ?_, ?_⟩⟩
  · rw [World.labels_planFor] at hlabel
    obtain ⟨k, hk, h⟩ := List.mem_map.mp hlabel
    exact World.name_ne_of_hides hW hc hd hm hhid hk h
  · rintro ⟨n, hn, hnm⟩
    cases hb : s.world.build b with
    | error f => exact ⟨f, rfl⟩
    | ok y =>
      obtain ⟨k, hk, h⟩ := World.exists_survivor_of_substituted hb hc hn hnm
      exact absurd h (World.name_ne_of_hides hW hc hd hm hhid hk)
  · exact (World.supported_of_build hb hc).1
  · intro B x m hm
    exact (hsurvivor m).mp (World.survivor_of_read hb hc hm)
  · intro B x y h
    have hpairs : s.world.pairs b.config B x (World.survivors b.config catalog) =
        s.world.pairs b.config B y (World.survivors b.config catalog) := by
      refine World.pairs_congr fun m hm => World.fragment_congr_read ?_
      obtain ⟨hmem, hnot⟩ := (hsurvivor m).mp hm
      exact h m hmem hnot
    rw [World.render_eq hb hc, World.render_eq hb hc, hpairs]

/-- A class with a public field and one that is marked. -/
def loginDefinitions : List Definition :=
  [.cls "Login" .plain [] [.field "user" (.name "str") none,
    .field "pin" (.annotated (.name "str") [.ignored]) none]]

/-- That class. -/
def loginClass : ClassRef := .defined ⟨1, "Login"⟩

/-- A builder for it, with some substitutes. -/
def loginBuilder (substitutes : List (Name × Substitute)) : Builder :=
  ⟨loginClass, .usual, ⟨true, false, [], substitutes⟩⟩

theorem build_login :
    (do
      let W ← World.ofDefinitions loginDefinitions
      return (W.catalog loginClass true false, W.build (loginBuilder []))) =
    .ok (.ok (⟨[⟨"user", .str, .field, false⟩, ⟨"pin", .str, .field, true⟩]⟩,
        [.skipped "Login" "pin"]),
      .ok (.steps [⟨"\x7buser=", .base ⟨"user", .str, .field, false⟩, ⟨.string, false⟩⟩] "\x7d",
        [.skipped "Login" "pin", .building "Login" 1 0 0,
          .compiled "Login" [("user", .string)]])) := by
  with_unfolding_all rfl

/-- The marked field can neither be seen nor be given to a function. -/
theorem hidden_unread_login : ∃ W r notes,
    World.ofDefinitions loginDefinitions = .ok W ∧ (Session.start W).Reached ∧
      W.build (loginBuilder []) = .ok (r, notes) ∧
      (∀ (B : Behaviour) (x y : Value), B.readPath x "user" = B.readPath y "user" →
        r.render B x = r.render B y) ∧
      ∃ f, W.build (loginBuilder [(.ofText "pin", ⟨.builtin .length, none⟩)]) = .error f := by
  obtain ⟨W, hW, h⟩ := bind_eq_ok_iff.mp build_login
  obtain ⟨hc, hb⟩ := Prod.mk.inj (Except.ok.inj h)
  have hs := Session.reached_of_definitions hW
  have hd : (["user", "pin"] : List String).Nodup := by decide
  have hpin : ∀ ss, W.Hides (loginBuilder ss) ⟨"pin", .str, .field, true⟩ := fun ss =>
    .inr ((World.ignored_iff_marks hs.consistent hc (List.mem_of_mem_getLast? rfl)).mp rfl)
  refine ⟨W, _, _, hW, hs, hb, fun B x y hxy => ?_, ?_⟩
  · refine ((hidden_unread hs (b := loginBuilder []) hc hd).2 _ _ hb).2.2 B x y fun m hm hnot => ?_
    -- the other candidate is hidden
    rcases List.mem_pair.mp hm with rfl | rfl
    · exact hxy
    · exact absurd (hpin []) hnot
  · refine ((hidden_unread hs (b := loginBuilder [(.ofText "pin", ⟨.builtin .length, none⟩)])
      hc hd).1 _ (List.mem_of_mem_getLast? rfl) (hpin _)).2 ?_
    exact ⟨.ofText "pin", List.mem_singleton.mpr rfl, by decide⟩

end RecordText
