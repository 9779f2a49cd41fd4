/-
The order of configuration calls.

A configuration keeps ignored names and substitutes in the order in which they were first given, and
a build checks them in that order.  The order decides about nothing but the name that a refusal
shows:

* `Change.SameIntent` — two runs of calls choose the same modes, ignore the same names, and end with
  the same substitute for each name;
* `Config.Agrees` — two configurations say the same about every member and are for the same names;
* `Config.agrees_of_sameIntent` — so do the configurations that such runs leave;
* `Config.Agrees.holds`, `World.fails_of_agrees` — a condition that fails for one of them fails
  for the other, and in the same way unless it refuses a name that has no text;
* `build_arranged` — **both builds give the same renderer, or both fail with failures of one kind,
  unless a name that is refused has no text to show.**
-/
import RecordText.Proofs.Configurations
import RecordText.Proofs.Verdict

namespace RecordText

/-! ### Runs of one intent -/

/-- Two lists hold the same names: what stands in one, or an equal name, stands in the other. -/
def Name.SameSet (ns ms : List Name) : Prop :=
  (∀ n ∈ ns, ∃ m ∈ ms, n = m ∨ (n == m) = true) ∧ ∀ m ∈ ms, ∃ n ∈ ns, m = n ∨ (m == n) = true

/-- The same names are for the same members. -/
theorem Name.SameSet.mem_iff {ns ms : List Name} (h : SameSet ns ms) (p : String → Bool) :
    p ∈ ns.map Name.matches ↔ p ∈ ms.map Name.matches := by
  have hsub : ∀ {ns ms : List Name}, (∀ n ∈ ns, ∃ m ∈ ms, n = m ∨ (n == m) = true) →
      p ∈ ns.map Name.matches → p ∈ ms.map Name.matches := by
    intro ns ms h hp
    obtain ⟨n, hn, rfl⟩ := List.mem_map.mp hp
    obtain ⟨m, hm, rfl | hnm⟩ := h n hn
    · exact List.mem_map_of_mem hm
    · rw [matches_of_beq hnm]
      exact List.mem_map_of_mem hm
  exact ⟨hsub h.1, hsub h.2⟩

/-- Two runs of changes mean the same: the same modes, the same ignored names, and for the same
names the same substitutes in the end. -/
structure Change.SameIntent (es es' : List Change) : Prop where
  fields : .fields ∈ es ↔ .fields ∈ es'
  properties : .properties ∈ es ↔ .properties ∈ es'
  ignored : Name.SameSet (es.flatMap ignoredNames) (es'.flatMap ignoredNames)
  substituted : Name.SameSet (es.flatMap substitutedNames) (es'.flatMap substitutedNames)
  last : ∀ n, lastFor n es = lastFor n es'

namespace Config

/-! ### Configurations that agree -/

/-- Two configurations have the same modes, are for the same names and say the same about every
member. -/
structure Agrees (c d : Config) : Prop where
  useFields : c.useFields = d.useFields
  useProperties : c.useProperties = d.useProperties
  ignored : ∀ p, p ∈ c.ignored.map Name.matches ↔ p ∈ d.ignored.map Name.matches
  substituted : ∀ p, p ∈ c.substitutes.map (fun e => e.1.matches) ↔
    p ∈ d.substitutes.map (fun e => e.1.matches)
  substitute : ∀ member, c.substitute? member = d.substitute? member

/-- **Runs of one intent leave configurations that agree.** -/
theorem agrees_of_sameIntent (c : Config) {es es' : List Change}
    (h : Change.SameIntent es es') : (es.foldl after c).Agrees (es'.foldl after c) where
  useFields := by
    rw [Bool.eq_iff_iff, useFields_foldl, useFields_foldl, h.fields]
  useProperties := by
    rw [Bool.eq_iff_iff, useProperties_foldl, useProperties_foldl, h.properties]
  ignored p := by
    rw [mem_ignored_foldl, mem_ignored_foldl, h.ignored.mem_iff]
  substituted p := by
    rw [mem_substituted_foldl, mem_substituted_foldl, h.substituted.mem_iff]
  substitute member := by
    rw [substitute?_foldl, substitute?_foldl, h.last]

namespace Agrees

variable {W : World} {b : Builder} {c d : Config} {catalog : Catalog} {f : Failure}

theorem symm (h : c.Agrees d) : d.Agrees c where
  useFields := h.useFields.symm
  useProperties := h.useProperties.symm
  ignored p := (h.ignored p).symm
  substituted p := (h.substituted p).symm
  substitute member := (h.substitute member).symm

/-- The same members survive. -/
theorem survivors_eq (h : c.Agrees d) (catalog : Catalog) :
    World.survivors c catalog = World.survivors d catalog := by
  refine List.filter_congr fun m _ => ?_
  have hi : c.ignores m.name = d.ignores m.name := by
    rw [Bool.eq_iff_iff, ignores_iff, ignores_iff]
    exact exists_congr fun p => and_congr (h.ignored p) Iff.rfl
  rw [hi]

theorem partFor_eq (h : c.Agrees d) (m : Member) : W.partFor c m = W.partFor d m := by
  rw [World.partFor, World.partFor, h.substitute]

theorem accepts_iff (h : c.Agrees d) (m : Member) : W.Accepts c m ↔ W.Accepts d m := by
  rw [World.Accepts, World.Accepts, h.substitute]

theorem refusesMember_iff (h : c.Agrees d) (target : String) (m : Member) :
    W.RefusesMember c target m f ↔ W.RefusesMember d target m f := by
  rw [World.RefusesMember, World.RefusesMember, h.substitute]

/-- The plans of all surviving members are the same. -/
theorem planFor_eq (h : c.Agrees d) :
    W.planFor { b with config := c } catalog = W.planFor { b with config := d } catalog := by
  have hp : W.partFor c = W.partFor d := funext h.partFor_eq
  simp only [World.planFor, h.survivors_eq catalog, hp]

/-! ### Conditions of builds that agree -/

theorem holds (h : c.Agrees d) {k : Condition}
    (hk : k.Holds W { b with config := c } catalog) :
    k.Holds W { b with config := d } catalog := by
  cases k with
  | mode =>
    show d.useFields = true ∨ d.useProperties = true
    rw [← h.useFields, ← h.useProperties]
    exact hk
  | ignored =>
    intro n hn
    -- some name of the other configuration is for the same members
    obtain ⟨n', hn', heq⟩ := List.mem_map.mp ((h.ignored _).mpr (List.mem_map_of_mem hn))
    rw [← heq]
    exact hk n' hn'
  | substituted =>
    intro n hn
    obtain ⟨e, he, rfl⟩ := List.mem_map.mp hn
    obtain ⟨e', he', heq⟩ := List.mem_map.mp ((h.substituted _).mpr (List.mem_map_of_mem he))
    rw [← heq, ← h.survivors_eq catalog]
    exact hk e'.1 (List.mem_map_of_mem he')
  | accepted =>
    intro m hm
    rw [← h.survivors_eq catalog] at hm
    exact (h.accepts_iff m).mp (hk m hm)
  | supported =>
    intro m hm hs
    rw [← h.survivors_eq catalog] at hm
    rw [← h.substitute] at hs
    exact hk m hm hs
  | distinct =>
    show ((World.survivors d catalog).map Member.name).Nodup
    rw [← h.survivors_eq catalog]
    exact hk

/-- A condition about members fails in the same way. -/
theorem fails (h : c.Agrees d) {k : Condition} (hi : k ≠ .ignored) (hs : k ≠ .substituted)
    (hk : k.Fails W { b with config := c } catalog f) :
    k.Fails W { b with config := d } catalog f := by
  cases k with
  | ignored => exact absurd rfl hi
  | substituted => exact absurd rfl hs
  | mode =>
    obtain ⟨hm, rfl⟩ := hk
    have hm : ¬(c.useFields = true ∨ c.useProperties = true) := hm
    rw [h.useFields, h.useProperties] at hm
    exact ⟨hm, rfl⟩
  | accepted =>
    obtain ⟨m, hm, hr⟩ := hk
    refine ⟨m, ?_, (h.refusesMember_iff _ m).mp hr⟩
    show First (fun m => ¬W.Accepts d m) (World.survivors d catalog) m
    rw [← h.survivors_eq catalog]
    exact (First.congr fun m _ => not_congr (h.accepts_iff m)).mp hm
  | supported =>
    obtain ⟨m, hm, rfl⟩ := hk
    refine ⟨m, ?_, rfl⟩
    show First (fun m => d.substitute? m.name = none ∧ _) (World.survivors d catalog) m
    rw [← h.survivors_eq catalog]
    refine (First.congr fun m _ => and_congr ?_ Iff.rfl).mp hm
    rw [h.substitute]
  | distinct =>
    show ¬((World.survivors d catalog).map Member.name).Nodup ∧
      f = .invalid [.duplicateLabels (Plan.duplicates
        ((World.survivors d catalog).map Member.name))]
    rw [← h.survivors_eq catalog]
    exact hk

end Agrees

end Config

/-! ### Refused names -/

namespace World

variable {W : World} {b : Builder} {c d : Config} {catalog : Catalog} {f g : Failure}

/-- A refused name is reported as a configuration that is turned down, unless it has no text. -/
theorem kind_of_refusesName {refusal : String → Rejection} {n : Name}
    (hr : ∀ t, (refusal t).kind = .configuration) (h : W.RefusesName refusal n f) :
    f.kind = .rejection .configuration ∨ W.behaviour.text n.value = .error f := by
  obtain ⟨t, -, rfl⟩ | ht := h
  · exact .inl (congrArg Failure.Kind.rejection (hr t))
  · exact .inr ht

/-- A condition that refuses names reports a configuration that is turned down, unless asking for
the text of a name fails. -/
theorem kind_of_fails {k : Condition} (hk : k = .ignored ∨ k = .substituted)
    (h : k.Fails W { b with config := c } catalog f) :
    f.kind = .rejection .configuration ∨ W.NameFails c f := by
  obtain rfl | rfl := hk
  · obtain ⟨n, hn, hr⟩ := h
    refine (kind_of_refusesName (fun _ => rfl) hr).imp_right fun ht => ?_
    exact ⟨n, List.mem_append_left _ hn.mem, ht⟩
  · obtain ⟨n, hn, hr⟩ := h
    refine (kind_of_refusesName (fun _ => rfl) hr).imp_right fun ht => ?_
    exact ⟨n, List.mem_append_right _ hn.mem, ht⟩

/-- A condition that fails for one of two configurations that agree fails for the other, in the same
way unless a name that is refused has no text. -/
theorem fails_of_agrees (h : c.Agrees d) {k : Condition}
    (hk : k.Fails W { b with config := c } catalog f) :
    ∃ g, k.Fails W { b with config := d } catalog g ∧
      (f.kind = g.kind ∨ W.NameFails c f ∨ W.NameFails d g) := by
  by_cases hname : k = .ignored ∨ k = .substituted
  -- some name is refused both times, but not always the same one
  · have hnot : ¬k.Holds W { b with config := c } catalog :=
      (Condition.exists_fails_iff k).mp ⟨f, hk⟩
    obtain ⟨g, hg⟩ := (Condition.exists_fails_iff k).mpr fun hd => hnot (h.symm.holds hd)
    refine ⟨g, hg, ?_⟩
    obtain hf | hf := kind_of_fails hname hk
    · obtain hg | hg := kind_of_fails hname hg
      · exact .inl (hf.trans hg.symm)
      · exact .inr (.inr hg)
    · exact .inr (.inl hf)
  · rw [not_or] at hname
    exact ⟨f, h.fails hname.1 hname.2 hk, .inl rfl⟩

/-- Builds of configurations that agree succeed alike or fail alike. -/
theorem build_of_agrees (W : World) (b : Builder) (h : c.Agrees d) :
    (∃ r notes notes', W.build { b with config := c } = .ok (r, notes) ∧
      W.build { b with config := d } = .ok (r, notes')) ∨
    ∃ f g, W.build { b with config := c } = .error f ∧ W.build { b with config := d } = .error g ∧
      (f.kind = g.kind ∨ W.NameFails c f ∨ W.NameFails d g) := by
  cases hc : W.catalog b.target c.useFields c.useProperties with
  | error g =>
    have hd : W.catalog b.target d.useFields d.useProperties = .error g := by
      rw [← h.useFields, ← h.useProperties, hc]
    exact .inr ⟨_, _, build_of_catalog_error (b := { b with config := c }) hc,
      build_of_catalog_error (b := { b with config := d }) hd, .inl rfl⟩
  | ok p =>
    obtain ⟨catalog, notes⟩ := p
    have hd : W.catalog b.target d.useFields d.useProperties = .ok (catalog, notes) := by
      rw [← h.useFields, ← h.useProperties, hc]
    cases hb : W.build { b with config := c } with
    | ok y =>
      obtain ⟨hk, rfl⟩ := (build_eq_ok_iff (b := { b with config := c }) hc).mp hb
      have hb' := (build_eq_ok_iff (b := { b with config := d }) hd).mpr
        ⟨fun k => h.holds (hk k), rfl⟩
      rw [← h.planFor_eq] at hb'
      exact .inl ⟨_, _, _, rfl, hb'⟩
    | error f =>
      obtain ⟨k, hearlier, hk⟩ := (build_eq_error_iff (b := { b with config := c }) hc).mp hb
      have hearlier' : ∀ j ∈ k.earlier, j.Holds W { b with config := d } catalog :=
        fun j hj => h.holds (hearlier j hj)
      obtain ⟨g, hg, hkind⟩ := fails_of_agrees h hk
      have hb' := (build_eq_error_iff (b := { b with config := d }) hd).mpr ⟨k, hearlier', hg⟩
      exact .inr ⟨f, g, rfl, hb', hkind⟩

end World

/-- **The order of configuration calls does not matter, except to names without texts.**  Two runs
of accepted calls of one intent leave builders that give the same renderer, or builders that both
fail.  Then the failures are of one kind, unless one of them comes from asking a name for its
text. -/
theorem build_arranged {W : World} {b : Builder} {ks ks' : List Call} {c d : Config}
    (hc : ks.foldlM W.call b.config = .ok c) (hd : ks'.foldlM W.call b.config = .ok d)
    (h : Change.SameIntent (ks.filterMap W.asked) (ks'.filterMap W.asked)) :
    (∃ r notes notes', W.build { b with config := c } = .ok (r, notes) ∧
      W.build { b with config := d } = .ok (r, notes')) ∨
    ∃ f g, W.build { b with config := c } = .error f ∧ W.build { b with config := d } = .error g ∧
      (f.kind = g.kind ∨ W.NameFails c f ∨ W.NameFails d g) := by
  obtain rfl := World.calls_eq_ok hc
  obtain rfl := World.calls_eq_ok hd
  exact World.build_of_agrees W b (Config.agrees_of_sameIntent b.config h)

/-! ### A name without a text -/

/-- A class of names whose text cannot be asked for. -/
def muteIdent : Ident := ⟨1, "Mute"⟩

/-- A class with one field. -/
def pointIdent : Ident := ⟨2, "Point"⟩

/-- The world with these two classes. -/
def muteWorld : World where
  language := .phrases
  library := .standard
  names := [("Point", .cls (.defined pointIdent)), ("Mute", .cls (.defined muteIdent))]
  classes := [{
      ident := pointIdent
      lineage := [.defined pointIdent, .known .object]
      layer := ⟨[], [("x", .cls (.known .int))]⟩
      dataFields := none
      modelFields := none
      parameters := none
      text := .titled
      printed := .titled },
    { ident := muteIdent
      lineage := [.defined muteIdent, .known .str, .known .object]
      layer := .empty
      dataFields := none
      modelFields := none
      parameters := none
      text := .computed (.raise "ValueError" "mute")
      printed := .titled }]
  instances := []
  store := []
  fresh := 3

/-- A new builder for the class with one field. -/
def pointBuilder : Builder := ⟨.defined pointIdent, .usual, .empty⟩

/-- A name that is a text, but has none. -/
def muteName : Value := .record (.defined muteIdent) (some (.text "y")) []

/-- Two names that do not exist, the one without a text first. -/
def muteFirst : List Call := [.useFields, .ignore [muteName, .text "z"]]

/-- The same names, the one without a text last. -/
def muteLast : List Call := [.ignore [.text "z", muteName], .useFields]

theorem sameIntent_mute : Change.SameIntent (muteFirst.filterMap muteWorld.asked)
    (muteLast.filterMap muteWorld.asked) := by
  have hfirst : muteFirst.filterMap muteWorld.asked =
      [.fields, .ignored [⟨.text "y", muteName⟩, .ofText "z"]] := by with_unfolding_all rfl
  have hlast : muteLast.filterMap muteWorld.asked =
      [.ignored [.ofText "z", ⟨.text "y", muteName⟩], .fields] := by with_unfolding_all rfl
  rw [hfirst, hlast]
  refine ⟨by simp, by simp, ?_, ?_, fun n => rfl⟩
  · simp [Name.SameSet, Change.ignoredNames]
  · simp [Name.SameSet, Change.substitutedNames]

theorem catalog_mute : muteWorld.catalog (.defined pointIdent) true false =
    .ok (⟨[⟨"x", .cls (.known .int), .field, false⟩]⟩, []) := by
  with_unfolding_all rfl

/-- The first of several names that are no fields decides how a build fails. -/
theorem build_mute {n : Name} {ns : List Name} {f : Failure} (hn : n.matches "x" = false)
    (h : muteWorld.RefusesName (.unknownIgnored · "Point") n f) :
    muteWorld.build { pointBuilder with config := ⟨true, false, n :: ns, []⟩ } = .error f := by
  refine (World.build_eq_error_iff
    (b := { pointBuilder with config := ⟨true, false, n :: ns, []⟩ }) catalog_mute).mpr
      ⟨.ignored, ?_, n, ⟨[], ns, rfl, ?_, by simp⟩, h⟩
  · intro j hj
    obtain rfl := List.mem_singleton.mp hj
    exact .inl rfl
  · rintro ⟨m, hm, hnm⟩
    obtain rfl := List.mem_singleton.mp hm
    rw [hn] at hnm
    cases hnm

/-- Both names are refused, and the order decides which of them: one is reported, and asking the
other one for its text fails. -/
theorem build_arranged_mute : ∃ c d f g,
    muteFirst.foldlM muteWorld.call pointBuilder.config = .ok c ∧
      muteLast.foldlM muteWorld.call pointBuilder.config = .ok d ∧
      muteWorld.build { pointBuilder with config := c } = .error f ∧
      muteWorld.build { pointBuilder with config := d } = .error g ∧
      f.kind ≠ g.kind ∧ (muteWorld.NameFails c f ∨ muteWorld.NameFails d g) := by
  have hc : muteFirst.foldlM muteWorld.call pointBuilder.config =
      .ok ⟨true, false, [⟨.text "y", muteName⟩, .ofText "z"], []⟩ := by with_unfolding_all rfl
  have hd : muteLast.foldlM muteWorld.call pointBuilder.config =
      .ok ⟨true, false, [.ofText "z", ⟨.text "y", muteName⟩], []⟩ := by with_unfolding_all rfl
  have hf : muteWorld.build { pointBuilder with
      config := ⟨true, false, [⟨.text "y", muteName⟩, .ofText "z"], []⟩ } =
        .error (.raised "ValueError" "mute") := build_mute (by decide) (.inr rfl)
  have hg : muteWorld.build { pointBuilder with
      config := ⟨true, false, [.ofText "z", ⟨.text "y", muteName⟩], []⟩ } =
        .error (.rejected (.unknownIgnored "z" "Point")) :=
    build_mute (by decide) (.inl ⟨"z", rfl, rfl⟩)
  have hkind : (Failure.raised "ValueError" "mute").kind ≠
      (Failure.rejected (.unknownIgnored "z" "Point")).kind := by decide
  refine ⟨_, _, _, _, hc, hd, hf, hg, hkind, ?_⟩
  obtain ⟨_, _, _, h, -⟩ | ⟨f, g, hf', hg', h⟩ := build_arranged hc hd sameIntent_mute
  · cases hf.symm.trans h
  · cases hf.symm.trans hf'
    cases hg.symm.trans hg'
    exact h.resolve_left hkind

end RecordText
