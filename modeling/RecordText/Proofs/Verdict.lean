/-
What a build reports.

A build gives a renderer, or it reports the first condition that does not hold, or it escapes: it
stops with a failure that reports no condition.

* `build_verdict` — **a renderer comes out exactly when all six conditions hold, and otherwise the
  first one that does not hold is reported**, provided that the candidates of the class can be told
  and that the types of its surviving members can be compared with what their substitutes accept;
* `build_escapes_iff` — **all the ways to escape**: annotations of the class with a fault that is
  not caught, a refused name that has no text, a signature with such a fault, a comparison with the
  class that refuses it, and labels that stand twice.
-/
import RecordText.Proofs.Assignability
import RecordText.Proofs.Building
import RecordText.Proofs.Faults
import RecordText.Proofs.Signatures

namespace RecordText

/-! ### Reports -/

/-- A failure that reports the condition. -/
def Condition.Reports (f : Failure) : Condition → Prop
  | supported => ∃ r, f = .rejected r ∧ r.kind = .unsupported
  | distinct => ∃ labels, f = .invalid [.duplicateLabels labels]
  | _ => ∃ r, f = .rejected r ∧ r.kind = .configuration

/-- The types of the surviving members can be compared with what their substitutes accept. -/
def World.Compares (W : World) (c : Config) (m : Member) : Prop :=
  ∀ s, c.substitute? m.name = some s →
    ∃ t r, W.acceptedType s = .ok t ∧ W.hierarchy.assignable m.declared t = .ok r

/-- Asking for the text of a configured name fails. -/
def World.NameFails (W : World) (c : Config) (f : Failure) : Prop :=
  ∃ n ∈ c.ignored ++ c.substitutes.map Prod.fst, W.behaviour.text n.value = .error f

namespace Condition

variable {W : World} {b : Builder} {catalog : Catalog} {f : Failure}

theorem exists_first_iff {α : Type} {p q : α → Prop} {r : α → Failure → Prop} {xs : List α}
    (h : ∀ x, p x ↔ ¬q x) (hr : ∀ x, p x → ∃ f, r x f) :
    (∃ f x, First p xs x ∧ r x f) ↔ ¬∀ x ∈ xs, q x := by
  rw [← First.not_forall_iff h]
  constructor
  · rintro ⟨f, x, hx, -⟩
    exact ⟨x, hx⟩
  · rintro ⟨x, hx⟩
    obtain ⟨f, hf⟩ := hr x hx.holds
    exact ⟨f, x, hx, hf⟩

/-- A condition either holds or has a failure. -/
theorem exists_fails_iff (k : Condition) :
    (∃ f, k.Fails W b catalog f) ↔ ¬k.Holds W b catalog := by
  cases k with
  | mode => simp [Fails, Holds]
  | ignored => exact exists_first_iff (fun _ => Iff.rfl) fun n _ => W.exists_refusesName _ n
  | substituted => exact exists_first_iff (fun _ => Iff.rfl) fun n _ => W.exists_refusesName _ n
  | accepted =>
    exact exists_first_iff (fun _ => Iff.rfl) fun m hm => (W.accepts_or_refuses _ _ m).mp hm
  | supported =>
    refine exists_first_iff (fun m => ?_) fun m _ => ⟨_, rfl⟩
    simp
  | distinct => simp [Fails, Holds]

/-- What a failure of a condition says, when types can be compared. -/
theorem reports_of_fails {k : Condition} (h : k.Fails W b catalog f)
    (hc : ∀ m ∈ World.survivors b.config catalog, W.Compares b.config m) :
    k.Reports f ∨ W.NameFails b.config f := by
  cases k with
  | mode =>
    obtain ⟨-, rfl⟩ := h
    exact .inl ⟨_, rfl, rfl⟩
  | ignored =>
    obtain ⟨n, hn, ⟨t, -, rfl⟩ | ht⟩ := h
    · exact .inl ⟨_, rfl, rfl⟩
    · exact .inr ⟨n, List.mem_append_left _ hn.mem, ht⟩
  | substituted =>
    obtain ⟨n, hn, ⟨t, -, rfl⟩ | ht⟩ := h
    · exact .inl ⟨_, rfl, rfl⟩
    · exact .inr ⟨n, List.mem_append_right _ hn.mem, ht⟩
  | accepted =>
    obtain ⟨m, hm, s, hs, hr⟩ := h
    -- both questions have an answer, so only the negative one is left
    obtain ⟨t, r, ht, ha⟩ := hc m hm.mem s hs
    simp only [ht, ha, reduceCtorEq, false_and, exists_false, false_or, Except.ok.injEq,
      exists_eq_left'] at hr
    exact .inl ⟨_, hr.2, rfl⟩
  | supported =>
    obtain ⟨m, -, rfl⟩ := h
    exact .inl ⟨_, rfl, rfl⟩
  | distinct =>
    obtain ⟨-, rfl⟩ := h
    exact .inl ⟨_, rfl⟩

end Condition

/-- **A renderer comes out exactly when all conditions hold, and otherwise the first one that does
not hold is reported.**  The one exception is a class whose candidates cannot be told, because a
fault ends both ways of resolution for its annotations.  A report shows the name that it is about,
so it is lost when that name has no text. -/
theorem build_verdict (W : World) (b : Builder) :
    (∃ f, W.Untold b.target b.config.useFields b.config.useProperties f ∧
      W.build b = .error (.fault f)) ∨
    ∃ catalog notes,
      W.catalog b.target b.config.useFields b.config.useProperties = .ok (catalog, notes) ∧
      ((∃ y, W.build b = .ok y) ↔ ∀ k : Condition, k.Holds W b catalog) ∧
      ((∀ m ∈ World.survivors b.config catalog, W.Compares b.config m) →
        ∀ k : Condition, ¬k.Holds W b catalog → (∀ j ∈ k.earlier, j.Holds W b catalog) →
          ∃ f, W.build b = .error f ∧ (k.Reports f ∨ W.NameFails b.config f)) := by
  cases hc : W.catalog b.target b.config.useFields b.config.useProperties with
  | error g =>
    exact .inl ⟨g, World.catalog_eq_error_iff.mp hc, World.build_of_catalog_error hc⟩
  | ok c =>
    obtain ⟨catalog, notes⟩ := c
    refine .inr ⟨catalog, notes, rfl, ?_, ?_⟩
    · constructor
      · rintro ⟨y, hy⟩
        exact ((World.build_eq_ok_iff hc).mp hy).1
      · intro h
        exact ⟨_, (World.build_eq_ok_iff hc).mpr ⟨h, rfl⟩⟩
    -- a condition that does not hold has a failure, and it is the one that is reached
    · intro hcmp k hk hfirst
      obtain ⟨f, hf⟩ := (Condition.exists_fails_iff k).mpr hk
      exact ⟨f, (World.build_eq_error_iff hc).mpr ⟨k, hfirst, hf⟩,
        Condition.reports_of_fails hf hcmp⟩

/-- A model with a field that has no support. -/
def looseWorld : World := .ofModel [("data", .any)]

/-- A substitute for a name that does not exist. -/
def looseBuilder : Builder := .ofModel [("date", ⟨.builtin .text, none⟩)]

/-- Two conditions do not hold, and the earlier one is reported. -/
theorem build_verdict_loose :
    ∃ catalog, ¬Condition.substituted.Holds looseWorld looseBuilder catalog ∧
      ¬Condition.supported.Holds looseWorld looseBuilder catalog ∧
      ∃ f, looseWorld.build looseBuilder = .error f ∧
        (Condition.substituted.Reports f ∨ looseWorld.NameFails looseBuilder.config f) := by
  obtain ⟨notes, hc⟩ := World.catalog_ofModel [("data", .any)] (by simp [isPrivate])
  have hm : ∀ m ∈ World.survivors looseBuilder.config ⟨[⟨"data", .any, .field, false⟩]⟩,
      m = ⟨"data", .any, .field, false⟩ := fun _ => List.mem_singleton.mp
  obtain ⟨f, h, -⟩ | ⟨catalog, notes', hc', -, hr⟩ := build_verdict looseWorld looseBuilder
  · cases (World.catalog_eq_error_iff.mpr h).symm.trans hc
  · cases hc'.symm.trans hc
    have hs : ¬Condition.substituted.Holds looseWorld looseBuilder
        ⟨[⟨"data", .any, .field, false⟩]⟩ := by
      intro h
      obtain ⟨m, hmem, hn⟩ := h _ (List.mem_singleton.mpr rfl)
      obtain rfl := hm m hmem
      exact absurd hn (by decide)
    -- the only member has no substitute, so there is nothing to compare
    refine ⟨_, hs, ?_, hr ?_ .substituted hs ?_⟩
    · intro h
      exact h _ (List.mem_singleton.mpr rfl) rfl (by decide)
    · intro m hmem s hs
      obtain rfl := hm m hmem
      cases hs
    · simp only [Condition.earlier, List.forall_mem_cons]
      exact ⟨.inl rfl, fun n hn => absurd hn List.not_mem_nil, by simp⟩

/-- A class with an empty text in the annotation of its only field. -/
def emptyTextWorld : World where
  language := .phrases
  library := .standard
  names := [(modelIdent.name, .cls (.defined modelIdent))]
  classes := [{
    ident := modelIdent
    lineage := [.defined modelIdent, .known .object]
    layer := ⟨[], [("x", .text "")]⟩
    dataFields := none
    modelFields := none
    parameters := none
    text := .titled
    printed := .titled }]
  instances := []
  store := []
  fresh := 2

/-- Ignoring the field does not help. -/
theorem build_emptyText_ignored :
    emptyTextWorld.build ⟨.defined modelIdent, .usual,
      ⟨true, false, [⟨.text "x", .text "x"⟩], []⟩⟩ = .error (.fault .emptyText) :=
  World.build_of_catalog_error rfl

/-! ### Escapes -/

/-- The failures that a build may end with are rejections of a configuration or of a member without
support, whoever raised them. -/
def Failure.IsRefusal (f : Failure) : Prop :=
  f.kind = .rejection .configuration ∨ f.kind = .rejection .unsupported

/-- A build that stops at the condition ends with a failure that is no refusal. -/
def Condition.Escapes (W : World) (b : Builder) (catalog : Catalog) (f : Failure) :
    Condition → Prop
  | ignored => ∃ n, First (fun n => ¬∃ m ∈ catalog.candidates, n.matches m.name = true)
      b.config.ignored n ∧ W.behaviour.text n.value = .error f ∧ ¬f.IsRefusal
  | substituted => ∃ n, First (fun n => ¬∃ m ∈ World.survivors b.config catalog,
      n.matches m.name = true) (b.config.substitutes.map Prod.fst) n ∧
        W.behaviour.text n.value = .error f ∧ ¬f.IsRefusal
  | accepted => ∃ m s, First (fun m => ¬W.Accepts b.config m)
      (World.survivors b.config catalog) m ∧ b.config.substitute? m.name = some s ∧
        ((∃ t g, s.input = none ∧ W.scope.Stops (W.signatureOf s.function) t g ∧
          g.leavesRaw = false ∧ f = .fault g ∧ ¬f.IsRefusal) ∨
        ∃ t, W.acceptedType s = .ok t ∧
          W.hierarchy.assignable m.declared t = .error .wrongType ∧ f = .fault .wrongType)
  | distinct => ¬((World.survivors b.config catalog).map Member.name).Nodup ∧
      f = .invalid [.duplicateLabels (Plan.duplicates
        ((World.survivors b.config catalog).map Member.name))]
  | _ => False

namespace Condition

variable {W : World} {b : Builder} {catalog : Catalog} {f : Failure}

theorem isRefusal_rejected {r : Rejection} (h : r.kind = .configuration ∨ r.kind = .unsupported) :
    (Failure.rejected r).IsRefusal :=
  h.imp (congrArg Failure.Kind.rejection) (congrArg Failure.Kind.rejection)

theorem not_isRefusal_wrongType : ¬(Failure.fault .wrongType).IsRefusal := by
  rintro (h | h) <;> cases h

/-- Refusing a name escapes when the name has no text. -/
theorem refusesName_escapes_iff {refusal : String → Rejection} {n : Name}
    (h : ∀ t, (refusal t).kind = .configuration) :
    W.RefusesName refusal n f ∧ ¬f.IsRefusal ↔
      W.behaviour.text n.value = .error f ∧ ¬f.IsRefusal := by
  constructor
  · rintro ⟨⟨t, -, rfl⟩ | ht, hf⟩
    · exact absurd (isRefusal_rejected (.inl (h t))) hf
    · exact ⟨ht, hf⟩
  · rintro ⟨ht, hf⟩
    exact ⟨.inr ht, hf⟩

/-- A failure of a condition escapes when it is no refusal. -/
theorem escapes_iff (k : Condition) :
    k.Escapes W b catalog f ↔ k.Fails W b catalog f ∧ ¬f.IsRefusal := by
  cases k with
  | mode =>
    refine iff_of_false id ?_
    rintro ⟨⟨-, rfl⟩, h⟩
    exact h (isRefusal_rejected (.inl rfl))
  | ignored =>
    have hr : ∀ t, (Rejection.unknownIgnored t b.target.title).kind = .configuration :=
      fun _ => rfl
    simp only [Escapes, Fails, ← exists_and_right, and_assoc, refusesName_escapes_iff hr]
  | substituted =>
    have hr : ∀ t, (Rejection.unknownSubstituted t b.target.title).kind = .configuration :=
      fun _ => rfl
    simp only [Escapes, Fails, ← exists_and_right, and_assoc, refusesName_escapes_iff hr]
  | accepted =>
    constructor
    · rintro ⟨m, s, hm, hs, ⟨t, g, hnone, hstops, hraw, rfl, h⟩ | ⟨t, ht, ha, rfl⟩⟩
      · exact ⟨⟨m, hm, s, hs, .inl ⟨g, World.acceptedType_eq_error_iff.mpr
          ⟨hnone, t, hstops, hraw⟩, rfl⟩⟩, h⟩
      · exact ⟨⟨m, hm, s, hs, .inr ⟨t, ht, .inl ⟨_, ha, rfl⟩⟩⟩, not_isRefusal_wrongType⟩
    -- the type is not told, or not compared, or does not fit, which is a refusal
    · rintro ⟨⟨m, hm, s, hs, ⟨g, hg, rfl⟩ | ⟨t, ht, ⟨g, ha, rfl⟩ | ⟨-, rfl⟩⟩⟩, h⟩
      · obtain ⟨hnone, t, hstops, hraw⟩ := World.acceptedType_eq_error_iff.mp hg
        exact ⟨m, s, hm, hs, .inl ⟨t, g, hnone, hstops, hraw, rfl, h⟩⟩
      · obtain rfl : g = .wrongType := W.hierarchy.assignable_failsWith _ _ g ha
        exact ⟨m, s, hm, hs, .inr ⟨t, ht, ha, rfl⟩⟩
      · exact absurd (isRefusal_rejected (.inl rfl)) h
  | supported =>
    refine iff_of_false id ?_
    rintro ⟨⟨m, -, rfl⟩, h⟩
    exact h (isRefusal_rejected (.inr rfl))
  | distinct =>
    refine ⟨fun h => ⟨h, ?_⟩, And.left⟩
    obtain ⟨-, rfl⟩ := h
    rintro (h | h) <;> cases h

end Condition

/-- **All the ways in which a build ends neither with a renderer nor with a refusal.** -/
theorem build_escapes_iff (W : World) (b : Builder) (f : Failure) :
    (W.build b = .error f ∧ ¬f.IsRefusal) ↔
      (∃ g, W.Untold b.target b.config.useFields b.config.useProperties g ∧ f = .fault g ∧
        ¬f.IsRefusal) ∨
      ∃ catalog notes, ∃ k : Condition,
        W.catalog b.target b.config.useFields b.config.useProperties = .ok (catalog, notes) ∧
          (∀ j ∈ k.earlier, j.Holds W b catalog) ∧ k.Escapes W b catalog f := by
  cases hc : W.catalog b.target b.config.useFields b.config.useProperties with
  | error g =>
    rw [World.build_of_catalog_error hc]
    constructor
    · rintro ⟨h, hf⟩
      obtain rfl := Except.error.inj h
      exact .inl ⟨g, World.catalog_eq_error_iff.mp hc, rfl, hf⟩
    · rintro (⟨g', hg', rfl, hf⟩ | ⟨_, _, _, h, -⟩)
      · obtain rfl := Except.error.inj (hc.symm.trans (World.catalog_eq_error_iff.mpr hg'))
        exact ⟨rfl, hf⟩
      · cases h
  | ok c =>
    obtain ⟨catalog, notes⟩ := c
    rw [World.build_eq_error_iff hc]
    constructor
    · rintro ⟨⟨k, hk, hf⟩, h⟩
      exact .inr ⟨catalog, notes, k, rfl, hk, (Condition.escapes_iff k).mpr ⟨hf, h⟩⟩
    · rintro (⟨g, hg, -⟩ | ⟨_, _, k, h, hk, he⟩)
      · cases hc.symm.trans (World.catalog_eq_error_iff.mpr hg)
      · cases h
        obtain ⟨hf, h⟩ := (Condition.escapes_iff k).mp he
        exact ⟨⟨k, hk, hf⟩, h⟩

/-- A literal number meets the class that refuses comparison. -/
theorem build_literal_refused :
    (World.ofModel [("x", .literal [.int 1])]).build
        (.ofModel [("x", ⟨.builtin .text, some (.cls (.known .proto))⟩)]) =
      .error (.fault .wrongType) := by
  obtain ⟨notes, hc⟩ := World.catalog_ofModel [("x", .literal [.int 1])] (by simp [isPrivate])
  have ha : ∀ H : Hierarchy, H.assignable (.literal [.int 1]) (.cls (.known .proto)) =
      .error .wrongType := by
    intro H
    simp [Hierarchy.assignable, Ty.isAny, Hierarchy.assignableLeaf, Hierarchy.asClass,
      Ty.originClass?, Hierarchy.acceptsAll, Hierarchy.subclass?, Hierarchy.refuses]
  refine (World.build_eq_error_iff hc).mpr ⟨.accepted, ?_,
    ⟨"x", .literal [.int 1], .field, false⟩, ⟨[], [], rfl, fun h => ?_, by simp⟩, _, rfl,
    .inr ⟨_, rfl, .inl ⟨_, ha _, rfl⟩⟩⟩
  · simp only [Condition.earlier, List.forall_mem_cons]
    refine ⟨.inl rfl, fun n hn => absurd hn List.not_mem_nil, fun n hn => ?_, by simp⟩
    obtain rfl := List.mem_singleton.mp hn
    exact ⟨_, List.mem_singleton.mpr rfl, by decide⟩
  · obtain ⟨t, ht, hok⟩ := h _ rfl
    cases ht
    rw [ha] at hok
    cases hok

end RecordText
