/-
Class variables among annotations.

An annotation may be written as a class variable, as a type or as a text that reads as one: that
denotes a class variable, if it denotes anything.  Such an annotation makes no field, with one
exception: where the annotations of a lineage are resolved one by one, a text that cannot be
resolved counts as the universal type, whatever it announces.

* `Scope.isClassVar_of_resolve` — a text that reads as a class variable resolves to one, if it
  resolves at all;
* `Scope.readsClassVar_of_phrase` — so does the phrase for class variables, with any argument;
* `World.Degrades` — the exception: some annotation cannot be resolved, and the class variable is a
  text that does not resolve to one by itself;
* `class_variables_spared` — **a class variable is reported as a field exactly where it degrades**,
  and then it stops every build that neither ignores nor substitutes it.
-/
import RecordText.Proofs.FieldOrder

namespace RecordText

/-! ### Types -/

namespace Ty

variable {check : TextCheck} {t u : Ty}

/-- References inside of a class variable leave it one. -/
theorem isClassVar_expand {onText : String → Except Fault Ty} (h : t.isClassVar = true)
    (hu : t.expand check onText = .ok u) : u.isClassVar = true := by
  unfold isClassVar at h
  split at h
  · obtain rfl := Except.ok.inj hu
    rfl
  · obtain ⟨v, -, hv⟩ := bind_eq_ok_iff.mp hu
    obtain rfl := Except.ok.inj hv
    rfl
  · cases h

theorem argument_of_isClassVar (h : t.isClassVar = true) : t.argument check true = .ok t := by
  unfold isClassVar at h
  split at h
  · rfl
  · rfl
  · cases h

/-- Brackets after the form of class variables make one. -/
theorem isClassVar_of_subscript {brackets : ClassRef → Brackets} {ts : List Ty}
    (h : subscript check brackets .classVarForm ts = .ok u) : u.isClassVar = true := by
  match ts, h with
  | [], h => cases h
  | [v], h =>
    obtain ⟨w, -, hw⟩ := bind_eq_ok_iff.mp h
    obtain rfl := Except.ok.inj hw
    rfl
  | _ :: _ :: _, h => cases h

end Ty

/-! ### Texts -/

/-- Whether a meaning is a class variable. -/
def Meaning.isClassVar : Meaning → Bool
  | .type t => t.isClassVar
  | _ => false

namespace Scope

variable {S : Scope} {s : String} {t u : Ty}

/-- The text denotes a class variable, if it denotes anything. -/
def ReadsClassVar (S : Scope) (s : String) : Prop :=
  ∀ m, S.denote (Ty.referenceSource s) = .ok m → m.isClassVar = true

/-- **A text that reads as a class variable resolves to one, if it resolves at all.** -/
theorem isClassVar_of_resolve (h : S.ReadsClassVar s) (ht : S.resolve true (.text s) = .ok t) :
    t.isClassVar = true := by
  rw [resolve, referenced] at ht
  cases hd : S.language.depth with
  | zero =>
    rw [hd] at ht
    cases ht
  | succ k =>
    rw [hd, reference] at ht
    obtain ⟨-, -, ht⟩ := bind_eq_ok_iff.mp ht
    obtain ⟨m, hm, ht⟩ := bind_eq_ok_iff.mp ht
    obtain ⟨u, hu, hexpand⟩ := bind_eq_ok_iff.mp ht
    have hv := h m hm
    -- class variables are let through, and what stands in them is resolved
    cases m with
    | type v =>
      obtain rfl := Except.ok.inj ((Ty.argument_of_isClassVar hv).symm.trans hu)
      exact Ty.isClassVar_expand hv hexpand
    | value v => cases hv
    | mark => cases hv

/-- A type that is a class variable stays one on the first way. -/
theorem isClassVar_resolve {allow : Bool} (h : t.isClassVar = true)
    (hu : S.resolve allow t = .ok u) : u.isClassVar = true := by
  have hexpand : t.expand S.language.check (S.referenced false) = .ok u := by
    cases t with
    | absent => cases h
    | text s => cases h
    | _ => exact hu
  exact Ty.isClassVar_expand h hexpand

end Scope

/-! ### Phrases -/

/-- A text is read from its tokens. -/
theorem Phrase.read_of_tokens {s : String} {ts : List Token} {q : Phrase}
    (hgap : s.toList.head?.any isGap = false) (hts : tokens .gap 0 s.toList = .ok ts)
    (hq : phrase (8 * ts.length + 8) ts = .ok (q, [])) : read s = .ok q := by
  rw [read, hgap, hts]
  show (phrase (8 * ts.length + 8) ts >>= _) = _
  rw [hq]
  rfl

namespace Namespace

variable {N : Namespace} {m : Meaning}

theorem isClassVar_of_subscript {args : List Meaning}
    (h : N.subscript (.type .classVarForm) args = .ok m) : m.isClassVar = true := by
  obtain ⟨t, ht, hm⟩ := bind_eq_ok_iff.mp h
  obtain rfl := Except.ok.inj hm
  exact Ty.isClassVar_of_subscript ht

/-- Whether a phrase is the form of class variables, with or without brackets after it. -/
def IsClassVarPhrase (N : Namespace) : Phrase → Prop
  | .subscript head _ => N.meaning head = .ok (.type .classVarForm)
  | q => N.meaning q = .ok (.type .classVarForm)

/-- Such a phrase denotes a class variable, whatever stands in the brackets. -/
theorem IsClassVarPhrase.meaning {q : Phrase} (h : N.IsClassVarPhrase q)
    (hm : N.meaning q = .ok m) : m.isClassVar = true := by
  unfold IsClassVarPhrase at h
  split at h
  · rw [Namespace.meaning, h, ok_bind] at hm
    obtain ⟨ms, -, hm⟩ := bind_eq_ok_iff.mp hm
    exact isClassVar_of_subscript hm
  · obtain rfl := Except.ok.inj (hm.symm.trans h)
    rfl

end Namespace

/-- In the language of phrases, a text that is such a phrase reads as a class variable. -/
theorem Scope.readsClassVar_of_phrase {S : Scope} {s : String} {q : Phrase}
    (hL : S.language = .phrases) (hq : Phrase.read (Ty.referenceSource s) = .ok q)
    (h : S.IsClassVarPhrase q) : S.ReadsClassVar s := by
  intro m hm
  rw [denote, hL] at hm
  obtain ⟨q', hq', hm⟩ := bind_eq_ok_iff.mp hm
  obtain rfl := Except.ok.inj (hq.symm.trans hq')
  exact h.meaning hm

namespace Placed

variable {S : Scope} {p : Placed} {t : Ty}

/-- The annotation is written as a class variable: as a type, or as a text that reads as one. -/
def IsClassVar (S : Scope) (p : Placed) : Prop :=
  p.type.isClassVar = true ∨ ∃ s, p.type = .text s ∧ (p.before S).ReadsClassVar s

/-- The annotation is a text that does not resolve to a class variable by itself. -/
def Missed (S : Scope) (p : Placed) : Prop :=
  ∃ s, p.type = .text s ∧
    ∀ t, (p.after S).resolve true (.text s) = .ok t → t.isClassVar = false

theorem IsClassVar.resolve (h : p.IsClassVar S) (ht : p.resolve S true = .ok t) :
    t.isClassVar = true := by
  obtain ⟨attributes, name, type⟩ := p
  rcases h with h | ⟨s, rfl, h⟩
  · exact Scope.isClassVar_resolve h ht
  · exact Scope.isClassVar_of_resolve h ht

/-- What a text is resolved to by itself. -/
theorem resolveApart_text {attributes : List (String × Attribute)} {name s : String}
    (ht : resolveApart S ⟨attributes, name, .text s⟩ = .ok t) :
    (after S ⟨attributes, name, .text s⟩).resolve true (.text s) = .ok t ∨
      (∃ f, (after S ⟨attributes, name, .text s⟩).resolve true (.text s) = .error f) ∧
        t = Ty.any := by
  rw [resolveApart, Scope.resolveApart] at ht
  cases hr : (after S ⟨attributes, name, .text s⟩).resolve true (.text s) with
  | ok u =>
    rw [hr] at ht
    exact .inl ht
  | error f =>
    rw [hr] at ht
    dsimp only at ht
    split_ifs at ht
    exact .inr ⟨⟨f, rfl⟩, (Except.ok.inj ht).symm⟩

/-- On the second way, a class variable is none exactly where it is missed. -/
theorem IsClassVar.missed_iff (h : p.IsClassVar S) (ht : p.resolveApart S = .ok t) :
    t.isClassVar = false ↔ p.Missed S := by
  obtain ⟨attributes, name, type⟩ := p
  rcases h with h | ⟨s, rfl, -⟩
  · have htext : ∀ s, type ≠ .text s := by
      rintro s rfl
      cases h
    obtain rfl := Except.ok.inj ((Scope.resolveApart_of_ne_text _ htext).symm.trans ht)
    refine iff_of_false (fun hno => ?_) fun ⟨s, hs, _⟩ => htext s hs
    cases h.symm.trans hno
  · constructor
    · intro hno
      refine ⟨s, rfl, fun u hu => ?_⟩
      rcases resolveApart_text ht with hr | ⟨⟨f, hf⟩, -⟩
      · obtain rfl := Except.ok.inj (hr.symm.trans hu)
        exact hno
      · cases hf.symm.trans hu
    · rintro ⟨s', hs, hmissed⟩
      obtain rfl := Ty.text.inj hs
      rcases resolveApart_text ht with hr | ⟨-, rfl⟩
      · exact hmissed t hr
      · rfl

/-- Where the class does not take the text differently, a class variable that is missed cannot be
resolved, and so it counts as the universal type. -/
theorem Missed.resolveApart (h : p.Missed S)
    (hread : ∀ s, p.type = .text s → (p.after S).ReadsClassVar s) :
    (∃ s f, p.type = .text s ∧ (p.after S).resolve true (.text s) = .error f) ∧
      ∀ t, p.resolveApart S = .ok t → t = Ty.any := by
  obtain ⟨attributes, name, type⟩ := p
  obtain ⟨s, rfl, hmissed⟩ := h
  have hno : ∀ t, (after S ⟨attributes, name, .text s⟩).resolve true (.text s) ≠ .ok t := by
    intro t ht
    cases (hmissed t ht).symm.trans (Scope.isClassVar_of_resolve (hread s rfl) ht)
  constructor
  · cases hr : (after S ⟨attributes, name, .text s⟩).resolve true (.text s) with
    | ok t => exact absurd hr (hno t)
    | error f => exact ⟨s, f, rfl, hr⟩
  · intro t ht
    rcases resolveApart_text ht with hr | ⟨-, rfl⟩
    · exact absurd hr (hno t)
    · rfl

end Placed

/-! ### Fields -/

/-- A class variable is taken for a field: some annotation of the lineage cannot be resolved, and
the class variable is a text that does not resolve to one by itself. -/
def World.Degrades (W : World) (c : ClassRef) (p : Placed) : Prop :=
  (∃ q ∈ Placed.ofLayers (W.layers c), ∃ f, q.resolve W.scope true = .error f) ∧ p.Missed W.scope

/-- What a name that is annotated as a class variable makes of the fields. -/
structure World.Spares (W : World) (c : ClassRef) (n : String) (p : Placed) (fs : List Member) :
    Prop where
  /-- It is a field exactly where it degrades. -/
  listed_iff : n ∈ fs.map Member.name ↔
    W.Degrades c p ∧ isPrivate n = false ∧ ∀ g, Layer.find? (W.layers c) n ≠ some (.property g)
  /-- A class variable that is written as a type is never a field. -/
  type : p.type.isClassVar = true → n ∉ fs.map Member.name
  /-- Where all annotations are resolved together, no class variable is a field. -/
  together : (∀ q ∈ Placed.ofLayers (W.layers c), ∃ t, q.resolve W.scope true = .ok t) →
    n ∉ fs.map Member.name
  /-- Where the class does not take the text differently, a class variable that is a field cannot be
  resolved, is declared with the universal type, and stops every build with fields that neither
  ignores nor substitutes it. -/
  degraded : (∀ s, p.type = .text s → (p.after W.scope).ReadsClassVar s) →
    ∀ m ∈ fs, m.name = n →
      (∃ s f, p.type = .text s ∧ (p.after W.scope).resolve true (.text s) = .error f) ∧
        m = ⟨n, Ty.any, .field, false⟩ ∧
          ∀ b : Builder, b.target = c → b.config.useFields = true → b.config.ignores n = false →
            b.config.substitute? n = none → ∀ y, W.build b ≠ .ok y

namespace World

variable {W : World} {c : ClassRef} {fs : List Member} {notes : List Note}

/-- The fields of a class are candidates of every catalog that includes them. -/
theorem mem_candidates_of_field {useProperties : Bool} {catalog : Catalog} {ns : List Note}
    (hf : W.fields c = .ok (fs, notes)) (hc : W.catalog c true useProperties = .ok (catalog, ns))
    {m : Member} (hm : m ∈ fs) : m ∈ catalog.candidates := by
  rw [catalog_eq, if_pos rfl, hf, ok_bind] at hc
  obtain ⟨ps, -, hc⟩ := bind_eq_ok_iff.mp hc
  obtain ⟨rfl, -⟩ := Prod.mk.inj (Except.ok.inj hc)
  exact List.mem_append_left _ hm

/-- A field of the universal type stops every build that leaves it as it is. -/
theorem build_ne_ok_of_any {n : String} (hf : W.fields c = .ok (fs, notes))
    (hm : ⟨n, Ty.any, .field, false⟩ ∈ fs) {b : Builder} (hb : b.target = c)
    (hbf : b.config.useFields = true) (hconfig : b.config.ignores n = false)
    (hsub : b.config.substitute? n = none) (y : Renderer × List Note) : W.build b ≠ .ok y := by
  subst hb
  intro hy
  cases hc : W.catalog b.target b.config.useFields b.config.useProperties with
  | error g => cases hy.symm.trans (build_of_catalog_error hc)
  | ok r =>
    have hmem := mem_candidates_of_field hf (hbf ▸ hc) hm
    obtain ⟨hholds, -⟩ := (build_eq_ok_iff hc).mp hy
    exact hholds .supported _ (mem_survivors hmem rfl hconfig) hsub rfl

end World

section

variable {s : Session} {c : ClassRef} {n : String} {p : Placed} {fs : List Member}
  {notes : List Note}

/-- The type by which the fields of a class go for a class variable is one, unless it degrades. -/
theorem exists_type_of_classVar (hs : s.Reached) (hm : s.world.isModel c = false)
    (hd : s.world.dataFields? c = none) (hp : Layer.annotation? (s.world.layers c) n = some p)
    (hv : p.IsClassVar s.world.scope) (hf : s.world.fields c = .ok (fs, notes)) :
    ∃ typeOf t, Catalog.FieldsFollow (s.world.layers c) typeOf fs ∧ typeOf p = .ok t ∧
      (t.isClassVar = false ↔ s.world.Degrades c p) ∧
        (t.isClassVar = false → p.resolveApart s.world.scope = .ok t) := by
  have hmem : p ∈ Placed.ofLayers (s.world.layers c) :=
    (Scope.mem_of_latest? ((Placed.latest?_ofLayers (hs.annotatesOnce c) n).trans hp)).1
  rcases hs.fields_ways hm hd hf with hfollow | ⟨hsome, hfollow⟩
  · obtain ⟨t, ht⟩ := hfollow.typed p hmem
    have hno : t.isClassVar ≠ false := by
      rw [hv.resolve ht]
      decide
    refine ⟨_, t, hfollow, ht, iff_of_false hno ?_, fun h => absurd h hno⟩
    -- every annotation is resolved, so nothing degrades
    rintro ⟨⟨q, hq, f, hqf⟩, -⟩
    obtain ⟨u, hu⟩ := hfollow.typed q hq
    cases hqf.symm.trans hu
  · obtain ⟨t, ht⟩ := hfollow.typed p hmem
    exact ⟨_, t, hfollow, ht, (hv.missed_iff ht).trans (and_iff_right hsome).symm, fun _ => ht⟩

/-- **A class variable is reported as a field exactly where it degrades.** -/
theorem class_variables_spared (hs : s.Reached) (hm : s.world.isModel c = false)
    (hd : s.world.dataFields? c = none) (hp : Layer.annotation? (s.world.layers c) n = some p)
    (hv : p.IsClassVar s.world.scope) (hf : s.world.fields c = .ok (fs, notes)) :
    s.world.Spares c n p fs := by
  obtain ⟨typeOf, t, hfollow, ht, hdegrades, hapart⟩ := exists_type_of_classVar hs hm hd hp hv hf
  have hlisted : n ∈ fs.map Member.name ↔ s.world.Degrades c p ∧ isPrivate n = false ∧
      ∀ g, Layer.find? (s.world.layers c) n ≠ some (.property g) := by
    rw [hfollow.mem_names_iff hp ht, hdegrades]
    exact and_left_comm
  refine ⟨hlisted, fun htype hn => ?_, fun hall hn => ?_, fun hread m hmem hname => ?_⟩
  · obtain ⟨-, s, hs, -⟩ := (hlisted.mp hn).1
    rw [hs] at htype
    cases htype
  · obtain ⟨⟨q, hq, f, hqf⟩, -⟩ := (hlisted.mp hn).1
    obtain ⟨u, hu⟩ := hall q hq
    cases hqf.symm.trans hu
  · have hdegraded : s.world.Degrades c p := (hlisted.mp (hname ▸ List.mem_map_of_mem hmem)).1
    obtain ⟨hfails, hany⟩ := hdegraded.2.resolveApart hread
    obtain rfl := hany t (hapart (hdegrades.mpr hdegraded))
    obtain rfl : m = ⟨n, Ty.any, .field, false⟩ := hfollow.eq_memberOf hp ht hmem hname
    exact ⟨hfails, rfl, fun b hb hbf hconfig hsub =>
      World.build_ne_ok_of_any hf hmem hb hbf hconfig hsub⟩

end

/-! ### A class variable of a type that is not there -/

/-- A class with a class variable, written as a text with a name that means nothing. -/
def meterDefinitions : List Definition :=
  [.cls "Meter" .plain [] [.field "count" (.text "ClassVar[T]") none,
    .field "size" (.name "int") none]]

/-- That class. -/
def meterClass : ClassRef := .defined ⟨1, "Meter"⟩

/-- What it brings. -/
def meterLayer : Layer := ⟨[], [("count", .text "ClassVar[T]"), ("size", .cls (.known .int))]⟩

/-- The world with that class. -/
def meterWorld : World :=
  ⟨.phrases, .standard, [("Meter", .cls meterClass)], [⟨⟨1, "Meter"⟩,
    [meterClass, .known .object], meterLayer, none, none, none, .titled, .titled, none, []⟩], [],
    [], 2⟩

/-- The annotation of the class variable. -/
def meterCount : Placed := ⟨[], "count", .text "ClassVar[T]"⟩

theorem ofDefinitions_meter : World.ofDefinitions meterDefinitions = .ok meterWorld := by
  with_unfolding_all rfl

theorem read_meter : Phrase.read "ClassVar[T]" =
    .ok (.subscript (.name "ClassVar") [.name "T"]) := by
  have htokens : Phrase.tokens .gap 0 "ClassVar[T]".toList =
      .ok [.name "ClassVar", .mark '[', .name "T", .mark ']'] := by rfl
  exact Phrase.read_of_tokens (by decide +kernel) htokens (by rfl)

theorem resolve_meter {S : Scope} (hL : S.language = .phrases)
    (hform : S.name? "ClassVar" = some (.type .classVarForm)) (hname : S.name? "T" = none) :
    S.resolve true (.text "ClassVar[T]") = .error .unknownName := by
  have hsource : Ty.referenceSource "ClassVar[T]" = "ClassVar[T]" := by decide +kernel
  have hcheck : Ty.checkReference Phrase.check "ClassVar[T]" = .ok () := by
    rw [Ty.checkReference, if_neg (by decide +kernel), hsource, Phrase.check, read_meter]
    rfl
  have hdenote : S.denote (Ty.referenceSource "ClassVar[T]") = .error .unknownName := by
    simp only [hsource, Scope.denote, hL, Language.phrases, read_meter, ok_bind,
      Namespace.meaning, Namespace.meanings, hform, hname]
    rfl
  have hdepth : S.language.depth = 99 + 1 := by rw [hL]; rfl
  have hread : S.language.check = Phrase.check := by rw [hL]; rfl
  rw [Scope.resolve, Scope.referenced, hdepth, Scope.reference, hread, hcheck, ok_bind, hdenote]
  rfl

theorem isClassVar_meter : meterCount.IsClassVar meterWorld.scope :=
  .inr ⟨_, rfl, Scope.readsClassVar_of_phrase rfl read_meter rfl⟩

/-- The class variable cannot be resolved, so all annotations are resolved one by one. -/
theorem hintsOf_meter :
    meterWorld.scope.hintsOf true (Placed.ofLayers (meterWorld.layers meterClass)) =
      .ok [("count", Ty.any), ("size", .cls (.known .int))] := by
  have hbefore : meterCount.resolve meterWorld.scope true = .error .unknownName :=
    resolve_meter rfl rfl rfl
  have hafter : meterCount.resolveApart meterWorld.scope = .ok Ty.any := by
    have h : (meterCount.after meterWorld.scope).resolve true (.text "ClassVar[T]") =
        .error .unknownName := resolve_meter rfl rfl rfl
    simp only [Placed.resolveApart, Scope.resolveApart, meterCount] at h ⊢
    rw [h]
    rfl
  have hfirst : meterWorld.scope.FirstUnresolved true
      [meterCount, ⟨[], "size", .cls (.known .int)⟩] meterCount :=
    ⟨[], _, rfl, ⟨_, hbefore⟩, by simp⟩
  refine (Scope.hintsOf_of_firstUnresolved hfirst hbefore).trans ?_
  exact Scope.gather_cons_eq_ok_iff.mpr ⟨_, hafter, Scope.gather_cons_eq_ok_iff.mpr ⟨_, rfl, rfl⟩⟩

/-- The class variable is a field beside the other one. -/
theorem class_variables_spared_meter : ∃ W p fs notes,
    World.ofDefinitions meterDefinitions = .ok W ∧ (Session.start W).Reached ∧
      W.isModel meterClass = false ∧ W.dataFields? meterClass = none ∧
      Layer.annotation? (W.layers meterClass) "count" = some p ∧ p.IsClassVar W.scope ∧
      W.fields meterClass = .ok (fs, notes) ∧ fs.map Member.name = ["count", "size"] ∧
      W.Spares meterClass "count" p fs := by
  have hs := Session.reached_of_definitions ofDefinitions_meter
  have hW : meterWorld.Consistent := hs.consistent
  have hf := World.fields_eq hW (c := meterClass) rfl
  rw [Scope.classHints_eq, hintsOf_meter] at hf
  have hnames : (Catalog.fieldsOf (meterWorld.layers meterClass) none
      [("count", Ty.any), ("size", .cls (.known .int))]).map Member.name = ["count", "size"] := by
    with_unfolding_all rfl
  exact ⟨meterWorld, meterCount, _, _, ofDefinitions_meter, hs, rfl, rfl, rfl, isClassVar_meter, hf,
    hnames, class_variables_spared hs rfl rfl rfl isClassVar_meter hf⟩

end RecordText
