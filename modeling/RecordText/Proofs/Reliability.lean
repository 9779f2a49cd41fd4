/-
Renderers that cannot fail on their own account.

A renderer asks for the values of surviving members, calls substitutes with them, and asks for
texts.  Where all of these succeed and quoted members hold texts (`World.Serves`), every member has
its fragment, because the writer of a member always fits what is read for it.  And a failure of a
renderer is always one of something that it asked for:

* `exists_fragment` — a member that is served has its fragment;
* `foreign_fragment` — a member fails with a rejection only if something that is asked for it does;
* `render_reliable` — **so a renderer that was built succeeds when all survivors are served, and it
  raises none of the library's errors when nothing that it asks for does**;
* `iteration_escapes` — what it asks for is more than values, calls and texts: the elements of a
  value that stands where a single character should.
-/
import RecordText.Proofs.Distinction
import RecordText.Proofs.Faults
import RecordText.Proofs.Lineages

namespace RecordText

/-! ### Quotes -/

/-- A computation raises none of the library's errors. -/
abbrev Foreign {α : Type} (r : Except Failure α) : Prop := FailsWith (fun f => ¬f.IsOwn) r

/-- Only a text in the place of a type can raise an error of the library as a fault. -/
theorem foreign_fault {α : Type} {f : Fault} (h : ∀ title, f ≠ .raised title) :
    Foreign (.error (.fault f) : Except Failure α) := by
  refine FailsWith.error.mpr ?_
  rintro ⟨k, hk⟩
  cases f with
  | raised title => exact h title rfl
  | _ => cases hk

namespace Fragment

/-- Pieces that are texts can be put between quotes. -/
theorem exists_quotedPieces {vs : List Value} (h : ∀ w ∈ vs, ∃ s, w.text? = some s) :
    ∃ t, quotedPieces vs = .ok t := by
  have hbody : ∃ ss, (vs.map quotedPieces.escaped).mapM Behaviour.joined.textOf = .ok ss := by
    cases hm : (vs.map quotedPieces.escaped).mapM Behaviour.joined.textOf with
    | ok ss => exact ⟨ss, rfl⟩
    | error f =>
      obtain ⟨w, hw, hf⟩ := mapM_eq_error_iff.mp hm
      obtain ⟨v, hv, rfl⟩ := List.mem_map.mp hw.mem
      obtain ⟨s, hs⟩ := h v hv
      rw [quotedPieces.escaped, hs] at hf
      cases hf
  obtain ⟨ss, hss⟩ := hbody
  refine ⟨Text.singleQuote.toString ++ "".intercalate ss ++ Text.singleQuote.toString, ?_⟩
  rw [quotedPieces, Behaviour.joined, hss]
  rfl

/-- All other pieces are refused for their type. -/
theorem quotedPieces_failsWith (vs : List Value) :
    FailsWith (· = .wrongType) (quotedPieces vs) := by
  have htext (v : Value) : FailsWith (· = .wrongType) (Behaviour.joined.textOf v) := by
    unfold Behaviour.joined.textOf
    split
    · exact .pure _
    · exact FailsWith.throw.mpr rfl
  exact ((FailsWith.mapM htext _).bind fun _ => .pure _).bind fun _ => .pure _

theorem foreign_quotedPieces (vs : List Value) : Foreign (Fault.lift (quotedPieces vs)) := by
  cases h : quotedPieces vs with
  | ok t => exact .ok t
  | error f =>
    obtain rfl := quotedPieces_failsWith vs f h
    exact foreign_fault (by simp)

end Fragment

namespace Behaviour

variable {B : Behaviour} {v : Value} {s : String}

/-- A value gives all that a style of quotes asks of it: elements that are texts in the one style,
and in the other one both replacements and the text of what comes out of them. -/
structure Quotes (B : Behaviour) (k : Strategy) (v : Value) : Prop where
  elements : k = .char → v.ownText? = none →
    ∃ vs, B.elements v = .ok vs ∧ ∀ w ∈ vs, ∃ s, w.text? = some s
  replacements : k = .string → ∃ once twice t, Fragment.escaped B Text.backslash v = .ok once ∧
    Fragment.escaped B Text.doubleQuote once = .ok twice ∧ Fragment.spelled B twice = .ok t

/-- What a style of quotes asks of a value raises none of the library's errors. -/
structure ForeignQuotes (B : Behaviour) (k : Strategy) (v : Value) : Prop where
  elements : k = .char → v.ownText? = none → Foreign (B.elements v)
  first : k = .string → Foreign (Fragment.escaped B Text.backslash v)
  second : k = .string → ∀ once, Fragment.escaped B Text.backslash v = .ok once →
    Foreign (Fragment.escaped B Text.doubleQuote once)
  text : k = .string → ∀ once twice, Fragment.escaped B Text.backslash v = .ok once →
    Fragment.escaped B Text.doubleQuote once = .ok twice → Foreign (Fragment.spelled B twice)

/-- A value that answers as a text does can be quoted in both styles. -/
theorem quotes_of_quotesAs (h : B.QuotesAs v s) (k : Strategy) : B.Quotes k v := by
  refine ⟨fun _ hn => ⟨_, h.elements hn, fun w hw => ?_⟩, fun _ => ?_⟩
  · obtain ⟨c, -, rfl⟩ := List.mem_map.mp hw
    exact ⟨c.toString, rfl⟩
  · exact ⟨_, _, _, Fragment.escaped_of_quotesAs h _,
      Fragment.escaped_of_quotesAs (quotesAs_of_ownText rfl) _, rfl⟩

/-- Nor does it raise anything. -/
theorem foreignQuotes_of_quotesAs (h : B.QuotesAs v s) (k : Strategy) : B.ForeignQuotes k v := by
  have hfirst := Fragment.escaped_of_quotesAs h Text.backslash
  have hsecond (t : String) := Fragment.escaped_of_quotesAs (B := B) (v := .text t)
    (quotesAs_of_ownText rfl) Text.doubleQuote
  refine ⟨fun _ hn => h.elements hn ▸ .ok _, fun _ => hfirst ▸ .ok _, fun _ once ho => ?_,
    fun _ once twice ho ht => ?_⟩
  · obtain rfl := Except.ok.inj (hfirst.symm.trans ho)
    exact hsecond _ ▸ .ok _
  · obtain rfl := Except.ok.inj (hfirst.symm.trans ho)
    obtain rfl := Except.ok.inj ((hsecond _).symm.trans ht)
    exact .ok _

end Behaviour

/-! ### What is asked for a member -/

namespace World

/-- All that the fragment of a member needs: its value, what quotes ask of it where it is quoted,
and the results of calls and the texts of all other values. -/
structure Serves (W : World) (c : Config) (B : Behaviour) (x : Value) (m : Member) : Prop where
  /-- The member can be read. -/
  read : ∃ v, m.read B x = .ok v
  /-- A quoted member holds what can be quoted, as texts can, or nothing. -/
  quoted : c.substitute? m.name = none →
    W.hierarchy.strategy m.declared = .string ∨ W.hierarchy.strategy m.declared = .char →
      ∀ v, m.read B x = .ok v →
        v.isAbsent = true ∨ B.Quotes (W.hierarchy.strategy m.declared) v
  /-- The value of any other member has a text. -/
  text : c.substitute? m.name = none →
    ¬(W.hierarchy.strategy m.declared = .string ∨ W.hierarchy.strategy m.declared = .char) →
      ∀ v, m.read B x = .ok v → ∃ t, B.text v = .ok t
  /-- A substitute returns. -/
  call : ∀ s, c.substitute? m.name = some s →
    ∀ v, m.read B x = .ok v → ∃ w, s.function.apply B v = .ok w
  /-- What it returns is nothing or a text, or it has a text. -/
  result : ∀ s, c.substitute? m.name = some s →
    ∀ v w, m.read B x = .ok v → s.function.apply B v = .ok w →
      w = .absent ∨ (∃ t, w.text? = some t) ∨ ∃ t, B.text w = .ok t

/-- Reading a member, calling its substitute and asking for texts raises none of the library's
errors. -/
structure ForeignCalls (W : World) (c : Config) (B : Behaviour) (x : Value) (m : Member) :
    Prop where
  read : Foreign (m.read B x)
  text : c.substitute? m.name = none → ∀ v, m.read B x = .ok v → Foreign (B.text v)
  call : ∀ s, c.substitute? m.name = some s →
    ∀ v, m.read B x = .ok v → Foreign (s.function.apply B v)
  result : ∀ s, c.substitute? m.name = some s →
    ∀ v w, m.read B x = .ok v → s.function.apply B v = .ok w → Foreign (B.text w)

/-- Nor does what quotes ask of its value. -/
def ForeignQuotes (W : World) (c : Config) (B : Behaviour) (x : Value) (m : Member) : Prop :=
  c.substitute? m.name = none → ∀ v, m.read B x = .ok v →
    B.ForeignQuotes (W.hierarchy.strategy m.declared) v

end World

/-! ### Fragments -/

namespace Strategy

variable {B : Behaviour} {v : Value}

/-- A strategy that quotes makes a fragment of what gives all that quotes ask of it, and every other
one of what has a text. -/
theorem exists_textOf {k : Strategy} (hq : k = .string ∨ k = .char → B.Quotes k v)
    (ht : ¬(k = .string ∨ k = .char) → ∃ t, B.text v = .ok t) : ∃ t, k.textOf B v = .ok t := by
  cases k with
  | char =>
    rw [textOf, Fragment.ofChar]
    cases hs : v.ownText? with
    | some s => exact ⟨_, rfl⟩
    | none =>
      obtain ⟨vs, hvs, hall⟩ := (hq (.inr rfl)).elements rfl hs
      obtain ⟨t, ht⟩ := Fragment.exists_quotedPieces hall
      exact ⟨t, by rw [hvs, ok_bind, ht]; rfl⟩
  | string =>
    obtain ⟨once, twice, t, ho, hw, ht⟩ := (hq (.inl rfl)).replacements rfl
    exact ⟨_, by rw [textOf, Fragment.ofString, ho, ok_bind, hw, ok_bind, ht, ok_bind]; rfl⟩
  | _ => exact ht (by simp)

/-- A strategy raises what is raised by what it asks of a value. -/
theorem foreign_textOf {k : Strategy} (ht : Foreign (B.text v)) (hq : B.ForeignQuotes k v) :
    Foreign (k.textOf B v) := by
  cases k with
  | char =>
    rw [textOf, Fragment.ofChar]
    cases hs : v.ownText? with
    | some s => exact .ok _
    | none => exact (hq.elements rfl hs).bind fun vs => Fragment.foreign_quotedPieces vs
  | string =>
    refine (hq.first rfl).bind_of_ok fun once ho => ?_
    refine (hq.second rfl once ho).bind_of_ok fun twice hw => ?_
    exact (hq.text rfl once twice ho hw).bind fun _ => .pure _
  | _ => exact ht

end Strategy

namespace Part

variable {B : Behaviour} {w : Value}

theorem exists_substituteText
    (h : w = .absent ∨ (∃ t, w.text? = some t) ∨ ∃ t, B.text w = .ok t) :
    ∃ t, substituteText B w = .ok t := by
  unfold substituteText
  split
  · exact ⟨_, rfl⟩
  · next hne =>
    split
    · next s _ => exact ⟨s, rfl⟩
    · next hs =>
      obtain h | ⟨t, ht⟩ | h := h
      · exact absurd h hne
      · rw [hs] at ht
        cases ht
      · exact h

theorem foreign_substituteText (h : Foreign (B.text w)) : Foreign (substituteText B w) := by
  unfold substituteText
  split
  · exact .ok _
  · split
    · exact .ok _
    · exact h

end Part

namespace World

variable {W : World} {c : Config} {B : Behaviour} {x : Value} {m : Member}

/-- A member that is served has its fragment. -/
theorem exists_fragment (h : W.Serves c B x m) : ∃ t, W.fragment c B x m = .ok t := by
  obtain ⟨v, hv⟩ := h.read
  cases hs : c.substitute? m.name with
  | none =>
    rw [fragment_of_no_substitute hs, hv, ok_bind]
    cases ha : v.isAbsent && (W.hierarchy.strategy m.declared).leavesOut m.declared with
    | true => exact ⟨_, rfl⟩
    | false =>
      refine Strategy.exists_textOf (fun hq => ?_) fun hq => h.text hs hq v hv
      -- quoted members leave missing data out, so here the value is there
      have hleaves : (W.hierarchy.strategy m.declared).leavesOut m.declared = true := by
        rcases hq with hk | hk <;> rw [hk] <;> rfl
      rw [hleaves, Bool.and_true] at ha
      refine (h.quoted hs hq v hv).resolve_left fun habsent => ?_
      rw [ha] at habsent
      cases habsent
  | some s =>
    obtain ⟨w, hw⟩ := h.call s hs v hv
    rw [fragment_of_substitute hs, hv, ok_bind, hw, ok_bind]
    exact Part.exists_substituteText (h.result s hs v w hv hw)

/-- A member fails with a rejection only if something that is asked for it does. -/
theorem foreign_fragment (h : W.ForeignCalls c B x m) (hq : W.ForeignQuotes c B x m) :
    Foreign (W.fragment c B x m) := by
  cases hs : c.substitute? m.name with
  | none =>
    rw [fragment_of_no_substitute hs]
    refine h.read.bind_of_ok fun v hv => ?_
    split
    · exact .ok _
    · exact Strategy.foreign_textOf (h.text hs v hv) (hq hs v hv)
  | some s =>
    rw [fragment_of_substitute hs]
    refine h.read.bind_of_ok fun v hv => ?_
    exact (h.call s hs v hv).bind_of_ok fun w hw =>
      Part.foreign_substituteText (h.result s hs v w hv hw)

/-- A member that cannot be read is asked for nothing else. -/
theorem foreign_of_unread {f : Failure} (h : m.read B x = .error f) (hf : ¬f.IsOwn) :
    W.ForeignCalls c B x m ∧ W.ForeignQuotes c B x m := by
  have hread : ∀ v, m.read B x ≠ .ok v := by
    intro v hv
    cases h.symm.trans hv
  refine ⟨⟨h ▸ FailsWith.error.mpr hf, fun _ v hv => ?_, fun _ _ v hv => ?_, fun _ _ v _ hv => ?_⟩,
    fun _ v hv => ?_⟩
  all_goals exact absurd hv (hread v)

/-- A text without a substitute is only asked for its text. -/
theorem foreign_of_text {s : String} (hs : c.substitute? m.name = none)
    (h : m.read B x = .ok (.text s)) (ht : Foreign (B.text (.text s))) :
    W.ForeignCalls c B x m ∧ W.ForeignQuotes c B x m := by
  have hread : ∀ v, m.read B x = .ok v → v = .text s := fun v hv =>
    Except.ok.inj (hv.symm.trans h)
  have hnone : ∀ s', c.substitute? m.name ≠ some s' := by
    intro s' hs'
    cases hs.symm.trans hs'
  refine ⟨⟨h ▸ .ok _, fun _ v hv => hread v hv ▸ ht, fun s' hs' => absurd hs' (hnone s'),
    fun s' hs' => absurd hs' (hnone s')⟩, fun _ v hv => ?_⟩
  obtain rfl := hread v hv
  exact Behaviour.foreignQuotes_of_quotesAs (Behaviour.quotesAs_of_ownText rfl) _

/-! ### Renderings -/

variable {b : Builder} {r : Renderer} {notes notes' : List Note} {catalog : Catalog}

/-- When all survivors have their fragments, the record has its written form. -/
theorem exists_render (hb : W.build b = .ok (r, notes))
    (hc : W.catalog b.target b.config.useFields b.config.useProperties = .ok (catalog, notes'))
    (h : ∀ m ∈ survivors b.config catalog, ∃ t, W.fragment b.config B x m = .ok t) :
    ∃ t, r.render B x = .ok t := by
  rw [render_eq hb hc]
  cases hp : W.pairs b.config B x (survivors b.config catalog) with
  | ok ps => exact ⟨_, rfl⟩
  | error f =>
    obtain ⟨m, hm, hf⟩ := pairs_eq_error_iff.mp hp
    obtain ⟨t, ht⟩ := h m hm.mem
    cases ht.symm.trans hf

/-- A renderer fails as one of the fragments does. -/
theorem render_failsWith {p : Failure → Prop} (hb : W.build b = .ok (r, notes))
    (hc : W.catalog b.target b.config.useFields b.config.useProperties = .ok (catalog, notes'))
    (h : ∀ m ∈ survivors b.config catalog, FailsWith p (W.fragment b.config B x m)) :
    FailsWith p (r.render B x) := by
  rw [render_eq hb hc]
  refine FailsWith.bind (fun f hf => ?_) fun ps => .ok _
  obtain ⟨m, hm, hf⟩ := pairs_eq_error_iff.mp hf
  exact h m hm.mem f hf

end World

/-- **A renderer that was built cannot fail on its own account.**  It writes every record that
serves all surviving members, and on every other one it raises none of the library's errors, unless
something that it asks for does. -/
theorem render_reliable {W : World} {b : Builder} {r : Renderer} {notes notes' : List Note}
    {catalog : Catalog} (hb : W.build b = .ok (r, notes))
    (hc : W.catalog b.target b.config.useFields b.config.useProperties = .ok (catalog, notes'))
    (B : Behaviour) (x : Value) :
    ((∀ m ∈ World.survivors b.config catalog, W.Serves b.config B x m) →
      ∃ t, r.render B x = .ok t) ∧
    ((∀ m ∈ World.survivors b.config catalog,
        W.ForeignCalls b.config B x m ∧ W.ForeignQuotes b.config B x m) →
      ∀ f, r.render B x = .error f → ¬f.IsOwn) := by
  constructor
  · intro h
    exact World.exists_render hb hc fun m hm => World.exists_fragment (h m hm)
  · intro h
    exact World.render_failsWith hb hc fun m hm =>
      World.foreign_fragment (h m hm).1 (h m hm).2

/-! ### A record that lacks a member -/

/-- An instance of the model with two texts that was given only one of them. -/
def textsTorn : Value := .record (.defined modelIdent) none [("first", .text "a")]

theorem serves_texts (m : Member) (hm : m ∈ [textsFirst, textsSecond]) :
    textsWorld.Serves (Builder.ofModel []).config textsWorld.behaviour (textsRecord "a" "b") m := by
  have hread : ∃ s, m.read textsWorld.behaviour (textsRecord "a" "b") = .ok (.text s) := by
    rcases List.mem_pair.mp hm with rfl | rfl
    · exact ⟨"a", Behaviour.readPath_of_not_mem (by decide) _ _⟩
    · exact ⟨"b", Behaviour.readPath_of_not_mem (by decide) _ _⟩
  obtain ⟨s, hs⟩ := hread
  refine ⟨⟨_, hs⟩, fun _ _ v hv => ?_, fun _ _ v hv => ?_, fun _ h => ?_, fun _ h => ?_⟩
  · obtain rfl := Except.ok.inj (hs.symm.trans hv)
    exact .inr (Behaviour.quotes_of_quotesAs (Behaviour.quotesAs_of_ownText rfl) _)
  · obtain rfl := Except.ok.inj (hs.symm.trans hv)
    exact ⟨s, rfl⟩
  · cases h
  · cases h

theorem foreign_torn (m : Member) (hm : m ∈ [textsFirst, textsSecond]) :
    textsWorld.ForeignCalls (Builder.ofModel []).config textsWorld.behaviour textsTorn m ∧
      textsWorld.ForeignQuotes (Builder.ofModel []).config textsWorld.behaviour textsTorn m := by
  rcases List.mem_pair.mp hm with rfl | rfl
  · exact World.foreign_of_text rfl (Behaviour.readPath_of_not_mem (by decide) _ _) (.ok "a")
  · exact World.foreign_of_unread (Behaviour.readPath_of_not_mem (by decide) _ _)
      (foreign_fault (α := Value) (f := .noAttribute) (by simp) _ rfl)

/-- A complete record is written, and the failure of a torn one is none of the library's. -/
theorem render_reliable_texts :
    ∃ r notes, textsWorld.build (.ofModel []) = .ok (r, notes) ∧
      (∃ t, r.render textsWorld.behaviour (textsRecord "a" "b") = .ok t) ∧
      ∃ f, r.render textsWorld.behaviour textsTorn = .error f ∧ ¬f.IsOwn := by
  obtain ⟨notes, hc⟩ := World.catalog_ofModel [("first", Ty.str), ("second", Ty.str)]
    (by simp [isPrivate])
  have hb := (World.build_eq_ok_iff hc).mpr ⟨holds_texts, rfl⟩
  refine ⟨_, _, hb, (render_reliable hb hc _ _).1 serves_texts, .fault .noAttribute, rfl, ?_⟩
  exact (render_reliable hb hc _ _).2 foreign_torn _ rfl

/-! ### An error of the library from elsewhere -/

/-- The class of a value that raises one of the library's errors when it is iterated over. -/
def brittleIdent : Ident := ⟨1, "Brittle"⟩

/-- A class with a property that is declared as a single character and holds such a value. -/
def initialIdent : Ident := ⟨2, "Initial"⟩

/-- The world with these two classes. -/
def brittleWorld : World where
  language := .phrases
  library := .standard
  names := [("Initial", .cls (.defined initialIdent)), ("Brittle", .cls (.defined brittleIdent))]
  classes := [{
      ident := initialIdent
      lineage := [.defined initialIdent, .known .object]
      layer := ⟨[("letter", .property (some
        ⟨.computed (.value (.instance (.name "Brittle") [] none)), [("return", .char)],
          false⟩))], []⟩
      dataFields := none
      modelFields := none
      parameters := none
      text := .titled
      printed := .titled },
    { ident := brittleIdent
      lineage := [.defined brittleIdent, .known .object]
      layer := ⟨[("__iter__", .method (.raise "InvalidConfigurationError" "no letters"))], []⟩
      dataFields := none
      modelFields := none
      parameters := none
      text := .titled
      printed := .titled }]
  instances := []
  store := []
  fresh := 3

/-- A builder for the property. -/
def initialBuilder : Builder := ⟨.defined initialIdent, .usual, ⟨false, true, [], []⟩⟩

/-- The property. -/
def initialLetter : Member := ⟨"letter", .char, .property, false⟩

/-- An instance of the class. -/
def initialRecord : Value := .record (.defined initialIdent) none []

theorem catalog_brittle :
    brittleWorld.catalog (.defined initialIdent) false true = .ok (⟨[initialLetter]⟩, []) := by
  with_unfolding_all rfl

theorem build_brittle : brittleWorld.build initialBuilder =
    .ok (.steps [⟨"\x7bletter=", .base initialLetter, ⟨.char, false⟩⟩] "\x7d",
      [.building "Initial" 1 0 0, .compiled "Initial" [("letter", .char)]]) := by
  with_unfolding_all rfl

/-- Reading the member and asking for its text raises no error of the library, there is no function
to call, and yet the renderer raises one: a single character is iterated over. -/
theorem iteration_escapes :
    ∃ r notes catalog notes', brittleWorld.build initialBuilder = .ok (r, notes) ∧
      brittleWorld.catalog initialBuilder.target initialBuilder.config.useFields
        initialBuilder.config.useProperties = .ok (catalog, notes') ∧
      (∀ m ∈ World.survivors initialBuilder.config catalog,
        brittleWorld.ForeignCalls initialBuilder.config brittleWorld.behaviour initialRecord m) ∧
      ∃ f, r.render brittleWorld.behaviour initialRecord = .error f ∧ f.IsOwn := by
  have hread : initialLetter.read brittleWorld.behaviour initialRecord =
      .ok (.record (.defined brittleIdent) none []) := by
    refine (World.read_property (by decide) rfl 299).trans ?_
    show brittleWorld.valueOf (.instance (.name "Brittle") [] none) = _
    rw [World.valueOf, World.attrsOf]
    with_unfolding_all rfl
  have htext : brittleWorld.behaviour.text (.record (.defined brittleIdent) none []) =
      .ok "<Brittle>" := rfl
  have hfragment : brittleWorld.fragment initialBuilder.config brittleWorld.behaviour
      initialRecord initialLetter = .error (.raised "InvalidConfigurationError" "no letters") := by
    rw [World.fragment_of_no_substitute rfl, hread]
    rfl
  have hpairs := World.pairs_eq_error_iff.mpr
    ⟨initialLetter, ⟨[], [], rfl, ⟨_, hfragment⟩, by simp⟩, hfragment⟩
  refine ⟨_, _, _, _, build_brittle, catalog_brittle, fun m hm => ?_,
    .raised "InvalidConfigurationError" "no letters", ?_, .configuration, rfl⟩
  · obtain rfl : m = initialLetter := List.mem_singleton.mp hm
    refine ⟨hread ▸ .ok _, fun _ v hv => ?_, fun _ h => ?_, fun _ h => ?_⟩
    · obtain rfl := Except.ok.inj (hread.symm.trans hv)
      rw [htext]
      exact .ok _
    · cases h
    · cases h
  · rw [World.render_eq build_brittle catalog_brittle]
    exact congrArg (· >>= _) hpairs

end RecordText
