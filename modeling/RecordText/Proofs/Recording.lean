/-
What a builder records.

A builder is configured by the actions of a session.  Some of them are refused, and others build,
render or define in between.  What is recorded in the end depends on the changes alone that the
accepted calls asked for (`Session.changes`), and it is said by them in full (`Config.Records`).

* `Config.records_foldl` — what changes leave in a configuration that was empty;
* `Session.config_step` — **a step makes at most the change of an accepted call**;
* `Session.records_after` — hence what every run leaves of a builder.
-/
import RecordText.Proofs.Sessions
import RecordText.Proofs.Configurations
import RecordText.Proofs.Sameness
import RecordText.Proofs.FirstOccurrences

namespace RecordText

/-! ### Changes -/

namespace Change

/-- The name and the substitute that a change asks for. -/
def request? : Change → Option (Name × Substitute)
  | .substituted n s => some (n, s)
  | _ => none

theorem lastFor_eq (n : Name) (es : List Change) :
    lastFor n es = Table.latest n (es.filterMap request?) := by
  induction es using List.reverseRecOn with
  | nil => rfl
  | append_singleton es e ih =>
    rw [lastFor, List.reverse_append, List.reverse_singleton, List.singleton_append,
      List.findSome?_cons, List.filterMap_append, ← lastFor]
    cases e with
    | substituted m s =>
      show _ = Table.latest n (es.filterMap request? ++ [(m, s)])
      rw [Table.latest_concat, ← ih, substituteFor]
      by_cases h : (m == n) = true <;> simp [h]
    | _ =>
      show lastFor n es = Table.latest n (es.filterMap request? ++ [])
      rw [List.append_nil, ih]

end Change

/-- A configuration says what some changes asked for, and nothing else. Every ignored name is there
once, in the order in which the names were given first. Every name with a substitute is there once
in that order too, with the substitute that it was given last. A name that differs from itself, and
so is never given again, keeps its own. -/
structure Config.Records (c : Config) (es : List Change) : Prop where
  useFields : c.useFields = true ↔ Change.fields ∈ es
  useProperties : c.useProperties = true ↔ Change.properties ∈ es
  ignored : c.ignored = (es.flatMap Change.ignoredNames).eraseDups
  distinct : c.ignored.Pairwise fun n m => (n == m) = false
  names : c.substitutes.map Prod.fst = (es.flatMap Change.substitutedNames).eraseDups
  substitutes : c.substitutes = ((es.filterMap Change.request?).eraseDupsBy fun p q =>
    p.1 == q.1).map fun p => (p.1, (Change.lastFor p.1 es).getD p.2)

namespace Config

variable {c : Config} {es : List Change}

theorem ignored_foldl : (es.foldl after c).ignored =
    (es.flatMap Change.ignoredNames).foldl
      (fun ns n => if ns.contains n then ns else ns ++ [n]) c.ignored := by
  induction es generalizing c with
  | nil => rfl
  | cons e es ih =>
    rw [List.foldl_cons, ih, List.flatMap_cons, List.foldl_append]
    cases e <;> rfl

theorem substitutes_foldl : (es.foldl after c).substitutes =
    (es.filterMap Change.request?).foldl (fun t p => Table.put p.1 p.2 t) c.substitutes := by
  induction es generalizing c with
  | nil => rfl
  | cons e es ih =>
    rw [List.foldl_cons, ih]
    cases e <;> rfl

theorem fst_requests (es : List Change) :
    (es.filterMap Change.request?).map Prod.fst = es.flatMap Change.substitutedNames := by
  induction es with
  | nil => rfl
  | cons e es ih =>
    rw [List.filterMap_cons, List.flatMap_cons]
    cases e <;> simp [Change.request?, Change.substitutedNames, ih]

/-- **Changes leave what they asked for in a configuration that was empty.** -/
theorem records_foldl (h : ∀ p ∈ es.filterMap Change.request?, p.1.IsProper) :
    (es.foldl after .empty).Records es := by
  have hsubstitutes : (es.foldl after .empty).substitutes =
      ((es.filterMap Change.request?).eraseDupsBy fun p q => p.1 == q.1).map fun p =>
        (p.1, (Change.lastFor p.1 es).getD p.2) := by
    simp only [Change.lastFor_eq]
    rw [substitutes_foldl]
    exact Table.ofList_eq Name.beq_comm (fun _ _ _ => Name.beq_trans) h
  have hignored : (es.foldl after .empty).ignored =
      (es.flatMap Change.ignoredNames).eraseDups := by
    rw [ignored_foldl]
    exact foldl_takeIn _
  refine ⟨?_, ?_, hignored, ?_, ?_, hsubstitutes⟩
  · simp [useFields_foldl, Config.empty]
  · simp [useProperties_foldl, Config.empty]
  · rw [hignored]
    refine (pairwise_eraseDupsBy _).imp fun {n m} hnm => ?_
    exact (Name.beq_comm n m).trans hnm
  · rw [hsubstitutes, List.map_map, ← fst_requests]
    exact map_eraseDupsBy Prod.fst _

end Config

/-- The names that a call asks substitutes for are proper ones. -/
theorem World.isProper_of_asked {W : World} {k : Call} {e : Change} {p : Name × Substitute}
    (hk : W.asked k = some e) (hp : e.request? = some p) : p.1.IsProper := by
  cases e with
  | substituted n s =>
    cases hp
    cases k with
    | substitute name f input =>
      obtain ⟨m, hm, he⟩ := Option.map_eq_some_iff.mp hk
      cases he
      cases hn : W.nameOf name with
      | error g => simp [hn, Except.toOption] at hm
      | ok m' =>
        obtain rfl : m' = n := by simpa [hn, Except.toOption] using hm
        exact World.isProper_of_nameOf hn
    | ignore names =>
      obtain ⟨ns, -, he⟩ := Option.map_eq_some_iff.mp hk
      cases he
    | ignoreAll names =>
      obtain ⟨vs, -, hk⟩ := Option.bind_eq_some_iff.mp hk
      obtain ⟨ns, -, he⟩ := Option.map_eq_some_iff.mp hk
      cases he
    | _ => cases hk
  | _ => cases hp

/-! ### Actions -/

/-- The builder that an action configures, and the call that it makes there. -/
def Action.call? : Action → Option (String × (World → Except Failure Call))
  | .useFields b => some (b, fun _ => pure .useFields)
  | .useProperties b => some (b, fun _ => pure .useProperties)
  | .ignore b names => some (b, fun W => do return .ignore (← W.valuesOf names))
  | .ignoreAll b names => some (b, fun W => do return .ignoreAll (← W.valueOf names))
  | .substitute b name f input => some (b, fun W => do
    let name ← W.valueOf name
    let f ← W.functionOf f
    return .substitute name f (← W.inputOf? input))
  | _ => none

/-- An action that does not make a new builder of the given name. -/
def Action.Keeps (id : String) : Action → Prop
  | .builder b _ _ => b ≠ id
  | _ => True

theorem World.config_builder {W : World} {target : Value} {settings : Settings} {b : Builder}
    (h : W.builder target settings = .ok b) : b.config = .empty := by
  rw [builder] at h
  cases hc : Check.isNone target with
  | true => simp [hc] at h
  | false =>
    rw [hc] at h
    obtain ⟨printed, -, h⟩ := bind_eq_ok_iff.mp h
    split at h
    · obtain rfl := Except.ok.inj h
      rfl
    · cases h

namespace Session

variable {s s' : Session} {id : String} {a : Action} {answer : Answer} {b : Builder}

/-- The change that an action makes to the configuration of a builder: the one that its call asks
for, if the action succeeds. -/
def accepted? (s : Session) (id : String) (a : Action) : Option Change :=
  match s.act a, a.call? with
  | .ok _, some (b, call) => if b = id then (call s.world).toOption.bind s.world.asked else none
  | _, _ => none

/-- The changes that a run makes to the configuration of a builder. -/
def changes (id : String) : Session → List Action → List Change
  | _, [] => []
  | s, a :: as =>
    match s.step a with
    | .ok (s', _) => (s.accepted? id a).toList ++ changes id s' as
    | .error _ => []

/-- The session after a run. -/
def after (s : Session) : List Action → Except Failure Session
  | [] => pure s
  | a :: as => do
    let (s', _) ← s.step a
    s'.after as

/-- A call changes the configuration of one builder. -/
theorem act_of_call {call : World → Except Failure Call} (h : a.call? = some (id, call)) :
    s.act a = s.configure id fun W c => call W >>= W.call c := by
  cases a with
  | useFields | useProperties =>
    cases h
    rfl
  | ignore b names | ignoreAll b names =>
    cases h
    simp only [act, bind_assoc, pure_bind]
    rfl
  | substitute b name f input =>
    cases h
    simp only [act, bind_assoc, pure_bind]
    rfl
  | _ => cases h

/-! ### Steps -/

section

variable {change : World → Config → Except Failure Config}

theorem lookup_configure_ne {d : String} (hd : d ≠ id)
    (h : s.configure d change = .ok (s', answer)) :
    s'.builders.lookup id = s.builders.lookup id := by
  unfold configure at h
  split at h
  · obtain ⟨rfl, -⟩ := Prod.mk.inj (Except.ok.inj h)
    rfl
  · next b _ =>
    obtain ⟨c, -, h⟩ := bind_eq_ok_iff.mp h
    obtain ⟨rfl, -⟩ := Prod.mk.inj (Except.ok.inj h)
    have hne : (id == d) = false := beq_false_of_ne (Ne.symm hd)
    show List.lookup id ((d, { b with config := c }) :: s.builders) = _
    rw [List.lookup_cons, hne]

theorem lookup_configure_self (hb : s.builders.lookup id = some b)
    (h : s.configure id change = .ok (s', answer)) :
    ∃ c, change s.world b.config = .ok c ∧
      s'.builders.lookup id = some { b with config := c } := by
  unfold configure at h
  rw [hb] at h
  obtain ⟨c, hc, h⟩ := bind_eq_ok_iff.mp h
  obtain ⟨rfl, -⟩ := Prod.mk.inj (Except.ok.inj h)
  exact ⟨c, hc, List.lookup_cons_self⟩

end

theorem accepted?_of_no_call (h : a.call? = none) : s.accepted? id a = none := by
  unfold accepted?
  rw [h]
  split <;> simp_all

/-- An action that makes no call leaves every builder as it is, unless it makes a new one. -/
theorem lookup_act_of_no_call (hb : s.builders.lookup id = some b) (hcall : a.call? = none)
    (ha : a.Keeps id) (h : s.act a = .ok (s', answer)) : s'.builders.lookup id = some b := by
  rw [← hb]
  cases a with simp only [act] at h
  | useFields | useProperties | ignore | ignoreAll | substitute => cases hcall
  | define d =>
    obtain ⟨W, -, h⟩ := bind_eq_ok_iff.mp h
    obtain ⟨rfl, -⟩ := Prod.mk.inj (Except.ok.inj h)
    rfl
  | builder d target settings =>
    obtain ⟨v, -, h⟩ := bind_eq_ok_iff.mp h
    obtain ⟨settings, -, h⟩ := bind_eq_ok_iff.mp h
    obtain ⟨b, -, h⟩ := bind_eq_ok_iff.mp h
    obtain ⟨rfl, -⟩ := Prod.mk.inj (Except.ok.inj h)
    have hne : (id == d) = false := beq_false_of_ne (Ne.symm ha)
    show List.lookup id ((d, b) :: s.builders) = _
    rw [List.lookup_cons, hne]
  | config d =>
    by_cases hd : d = id
    · obtain rfl := hd
      obtain ⟨c, hc, hs'⟩ := lookup_configure_self hb h
      obtain rfl := Except.ok.inj hc
      rw [hs', hb]
    · exact lookup_configure_ne hd h
  | build d r =>
    split at h
    · obtain ⟨rfl, -⟩ := Prod.mk.inj (Except.ok.inj h)
      rfl
    · obtain ⟨y, -, h⟩ := bind_eq_ok_iff.mp h
      obtain ⟨rfl, -⟩ := Prod.mk.inj (Except.ok.inj h)
      rfl
  | decorate t d =>
    obtain ⟨⟨W, c, notes⟩, -, h⟩ := bind_eq_ok_iff.mp h
    obtain ⟨rfl, -⟩ := Prod.mk.inj (Except.ok.inj h)
    rfl
  | new d e =>
    obtain ⟨v, -, h⟩ := bind_eq_ok_iff.mp h
    obtain ⟨rfl, -⟩ := Prod.mk.inj (Except.ok.inj h)
    rfl
  | assign d attr e =>
    obtain ⟨v, -, h⟩ := bind_eq_ok_iff.mp h
    obtain ⟨w, -, h⟩ := bind_eq_ok_iff.mp h
    obtain ⟨W, -, h⟩ := bind_eq_ok_iff.mp h
    obtain ⟨rfl, -⟩ := Prod.mk.inj (Except.ok.inj h)
    rfl
  | delete d attr =>
    obtain ⟨v, -, h⟩ := bind_eq_ok_iff.mp h
    obtain ⟨W, -, h⟩ := bind_eq_ok_iff.mp h
    obtain ⟨rfl, -⟩ := Prod.mk.inj (Except.ok.inj h)
    rfl
  | render r e =>
    split at h
    · obtain ⟨rfl, -⟩ := Prod.mk.inj (Except.ok.inj h)
      rfl
    · obtain ⟨v, -, h⟩ := bind_eq_ok_iff.mp h
      obtain ⟨t, -, h⟩ := bind_eq_ok_iff.mp h
      obtain ⟨rfl, -⟩ := Prod.mk.inj (Except.ok.inj h)
      rfl
  | text e | printed e =>
    obtain ⟨v, -, h⟩ := bind_eq_ok_iff.mp h
    obtain ⟨t, -, h⟩ := bind_eq_ok_iff.mp h
    obtain ⟨rfl, -⟩ := Prod.mk.inj (Except.ok.inj h)
    rfl

/-- An action that succeeds makes the change of its call, if it makes one on the builder. -/
theorem lookup_act (hb : s.builders.lookup id = some b) (ha : a.Keeps id)
    (h : s.act a = .ok (s', answer)) : s'.builders.lookup id =
      some { b with config := (s.accepted? id a).toList.foldl Config.after b.config } := by
  cases hcall : a.call? with
  | none =>
    rw [accepted?_of_no_call hcall]
    exact lookup_act_of_no_call hb hcall ha h
  | some e =>
    obtain ⟨d, call⟩ := e
    have haccepted : s.accepted? id a =
        if d = id then (call s.world).toOption.bind s.world.asked else none := by
      simp only [accepted?, h, hcall]
    rw [act_of_call hcall] at h
    rw [haccepted]
    by_cases hd : d = id
    · obtain rfl := hd
      obtain ⟨c, hc, hs'⟩ := lookup_configure_self hb h
      obtain ⟨k, hk, hc⟩ := bind_eq_ok_iff.mp hc
      obtain ⟨e, he, rfl⟩ := World.call_eq_ok hc
      rw [hs', if_pos rfl, hk]
      show _ = some { b with config := (s.world.asked k).toList.foldl Config.after b.config }
      rw [he]
      rfl
    · rw [if_neg hd, lookup_configure_ne hd h, hb]
      rfl

theorem settle_eq_error {α : Type} {x : Except Failure α} {f : Failure}
    (h : settle x = .ok (.error f)) : x = .error f := by
  unfold settle at h
  split at h
  · cases h
  · exact Except.ok.inj h

theorem step_of_ok {x : Session × Answer} (hx : s.act a = .ok x)
    (h : s.step a = .ok (s', answer)) : (s', answer) = x := by
  rw [step, hx] at h
  exact (Except.ok.inj h).symm

/-- An action that fails leaves the session as it is, and its failure is the answer. -/
theorem step_of_error {f : Failure} (hf : s.act a = .error f)
    (h : s.step a = .ok (s', answer)) : s' = s ∧ answer = .failed f := by
  unfold step at h
  split at h
  · next hr =>
    have hok := settle_eq_ok hr
    rw [hf] at hok
    cases hok
  · next g hr =>
    obtain rfl : f = g := Except.error.inj (hf.symm.trans (settle_eq_error hr))
    obtain ⟨rfl, rfl⟩ := Prod.mk.inj (Except.ok.inj h)
    exact ⟨rfl, rfl⟩
  · cases h

/-- A build, whether it succeeds or not, leaves all builders as they are. -/
theorem builders_build {d r : String} (h : s.step (.build d r) = .ok (s', answer)) :
    s'.builders = s.builders := by
  cases hact : s.act (.build d r) with
  | error f => rw [(step_of_error hact h).1]
  | ok x =>
    obtain rfl := step_of_ok hact h
    simp only [act] at hact
    split at hact
    · obtain ⟨rfl, -⟩ := Prod.mk.inj (Except.ok.inj hact)
      rfl
    · obtain ⟨y, -, hact⟩ := bind_eq_ok_iff.mp hact
      obtain ⟨rfl, -⟩ := Prod.mk.inj (Except.ok.inj hact)
      rfl

/-- **A step makes the change of an accepted call, and no other one.** -/
theorem lookup_step (hb : s.builders.lookup id = some b) (ha : a.Keeps id)
    (h : s.step a = .ok (s', answer)) : s'.builders.lookup id =
      some { b with config := (s.accepted? id a).toList.foldl Config.after b.config } := by
  cases hact : s.act a with
  | ok x =>
    obtain ⟨rfl, rfl⟩ := Prod.mk.inj (step_of_ok hact h)
    exact lookup_act hb ha hact
  -- an action that fails changes nothing
  | error f =>
    have hnone : s.accepted? id a = none := by simp only [accepted?, hact]
    rw [(step_of_error hact h).1, hb, hnone]
    rfl

theorem isProper_of_accepted? {e : Change} {p : Name × Substitute}
    (he : s.accepted? id a = some e) (hp : e.request? = some p) : p.1.IsProper := by
  unfold accepted? at he
  split at he
  · split at he
    · obtain ⟨k, -, hk⟩ := Option.bind_eq_some_iff.mp he
      exact World.isProper_of_asked hk hp
    · cases he
  · cases he

/-! ### Runs -/

theorem lookup_after {as : List Action} (hb : s.builders.lookup id = some b)
    (has : ∀ a ∈ as, a.Keeps id) (h : s.after as = .ok s') : s'.builders.lookup id =
      some { b with config := (s.changes id as).foldl Config.after b.config } := by
  induction as generalizing s b with
  | nil =>
    obtain rfl := Except.ok.inj h
    exact hb
  | cons a as ih =>
    obtain ⟨ha, has⟩ := List.forall_mem_cons.mp has
    obtain ⟨⟨t, answer⟩, hstep, h⟩ := bind_eq_ok_iff.mp h
    have hchanges : s.changes id (a :: as) = (s.accepted? id a).toList ++ t.changes id as := by
      rw [changes, hstep]
    rw [ih (lookup_step hb ha hstep) has h, hchanges, List.foldl_append]

/-- Changes are asked for by names that values have. -/
theorem isProper_of_changes {as : List Action} {p : Name × Substitute}
    (h : p ∈ (s.changes id as).filterMap Change.request?) : p.1.IsProper := by
  induction as generalizing s with
  | nil => cases h
  | cons a as ih =>
    rw [changes] at h
    split at h
    · rw [List.filterMap_append] at h
      rcases List.mem_append.mp h with h | h
      · obtain ⟨e, he, hp⟩ := List.mem_filterMap.mp h
        exact isProper_of_accepted? (Option.mem_toList.mp he) hp
      · exact ih h
    · cases h

/-- A builder that is made has an empty configuration. -/
theorem lookup_new {target : ValueExpr} {settings : Option (List (String × ValueExpr))}
    {title : String} {c : Config}
    (h : s.step (.builder id target settings) = .ok (s', .target title c)) :
    ∃ b, s'.builders.lookup id = some b ∧ b.config = .empty := by
  cases hact : s.act (.builder id target settings) with
  | error f =>
    -- the answer to an action that fails is its failure
    cases (step_of_error hact h).2
  | ok x =>
    obtain rfl := step_of_ok hact h
    obtain ⟨v, -, hact⟩ := bind_eq_ok_iff.mp hact
    obtain ⟨settings, -, hact⟩ := bind_eq_ok_iff.mp hact
    obtain ⟨b, hb, hact⟩ := bind_eq_ok_iff.mp hact
    obtain ⟨rfl, -⟩ := Prod.mk.inj (Except.ok.inj hact)
    exact ⟨b, List.lookup_cons_self, World.config_builder hb⟩

end Session

/-- **What a run leaves of a builder is what its accepted calls asked for.**  A new builder is
configured by a run of actions in which any may fail.  It then has what its changes asked for.  An
action that fails leaves the whole session as it was, and every build leaves all builders. -/
theorem records_after {s₀ s s' : Session} {id title : String} {target : ValueExpr}
    {settings : Option (List (String × ValueExpr))} {c₀ : Config} {as : List Action}
    (hnew : s₀.step (.builder id target settings) = .ok (s, .target title c₀))
    (has : ∀ a ∈ as, a.Keeps id) (h : s.after as = .ok s') :
    ∃ b, s'.builders.lookup id = some b ∧ b.config.Records (s.changes id as) ∧
      (∀ a s'' answer, s'.step a = .ok (s'', answer) → (∃ f, s'.act a = .error f) → s'' = s') ∧
      ∀ d r s'' answer, s'.step (.build d r) = .ok (s'', answer) →
        s''.builders = s'.builders := by
  obtain ⟨b, hb, hempty⟩ := Session.lookup_new hnew
  refine ⟨_, Session.lookup_after hb has h, ?_, ?_, ?_⟩
  · rw [hempty]
    exact Config.records_foldl fun p hp => Session.isProper_of_changes hp
  · rintro a s'' answer hstep ⟨f, hf⟩
    exact (Session.step_of_error hf hstep).1
  · intro d r s'' answer hstep
    exact Session.builders_build hstep

/-- Calls on two builders. A build and some of the calls are refused, one of them because of its
last name. -/
def mixedActions : List Action :=
  [.build "b" "r",
    .useFields "b",
    .builder "other" (.type (.name "int")) none,
    .ignore "b" [.plain (.text "y"), .plain (.text "x"), .plain (.text "y")],
    .ignore "b" [.plain (.text "z"), .plain .absent],
    .useProperties "other",
    .ignoreAll "b" (.plain (.text "z")),
    .substitute "b" (.plain (.text "v")) (.builtin .length) none,
    .substitute "b" (.plain (.text "x")) (.builtin .length) none,
    .substitute "b" (.plain (.text "x")) (.value (.plain .absent)) none,
    .substitute "b" (.plain (.text "v")) (.builtin .abs) none]

/-- The changes that they make to the first builder. -/
def mixedChanges : List Change :=
  [.fields,
    .ignored [.ofText "y", .ofText "x", .ofText "y"],
    .substituted (.ofText "v") ⟨.builtin .length, none⟩,
    .substituted (.ofText "x") ⟨.builtin .length, none⟩,
    .substituted (.ofText "v") ⟨.builtin .abs, none⟩]

/-- What they leave of it. -/
def mixedConfig : Config :=
  ⟨true, false, [.ofText "y", .ofText "x"],
    [(.ofText "v", ⟨.builtin .abs, none⟩), (.ofText "x", ⟨.builtin .length, none⟩)]⟩

/-- The refused calls leave nothing, and the second substitute for a name takes the first place. -/
theorem records_after_mixed : ∃ s s', (Session.start .empty).step
      (.builder "b" (.type (.name "date")) none) = .ok (s, .target "date" .empty) ∧
    s.after mixedActions = .ok s' ∧ s.changes "b" mixedActions = mixedChanges ∧
    ∃ b, s'.builders.lookup "b" = some b ∧ b.config = mixedConfig ∧
      b.config.Records mixedChanges := by
  have hnew : (Session.start .empty).step (.builder "b" (.type (.name "date")) none) =
      .ok (⟨.empty, [("b", ⟨.known .date, .usual, .empty⟩)], []⟩, .target "date" .empty) := rfl
  have has : ∀ a ∈ mixedActions, a.Keeps "b" := by
    simp [mixedActions, Action.Keeps]
  refine ⟨_, _, hnew, rfl, rfl, ?_⟩
  obtain ⟨b, hb, hrecords, -⟩ := records_after hnew has rfl
  have hconfig : some b = some ⟨.known .date, .usual, mixedConfig⟩ := hb.symm
  refine ⟨b, hb, ?_, hrecords⟩
  rw [Option.some.inj hconfig]

end RecordText
