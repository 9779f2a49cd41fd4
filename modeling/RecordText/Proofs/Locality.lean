/-
What one more call changes in a build that succeeds.

A class that can be built stays so when one more surviving member is ignored, and when a surviving
member gets a substitute that accepts everything.  The other members keep their places and their
fragments, and separators and outer tokens are put anew around what is left:

* `exists_around` — a survivor stands once among the survivors, with others before and behind it;
* `holds_withIgnored`, `holds_withSubstitute` — no condition of the build is lost;
* `pairs_ignored`, `pairs_substituted` — the pairs before and behind the member go on as they were;
* `build_local` — **ignoring a member takes its pair out, and substituting it replaces its
  fragment; nothing else changes**, whatever was ignored or substituted before.
-/
import RecordText.Proofs.Configurations
import RecordText.Proofs.Distinction

namespace RecordText

/-- Everything fits the class above all classes. -/
theorem Hierarchy.assignable_object (H : Hierarchy) (s : Ty) :
    H.assignable s .object = .ok true := by
  cases s with
  | annotated s rs =>
    rw [assignable]
    exact H.assignable_object s
  | _ =>
    rw [assignable.eq_def]
    rfl

namespace World

variable {W : World} {b : Builder} {r : Renderer} {notes notes' : List Note} {catalog : Catalog}
  {m : Member} {ms ms' : List Member}

/-! ### Survivors -/

/-- A survivor stands once among the survivors of a class that can be built. -/
theorem exists_around (hd : Condition.distinct.Holds W b catalog)
    (hm : m ∈ survivors b.config catalog) :
    ∃ ms ms', survivors b.config catalog = ms ++ m :: ms' ∧
      ∀ k ∈ ms ++ ms', k.name ≠ m.name := by
  obtain ⟨ms, ms', hms⟩ := List.mem_iff_append.mp hm
  have hd : ((ms ++ m :: ms').map Member.name).Nodup := hms ▸ hd
  rw [List.map_append, List.map_cons, List.nodup_middle, List.nodup_cons, ← List.map_append] at hd
  refine ⟨ms, ms', hms, fun k hk h => hd.1 ?_⟩
  rw [← h]
  exact List.mem_map_of_mem hk

/-- One more ignored name leaves out its member and no other one. -/
theorem survivors_withIgnored (c : Config) (name : String) (catalog : Catalog) :
    survivors (c.withIgnored [.ofText name]) catalog =
      (survivors c catalog).filter fun k => k.name ≠ name := by
  rw [survivors, survivors, List.filter_filter]
  refine List.filter_congr fun k _ => ?_
  have hn : (Name.ofText name).matches k.name = decide (k.name = name) := by
    rw [Bool.eq_iff_iff, Name.matches_ofText, decide_eq_true_eq, eq_comm]
  rw [Config.ignores_withIgnored, List.any_cons, List.any_nil, Bool.or_false, hn, Bool.not_or,
    Bool.and_comm, decide_not]

theorem mem_survivors_withIgnored {c : Config} {name : String} {k : Member} :
    k ∈ survivors (c.withIgnored [.ofText name]) catalog ↔
      k ∈ survivors c catalog ∧ k.name ≠ name := by
  rw [survivors_withIgnored, List.mem_filter, decide_eq_true_eq]

theorem survivors_around {c : Config} (h : survivors c catalog = ms ++ m :: ms')
    (hne : ∀ k ∈ ms ++ ms', k.name ≠ m.name) :
    survivors (c.withIgnored [.ofText m.name]) catalog = ms ++ ms' := by
  rw [survivors_withIgnored, h, List.filter_append, List.filter_cons_of_neg (by simp),
    ← List.filter_append, List.filter_eq_self]
  intro k hk
  exact decide_eq_true (hne k hk)

/-! ### Conditions -/

/-- Ignoring a survivor without a substitute breaks no condition. -/
theorem holds_withIgnored (h : ∀ k : Condition, k.Holds W b catalog)
    (hm : m ∈ survivors b.config catalog) (hs : b.config.substitute? m.name = none)
    (k : Condition) :
    k.Holds W { b with config := b.config.withIgnored [.ofText m.name] } catalog := by
  cases k with
  | mode => exact h .mode
  | ignored =>
    intro n hn
    -- the name is for the members of an old one, or for the member itself
    rcases (Config.mem_withIgnored _ _).mp (List.mem_map_of_mem hn) with hold | hnew
    · obtain ⟨n', hn', heq⟩ := List.mem_map.mp hold
      rw [← heq]
      exact h .ignored n' hn'
    · obtain heq : n.matches = (Name.ofText m.name).matches := List.mem_singleton.mp hnew
      rw [heq]
      exact ⟨m, List.mem_of_mem_filter (List.mem_of_mem_filter hm), Name.matches_ofText.mpr rfl⟩
  | substituted =>
    intro n hn
    obtain ⟨k, hk, hnk⟩ := h .substituted n hn
    -- a substituted name is for another member, which stays
    have hne : k.name ≠ m.name := by
      intro heq
      obtain ⟨e, he, rfl⟩ := List.mem_map.mp hn
      have hno := Config.substitute?_eq_none_iff.mp hs e he
      rw [heq, hno] at hnk
      cases hnk
    exact ⟨k, mem_survivors_withIgnored.mpr ⟨hk, hne⟩, hnk⟩
  | accepted => exact fun k hk => h .accepted k (mem_survivors_withIgnored.mp hk).1
  | supported => exact fun k hk => h .supported k (mem_survivors_withIgnored.mp hk).1
  | distinct =>
    have hd : ((survivors b.config catalog).map Member.name).Nodup := h .distinct
    show ((survivors (b.config.withIgnored [.ofText m.name]) catalog).map Member.name).Nodup
    rw [survivors_withIgnored]
    exact hd.sublist (List.filter_sublist.map _)

/-- Substituting a survivor breaks no condition when the substitute accepts its type. -/
theorem holds_withSubstitute (h : ∀ k : Condition, k.Holds W b catalog)
    (hm : m ∈ survivors b.config catalog) {s : Substitute} {t : Ty}
    (ht : W.acceptedType s = .ok t) (ha : ∀ u, W.hierarchy.assignable u t = .ok true)
    (k : Condition) :
    k.Holds W { b with config := b.config.withSubstitute (.ofText m.name) s } catalog := by
  cases k with
  | mode => exact h .mode
  | ignored => exact h .ignored
  | substituted =>
    intro n hn
    obtain ⟨e, he, rfl⟩ := List.mem_map.mp hn
    rcases (Config.mem_withSubstitute _ _ _).mp (List.mem_map_of_mem he) with hold | hnew
    · obtain ⟨e', he', heq⟩ := List.mem_map.mp hold
      rw [← heq]
      exact h .substituted e'.1 (List.mem_map_of_mem he')
    · rw [hnew]
      exact ⟨m, hm, Name.matches_ofText.mpr rfl⟩
  | accepted =>
    intro k hk s' hs'
    rw [Config.substitute?_withSubstitute] at hs'
    split_ifs at hs' with hn
    · obtain rfl := Option.some.inj hs'
      exact ⟨t, ht, ha _⟩
    · exact h .accepted k hk s' hs'
  | supported =>
    intro k hk hs'
    rw [Config.substitute?_withSubstitute] at hs'
    split_ifs at hs' with hn
    exact h .supported k hk hs'
  | distinct => exact h .distinct

/-! ### Pairs -/

/-- The pairs around that of a member are those of the members around it. -/
theorem pairs_around {c : Config} {B : Behaviour} {x : Value} {l : List (String × String)}
    (hne : ∀ k ∈ ms ++ ms', k.name ≠ m.name) (h : W.pairs c B x (ms ++ m :: ms') = .ok l) :
    ∃ ps t qs, l = ps ++ (m.name, t) :: qs ∧ m.name ∉ (ps ++ qs).map Prod.fst ∧
      W.pairs c B x ms = .ok ps ∧ W.pairs c B x ms' = .ok qs := by
  obtain ⟨ps, l', hps, hl', rfl⟩ := pairs_append_eq_ok_iff.mp h
  obtain ⟨t, qs, -, hqs, rfl⟩ := pairs_cons_eq_ok_iff.mp hl'
  refine ⟨ps, t, qs, rfl, fun hmem => ?_, hps, hqs⟩
  rw [List.map_append, names_pairs hps, names_pairs hqs, ← List.map_append] at hmem
  obtain ⟨k, hk, heq⟩ := List.mem_map.mp hmem
  exact hne k hk heq

/-- A substitute leaves the fragments of all other members alone. -/
theorem pairs_withSubstitute {c : Config} {B : Behaviour} {x : Value} {s : Substitute}
    (hne : ∀ k ∈ ms, k.name ≠ m.name) :
    W.pairs (c.withSubstitute (.ofText m.name) s) B x ms = W.pairs c B x ms := by
  refine pairs_congr fun k hk => fragment_congr ?_
  have hn : ¬(Name.ofText m.name).matches k.name = true :=
    fun h => hne k hk (Name.matches_ofText.mp h).symm
  rw [Config.substitute?_withSubstitute, if_neg hn]

/-- When the member in the middle is ignored, its pair is taken out. -/
theorem pairs_ignored {c : Config} {B : Behaviour} {x : Value} {l : List (String × String)}
    (hms : survivors c catalog = ms ++ m :: ms') (hne : ∀ k ∈ ms ++ ms', k.name ≠ m.name)
    (h : W.pairs c B x (survivors c catalog) = .ok l) :
    ∃ ps t qs, l = ps ++ (m.name, t) :: qs ∧ m.name ∉ (ps ++ qs).map Prod.fst ∧
      W.pairs (c.withIgnored [.ofText m.name]) B x
        (survivors (c.withIgnored [.ofText m.name]) catalog) = .ok (ps ++ qs) := by
  rw [hms] at h
  obtain ⟨ps, t, qs, rfl, hnot, hps, hqs⟩ := pairs_around hne h
  refine ⟨ps, t, qs, rfl, hnot, ?_⟩
  rw [survivors_around hms hne]
  exact pairs_append_eq_ok_iff.mpr ⟨ps, qs, hps, hqs, rfl⟩

/-- When the member in the middle gets a function, its fragment is what the function gives. -/
theorem pairs_substituted {c : Config} {B : Behaviour} {x v w : Value} {t' : String}
    {l : List (String × String)} {s : Substitute} (hne : ∀ k ∈ ms ++ ms', k.name ≠ m.name)
    (h : W.pairs c B x (ms ++ m :: ms') = .ok l) (hv : m.read B x = .ok v)
    (hw : s.function.apply B v = .ok w) (ht' : Part.substituteText B w = .ok t') :
    ∃ ps t qs, l = ps ++ (m.name, t) :: qs ∧ m.name ∉ (ps ++ qs).map Prod.fst ∧
      W.pairs (c.withSubstitute (.ofText m.name) s) B x (ms ++ m :: ms') =
        .ok (ps ++ (m.name, t') :: qs) := by
  obtain ⟨ps, t, qs, rfl, hnot, hps, hqs⟩ := pairs_around hne h
  have hs : (c.withSubstitute (.ofText m.name) s).substitute? m.name = some s := by
    rw [Config.substitute?_withSubstitute, if_pos (Name.matches_ofText.mpr rfl)]
  have hfragment : W.fragment (c.withSubstitute (.ofText m.name) s) B x m = .ok t' := by
    rw [fragment_of_substitute hs, hv, ok_bind, hw, ok_bind, ht']
  have hps' : W.pairs (c.withSubstitute (.ofText m.name) s) B x ms = .ok ps := by
    rw [pairs_withSubstitute fun k hk => hne k (List.mem_append_left _ hk), hps]
  have hqs' : W.pairs (c.withSubstitute (.ofText m.name) s) B x ms' = .ok qs := by
    rw [pairs_withSubstitute fun k hk => hne k (List.mem_append_right _ hk), hqs]
  exact ⟨ps, t, qs, rfl, hnot, pairs_append_eq_ok_iff.mpr
    ⟨ps, _, hps', pairs_cons_eq_ok_iff.mpr ⟨t', qs, hfragment, hqs', rfl⟩, rfl⟩⟩

/-! ### Builds -/

/-- **One more call changes its own member and nothing else.**  Let a build succeed, and let `m` be
one of its surviving members.  If `m` has no substitute, then it can be ignored, the build goes on
to succeed, and the pairs of every record are the old ones without that of `m`.  And `m` can be
given any function that accepts everything: the build goes on to succeed, and the pairs of every
record are the old ones with the result of the function in the place of the old fragment.  What is
written has the tokens of the new pairs. -/
theorem build_local (hb : W.build b = .ok (r, notes))
    (hc : W.catalog b.target b.config.useFields b.config.useProperties = .ok (catalog, notes'))
    (hm : m ∈ survivors b.config catalog) :
    (∀ B x l, W.pairs b.config B x (survivors b.config catalog) = .ok l →
      r.render B x = .ok (Plan.written b.settings l)) ∧
    (b.config.substitute? m.name = none →
      ∃ c' r' notes'', W.ignore b.config [.text m.name] = .ok c' ∧
        W.build { b with config := c' } = .ok (r', notes'') ∧
        ∀ B x l, W.pairs b.config B x (survivors b.config catalog) = .ok l →
          ∃ ps t qs, l = ps ++ (m.name, t) :: qs ∧ m.name ∉ (ps ++ qs).map Prod.fst ∧
            W.pairs c' B x (survivors c' catalog) = .ok (ps ++ qs) ∧
            r'.render B x = .ok (Plan.written b.settings (ps ++ qs))) ∧
    ∀ f c', W.substitute b.config (.text m.name) f (some .object) = .ok c' →
      ∃ r' notes'', W.build { b with config := c' } = .ok (r', notes'') ∧
        ∀ B x l v w t', W.pairs b.config B x (survivors b.config catalog) = .ok l →
          m.read B x = .ok v → f.apply B v = .ok w → Part.substituteText B w = .ok t' →
            ∃ ps t qs, l = ps ++ (m.name, t) :: qs ∧ m.name ∉ (ps ++ qs).map Prod.fst ∧
              W.pairs c' B x (survivors c' catalog) = .ok (ps ++ (m.name, t') :: qs) ∧
              r'.render B x = .ok (Plan.written b.settings (ps ++ (m.name, t') :: qs)) := by
  obtain ⟨hk, -⟩ := (build_eq_ok_iff hc).mp hb
  obtain ⟨ms, ms', hms, hne⟩ := exists_around (hk .distinct) hm
  refine ⟨fun B x l hl => ?_, fun hs => ?_, fun f c' hc' => ?_⟩
  · rw [render_eq hb hc, hl, ok_bind]
  · have hb' := (build_eq_ok_iff (b := { b with config := b.config.withIgnored [.ofText m.name] })
      hc).mpr ⟨holds_withIgnored hk hm hs, rfl⟩
    refine ⟨_, _, _, ignore_eq_ok_iff.mpr ⟨rfl, [.ofText m.name], rfl, rfl⟩, hb',
      fun B x l hl => ?_⟩
    obtain ⟨ps, t, qs, hl, hnot, hpairs⟩ := pairs_ignored hms hne hl
    refine ⟨ps, t, qs, hl, hnot, hpairs, ?_⟩
    rw [render_eq hb' hc, hpairs, ok_bind]
  · obtain ⟨-, -, -, -, n, hn, rfl⟩ := substitute_eq_ok_iff.mp hc'
    obtain rfl := Except.ok.inj ((W.nameOf_text m.name).symm.trans hn)
    have hb' := (build_eq_ok_iff
      (b := { b with config := b.config.withSubstitute (.ofText m.name) ⟨f, some .object⟩ })
      hc).mpr ⟨holds_withSubstitute hk hm rfl W.hierarchy.assignable_object, rfl⟩
    refine ⟨_, _, hb', fun B x l v w t' hl hv hw ht' => ?_⟩
    rw [hms] at hl
    obtain ⟨ps, t, qs, hl, hnot, hpairs⟩ :=
      pairs_substituted (s := ⟨f, some .object⟩) hne hl hv hw ht'
    rw [← hms] at hpairs
    refine ⟨ps, t, qs, hl, hnot, hpairs, ?_⟩
    rw [render_eq hb' hc]
    exact congrArg (· >>= _) hpairs

end World

/-! ### The first of two members -/

/-- The pair of a first member stands first. -/
theorem eq_of_first_pair {n t : String} {l ps qs : List (String × String)} {t' : String}
    (h : (n, t) :: l = ps ++ (n, t') :: qs) (hn : n ∉ (ps ++ qs).map Prod.fst) :
    ps = [] ∧ qs = l := by
  cases ps with
  | nil => exact ⟨rfl, (List.cons.inj h).2.symm⟩
  | cons p ps =>
    obtain ⟨rfl, -⟩ := List.cons.inj h
    exact absurd (List.mem_cons_self ..) hn

/-- Ignoring the first of two members, and writing its length instead. -/
theorem build_local_texts :
    ∃ r notes c' r' notes' c'' r'' notes'',
      textsWorld.build (.ofModel []) = .ok (r, notes) ∧
      r.render textsWorld.behaviour (textsRecord "a" "b") =
        .ok "\x7bfirst=\"a\", second=\"b\"\x7d" ∧
      textsWorld.ignore (Builder.ofModel []).config [.text "first"] = .ok c' ∧
      textsWorld.build { Builder.ofModel [] with config := c' } = .ok (r', notes') ∧
      r'.render textsWorld.behaviour (textsRecord "a" "b") = .ok "\x7bsecond=\"b\"\x7d" ∧
      textsWorld.substitute (Builder.ofModel []).config (.text "first") (.builtin .length)
        (some .object) = .ok c'' ∧
      textsWorld.build { Builder.ofModel [] with config := c'' } = .ok (r'', notes'') ∧
      r''.render textsWorld.behaviour (textsRecord "a" "b") =
        .ok "\x7bfirst=1, second=\"b\"\x7d" := by
  obtain ⟨notes, hc⟩ := World.catalog_ofModel [("first", Ty.str), ("second", Ty.str)]
    (by simp [isPrivate])
  have hb := (World.build_eq_ok_iff hc).mpr ⟨holds_texts, rfl⟩
  have hl : textsWorld.pairs (Builder.ofModel []).config textsWorld.behaviour
      (textsRecord "a" "b") [textsFirst, textsSecond] =
        .ok [("first", "\"a\""), ("second", "\"b\"")] := rfl
  obtain ⟨hold, hignored, hsubstituted⟩ := World.build_local hb hc (List.mem_cons_self ..)
  obtain ⟨c', r', notes', hc', hb', hrender'⟩ := hignored rfl
  obtain ⟨ps, t, qs, heq, hn, -, hrender'⟩ := hrender' _ _ _ hl
  obtain ⟨rfl, rfl⟩ := eq_of_first_pair heq hn
  obtain ⟨r'', notes'', hb'', hrender''⟩ := hsubstituted (.builtin .length) _ rfl
  obtain ⟨ps, t, qs, heq, hn, -, hrender''⟩ := hrender'' _ _ _ (.text "a") (.int 1) "1" hl
    (Behaviour.readPath_of_not_mem (by decide) _ _) rfl rfl
  obtain ⟨rfl, rfl⟩ := eq_of_first_pair heq hn
  exact ⟨_, _, c', r', notes', _, r'', notes'', hb, hold _ _ _ hl, hc', hb', hrender', rfl, hb'',
    hrender''⟩

end RecordText
