/-
What a build writes, member by member.

The renderer of a build writes every surviving member: its label, and the fragment that its value
gives by the strategy of its declared type or by its substitute (`World.fragment`).  The labels and
fragments of all survivors, in their order, are the `World.pairs` of a record.

* `pairs_eq_ok_iff`, `pairs_eq_error_iff` — all members have their fragments, or the first one that
  has none decides;
* `render_eq` — **a renderer that was built joins these pairs with its tokens and does nothing
  else**: it fails exactly when they do, and with the same failure.
-/
import RecordText.Proofs.Building
import RecordText.Proofs.Rendering

namespace RecordText

/-! ### Renderings of parts -/

namespace Plan

variable {settings : Settings} {H : Hierarchy} {B : Behaviour} {x : Value} {target : String}
  {parts : List Part}

/-- When every part has its fragment, the renderer writes the plain form. -/
theorem render_ofParts {ts : List String} (hs : ∀ p ∈ parts, p.strategy H ≠ .unsupported)
    (h : List.Forall₂ (fun p t => (Entry.ofPart H p).fragment B x = .ok t) parts ts) :
    (⟨target, parts.map (Entry.ofPart H), settings⟩ : Plan).renderer.render B x =
      .ok (written settings ((parts.map Part.name).zip ts)) := by
  cases h with
  | nil => exact congrArg Except.ok (written_nil settings).symm
  | @cons p t ps ts hp hps =>
    rw [render_renderer B x (by simp), partsWith_of_fragments hs _ (.cons hp hps), ok_bind,
      joined_pieces settings (by simp)]
    rfl

/-- The first part without a fragment decides how the renderer fails. -/
theorem render_of_failure {p : Part} {f : Failure} (hs : ∀ q ∈ parts, q.strategy H ≠ .unsupported)
    (h : First (fun q => ∃ g, (Entry.ofPart H q).fragment B x = .error g) parts p)
    (hf : (Entry.ofPart H p).fragment B x = .error f) :
    (⟨target, parts.map (Entry.ofPart H), settings⟩ : Plan).renderer.render B x = .error f := by
  obtain ⟨qs, rs, rfl, -, hqs⟩ := h
  have hok : ∀ q ∈ qs, ∃ t, (Entry.ofPart H q).fragment B x = .ok t := by
    intro q hq
    cases ht : (Entry.ofPart H q).fragment B x with
    | ok t => exact ⟨t, rfl⟩
    | error g => exact absurd ⟨g, ht⟩ (hqs q hq)
  rw [render_renderer B x (by simp), partsWith_of_failure hs _ hok hf, error_bind]

end Plan

namespace World

variable {W : World} {b : Builder} {r : Renderer} {notes notes' : List Note} {catalog : Catalog}
  {B : Behaviour} {x : Value}

/-! ### Renderings of builds -/

/-- A build that succeeds gives every surviving member support. -/
theorem supported_of_build (hb : W.build b = .ok (r, notes))
    (hc : W.catalog b.target b.config.useFields b.config.useProperties = .ok (catalog, notes')) :
    r = (W.planFor b catalog).renderer ∧
      ∀ p ∈ (survivors b.config catalog).map (W.partFor b.config),
        p.strategy W.hierarchy ≠ .unsupported := by
  obtain ⟨hk, hr⟩ := (build_eq_ok_iff hc).mp hb
  refine ⟨(Prod.mk.inj hr).1, fun p hp hu => ?_⟩
  obtain ⟨m, hm, rfl⟩ := List.mem_map.mp hp
  obtain ⟨hn, hu⟩ := (strategy_partFor W b.config m).mp hu
  exact hk .supported m hm hn hu

/-- A renderer that was built writes the fragments of all surviving members. -/
theorem render_of_fragments (hb : W.build b = .ok (r, notes))
    (hc : W.catalog b.target b.config.useFields b.config.useProperties = .ok (catalog, notes'))
    {ts : List String}
    (h : List.Forall₂ (fun m t =>
      (Entry.ofPart W.hierarchy (W.partFor b.config m)).fragment B x = .ok t)
        (survivors b.config catalog) ts) :
    r.render B x =
      .ok (Plan.written b.settings (((survivors b.config catalog).map Member.name).zip ts)) := by
  obtain ⟨rfl, hs⟩ := supported_of_build hb hc
  rw [planFor, Plan.render_ofParts hs (List.forall₂_map_left_iff.mpr h), List.map_map,
    show Part.name ∘ W.partFor b.config = Member.name from funext (name_partFor W b.config)]

/-- The fragment of a member for the record `x`, under a configuration. -/
def fragment (W : World) (c : Config) (B : Behaviour) (x : Value) (m : Member) :
    Except Failure String :=
  (Entry.ofPart W.hierarchy (W.partFor c m)).fragment B x

/-- Without a substitute, a value is written by the strategy of its declared type, if it is
written at all. -/
theorem fragment_of_no_substitute {c : Config} {m : Member} (h : c.substitute? m.name = none) :
    W.fragment c B x m = m.read B x >>= fun v =>
      if v.isAbsent && (W.hierarchy.strategy m.declared).leavesOut m.declared then .ok ""
      else (W.hierarchy.strategy m.declared).textOf B v := by
  rw [fragment, partFor, h]
  rfl

/-- With a substitute, the text of what it gives is written, whatever the declared type is. -/
theorem fragment_of_substitute {c : Config} {m : Member} {s : Substitute}
    (h : c.substitute? m.name = some s) :
    W.fragment c B x m = m.read B x >>= fun v => s.function.apply B v >>= fun w =>
      Part.substituteText B w := by
  rw [fragment, partFor, h]
  rfl

/-- A fragment depends on the configuration by the substitute of its member alone. -/
theorem fragment_congr {c c' : Config} {m : Member}
    (h : c'.substitute? m.name = c.substitute? m.name) :
    W.fragment c' B x m = W.fragment c B x m := by
  rw [fragment, fragment, partFor, partFor, h]

/-- A fragment depends on the record by the value of its member alone. -/
theorem fragment_congr_read {c : Config} {m : Member} {y : Value}
    (h : m.read B x = m.read B y) : W.fragment c B x m = W.fragment c B y m := by
  cases hs : c.substitute? m.name with
  | none => rw [fragment_of_no_substitute hs, fragment_of_no_substitute hs, h]
  | some s => rw [fragment_of_substitute hs, fragment_of_substitute hs, h]

/-- The labels and the fragments of members, in their order. -/
def pairs (W : World) (c : Config) (B : Behaviour) (x : Value) (ms : List Member) :
    Except Failure (List (String × String)) :=
  ms.mapM fun m => do return (m.name, ← W.fragment c B x m)

variable {c c' : Config} {m : Member} {ms ms' : List Member} {ps : List (String × String)}

theorem pair_eq_ok_iff {p : String × String} :
    (W.fragment c B x m >>= fun t => pure (m.name, t)) = .ok p ↔
      p.1 = m.name ∧ W.fragment c B x m = .ok p.2 := by
  obtain ⟨n, t⟩ := p
  cases W.fragment c B x m <;> simp [eq_comm]

theorem pairs_eq_ok_iff : W.pairs c B x ms = .ok ps ↔
    List.Forall₂ (fun m p => p.1 = m.name ∧ W.fragment c B x m = .ok p.2) ms ps := by
  simp only [pairs, mapM_eq_ok_iff, pair_eq_ok_iff]

theorem pairs_eq_error_iff {f : Failure} :
    W.pairs c B x ms = .error f ↔ ∃ m,
      First (fun m => ∃ g, W.fragment c B x m = .error g) ms m ∧ W.fragment c B x m = .error f := by
  simp only [pairs, mapM_eq_error_iff, bind_eq_error_iff, pure_eq_ok, reduceCtorEq, and_false,
    exists_false, or_false]

/-- Pairs are labelled by their members. -/
theorem names_pairs (h : W.pairs c B x ms = .ok ps) : ps.map Prod.fst = ms.map Member.name := by
  replace h := pairs_eq_ok_iff.mp h
  induction h with
  | nil => rfl
  | cons hp _ ih => rw [List.map_cons, List.map_cons, ih, hp.1]

theorem pairs_congr {y : Value} (h : ∀ m ∈ ms, W.fragment c' B x m = W.fragment c B y m) :
    W.pairs c' B x ms = W.pairs c B y ms :=
  mapM_congr fun m hm => by rw [h m hm]

/-- Members that stand one after the other have their pairs one after the other. -/
theorem pairs_append_eq_ok_iff : W.pairs c B x (ms ++ ms') = .ok ps ↔
    ∃ qs rs, W.pairs c B x ms = .ok qs ∧ W.pairs c B x ms' = .ok rs ∧ ps = qs ++ rs := by
  rw [pairs, List.mapM_append]
  simp only [bind_eq_ok_iff, pure_eq_ok, Except.ok.injEq, exists_and_left]
  exact exists_congr fun qs => and_congr Iff.rfl (exists_congr fun rs => and_congr Iff.rfl eq_comm)

theorem pairs_cons_eq_ok_iff : W.pairs c B x (m :: ms) = .ok ps ↔
    ∃ t qs, W.fragment c B x m = .ok t ∧ W.pairs c B x ms = .ok qs ∧ ps = (m.name, t) :: qs := by
  rw [pairs, List.mapM_cons]
  simp only [bind_assoc, bind_eq_ok_iff, pure_eq_ok, ok_bind, Except.ok.injEq, exists_and_left]
  exact exists_congr fun t => and_congr Iff.rfl (exists_congr fun qs => and_congr Iff.rfl eq_comm)

/-- **A renderer that was built joins the pairs of a record with its tokens**, and fails exactly
when some member has no fragment, with the failure of the first one. -/
theorem render_eq (hb : W.build b = .ok (r, notes))
    (hc : W.catalog b.target b.config.useFields b.config.useProperties = .ok (catalog, notes'))
    (B : Behaviour) (x : Value) :
    r.render B x =
      W.pairs b.config B x (survivors b.config catalog) >>= fun ps =>
        .ok (Plan.written b.settings ps) := by
  cases hp : W.pairs b.config B x (survivors b.config catalog) with
  | ok ps =>
    have hf : List.Forall₂ (fun m t => W.fragment b.config B x m = .ok t)
        (survivors b.config catalog) (ps.map Prod.snd) :=
      List.forall₂_map_right_iff.mpr ((pairs_eq_ok_iff.mp hp).imp fun _ _ h => h.2)
    have hz : (ps.map Prod.fst).zip (ps.map Prod.snd) = ps := (List.zip_of_prod rfl rfl).symm
    rw [render_of_fragments hb hc hf, ← names_pairs hp, hz, ok_bind]
  | error f =>
    obtain ⟨rfl, hs⟩ := supported_of_build hb hc
    obtain ⟨m, ⟨ms, ms', hms, hm, hfirst⟩, hf⟩ := pairs_eq_error_iff.mp hp
    rw [error_bind, planFor]
    refine Plan.render_of_failure hs ⟨ms.map (W.partFor b.config), ms'.map (W.partFor b.config),
      ?_, hm, ?_⟩ hf
    · rw [hms, List.map_append, List.map_cons]
    · exact List.forall_mem_map.mpr hfirst

end World

end RecordText
