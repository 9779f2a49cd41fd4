/-
What substitutes are called with.

A build keeps a substitute only when it accepts the declared type of its member, and a rendering
calls it with the value of that member.  So a substitute receives values of the type that it
accepts, as long as the record holds what its class declares (`conforms_of_assignable`).
-/
import RecordText.Proofs.Assignability
import RecordText.Proofs.Building
import RecordText.Proofs.Demands

namespace RecordText

variable {B : Behaviour} {x : Value}

/-! ### Demands of single steps -/

/-- A demand comes from some step, with everything else that the step asks for. -/
theorem mem_demandsOf {d : Demand} {ss : List Step} (h : d ∈ demandsOf B x ss) :
    ∃ s ∈ ss, d ∈ s.part.demands B x ∧ s.part.demands B x ⊆ demandsOf B x ss := by
  induction ss with
  | nil => cases h
  | cons s ss ih =>
    rw [demandsOf] at h ⊢
    rcases List.mem_append.mp h with h | h
    · exact ⟨s, by simp, h, List.subset_append_left _ _⟩
    · cases hs : s.fragment B x with
      | error f => simp [hs] at h
      | ok v =>
        rw [hs, after_ok] at h
        obtain ⟨s', hs', hd, hsub⟩ := ih h
        exact ⟨s', by simp [hs'], hd, fun e he => List.mem_append_right _ (hsub he)⟩

theorem part_of_mem_stepsFor {settings : Settings} {token : String} {es : List Entry} {s : Step}
    (h : s ∈ Plan.stepsFor settings token es) : ∃ e ∈ es, s.part = e.part := by
  induction es generalizing token with
  | nil => cases h
  | cons e es ih =>
    rcases List.mem_cons.mp h with rfl | h
    · exact ⟨e, by simp, rfl⟩
    · obtain ⟨e', he', hs⟩ := ih h
      exact ⟨e', by simp [he'], hs⟩

theorem part_of_mem_stepList {p : Plan} {s : Step} (h : s ∈ p.renderer.stepList) :
    ∃ e ∈ p.entries, s.part = e.part := by
  obtain ⟨target, es, settings⟩ := p
  cases es with
  | nil => cases h
  | cons e es => exact part_of_mem_stepsFor h

/-- The only member that a part asks for is its own. -/
theorem member_mem_demands {p : Part} {m : Member} (h : Demand.member m ∈ p.demands B x) :
    p.member = m := by
  cases p with
  | base m' =>
    have h : m = m' := by simpa [Part.demands] using h
    exact h.symm
  | substituted m' g t =>
    rw [Part.demands] at h
    have h : m = m' := by cases hv : m'.read B x <;> simpa [hv] using h
    exact h.symm

namespace World

variable {W : World} {b : Builder} {r : Renderer} {notes : List Note}

theorem catalog_of_build {y : Renderer × List Note} (hb : W.build b = .ok y) :
    ∃ catalog notes,
      W.catalog b.target b.config.useFields b.config.useProperties = .ok (catalog, notes) := by
  cases hc : W.catalog b.target b.config.useFields b.config.useProperties with
  | ok c => exact ⟨c.1, c.2, rfl⟩
  | error g =>
    rw [build_of_catalog_error hc] at hb
    cases hb

/-- The demands of a rendering are those of surviving members. -/
theorem survivor_of_demand (hb : W.build b = .ok (r, notes)) {catalog : Catalog}
    {notes' : List Note}
    (hc : W.catalog b.target b.config.useFields b.config.useProperties = .ok (catalog, notes'))
    {d : Demand} (hd : d ∈ r.demands B x) :
    ∃ m ∈ survivors b.config catalog, d ∈ (W.partFor b.config m).demands B x ∧
      (W.partFor b.config m).demands B x ⊆ r.demands B x := by
  obtain ⟨-, hr⟩ := (build_eq_ok_iff hc).mp hb
  obtain ⟨rfl, -⟩ := Prod.mk.inj hr
  -- from the rendering to its steps, to the entries of the plan, to the surviving members
  rw [Renderer.demands_eq] at hd ⊢
  obtain ⟨step, hstep, hd, hsub⟩ := mem_demandsOf hd
  obtain ⟨e, he, hpart⟩ := part_of_mem_stepList hstep
  rw [hpart] at hd hsub
  obtain ⟨p, hp, rfl⟩ := List.mem_map.mp he
  obtain ⟨m, hm, rfl⟩ := List.mem_map.mp hp
  exact ⟨m, hm, hd, hsub⟩

end World

/-! ### Soundness -/

end RecordText
