/-
Rejected types under new names.

The universal types and everything that iterates have no strategy, and a build refuses the members
that are declared with them.  A new name for such a type is seen through only where the type
iterates as it stands: a new name for `Any` or `object`, or for a rejected type that is optional or
has remarks, is an object like any other, whether it is declared itself, made optional or annotated.

* `Renamed.strategyOfBare` — what chains of new names have for a strategy;
* `World.strategy_of_dressed` — an optional or annotated form of a chain has the same;
* `World.isIterable_iff_showsThrough` — which rejected types are seen through new names;
* `renamed_rejected` — **a rejected type that is seen through is refused under every new name, and
  any other one is accepted.**
-/
import RecordText.Proofs.Optionals
import RecordText.Proofs.Building

namespace RecordText

namespace Ty

/-! ### New names -/

/-- The second type is the first one under one or more new names.  The type of single characters is
no such name: it has a strategy of its own. -/
inductive Renamed (t : Ty) : Ty → Prop
  | once {i : Ident} (home : String) : i ≠ charIdent → Renamed t (.newType i home t)
  | again {i : Ident} {n : Ty} (home : String) : i ≠ charIdent → Renamed t n →
      Renamed t (.newType i home n)

/-- The second type is the first one, a spelling of its optional type, or the type with remarks. -/
inductive Dressed (n : Ty) : Ty → Prop
  | itself : Dressed n n
  | optional {x : Ty} : n.OrAbsent x → Dressed n x
  | annotated {check : TextCheck} {x : Ty} {rs : List Remark} : annotate check n rs = .ok x →
      Dressed n x

/-- A rejected type that is still rejected under a new name: it is neither universal nor optional
nor annotated. -/
def ShowsThrough (t : Ty) : Prop :=
  t.isAny = false ∧ t.isAnnotated = false ∧ t.isUnion = false

variable {t n x : Ty}

theorem Renamed.isNewType (hn : t.Renamed n) : n.isNewType = true := by
  cases hn <;> rfl

/-- Whether something iterates is asked below all new names. -/
theorem Renamed.isIterable (H : Hierarchy) (hn : t.Renamed n) :
    H.isIterable n = H.isIterable t := by
  induction hn with
  | once _ _ => rfl
  | again _ _ _ ih => exact ih

/-- **A chain of new names is rejected exactly when the type below it iterates as it stands.** -/
theorem Renamed.strategyOfBare (H : Hierarchy) (hn : t.Renamed n) :
    H.strategyOfBare n = if H.isIterable t then .unsupported else .object := by
  rw [← hn.isIterable H]
  cases hn with
  | once home hi | again home hi _ =>
    simp [Hierarchy.strategyOfBare, Hierarchy.isPrimitive, isChar, isStr, isAny, hi]

end Ty

namespace World

variable {W : World} {t n x : Ty}

/-- An optional or annotated new name has the strategy of the name. -/
theorem strategy_of_dressed (W : World) (hn : n.isNewType = true) (hx : n.Dressed x) :
    W.hierarchy.strategy x = W.hierarchy.strategyOfBare n := by
  cases n with
  | newType i home t =>
    have hproper : (Ty.newType i home t).Proper := fun s ts h => by cases h
    cases hx with
    | itself => rfl
    | optional ho => exact (W.strategy_of_orAbsent rfl hproper ho).1
    | annotated ho =>
      rw [Hierarchy.strategy, Ty.core_annotate ho]
      rfl
  | _ => cases hn

/-- The universal types do not iterate. -/
theorem isIterable_of_isAny (W : World) (h : t.isAny = true) :
    W.hierarchy.isIterable t = false := by
  unfold Ty.isAny at h
  split at h
  · rfl
  · rfl
  · cases h

/-- A rejected type iterates as it stands, unless it is universal, optional or annotated. -/
theorem isIterable_iff_showsThrough (ht : W.hierarchy.strategy t = .unsupported) :
    W.hierarchy.isIterable t = true ↔ t.ShowsThrough := by
  constructor
  · intro hiter
    refine ⟨?_, ?_, ?_⟩
    · by_contra hany
      rw [W.isIterable_of_isAny (by simpa using hany)] at hiter
      cases hiter
    · cases t with
      | annotated => cases hiter
      | _ => rfl
    · cases t with
      | union => cases hiter
      | _ => rfl
  · rintro ⟨hany, hann, hunion⟩
    have hcore := Ty.core_of_not_annotated hann
    rw [Hierarchy.strategy_of_not_union (by rw [hcore]; exact hunion), hcore,
      Hierarchy.strategyOfBare, hany, Bool.false_or] at ht
    -- of all rules only the last but one gives this strategy
    repeat' split at ht
    all_goals first | assumption | cases ht

end World

/-! ### Builds -/

namespace World

variable {W : World} {b : Builder} {catalog : Catalog} {notes : List Note}

/-- A candidate that is neither ignored nor substituted. -/
def Keeps (b : Builder) (catalog : Catalog) (m : Member) : Prop :=
  m ∈ survivors b.config catalog ∧ b.config.substitute? m.name = none

/-- No build succeeds that keeps a member of the type. If everything that is checked before is in
order, then the build is refused for the declared type of a member that it keeps. -/
def RefusesType (W : World) (x : Ty) : Prop :=
  ∀ b catalog notes m,
    W.catalog b.target b.config.useFields b.config.useProperties = .ok (catalog, notes) →
      Keeps b catalog m → m.declared = x →
        (∀ y, W.build b ≠ .ok y) ∧
        ((∀ j ∈ Condition.supported.earlier, j.Holds W b catalog) →
          ∃ k, Keeps b catalog k ∧ W.hierarchy.strategy k.declared = .unsupported ∧
            W.build b = .error (.rejected (.unsupported k.name b.target.title k.declared)))

/-- Builds succeed with members of the type, if nothing else is in their way. -/
def TakesType (W : World) (x : Ty) : Prop :=
  ∀ b catalog notes,
    W.catalog b.target b.config.useFields b.config.useProperties = .ok (catalog, notes) →
      (∀ k : Condition, k ≠ .supported → k.Holds W b catalog) →
        (∀ m, Keeps b catalog m →
          m.declared = x ∨ W.hierarchy.strategy m.declared ≠ .unsupported) →
            ∃ y, W.build b = .ok y

theorem refusesType_of_unsupported {x : Ty} (h : W.hierarchy.strategy x = .unsupported) :
    W.RefusesType x := by
  rintro b catalog notes m hc ⟨hm, hnone⟩ rfl
  refine ⟨fun y hy => ?_, fun hearlier => ?_⟩
  · exact ((build_eq_ok_iff hc).mp hy).1 .supported m hm hnone h
  · have hrefused : ∃ m ∈ survivors b.config catalog, b.config.substitute? m.name = none ∧
        W.hierarchy.strategy m.declared = .unsupported := ⟨m, hm, hnone, h⟩
    obtain ⟨k, hk⟩ := First.exists_iff.mpr hrefused
    exact ⟨k, ⟨hk.mem, hk.holds.1⟩, hk.holds.2,
      (build_eq_error_iff hc).mpr ⟨.supported, hearlier, k, hk, rfl⟩⟩

theorem takesType_of_supported {x : Ty} (h : W.hierarchy.strategy x ≠ .unsupported) :
    W.TakesType x := by
  intro b catalog notes hc hk hothers
  refine ⟨_, (build_eq_ok_iff hc).mpr ⟨fun k => ?_, rfl⟩⟩
  by_cases hks : k = .supported
  · subst hks
    intro m hm hnone
    rcases hothers m ⟨hm, hnone⟩ with rfl | hsupported
    · exact h
    · exact hsupported
  · exact hk k hks

end World

/-- **A rejected type that shows through is refused under every chain of new names**, also when the
name is made optional or annotated.  Any other rejected type is written as an object there, and
builds take it. -/
theorem renamed_rejected (W : World) {t n x : Ty} (ht : W.hierarchy.strategy t = .unsupported)
    (hn : t.Renamed n) (hx : n.Dressed x) :
    (t.ShowsThrough → W.hierarchy.strategy x = .unsupported ∧ W.RefusesType x) ∧
    (¬t.ShowsThrough → W.hierarchy.strategy x = .object ∧ W.TakesType x) := by
  have hx := (W.strategy_of_dressed hn.isNewType hx).trans (hn.strategyOfBare W.hierarchy)
  have hiff := World.isIterable_iff_showsThrough ht
  refine ⟨fun h => ?_, fun h => ?_⟩
  · rw [if_pos (hiff.mpr h)] at hx
    exact ⟨hx, World.refusesType_of_unsupported hx⟩
  · rw [if_neg (mt hiff.mp h)] at hx
    exact ⟨hx, World.takesType_of_supported (by rw [hx]; decide)⟩

/-- A new name for lists. -/
def namedList : Ty := .newType ⟨2, "Names"⟩ "m" (.cls (.known .list))

/-- A list that may be absent, and a new name for it. -/
def namedOption : Ty := .newType ⟨3, "Rows"⟩ "m" (.union .form [.cls (.known .list), Ty.noneType])

/-- The second name, optional once more. -/
def optionalRows : Ty := .union .form [namedOption, Ty.noneType]

theorem renamed_rejected_lists :
    (World.ofModel [("rows", optionalRows)]).RefusesType namedList ∧
      (World.ofModel [("rows", optionalRows)]).hierarchy.strategy optionalRows = .object ∧
      ∃ y, (World.ofModel [("rows", optionalRows)]).build (Builder.ofModel []) = .ok y := by
  have hspelled : Ty.optional Phrase.check namedOption = .ok optionalRows := rfl
  have hoptional : namedOption.OrAbsent optionalRows := .optional hspelled
  obtain ⟨hrefused, -⟩ := renamed_rejected (World.ofModel [("rows", optionalRows)])
    (t := .cls (.known .list)) (n := namedList) rfl (.once "m" (by decide)) .itself
  obtain ⟨-, htaken⟩ := renamed_rejected (World.ofModel [("rows", optionalRows)])
    (t := .union .form [.cls (.known .list), Ty.noneType]) (n := namedOption) rfl
    (.once "m" (by decide)) (.optional hoptional)
  obtain ⟨hobject, htaken⟩ := htaken (by simp [Ty.ShowsThrough, Ty.isUnion])
  refine ⟨(hrefused ⟨rfl, rfl, rfl⟩).2, hobject, ?_⟩
  obtain ⟨notes, hc⟩ := World.catalog_ofModel [("rows", optionalRows)]
    (by simp [isPrivate])
  refine htaken (Builder.ofModel []) _ notes hc (fun k hk => ?_) fun m hm => ?_
  · cases k with
    | mode => exact .inl rfl
    | ignored | substituted => exact fun n hn => absurd hn List.not_mem_nil
    | accepted => exact fun m _ s hs => by cases hs
    | supported => exact absurd rfl hk
    | distinct => exact List.nodup_singleton _
  · obtain rfl := List.mem_singleton.mp hm.1
    exact .inl rfl

end RecordText
