/-
Unions as they are made.

The members of a union that `Ty.joined` makes are no unions, no two of them are equal, and there
are two at least (`Ty.IsJoined`, `Ty.isJoined_of_joined`).  Joining such members again changes
nothing (`Ty.joined_of_isJoined`), and the same holds for any two or more of them.
-/
import RecordText.Ty.Form
import Mathlib.Tactic.Common

namespace RecordText.Ty

variable {t u : Ty} {ts us : List Ty}

/-- No type of the list equals a later one. -/
abbrev Distinct (ts : List Ty) : Prop := ts.Pairwise fun t u => t.same u = false

/-- Members as a union has them. -/
structure IsJoined (ts : List Ty) : Prop where
  flat : ∀ t ∈ ts, t.isUnion = false
  distinct : Distinct ts
  several : 2 ≤ ts.length

theorem IsJoined.sublist (h : IsJoined ts) (hs : us.Sublist ts) (hu : 2 ≤ us.length) :
    IsJoined us where
  flat t ht := h.flat t (hs.subset ht)
  distinct := h.distinct.sublist hs
  several := hu

/-! ### Joining again -/

theorem foldl_dropCopies {kept : List Ty} (h : Distinct (kept ++ ts)) :
    ts.foldl (fun kept t => if kept.any fun k => k.same t then kept else kept ++ [t]) kept =
      kept ++ ts := by
  induction ts generalizing kept with
  | nil => simp
  | cons t ts ih =>
    have hnew : ¬(kept.any fun k => k.same t) = true := by
      have hdiffer := (List.pairwise_append.mp h).2.2
      simpa using fun k hk => hdiffer k hk t List.mem_cons_self
    rw [List.foldl_cons, if_neg hnew, ih]
    · simp
    · simpa using h

/-- Distinct types are all kept. -/
theorem dropCopies_of_distinct (h : Distinct ts) : dropCopies ts = ts :=
  foldl_dropCopies h

theorem members_of_not_union (h : t.isUnion = false) : t.members = [t] := by
  cases t with
  | union => cases h
  | _ => rfl

theorem flatMap_members (h : ∀ t ∈ ts, t.isUnion = false) : ts.flatMap members = ts := by
  induction ts with
  | nil => rfl
  | cons t ts ih =>
    obtain ⟨ht, hts⟩ := List.forall_mem_cons.mp h
    rw [List.flatMap_cons, members_of_not_union ht, ih hts]
    rfl

/-- What is kept makes the union if it is as a union has it. -/
theorem joined_of_dropCopies (hkept : dropCopies (ts.flatMap members) = us) (h : IsJoined us)
    (s : UnionSpelling) : joined s ts = .union s us := by
  unfold joined
  rw [hkept]
  split
  · exact absurd h.several (by simp)
  · rfl

/-- Members as a union has them are joined to the union of them. -/
theorem joined_of_isJoined (h : IsJoined ts) (s : UnionSpelling) : joined s ts = .union s ts := by
  refine joined_of_dropCopies ?_ h s
  rw [flatMap_members h.flat, dropCopies_of_distinct h.distinct]

/-! ### Joining for the first time -/

theorem distinct_foldl {kept : List Ty} (h : Distinct kept) : Distinct
    (ts.foldl (fun kept t => if kept.any fun k => k.same t then kept else kept ++ [t]) kept) := by
  induction ts generalizing kept with
  | nil => exact h
  | cons t ts ih =>
    rw [List.foldl_cons]
    refine ih ?_
    split
    · exact h
    · next hnew =>
      refine List.pairwise_append.mpr ⟨h, List.pairwise_singleton _ _, fun k hk u hu => ?_⟩
      obtain rfl := List.mem_singleton.mp hu
      have hdiffer : ∀ k ∈ kept, k.same u = false := by simpa using hnew
      exact hdiffer k hk

theorem foldl_subset {kept : List Ty} :
    ts.foldl (fun kept t => if kept.any fun k => k.same t then kept else kept ++ [t]) kept ⊆
      kept ++ ts := by
  induction ts generalizing kept with
  | nil => simp
  | cons t ts ih =>
    rw [List.foldl_cons]
    refine List.Subset.trans ih ?_
    split
    · refine List.append_subset.mpr ⟨List.subset_append_left _ _, ?_⟩
      exact List.Subset.trans (List.subset_cons_self t ts) (List.subset_append_right _ _)
    · rw [List.append_assoc]
      exact List.Subset.refl _

theorem subset_foldl {kept : List Ty} : kept ⊆
    ts.foldl (fun kept t => if kept.any fun k => k.same t then kept else kept ++ [t]) kept := by
  induction ts generalizing kept with
  | nil => exact List.Subset.refl _
  | cons t ts ih =>
    rw [List.foldl_cons]
    refine List.Subset.trans ?_ ih
    split
    · exact List.Subset.refl _
    · exact List.subset_append_left _ _

theorem dropCopies_ne_nil (h : ts ≠ []) : dropCopies ts ≠ [] := by
  cases ts with
  | nil => exact absurd rfl h
  | cons t ts =>
    -- the first type is kept at once
    have hkept : [t] ⊆ dropCopies (t :: ts) := @subset_foldl ts [t]
    exact List.ne_nil_of_mem (hkept List.mem_cons_self)

/-- **The unions that are made have members as a union has them.** -/
theorem isJoined_of_joined {s r : UnionSpelling} (hne : ts.flatMap members ≠ [])
    (hflat : ∀ t ∈ ts.flatMap members, t.isUnion = false) (h : joined s ts = .union r us) :
    IsJoined us := by
  have hsub : dropCopies (ts.flatMap members) ⊆ ts.flatMap members := foldl_subset
  unfold joined at h
  split at h
  · next t ht =>
    -- a member that is left alone is no union
    have hmem : t ∈ dropCopies (ts.flatMap members) := by simp [ht]
    have hunion := hflat t (hsub hmem)
    rw [h] at hunion
    cases hunion
  · next hsingle =>
    obtain ⟨-, rfl⟩ := Ty.union.inj h
    refine ⟨fun t ht => hflat t (hsub ht), distinct_foldl List.Pairwise.nil, ?_⟩
    cases hkept : dropCopies (ts.flatMap members) with
    | nil => exact absurd hkept (dropCopies_ne_nil hne)
    | cons t vs =>
      cases vs with
      | nil => exact absurd hkept (hsingle t)
      | cons => simp

end RecordText.Ty
