/-
Optional types add the absent value and nothing else.

That a type or the absent value is meant can be written in many ways: by the form for optional
types, by a union with the absent value at any place, by a bar, with remarks around it, and by every
type that equals one of these (`Ty.OrAbsent`).  All of them come down to the union of the type with
the class of the absent value (`Ty.orAbsent`).

* `Ty.joined_same` — a union depends on its members and on nothing else;
* `Ty.OrAbsent.same` — all spellings are equal below the remarks around them;
* `World.strategy_orAbsent` — the absent value leaves the strategy as it is;
* `optional_adds_absence` — **a type that is made optional is supported exactly when it was**, and
  its writer leaves an empty fragment for absent values and goes on as before for all others.
-/
import RecordText.Proofs.Spellings

namespace RecordText

namespace Ty

variable {check : TextCheck} {t u o x n : Ty} {ts us : List Ty}

@[simp] theorem members_noneType : noneType.members = [noneType] := rfl

@[simp] theorem isUnion_noneType : noneType.isUnion = false := rfl

@[simp] theorem isNoneType_noneType : noneType.isNoneType = true := rfl

/-! ### Unions by their members -/

theorem SameMembers.refl (ts : List Ty) : SameMembers ts ts :=
  ⟨fun t ht => ⟨t, ht, t.same_self⟩, fun t ht => ⟨t, ht, t.same_self⟩⟩

theorem SameMembers.trans {vs : List Ty} (h : SameMembers ts us) (h' : SameMembers us vs) :
    SameMembers ts vs := by
  refine ⟨fun t ht => ?_, fun v hv => ?_⟩
  · obtain ⟨u, hu, htu⟩ := h.1 t ht
    obtain ⟨v, hv, huv⟩ := h'.1 u hu
    exact ⟨v, hv, same_trans _ _ _ htu huv⟩
  · obtain ⟨u, hu, huv⟩ := h'.2 v hv
    obtain ⟨t, ht, htu⟩ := h.2 u hu
    exact ⟨t, ht, same_trans _ _ _ htu huv⟩

theorem SameMembers.of_mem_iff (h : ∀ t, t ∈ ts ↔ t ∈ us) : SameMembers ts us :=
  ⟨fun t ht => ⟨t, (h t).mp ht, t.same_self⟩, fun t ht => ⟨t, (h t).mpr ht, t.same_self⟩⟩

theorem SameMembers.append_right (h : SameMembers ts us) (vs : List Ty) :
    SameMembers (ts ++ vs) (us ++ vs) := by
  refine ⟨fun t ht => ?_, fun v hv => ?_⟩
  · rcases List.mem_append.mp ht with ht | ht
    · obtain ⟨u, hu, hsame⟩ := h.1 t ht
      exact ⟨u, List.mem_append_left _ hu, hsame⟩
    · exact ⟨t, List.mem_append_right _ ht, t.same_self⟩
  · rcases List.mem_append.mp hv with hv | hv
    · obtain ⟨t, ht, hsame⟩ := h.2 v hv
      exact ⟨t, List.mem_append_left _ ht, hsame⟩
    · exact ⟨v, List.mem_append_right _ hv, v.same_self⟩

/-- A type that is dropped equals one that is kept. -/
theorem exists_mem_foldl {kept : List Ty} : ∀ t ∈ kept ++ ts, ∃ k ∈
    ts.foldl (fun kept t => if kept.any fun k => k.same t then kept else kept ++ [t]) kept,
      k.same t = true := by
  induction ts generalizing kept with
  | nil => exact fun t ht => ⟨t, by simpa using ht, t.same_self⟩
  | cons u us ih =>
    intro t ht
    rw [List.foldl_cons]
    split
    · next hany =>
      rcases List.mem_append.mp ht with hkept | hrest
      · exact ih t (List.mem_append_left _ hkept)
      rcases List.mem_cons.mp hrest with rfl | hrest
      · obtain ⟨k, hk, hkt⟩ := List.any_eq_true.mp hany
        obtain ⟨l, hl, hlk⟩ := ih k (List.mem_append_left _ hk)
        exact ⟨l, hl, same_trans _ _ _ hlk hkt⟩
      · exact ih t (List.mem_append_right _ hrest)
    · exact ih t (by simpa using ht)

theorem sameMembers_dropCopies (ts : List Ty) : SameMembers (dropCopies ts) ts := by
  have hsub : dropCopies ts ⊆ ts := foldl_subset
  refine ⟨fun k hk => ⟨k, hsub hk, k.same_self⟩, fun t ht => ?_⟩
  have hkept := @exists_mem_foldl ts []
  exact hkept t ht

theorem distinct_dropCopies (ts : List Ty) : Distinct (dropCopies ts) :=
  distinct_foldl List.Pairwise.nil

/-- Distinct members that equal those of a single type are a single type. -/
theorem eq_singleton_of_sameMembers (h : SameMembers [t] us) (hus : Distinct us) :
    ∃ u, us = [u] ∧ t.same u = true := by
  have hne : us ≠ [] := by
    obtain ⟨u, hu, -⟩ := h.1 t List.mem_cons_self
    exact List.ne_nil_of_mem hu
  refine eq_singleton_of_distinct hne hus fun u hu => ?_
  obtain ⟨x, hx, hsame⟩ := h.2 u hu
  exact List.mem_singleton.mp hx ▸ hsame

/-- **A union depends on its members and on nothing else**, up to equality. -/
theorem joined_same (s r : UnionSpelling)
    (h : SameMembers (ts.flatMap members) (us.flatMap members)) :
    (joined s ts).same (joined r us) = true := by
  have hkept : SameMembers (dropCopies (ts.flatMap members)) (dropCopies (us.flatMap members)) :=
    (sameMembers_dropCopies _).trans (h.trans (sameMembers_dropCopies _).symm)
  have hts := distinct_dropCopies (ts.flatMap members)
  have hus := distinct_dropCopies (us.flatMap members)
  unfold joined
  generalize dropCopies (ts.flatMap members) = ks at *
  generalize dropCopies (us.flatMap members) = ls at *
  split
  · obtain ⟨u, rfl, hsame⟩ := eq_singleton_of_sameMembers hkept hus
    exact hsame
  · next hsingle =>
    split
    · obtain ⟨t, rfl, -⟩ := eq_singleton_of_sameMembers hkept.symm hts
      exact absurd rfl (hsingle t)
    · exact same_union_iff.mpr hkept

/-! ### Arguments -/

/-- What a type becomes as an argument of a union. -/
def asArgument : Ty → Ty
  | .absent => noneType
  | .text s => .forward s
  | t => t

theorem eq_asArgument {b : Bool} (h : argument check b t = .ok u) : u = t.asArgument := by
  unfold argument at h
  split at h
  · unfold converted at h
    split at h
    · cases h
      rfl
    · next s =>
      obtain ⟨_, -, h⟩ := bind_eq_ok_iff.mp h
      cases h
      rfl
    · next habsent htext =>
      cases h
      cases t with
      | absent => exact absurd rfl habsent
      | text s => exact absurd rfl (htext s)
      | _ => rfl
  · cases h

theorem eq_map_asArgument (h : ts.mapM (argument check false) = .ok us) :
    us = ts.map asArgument := by
  replace h := mapM_eq_ok_iff.mp h
  induction h with
  | nil => rfl
  | cons ht _ ih => rw [List.map_cons, eq_asArgument ht, ih]

theorem eq_joined_of_unionOf (h : unionOf check ts = .ok o) :
    ts ≠ [] ∧ o = joined .form (ts.map asArgument) := by
  unfold unionOf at h
  cases ts with
  | nil => cases h
  | cons t ts =>
    obtain ⟨us, hus, h⟩ := bind_eq_ok_iff.mp h
    cases h
    exact ⟨List.cons_ne_nil _ _, by rw [eq_map_asArgument hus]⟩

theorem eq_joined_of_either (h : either check t u = .ok o) :
    ∃ s, o = joined s [t.asArgument, u.asArgument] := by
  unfold either at h
  split at h
  · cases h
  · split at h
    · obtain ⟨a, ha, h⟩ := bind_eq_ok_iff.mp h
      obtain ⟨b, hb, h⟩ := bind_eq_ok_iff.mp h
      cases h
      exact ⟨.bars, by rw [eq_asArgument ha, eq_asArgument hb]⟩
    · split at h
      · exact ⟨.form, (eq_joined_of_unionOf h).2⟩
      · cases h

theorem core_annotate {rs : List Remark} (h : annotate check t rs = .ok o) :
    o.core = t.asArgument.core := by
  unfold annotate at h
  split at h
  · cases h
  · obtain ⟨a, ha, h⟩ := bind_eq_ok_iff.mp h
    obtain rfl := eq_asArgument ha
    unfold withRemarks at h
    split at h
    · next heq =>
      cases h
      rw [heq]
      rfl
    · split at h
      · cases h
        rfl
      · cases h

theorem asArgument_asArgument (t : Ty) : t.asArgument.asArgument = t.asArgument := by
  cases t <;> rfl

theorem Proper.asArgument (ht : t.Proper) : t.asArgument.Proper := by
  cases t with
  | absent | text => exact fun s ts h => by cases h
  | _ => exact ht

/-- The members of a union that can be made are no unions. -/
theorem Proper.isUnion_of_mem (ht : t.Proper) : ∀ m ∈ t.members, m.isUnion = false := by
  cases t with
  | union s ts => exact (ht s ts rfl).flat
  | _ =>
    intro m hm
    obtain rfl := List.mem_singleton.mp hm
    rfl

theorem isUnion_of_mem_flatMap (hts : ∀ t ∈ ts, t.Proper) :
    ∀ m ∈ ts.flatMap members, m.isUnion = false := by
  intro m hm
  obtain ⟨t, ht, hm⟩ := List.mem_flatMap.mp hm
  exact (hts t ht).isUnion_of_mem m hm

theorem members_joined (s : UnionSpelling) (h : ∀ m ∈ ts.flatMap members, m.isUnion = false) :
    (joined s ts).members = dropCopies (ts.flatMap members) := by
  have hsub : dropCopies (ts.flatMap members) ⊆ ts.flatMap members := foldl_subset
  unfold joined
  split
  · next m hm =>
    have hunion := h m (hsub (by simp [hm]))
    rw [hm]
    cases m with
    | union => cases hunion
    | _ => rfl
  · rfl

/-- What a union of arguments comes down to is an argument itself. -/
theorem asArgument_joined (s : UnionSpelling) (hne : ts ≠ [])
    (hts : ∀ t ∈ ts, t.Proper ∧ t.asArgument = t) : (joined s ts).asArgument = joined s ts := by
  obtain ⟨t, ht⟩ := List.exists_mem_of_ne_nil ts hne
  obtain ⟨hproper, harg⟩ := hts t ht
  unfold joined
  split
  · next m hm =>
    -- all members equal the one that is left, so there is no union among the arguments
    have hall : ∀ x ∈ ts.flatMap members, m.same x = true := by
      intro x hx
      obtain ⟨k, hk, hkx⟩ := (sameMembers_dropCopies _).2 x hx
      rw [hm] at hk
      exact List.mem_singleton.mp hk ▸ hkx
    have hmt : m.same t = true := by
      cases t with
      | union r us =>
        have hus := hproper r us rfl
        have hne : us ≠ [] := List.ne_nil_of_length_pos (by have hseveral := hus.several; omega)
        obtain ⟨y, rfl, -⟩ := eq_singleton_of_distinct hne hus.distinct fun y hy =>
          hall y (List.mem_flatMap.mpr ⟨_, ht, hy⟩)
        exact absurd hus.several (by simp)
      | _ => exact hall _ (List.mem_flatMap.mpr ⟨_, ht, List.mem_singleton.mpr rfl⟩)
    cases m with
    | absent =>
      obtain rfl := eq_of_same rfl hmt
      cases harg
    | text s =>
      obtain rfl := eq_of_same rfl hmt
      cases harg
    | _ => rfl
  · rfl

/-! ### Spellings of an optional type -/

/-- The second type is a way to write the first one or the absent value, in whatever language texts
are read. The absent value may be given as such or by its class. -/
inductive OrAbsent (t : Ty) : Ty → Prop
  | optional {check : TextCheck} {o : Ty} : Ty.optional check t = .ok o → OrAbsent t o
  | before {check : TextCheck} {n o : Ty} : n.asArgument = noneType →
      unionOf check [n, t] = .ok o → OrAbsent t o
  /-- The absent value at any place of a union that the type is spelled as. -/
  | among {check : TextCheck} {ts us : List Ty} {n o : Ty} : (∀ x ∈ ts ++ us, x.Proper) →
      n.asArgument = noneType → unionOf check (ts ++ us) = .ok t →
      unionOf check (ts ++ n :: us) = .ok o → OrAbsent t o
  | bar {check : TextCheck} {n o : Ty} : n.asArgument = noneType → either check t n = .ok o →
      OrAbsent t o
  | barBefore {check : TextCheck} {n o : Ty} : n.asArgument = noneType →
      either check n t = .ok o → OrAbsent t o
  /-- Remarks on the outside. -/
  | annotated {check : TextCheck} {u o : Ty} {rs : List Remark} : OrAbsent t u →
      annotate check u rs = .ok o → OrAbsent t o
  /-- Any other type that equals one of these. -/
  | equal {u o : Ty} : OrAbsent t u → u.same o = true → o.Proper → OrAbsent t o

/-- The type or the class of the absent value. -/
def orAbsent (t : Ty) : Ty := joined .form [t.asArgument, noneType]

theorem mem_of_sameMembers_noneType (h : SameMembers ts us) (hts : noneType ∈ ts) :
    noneType ∈ us := by
  obtain ⟨u, hu, hsame⟩ := h.1 _ hts
  exact eq_of_same rfl hsame ▸ hu

/-- The absent value stays in a union, or it is all there is. -/
theorem isUnion_or_eq_noneType (s : UnionSpelling) (h : noneType ∈ ts.flatMap members) :
    (∃ us, noneType ∈ us ∧ joined s ts = .union s us) ∨ joined s ts = noneType := by
  have hmem := mem_of_sameMembers_noneType (sameMembers_dropCopies _).symm h
  unfold joined
  split
  · next m hm =>
    rw [hm] at hmem
    exact .inr (List.mem_singleton.mp hmem).symm
  · exact .inl ⟨_, hmem, rfl⟩

/-- A union of the members of the type and of the absent value is a union or the class of the
absent value, and it equals all other such unions. -/
theorem same_joined (s : UnionSpelling) (hus : ∀ u ∈ us, u.Proper)
    (h : SameMembers (t.asArgument.members ++ [noneType]) (us.flatMap members)) :
    (orAbsent t).same (joined s us).core = true ∧ (joined s us).Proper := by
  have hnone := mem_of_sameMembers_noneType h (List.mem_append_right _ List.mem_cons_self)
  have hsame : (orAbsent t).same (joined s us) = true := by
    refine joined_same .form s ?_
    simpa using h
  rcases isUnion_or_eq_noneType s hnone with ⟨ks, -, hks⟩ | heq
  · rw [hks] at hsame ⊢
    refine ⟨hsame, fun r ls hls => ?_⟩
    cases hls
    exact isJoined_of_joined (List.ne_nil_of_mem hnone) (isUnion_of_mem_flatMap hus) hks
  · rw [heq] at hsame ⊢
    exact ⟨hsame, fun r ls hls => by cases hls⟩

theorem orAbsent_eq (t : Ty) :
    (∃ us, noneType ∈ us ∧ orAbsent t = .union .form us) ∨ orAbsent t = noneType :=
  isUnion_or_eq_noneType .form (by simp)

theorem proper_noneType : noneType.Proper := fun s ts h => by cases h

/-- The type and the absent value, in this order or in the other one. -/
theorem same_joined_pair (s : UnionSpelling) (ht : t.Proper)
    (hus : us = [t.asArgument, noneType] ∨ us = [noneType, t.asArgument]) :
    (orAbsent t).same (joined s us).core = true ∧ (joined s us).Proper := by
  refine same_joined s ?_ ?_
  · rcases hus with rfl | rfl <;> simp [ht.asArgument, proper_noneType]
  · rcases hus with rfl | rfl <;> exact SameMembers.of_mem_iff fun t => by simp [or_comm]

/-- The members of a type that was spelled as a union, with the absent value at some place. -/
theorem same_joined_among (hts : ∀ x ∈ ts ++ us, x.Proper)
    (ht : unionOf check (ts ++ us) = .ok t) :
    (orAbsent t).same (joined .form (ts.map asArgument ++ noneType :: us.map asArgument)).core =
      true ∧ (joined .form (ts.map asArgument ++ noneType :: us.map asArgument)).Proper := by
  have hargs : ∀ x ∈ (ts ++ us).map asArgument, x.Proper ∧ x.asArgument = x := by
    intro x hx
    obtain ⟨y, hy, rfl⟩ := List.mem_map.mp hx
    exact ⟨(hts y hy).asArgument, asArgument_asArgument y⟩
  obtain ⟨hne, rfl⟩ := eq_joined_of_unionOf ht
  refine same_joined .form (fun x hx => ?_) ?_
  · simp only [List.mem_append, List.mem_cons] at hx
    rcases hx with hx | rfl | hx
    · exact (hargs x (by simp only [List.map_append, List.mem_append]; exact .inl hx)).1
    · exact proper_noneType
    · exact (hargs x (by simp only [List.map_append, List.mem_append]; exact .inr hx)).1
  · have hmembers := sameMembers_dropCopies (((ts ++ us).map asArgument).flatMap members)
    rw [asArgument_joined .form (by simpa using hne) hargs,
      members_joined .form (isUnion_of_mem_flatMap fun x hx => (hargs x hx).1)]
    refine (hmembers.append_right _).trans (SameMembers.of_mem_iff fun x => ?_)
    simp [or_comm, or_left_comm]

theorem proper_orAbsent (ht : t.Proper) : t.orAbsent.Proper :=
  (same_joined_pair .form ht (.inl rfl)).2

theorem Proper.core (ht : t.Proper) : t.core.Proper := by
  rw [Proper, core_core]
  exact ht

/-- **All spellings are equal below the remarks around them.** -/
theorem OrAbsent.same (h : OrAbsent t o) (ht : t.Proper) :
    (orAbsent t).same o.core = true ∧ o.Proper := by
  induction h with
  | optional ho =>
    rw [(eq_joined_of_unionOf ho).2]
    exact same_joined_pair .form ht (.inl rfl)
  | before hn ho =>
    rw [(eq_joined_of_unionOf ho).2]
    exact same_joined_pair .form ht (.inr (by simp [hn]))
  | among hts hn ht' ho =>
    rw [(eq_joined_of_unionOf ho).2, List.map_append, List.map_cons, hn]
    exact same_joined_among hts ht'
  | bar hn ho =>
    obtain ⟨s, rfl⟩ := eq_joined_of_either ho
    exact same_joined_pair s ht (.inl (by rw [hn]))
  | barBefore hn ho =>
    obtain ⟨s, rfl⟩ := eq_joined_of_either ho
    exact same_joined_pair s ht (.inr (by rw [hn]))
  | @annotated check u o rs _ ho ih =>
    obtain ⟨hsame, hproper⟩ := ih
    have hu : u.asArgument = u := by
      cases u with
      | absent | text =>
        rcases orAbsent_eq t with ⟨us, -, h⟩ | h <;> rw [h] at hsame <;> cases hsame
      | _ => rfl
    rw [Proper, core_annotate ho, hu]
    exact ⟨hsame, hproper⟩
  | equal _ hsame hproper ih =>
    exact ⟨same_trans _ _ _ ih.1 (core_same _ _ hsame), hproper⟩

/-! ### The type beside the absent value -/

theorem present_append_noneType (ts : List Ty) : present (ts ++ [noneType]) = present ts := by
  simp [present]

/-- With the absent value a union has the same type beside it. -/
theorem optionOf_append_noneType (ts : List Ty) : optionOf (ts ++ [noneType]) = optionOf ts := by
  rw [optionOf, optionOf, present_append_noneType]

theorem same_noneType (h : t.same noneType = true) : t = noneType :=
  (eq_of_same rfl (same_symm _ _ h)).symm

/-- The absent value behind members that it is not among. -/
theorem isJoined_append_noneType (hflat : ∀ t ∈ ts, t.isUnion = false) (hdistinct : Distinct ts)
    (hne : ts ≠ []) (hnone : noneType ∉ ts) : IsJoined (ts ++ [noneType]) := by
  refine ⟨?_, List.pairwise_append.mpr ⟨hdistinct, List.pairwise_singleton _ _, ?_⟩, ?_⟩
  · simp only [List.forall_mem_append]
    exact ⟨hflat, by simp⟩
  · intro t ht u hu
    obtain rfl := List.mem_singleton.mp hu
    exact Bool.eq_false_iff.mpr fun hsame => hnone (same_noneType hsame ▸ ht)
  · have hlen := List.length_pos_iff.mpr hne
    simp only [List.length_append, List.length_singleton]
    omega

/-- The absent value comes to the members of a union, unless it is one of them. -/
theorem joined_union_noneType {r : UnionSpelling} (h : IsJoined ts) (s : UnionSpelling) :
    joined s [.union r ts, noneType] = .union s ts ∨
      joined s [.union r ts, noneType] = .union s (ts ++ [noneType]) ∧
        IsJoined (ts ++ [noneType]) := by
  have hmembers : [.union r ts, noneType].flatMap members = ts ++ [noneType] := rfl
  by_cases hnone : noneType ∈ ts
  · left
    have hany : (ts.any fun t => t.same noneType) = true :=
      List.any_eq_true.mpr ⟨noneType, hnone, rfl⟩
    refine joined_of_dropCopies ?_ h s
    rw [hmembers, dropCopies, List.foldl_append, ← dropCopies, dropCopies_of_distinct h.distinct,
      List.foldl_cons, List.foldl_nil, if_pos hany]
  · right
    have hne : ts ≠ [] := List.ne_nil_of_length_pos (by have hseveral := h.several; omega)
    have hjoined := isJoined_append_noneType h.flat h.distinct hne hnone
    refine ⟨joined_of_dropCopies ?_ hjoined s, hjoined⟩
    rw [hmembers, dropCopies_of_distinct hjoined.distinct]

end Ty

/-! ### Strategies and writers -/

namespace World

variable {W : World} {t o : Ty}

/-- As an argument a type is written as before. -/
theorem strategyOfBare_asArgument (W : World) (t : Ty) :
    W.hierarchy.strategyOfBare t.asArgument = W.hierarchy.strategyOfBare t := by
  cases t <;> rfl

/-- A union with the absent value is written as the union. -/
theorem strategy_orAbsent_union (W : World) {s : UnionSpelling} {ts : List Ty}
    (h : Ty.IsJoined ts) :
    W.hierarchy.strategy (Ty.union s ts).orAbsent = W.hierarchy.strategy (.union s ts) := by
  have hunion := @Hierarchy.strategy_of_members W.hierarchy (.union s ts) ts s rfl h
  rw [hunion]
  show W.hierarchy.strategy (Ty.joined .form [.union s ts, Ty.noneType]) = _
  rcases Ty.joined_union_noneType (r := s) h .form with heq | ⟨heq, hjoined⟩
  · rw [heq, Hierarchy.strategy_of_members rfl h]
  · rw [heq, Hierarchy.strategy_of_members rfl hjoined, Ty.optionOf_append_noneType]

/-- Any other type with the absent value is written as the type. -/
theorem strategy_orAbsent_single (W : World) (hann : t.isAnnotated = false)
    (hu : t.isUnion = false) : W.hierarchy.strategy t.orAbsent = W.hierarchy.strategyOfBare t := by
  rw [← W.strategyOfBare_asArgument, Ty.orAbsent]
  have hann' : t.asArgument.isAnnotated = false := by cases t <;> first | rfl | cases hann
  have hu' : t.asArgument.isUnion = false := by cases t <;> first | rfl | cases hu
  generalize t.asArgument = x at hann' hu'
  by_cases hnone : x = Ty.noneType
  · subst hnone
    rfl
  have hjoined : Ty.IsJoined [x, Ty.noneType] :=
    Ty.isJoined_append_noneType (by simpa using hu') (List.pairwise_singleton _ _) (by simp)
      (by simpa using Ne.symm hnone)
  have hpresent : Ty.present [x, Ty.noneType] = [x] := by
    have hx : x.isNoneType = false :=
      Bool.eq_false_iff.mpr fun h => hnone (Hierarchy.eq_noneType h)
    simp [Ty.present, hx]
  rw [Ty.joined_of_isJoined hjoined, Hierarchy.strategy_of_members rfl hjoined,
    Ty.optionOf_eq_some hpresent hann']
  rfl

/-- **The absent value leaves the strategy of a type as it is.** -/
theorem strategy_orAbsent (W : World) (hann : t.isAnnotated = false) (ht : t.Proper) :
    W.hierarchy.strategy t.orAbsent = W.hierarchy.strategy t := by
  have hcore := Ty.core_of_not_annotated hann
  cases hu : t.isUnion with
  | true =>
    cases t with
    | union s ts => exact W.strategy_orAbsent_union (ht s ts rfl)
    | _ => cases hu
  | false =>
    rw [W.strategy_orAbsent_single hann hu,
      Hierarchy.strategy_of_not_union (by rw [hcore]; exact hu), hcore]

/-- A primitive type that is made optional allows for the absent value. -/
theorem allowsAbsent_orAbsent (W : World)
    (h : W.hierarchy.strategy t.orAbsent = .primitive) : Writer.allowsAbsent t.orAbsent = true := by
  rcases t.orAbsent_eq with ⟨us, hmem, heq⟩ | heq
  · rw [heq]
    show (Ty.union .form us).stripOptional.2 = true
    rw [Ty.stripOptional_snd, List.any_eq_true]
    exact ⟨_, hmem, rfl⟩
  · rw [heq] at h
    cases h

/-- A spelling of an optional type has the strategy of the type, and if that is the primitive one,
then the spelling allows for the absent value. -/
theorem strategy_of_orAbsent (W : World) (hann : t.isAnnotated = false) (ht : t.Proper)
    (ho : t.OrAbsent o) : W.hierarchy.strategy o = W.hierarchy.strategy t ∧
      (W.hierarchy.strategy t = .primitive → Writer.allowsAbsent o = true) := by
  obtain ⟨hsame, hproper⟩ := ho.same ht
  have hcore : W.hierarchy.strategy o = W.hierarchy.strategy o.core := by
    rw [Hierarchy.strategy, Hierarchy.strategy, Ty.core_core]
  have hstrategy := W.hierarchy.strategy_of_same hsame (Ty.proper_orAbsent ht) hproper.core
  rw [W.strategy_orAbsent hann ht] at hstrategy
  refine ⟨hcore.trans hstrategy.symm, fun hprimitive => ?_⟩
  have habsent : Writer.allowsAbsent o = Writer.allowsAbsent o.core := by
    rw [Writer.allowsAbsent, Writer.allowsAbsent, Ty.core_core]
  rw [habsent, ← Writer.allowsAbsent_of_same hsame]
  exact W.allowsAbsent_orAbsent (by rw [W.strategy_orAbsent hann ht, hprimitive])

end World

/-- The writers of a strategy differ in what they make of absent values, and only if one declared
type allows for them and the other does not. -/
theorem write_of_allowsAbsent {k : Strategy} {t o : Ty} (hu : k ≠ .unsupported)
    (hv : k ≠ .verbatim) (h : k = .primitive → Writer.allowsAbsent o = true) :
    ∃ w w', Writer.ofStrategy k o = .ok w ∧ Writer.ofStrategy k t = .ok w' ∧
      ∀ B v, w.write B v = if v.isAbsent then .ok Fragment.empty else w'.write B v := by
  have hwriter (d : Ty) :
      Writer.ofStrategy k d = .ok ⟨k, k = .primitive && Writer.allowsAbsent d⟩ := by
    cases k with
    | unsupported => exact absurd rfl hu
    | primitive => simp [Writer.ofStrategy]
    | _ => rfl
  have hleaves : k.leavesOut o = true := by
    cases k with
    | primitive => exact h rfl
    | _ => rfl
  refine ⟨_, _, hwriter o, hwriter t, fun B v => ?_⟩
  rw [write_base B v o hu hv, write_base B v t hu hv, hleaves]
  cases v.isAbsent <;> rfl

/-- **Optional types add the absent value and nothing else.**  However a type or the absent value
is written, that is refused exactly when the type is, and otherwise it has the same strategy; its
writer leaves an empty fragment for absent values, and makes of every other value what the writer of
the type makes of it, be it a fragment or a failure. -/
theorem optional_adds_absence (W : World) (t o : Ty) (hann : t.isAnnotated = false)
    (ht : t.Proper) (ho : t.OrAbsent o) (member target : String) :
    ((∃ r, Plan.supported W.hierarchy o member target = .error r) ↔
      ∃ r, Plan.supported W.hierarchy t member target = .error r) ∧
    ∀ k, Plan.supported W.hierarchy t member target = .ok k →
      Plan.supported W.hierarchy o member target = .ok k ∧
      ∃ w w', Writer.ofStrategy k o = .ok w ∧ Writer.ofStrategy k t = .ok w' ∧
        ∀ B v, w.write B v = if v.isAbsent then .ok Fragment.empty else w'.write B v := by
  obtain ⟨hstrategy, habsent⟩ := W.strategy_of_orAbsent hann ht ho
  simp only [Plan.supported_eq, hstrategy]
  constructor
  · split <;> simp
  · intro k hk
    split at hk
    · cases hk
    · next hsupported =>
      cases hk
      rw [if_neg hsupported]
      exact ⟨rfl, write_of_allowsAbsent hsupported (strategy_ne_verbatim _ _) habsent⟩

/-- An optional number. -/
def maybeNumber : Ty := .union .form [.cls (.known .int), Ty.noneType]

/-- The same with a remark around it. -/
def remarkedNumber : Ty := .annotated maybeNumber [.text "m"]

theorem optional_adds_absence_number :
    (Ty.cls (.known .int)).OrAbsent remarkedNumber ∧
      Plan.supported World.empty.hierarchy remarkedNumber "count" "Item" = .ok .primitive ∧
      ∃ w w', Writer.ofStrategy .primitive remarkedNumber = .ok w ∧
        Writer.ofStrategy .primitive (.cls (.known .int)) = .ok w' ∧
        ∀ B, w.write B .absent = .ok Fragment.empty ∧
          w.write B (.int 3) = w'.write B (.int 3) := by
  have hoptional : Ty.optional Phrase.check (.cls (.known .int)) = .ok maybeNumber := rfl
  have hremarked : Ty.annotate Phrase.check maybeNumber [.text "m"] = .ok remarkedNumber := rfl
  have hspelling : (Ty.cls (.known .int)).OrAbsent remarkedNumber :=
    .annotated (.optional hoptional) hremarked
  have hproper : (Ty.cls (.known .int)).Proper := fun s ts h => by cases h
  obtain ⟨hsupported, w, w', hw, hw', hwrite⟩ :=
    (optional_adds_absence World.empty _ _ rfl hproper hspelling "count" "Item").2 .primitive rfl
  exact ⟨hspelling, hsupported, w, w', hw, hw', fun B => ⟨hwrite B .absent, hwrite B (.int 3)⟩⟩

end RecordText
