/-
Taking the absent value out of a union undoes putting it in.

Unions are flattened, equal members are dropped, and a single member stands for itself, both when
the absent value is put into a union and when what remains without it is joined again.  Up to the
equality of types none of this can be seen, for every type that can be made (`Ty.Made`), however
its unions were spelled, ordered and nested:

* `Made.whole` — the members of such a union are distinct, no unions, and arguments themselves;
* `Ty.stripOptional_union` — without the absent value, the union of the others remains;
* `Ty.orAbsent_eq_union` — with it, a type becomes the union of its members and of the absent value;
* `World.made_typeOf` — all types that descriptions describe can be made;
* `optional_undone` — **the two steps undo each other**, for every type that is described in a
  session and is no text, while a text comes back as the reference that it stands for.
-/
import RecordText.Proofs.Optionals
import RecordText.Proofs.Sessions

namespace RecordText

namespace Ty

variable {check : TextCheck} {t u o a m : Ty} {ts us : List Ty}

/-! ### Types that can be made -/

/-- A type that is no union, or a union made of such types in one of the two spellings, in whatever
language texts are read. -/
inductive Made : Ty → Prop
  | single {t : Ty} : t.isUnion = false → Made t
  | form {check : TextCheck} {ts : List Ty} {u : Ty} : (∀ t ∈ ts, Made t) →
      unionOf check ts = .ok u → Made u
  | bars {check : TextCheck} {t u o : Ty} : Made t → Made u → either check t u = .ok o → Made o

/-- A type that is an argument as it stands, in whatever language texts are read. -/
def IsOwnArgument (t : Ty) : Prop := ∀ check : TextCheck, argument check false t = .ok t

/-- A union with members as a union has them, which are arguments as they stand; or no union. -/
def Whole (t : Ty) : Prop := ∀ s ts, t = .union s ts → IsJoined ts ∧ ∀ m ∈ ts, m.IsOwnArgument

theorem isOwnArgument_iff : t.IsOwnArgument ↔ t.isArgument = true ∧ t.asArgument = t := by
  constructor
  · intro h
    have harg := h fun _ => .ok ()
    refine ⟨?_, (eq_asArgument harg).symm⟩
    by_contra hnot
    rw [argument, if_neg (by simpa using hnot)] at harg
    cases harg
  · rintro ⟨harg, heq⟩ check
    rw [argument, if_pos (by simp [harg])]
    cases t with
    | absent | text => cases heq
    | _ => rfl

theorem isArgument_of_argument (h : argument check false t = .ok a) : t.isArgument = true := by
  unfold argument at h
  split_ifs at h with harg
  simpa using harg

/-- An argument stays what it is. -/
theorem isOwnArgument_of_argument (h : argument check false t = .ok a) : a.IsOwnArgument := by
  have harg := isArgument_of_argument h
  obtain rfl := eq_asArgument h
  refine isOwnArgument_iff.mpr ⟨?_, asArgument_asArgument t⟩
  cases t with
  | absent | text => rfl
  | _ => exact harg

theorem Whole.of_not_union (h : t.isUnion = false) : t.Whole := by
  rintro s ts rfl
  cases h

theorem Whole.argument (ht : t.Whole) (h : argument check false t = .ok a) : a.Whole := by
  obtain rfl := eq_asArgument h
  cases t with
  | absent | text => exact .of_not_union rfl
  | _ => exact ht

/-- The members of an argument are arguments, no unions, and distinct. -/
theorem Whole.members (ha : a.Whole) (harg : a.IsOwnArgument) :
    (∀ m ∈ a.members, m.isUnion = false ∧ m.IsOwnArgument) ∧ Distinct a.members := by
  cases a with
  | union s ts =>
    obtain ⟨hjoined, hargs⟩ := ha s ts rfl
    exact ⟨fun m hm => ⟨hjoined.flat m hm, hargs m hm⟩, hjoined.distinct⟩
  | _ =>
    refine ⟨fun m hm => ?_, List.pairwise_singleton _ _⟩
    obtain rfl := List.mem_singleton.mp hm
    exact ⟨rfl, harg⟩

theorem Whole.members_ne_nil (ha : a.Whole) : a.members ≠ [] := by
  cases a with
  | union s ts =>
    have hseveral := (ha s ts rfl).1.several
    exact List.ne_nil_of_length_pos (by simp only [Ty.members]; omega)
  | _ => exact List.cons_ne_nil _ _

/-- What arguments are joined to has members as a union has them. -/
theorem whole_joined (s : UnionSpelling) (hne : us ≠ [])
    (h : ∀ a ∈ us, a.Whole ∧ a.IsOwnArgument) : (joined s us).Whole := by
  have hmembers : ∀ m ∈ us.flatMap members, m.isUnion = false ∧ m.IsOwnArgument := by
    intro m hm
    obtain ⟨a, ha, hm⟩ := List.mem_flatMap.mp hm
    obtain ⟨hwhole, harg⟩ := h a ha
    exact (hwhole.members harg).1 m hm
  intro r ts hts
  have hkept : ts = dropCopies (us.flatMap members) := by
    rw [← members_joined s fun m hm => (hmembers m hm).1, hts]
    rfl
  have hsub : dropCopies (us.flatMap members) ⊆ us.flatMap members := foldl_subset
  have hsome : us.flatMap members ≠ [] := by
    obtain ⟨a, ha⟩ := List.exists_mem_of_ne_nil us hne
    exact fun hnil => (h a ha).1.members_ne_nil (List.flatMap_eq_nil_iff.mp hnil a ha)
  exact ⟨isJoined_of_joined hsome (fun m hm => (hmembers m hm).1) hts,
    fun m hm => (hmembers m (hsub (hkept ▸ hm))).2⟩

theorem whole_unionOf (hts : ∀ t ∈ ts, t.Whole) (h : unionOf check ts = .ok u) : u.Whole := by
  unfold unionOf at h
  cases ts with
  | nil => cases h
  | cons t ts =>
    obtain ⟨us, hus, h⟩ := bind_eq_ok_iff.mp h
    obtain rfl := Except.ok.inj h
    have heach := exists_of_forall₂ (mapM_eq_ok_iff.mp hus)
    obtain rfl := eq_map_asArgument hus
    refine whole_joined .form (by simp) fun a ha => ?_
    obtain ⟨x, hx, rfl⟩ := List.mem_map.mp ha
    obtain ⟨y, hy⟩ := heach x hx
    obtain rfl := eq_asArgument hy
    exact ⟨(hts x hx).argument hy, isOwnArgument_of_argument hy⟩

/-- **Unions that can be made have members as a union has them.** -/
theorem Made.whole (h : t.Made) : t.Whole := by
  induction h with
  | single h => exact .of_not_union h
  | form _ hu ih => exact whole_unionOf ih hu
  | @bars check t u o _ _ ho iht ihu =>
    unfold either at ho
    split at ho
    · cases ho
    · split at ho
      · obtain ⟨a, ha, ho⟩ := bind_eq_ok_iff.mp ho
        obtain ⟨b, hb, ho⟩ := bind_eq_ok_iff.mp ho
        obtain rfl := Except.ok.inj ho
        refine whole_joined .bars (by simp) ?_
        simp only [List.forall_mem_cons, List.not_mem_nil, false_imp_iff, implies_true, and_true]
        exact ⟨⟨iht.argument ha, isOwnArgument_of_argument ha⟩,
          ⟨ihu.argument hb, isOwnArgument_of_argument hb⟩⟩
      · split at ho
        · exact whole_unionOf (by simp [iht, ihu]) ho
        · cases ho

/-! ### The absent value -/

/-- The absent value or its class, alone or in a union. -/
def AllowsNone (t : Ty) : Prop := t = .absent ∨ noneType ∈ t.members

/-- An argument is not the absent value itself. -/
theorem IsOwnArgument.allowsNone_iff (ha : a.IsOwnArgument) :
    a.AllowsNone ↔ noneType ∈ a.members := by
  refine or_iff_right ?_
  rintro rfl
  cases ha fun _ => .ok ()

theorem present_eq_self (h : noneType ∉ ts) : present ts = ts := by
  refine List.filter_eq_self.mpr fun t ht => ?_
  by_contra hnone
  have heq : t = noneType := Hierarchy.eq_noneType (by simpa using hnone)
  exact h (heq ▸ ht)

theorem noneType_not_mem_present (ts : List Ty) : noneType ∉ present ts := by
  intro h
  have hkept := (List.mem_filter.mp h).2
  cases hkept

/-- Without the absent value a type is left as it is. -/
theorem stripOptional_of_not_mem (h : noneType ∉ t.members) : t.stripOptional = (t, false) := by
  cases t with
  | union s ts =>
    have hkept : ts.filter (fun t => !t.isNoneType) = ts := present_eq_self h
    rw [stripOptional, hkept]
    exact if_pos rfl
  | _ => rfl

theorem joined_singleton (s : UnionSpelling) (h : m.isUnion = false) : joined s [m] = m := by
  have hmembers : [m].flatMap members = [m] := flatMap_members (by simpa using h)
  have hkept : dropCopies [m] = [m] := dropCopies_of_distinct (List.pairwise_singleton _ _)
  rw [joined, hmembers, hkept]

/-- **Without the absent value, the union of the other members remains.** -/
theorem stripOptional_union (h : IsJoined ts) (hnone : noneType ∈ ts) (s : UnionSpelling) :
    (Ty.union s ts).stripOptional = (joined .form (present ts), true) := by
  have hfewer : (present ts).length ≠ ts.length := by
    intro hlen
    have hall := List.length_filter_eq_length_iff.mp hlen noneType hnone
    cases hall
  have hflat : ∀ m ∈ present ts, m.isUnion = false :=
    fun m hm => h.flat m (List.mem_of_mem_filter hm)
  unfold stripOptional
  dsimp only
  rw [← present, if_neg hfewer]
  cases hp : present ts with
  | nil => exact absurd hp (Hierarchy.present_ne_nil h)
  | cons x xs =>
    cases xs with
    | nil => rw [joined_singleton .form (hflat x (by simp [hp]))]
    | cons => rfl

/-- The members of a type make an equal type. -/
theorem joined_members (ht : t.Whole) (s : UnionSpelling) :
    (joined s t.members).same t = true := by
  cases hu : t.isUnion with
  | true =>
    cases t with
    | union r ts =>
      have hts := (ht r ts rfl).1
      rw [members, joined_of_isJoined hts]
      exact same_union_iff.mpr (SameMembers.refl ts)
    | _ => cases hu
  | false =>
    rw [members_of_not_union hu, joined_singleton s hu]
    exact same_self t

/-- With the absent value, an argument becomes the union of its members and of the absent value. -/
theorem orAbsent_eq_union (ha : a.Whole) (harg : a.IsOwnArgument) (hnone : noneType ∉ a.members) :
    IsJoined (a.members ++ [noneType]) ∧
      a.orAbsent = .union .form (a.members ++ [noneType]) := by
  obtain ⟨hmembers, hdistinct⟩ := ha.members harg
  have hjoined := isJoined_append_noneType (fun m hm => (hmembers m hm).1) hdistinct
    ha.members_ne_nil hnone
  refine ⟨hjoined, ?_⟩
  rw [orAbsent, (isOwnArgument_iff.mp harg).2]
  refine joined_of_dropCopies ?_ hjoined .form
  have hflat : [a, noneType].flatMap members = a.members ++ [noneType] := by simp
  rw [hflat, dropCopies_of_distinct hjoined.distinct]

/-- Making a type optional fails only where it cannot be an argument. -/
theorem optional_eq_bind (check : TextCheck) (t : Ty) :
    optional check t = argument check false t >>= fun a => .ok (joined .form [a, noneType]) := by
  have hnone : argument check false .absent = .ok noneType := rfl
  show ([t, .absent].mapM (argument check false) >>= fun us => .ok (joined .form us)) = _
  rw [List.mapM_cons, List.mapM_cons, List.mapM_nil, hnone]
  cases argument check false t <;> rfl

theorem optional_eq_orAbsent (h : argument check false t = .ok a) :
    optional check t = .ok t.orAbsent := by
  rw [optional_eq_bind, h, orAbsent, eq_asArgument h]
  rfl

/-! ### The round trip -/

/-- What an argument that is made optional comes down to without the absent value. -/
theorem stripOptional_orAbsent (ha : a.Whole) (harg : a.IsOwnArgument)
    (hnone : noneType ∉ a.members) :
    ∃ r, a.orAbsent.stripOptional = (r, true) ∧ r.same a = true := by
  obtain ⟨hjoined, heq⟩ := orAbsent_eq_union ha harg hnone
  refine ⟨joined .form a.members, ?_, joined_members ha .form⟩
  rw [heq, stripOptional_union hjoined (by simp), present_append_noneType, present_eq_self hnone]

/-- A union without its absent value is an argument with the other members. -/
theorem joined_present (h : IsJoined ts) (hargs : ∀ m ∈ ts, m.IsOwnArgument) :
    (joined .form (present ts)).Whole ∧ (joined .form (present ts)).IsOwnArgument ∧
      (joined .form (present ts)).members = present ts := by
  have hflat : ∀ m ∈ present ts, m.isUnion = false :=
    fun m hm => h.flat m (List.mem_of_mem_filter hm)
  have hparts : ∀ m ∈ present ts, m.Whole ∧ m.IsOwnArgument :=
    fun m hm => ⟨.of_not_union (hflat m hm), hargs m (List.mem_of_mem_filter hm)⟩
  have hdistinct : Distinct (present ts) := h.distinct.sublist List.filter_sublist
  have hmembers : (joined .form (present ts)).members = present ts := by
    rw [members_joined .form (by rwa [flatMap_members hflat]), flatMap_members hflat,
      dropCopies_of_distinct hdistinct]
  refine ⟨whole_joined .form (Hierarchy.present_ne_nil h) hparts, ?_, hmembers⟩
  generalize joined .form (present ts) = r at hmembers
  cases hu : r.isUnion with
  | true =>
    cases r with
    | union => exact isOwnArgument_iff.mpr ⟨rfl, rfl⟩
    | _ => cases hu
  | false =>
    -- a single type remains, and it was a member
    rw [members_of_not_union hu] at hmembers
    exact (hparts r (by rw [← hmembers]; exact List.mem_singleton.mpr rfl)).2

theorem sameMembers_present (hnone : noneType ∈ ts) :
    SameMembers (present ts ++ [noneType]) ts := by
  refine SameMembers.of_mem_iff fun x => ?_
  rw [List.mem_append, List.mem_singleton, present, List.mem_filter]
  constructor
  · rintro (⟨hx, -⟩ | rfl)
    · exact hx
    · exact hnone
  · intro hx
    cases hxn : x.isNoneType with
    | true => exact .inr (Hierarchy.eq_noneType hxn)
    | false => exact .inl ⟨hx, rfl⟩

/-- A union that allows for the absent value is taken apart and put together again. -/
theorem restored_of_isJoined (h : IsJoined ts) (hargs : ∀ m ∈ ts, m.IsOwnArgument)
    (hnone : noneType ∈ ts) (s : UnionSpelling) :
    ∃ r o, (Ty.union s ts).stripOptional = (r, true) ∧ ¬r.AllowsNone ∧
      optional check r = .ok o ∧ o.same (.union s ts) = true := by
  obtain ⟨hwhole, harg, hmembers⟩ := joined_present h hargs
  have hnot : noneType ∉ (joined .form (present ts)).members := by
    rw [hmembers]
    exact noneType_not_mem_present ts
  refine ⟨_, _, stripOptional_union h hnone s, harg.allowsNone_iff.not.mpr hnot,
    optional_eq_orAbsent (harg check), ?_⟩
  rw [(orAbsent_eq_union hwhole harg hnot).2, hmembers]
  exact same_union_iff.mpr (sameMembers_present hnone)

/-- Making a type optional and taking the absent value out of a union undo each other, up to the
equality of types. -/
structure Undone (check : TextCheck) (t : Ty) : Prop where
  /-- A type without the absent value is left as it is. -/
  kept : ¬t.AllowsNone → t.stripOptional = (t, false)
  /-- Made optional, such a type is found again, if it can be made optional and is no text. -/
  removed : ¬t.AllowsNone → t.isArgument = true → (∀ s, t ≠ .text s) →
    ∃ o r, optional check t = .ok o ∧ o.stripOptional = (r, true) ∧ r.same t = true
  /-- A text that can be read is found again as the reference that it stands for. -/
  referred : ∀ s, t = .text s → checkReference check s = .ok () →
    ∃ o, optional check t = .ok o ∧ o.stripOptional = (.forward s, true)
  /-- What cannot be an argument cannot be made optional. -/
  refused : t.isArgument = false → optional check t = .error .wrongType
  /-- A union with the absent value loses it once, and it is the optional type of the rest. -/
  restored : t.isUnion = true → t.AllowsNone →
    ∃ r o, t.stripOptional = (r, true) ∧ ¬r.AllowsNone ∧ optional check r = .ok o ∧
      o.same t = true

theorem stripOptional_optional_text {s : String} (hs : checkReference check s = .ok ()) :
    ∃ o, optional check (.text s) = .ok o ∧ o.stripOptional = (.forward s, true) := by
  have harg : argument check false (.text s) = .ok (.forward s) := by
    show (checkReference check s >>= fun _ => .ok (Ty.forward s)) = _
    rw [hs]
    rfl
  exact ⟨_, optional_eq_orAbsent harg, rfl⟩

theorem optional_of_not_isArgument (h : t.isArgument = false) :
    optional check t = .error .wrongType := by
  have harg : argument check false t = .error .wrongType := by
    rw [argument, if_neg (by simp [h])]
    rfl
  rw [optional_eq_bind, harg]
  rfl

/-- A type that is not the absent value and no text is an argument as it stands. -/
theorem isOwnArgument_of_isArgument (h : t.isArgument = true) (hnone : ¬t.AllowsNone)
    (htext : ∀ s, t ≠ .text s) : t.IsOwnArgument := by
  refine isOwnArgument_iff.mpr ⟨h, ?_⟩
  cases t with
  | absent => exact absurd (.inl rfl) hnone
  | text s => exact absurd rfl (htext s)
  | _ => rfl

/-- **Whatever can be made comes back from the round trip.** -/
theorem Made.undone (check : TextCheck) (ht : t.Made) : t.Undone check where
  kept h := stripOptional_of_not_mem fun hmem => h (.inr hmem)
  removed h harg htext := by
    have hown := isOwnArgument_of_isArgument harg h htext
    obtain ⟨r, hr, hsame⟩ := stripOptional_orAbsent ht.whole hown (hown.allowsNone_iff.not.mp h)
    exact ⟨_, r, optional_eq_orAbsent (hown check), hr, hsame⟩
  referred s hs hread := by
    rw [hs]
    exact stripOptional_optional_text hread
  refused h := optional_of_not_isArgument h
  restored hu hnone := by
    cases t with
    | union s ts =>
      obtain ⟨hjoined, hargs⟩ := ht.whole s ts rfl
      exact restored_of_isJoined hjoined hargs (hnone.resolve_left fun h => by cases h) s
    | _ => cases hu

end Ty

/-! ### Described types -/

namespace Ty

variable {check : TextCheck} {t u : Ty} {ts : List Ty}

theorem made_optional (ht : t.Made) (h : optional check t = .ok u) : u.Made := by
  have hpair : ∀ x ∈ [t, .absent], x.Made := by
    simp only [List.forall_mem_cons, List.not_mem_nil, false_imp_iff, implies_true, and_true]
    exact ⟨ht, .single rfl⟩
  exact .form hpair h

theorem made_foldlM (ht : t.Made) (hts : ∀ x ∈ ts, x.Made)
    (h : ts.foldlM (either check) t = .ok u) : u.Made := by
  induction ts generalizing t with
  | nil =>
    obtain rfl := Except.ok.inj h
    exact ht
  | cons x ts ih =>
    rw [List.foldlM_cons] at h
    obtain ⟨o, ho, h⟩ := bind_eq_ok_iff.mp h
    obtain ⟨hx, hts⟩ := List.forall_mem_cons.mp hts
    exact ih (.bars ht hx ho) hts h

theorem made_eitherOf (hts : ∀ t ∈ ts, t.Made) (h : eitherOf check ts = .ok u) : u.Made := by
  cases ts with
  | nil => cases h
  | cons t ts =>
    obtain ⟨ht, hts⟩ := List.forall_mem_cons.mp hts
    exact made_foldlM ht hts h

theorem isUnion_annotate {rs : List Remark} (h : annotate check t rs = .ok u) :
    u.isUnion = false := by
  unfold annotate at h
  split at h
  · cases h
  · obtain ⟨a, -, h⟩ := bind_eq_ok_iff.mp h
    unfold withRemarks at h
    split at h
    · obtain rfl := Except.ok.inj h
      rfl
    · split at h
      · obtain rfl := Except.ok.inj h
        rfl
      · cases h

theorem isUnion_classVarOf (h : classVarOf check t = .ok u) : u.isUnion = false := by
  obtain ⟨a, -, h⟩ := bind_eq_ok_iff.mp h
  obtain rfl := Except.ok.inj h
  rfl

/-- Brackets make no unions. -/
theorem isUnion_subscript {brackets : ClassRef → Brackets}
    (h : subscript check brackets t ts = .ok u) : u.isUnion = false := by
  unfold subscript at h
  split at h
  · split at h
    · cases h
    · obtain rfl := Except.ok.inj h
      rfl
  · split at h
    · cases h
    · split at h
      · cases h
      · obtain rfl := Except.ok.inj h
        rfl
    · split at h
      · cases h
      · obtain ⟨us, -, h⟩ := bind_eq_ok_iff.mp h
        obtain rfl := Except.ok.inj h
        rfl
  · obtain ⟨us, -, h⟩ := bind_eq_ok_iff.mp h
    obtain rfl := Except.ok.inj h
    rfl
  · split at h
    · cases h
    · obtain ⟨us, -, h⟩ := bind_eq_ok_iff.mp h
      obtain rfl := Except.ok.inj h
      rfl
  · split at h
    · exact isUnion_classVarOf h
    · cases h
  · cases h

/-- The common names stand for no unions. -/
theorem isUnion_named {name : String} (h : named? name = some t) : t.isUnion = false := by
  unfold named? at h
  split at h
  · cases h
    rfl
  · split at h
    · cases h
      rfl
    · split at h
      all_goals first | cases h; rfl | cases h

end Ty

namespace World

variable {W W' : World} {t : Ty} {ts : List Ty}

/-- All names stand for types that can be made. -/
def NamesMade (W : World) : Prop := ∀ p ∈ W.names, p.2.Made

theorem made_lookup (hW : W.NamesMade) {name : String} (h : W.lookup name = .ok t) : t.Made := by
  unfold lookup at h
  split at h
  · next x hx =>
    obtain rfl := Except.ok.inj h
    unfold named? at hx
    cases hl : W.names.lookup name with
    | some y =>
      rw [hl] at hx
      obtain rfl := Option.some.inj hx
      obtain ⟨l₁, l₂, hnames, -⟩ := List.lookup_eq_some_iff.mp hl
      exact hW (name, y) (by rw [hnames]; simp)
    | none =>
      rw [hl] at hx
      exact .single (Ty.isUnion_named hx)
  · cases h

mutual

/-- **Every type that is described can be made**, by induction on the description. -/
theorem made_typeOf (hW : W.NamesMade) (e : TypeExpr) (t : Ty) (h : W.typeOf e = .ok t) :
    t.Made := by
  cases e with
  | name s => exact made_lookup hW h
  | subscript head es =>
    obtain ⟨x, -, h⟩ := bind_eq_ok_iff.mp h
    obtain ⟨us, -, h⟩ := bind_eq_ok_iff.mp h
    exact .single (Ty.isUnion_subscript (lift_eq_ok_iff.mp h))
  | optional e =>
    obtain ⟨x, hx, h⟩ := bind_eq_ok_iff.mp h
    exact Ty.made_optional (made_typeOf hW e x hx) (lift_eq_ok_iff.mp h)
  | union es =>
    obtain ⟨xs, hxs, h⟩ := bind_eq_ok_iff.mp h
    exact .form (made_typesOf hW es xs hxs) (lift_eq_ok_iff.mp h)
  | bars es =>
    obtain ⟨xs, hxs, h⟩ := bind_eq_ok_iff.mp h
    exact Ty.made_eitherOf (made_typesOf hW es xs hxs) (lift_eq_ok_iff.mp h)
  | annotated e rs =>
    obtain ⟨x, -, h⟩ := bind_eq_ok_iff.mp h
    exact .single (Ty.isUnion_annotate (lift_eq_ok_iff.mp h))
  | literal vs =>
    obtain rfl := Except.ok.inj h
    exact .single rfl
  | classVar e =>
    obtain ⟨x, -, h⟩ := bind_eq_ok_iff.mp h
    exact .single (Ty.isUnion_classVarOf (lift_eq_ok_iff.mp h))
  | initVar e =>
    obtain ⟨x, -, h⟩ := bind_eq_ok_iff.mp h
    obtain rfl := Except.ok.inj h
    exact .single rfl
  | text s =>
    obtain rfl := Except.ok.inj h
    exact .single rfl
termination_by structural e

theorem made_typesOf (hW : W.NamesMade) (es : List TypeExpr) (ts : List Ty)
    (h : W.typesOf es = .ok ts) : ∀ t ∈ ts, t.Made := by
  cases es with
  | nil =>
    obtain rfl := Except.ok.inj h
    exact fun t ht => absurd ht List.not_mem_nil
  | cons e es =>
    obtain ⟨x, hx, h⟩ := bind_eq_ok_iff.mp h
    obtain ⟨xs, hxs, h⟩ := bind_eq_ok_iff.mp h
    obtain rfl := Except.ok.inj h
    exact List.forall_mem_cons.mpr ⟨made_typeOf hW e x hx, made_typesOf hW es xs hxs⟩
termination_by structural es

end

/-! ### Names of a session -/

theorem NamesMade.bind (hW : W.NamesMade) (name : String) (ht : t.Made) :
    (W.bind name t).NamesMade :=
  List.forall_mem_cons.mpr ⟨ht, hW⟩

/-- A definition gives its name to a type that can be made. -/
theorem NamesMade.define (hW : W.NamesMade) {d : Definition} (h : W.define d = .ok W') :
    W'.NamesMade := by
  cases d with
  | newType name e =>
    obtain ⟨x, -, h⟩ := bind_eq_ok_iff.mp h
    obtain rfl := Except.ok.inj h
    exact NamesMade.bind hW _ (.single rfl)
  | typeVar name bound constraints =>
    obtain ⟨b, cs, rfl⟩ := define_typeVar h
    exact NamesMade.bind hW _ (.single rfl)
  | «alias» name e =>
    obtain ⟨x, hx, h⟩ := bind_eq_ok_iff.mp h
    obtain rfl := Except.ok.inj h
    exact hW.bind _ (made_typeOf hW e x hx)
  | cls name style bases items =>
    obtain ⟨bases, -, h⟩ := bind_eq_ok_iff.mp h
    obtain ⟨d, -, h⟩ := bind_eq_ok_iff.mp h
    obtain ⟨c, -, h⟩ := bind_eq_ok_iff.mp h
    obtain rfl := Except.ok.inj h
    exact NamesMade.bind hW _ (.single rfl)

/-- All other changes leave the names as they are. -/
theorem Changes.namesMade (h : W.Changes W') (hW : W.NamesMade) : W'.NamesMade := by
  cases h with
  | none => exact hW
  | define h => exact hW.define h
  | install c r printedToo => exact hW
  | keep id v => cases v <;> exact hW
  | assign h =>
    obtain ⟨st, rfl⟩ := exists_store_of_assign h
    exact hW
  | delete h =>
    obtain ⟨st, rfl⟩ := exists_store_of_delete h
    exact hW

end World

theorem Session.Reached.namesMade {s : Session} (h : s.Reached) : s.world.NamesMade := by
  induction h with
  | start => exact fun p hp => absurd hp List.not_mem_nil
  | step _ hstep ih => exact (Session.changes_step hstep).namesMade ih

/-- **Making a type optional and taking the absent value out of a union undo each other**, whatever
the type is, how its unions are spelled, and where the absent value stands in them. A text comes
back as a reference, and what cannot be an argument cannot be made optional. -/
theorem optional_undone :
    (∀ s : Session, s.Reached → ∀ e t, s.world.typeOf e = .ok t → t.Made) ∧
    ∀ (check : TextCheck) (t : Ty), t.Made → t.Undone check :=
  ⟨fun _ hs e t h => World.made_typeOf hs.namesMade e t h, fun check _ ht => ht.undone check⟩

/-- The absent value among numbers and texts: once as such, and once behind the numbers, with a
bar. -/
def nested : TypeExpr :=
  .union [.name "None", .bars [.name "int", .name "None"], .name "str"]

/-- The union that it describes. -/
def flattened : Ty := .union .form [Ty.noneType, .cls (.known .int), Ty.str]

theorem optional_undone_nested :
    (Session.start .empty).world.typeOf nested = .ok flattened ∧
      (∃ r o, flattened.stripOptional = (r, true) ∧ ¬r.AllowsNone ∧
        Ty.optional Phrase.check r = .ok o ∧ o.same flattened = true) ∧
      ∃ o r, Ty.optional Phrase.check Ty.str = .ok o ∧ o.stripOptional = (r, true) ∧
        r.same Ty.str = true := by
  obtain ⟨hmade, hundone⟩ := optional_undone
  have hnested : (Session.start .empty).world.typeOf nested = .ok flattened := rfl
  have hstr : (Session.start .empty).world.typeOf (.name "str") = .ok Ty.str := rfl
  have hnone : flattened.AllowsNone := .inr List.mem_cons_self
  have hnot : ¬Ty.str.AllowsNone := by simp [Ty.AllowsNone, Ty.str, Ty.members, Ty.noneType]
  have hstart : (Session.start .empty).Reached := .start .phrases .standard
  refine ⟨hnested, (hundone _ flattened (hmade _ hstart _ _ hnested)).restored rfl hnone, ?_⟩
  exact (hundone _ Ty.str (hmade _ hstart _ _ hstr)).removed hnot rfl fun s hs => by cases hs

/-- Two types that are not found again as themselves: a text, which has become a reference, and a
class variable, which cannot be made optional. -/
theorem text_and_classVar_not_found :
    (Ty.text "int").Made ∧ ¬(Ty.text "int").AllowsNone ∧
      (∃ o, Ty.optional Phrase.check (.text "int") = .ok o ∧
        ¬∃ r, o.stripOptional = (r, true) ∧ r.same (.text "int") = true) ∧
      (Ty.classVar Ty.str).Made ∧ ¬(Ty.classVar Ty.str).AllowsNone ∧
      ¬∃ o, Ty.optional Phrase.check (.classVar Ty.str) = .ok o := by
  refine ⟨.single rfl, by simp [Ty.AllowsNone, Ty.members, Ty.noneType], ⟨_, rfl, ?_⟩,
    .single rfl, by simp [Ty.AllowsNone, Ty.members, Ty.noneType], ?_⟩
  · rintro ⟨r, hr, hsame⟩
    obtain rfl := (Prod.mk.inj hr).1
    cases hsame
  · rintro ⟨o, ho⟩
    cases ho

end RecordText
