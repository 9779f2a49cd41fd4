/-
Equality of declared types and of names.

Declared types are compared up to the order of union members and literal values, and names by what
their values count as.  On types this is an equivalence (`Ty.same_comm`, `Ty.same_trans`, and
`Ty.same_self`).  On names it is one up to a single exception: what is no number and an instance
that is like no other differ from themselves (`Name.beq_comm`, `Name.beq_trans`).  Transitivity
needs ratios with positive denominators, and the names that values have are made of such ones
(`World.isProper_of_nameOf`).
-/
import RecordText.Config
import RecordText.Proofs.References
import RecordText.Proofs.Outcome
import Mathlib.Tactic.Ring

namespace RecordText

/-! ### Remarks and literal values -/

/-- Remarks are equal as numbers, or they are no numbers and the same. -/
theorem Remark.same_iff {a b : Remark} :
    a.same b = true ↔ a.number? = b.number? ∧ (a.number? = none → a = b) := by
  unfold Remark.same
  cases ha : a.number? with
  | none =>
    constructor
    · intro h
      obtain rfl : a = b := eq_of_beq h
      exact ⟨ha.symm, fun _ => rfl⟩
    · rintro ⟨-, h⟩
      exact beq_iff_eq.mpr (h rfl)
  | some i =>
    cases hb : b.number? with
    | none =>
      refine iff_of_false (fun h => ?_) (fun h => by cases h.1)
      obtain rfl : a = b := eq_of_beq h
      rw [ha] at hb
      cases hb
    | some j => simp

theorem Remark.same_symm {a b : Remark} (h : a.same b = true) : b.same a = true := by
  obtain ⟨hn, he⟩ := Remark.same_iff.mp h
  exact Remark.same_iff.mpr ⟨hn.symm, fun h => (he (hn.trans h)).symm⟩

theorem Remark.same_trans {a b c : Remark} (h : a.same b = true) (h' : b.same c = true) :
    a.same c = true := by
  obtain ⟨hn, he⟩ := Remark.same_iff.mp h
  obtain ⟨hn', he'⟩ := Remark.same_iff.mp h'
  exact Remark.same_iff.mpr ⟨hn.trans hn', fun h => (he h).trans (he' (hn.symm.trans h))⟩

namespace Ty

variable {t u x y : Ty} {ts us : List Ty}

theorem sameLiterals_iff {vs ws : List Literal} :
    sameLiterals vs ws = true ↔ ∀ l, l ∈ vs ↔ l ∈ ws := by
  simp only [sameLiterals, Bool.and_eq_true, List.all_eq_true, List.contains_iff_mem]
  constructor
  · rintro ⟨h, h'⟩ l
    exact ⟨h l, h' l⟩
  · intro h
    exact ⟨fun l => (h l).mp, fun l => (h l).mpr⟩

theorem sameRemarks_symm {rs qs : List Remark} (h : sameRemarks rs qs = true) :
    sameRemarks qs rs = true := by
  induction rs generalizing qs with
  | nil =>
    cases qs with
    | nil => rfl
    | cons => cases h
  | cons r rs ih =>
    cases qs with
    | nil => cases h
    | cons q qs =>
      obtain ⟨hr, hrs⟩ := Bool.and_eq_true_iff.mp h
      exact Bool.and_eq_true_iff.mpr ⟨Remark.same_symm hr, ih hrs⟩

theorem sameRemarks_trans {rs qs ps : List Remark} (h : sameRemarks rs qs = true)
    (h' : sameRemarks qs ps = true) : sameRemarks rs ps = true := by
  induction rs generalizing qs ps with
  | nil =>
    cases qs with
    | nil => exact h'
    | cons => cases h
  | cons r rs ih =>
    cases qs with
    | nil => cases h
    | cons q qs =>
      cases ps with
      | nil => cases h'
      | cons p ps =>
        obtain ⟨hr, hrs⟩ := Bool.and_eq_true_iff.mp h
        obtain ⟨hq, hqs⟩ := Bool.and_eq_true_iff.mp h'
        exact Bool.and_eq_true_iff.mpr ⟨Remark.same_trans hr hq, ih hrs hqs⟩

/-! ### Types -/

theorem eachIn_iff : eachIn ts us = true ↔ ∀ t ∈ ts, ∃ x ∈ us, t.same x = true := by
  induction ts with
  | nil => simp [eachIn]
  | cons t ts ih => simp [eachIn, ih]

theorem someSame_iff : someSame ts x = true ↔ ∃ t ∈ ts, t.same x = true := by
  induction ts with
  | nil => simp [someSame]
  | cons t ts ih => simp [someSame, ih]

/-- Unions are equal when every member of one has an equal one in the other. -/
theorem same_union_iff {s r : UnionSpelling} : (Ty.union s ts).same (.union r us) = true ↔
    (∀ t ∈ ts, ∃ x ∈ us, t.same x = true) ∧ ∀ x ∈ us, ∃ t ∈ ts, t.same x = true := by
  rw [same, Bool.and_eq_true, eachIn_iff, List.all_eq_true]
  simp only [someSame_iff]

/-- A type that is not made of other ones, nor of literal values. -/
def isAtom : Ty → Bool
  | .generic _ _ _ | .union _ _ | .annotated _ _ | .literal _ | .classVar _ | .initVar _
  | .newType _ _ _ | .typeVar _ _ _ => false
  | _ => true

/-- Such a type equals nothing but itself. -/
theorem eq_of_same (ht : t.isAtom = true) (h : t.same u = true) : t = u := by
  cases t with
  | generic | union | annotated | literal | classVar | initVar | newType | typeVar => cases ht
  | _ => cases u <;> first | rfl | cases h | simpa [same] using h

mutual

/-- Equal types are equal the other way round. -/
theorem same_symm (t u : Ty) (h : t.same u = true) : u.same t = true := by
  cases t with
  | generic g c ts =>
    cases u with
    | generic k d us =>
      obtain ⟨hc, hts⟩ := Bool.and_eq_true_iff.mp h
      obtain ⟨hg, hd⟩ := Bool.and_eq_true_iff.mp hc
      obtain rfl := eq_of_beq hg
      obtain rfl := eq_of_beq hd
      simp [same, samePairwise_symm ts us hts]
    | _ => cases h
  | union s ts =>
    cases u with
    | union r us =>
      obtain ⟨hts, hus⟩ := same_union_iff.mp h
      have hsymm := same_symm_of_mem ts
      refine same_union_iff.mpr ⟨fun x hx => ?_, fun t ht => ?_⟩
      · obtain ⟨t, ht, hsame⟩ := hus x hx
        exact ⟨t, ht, hsymm t ht x hsame⟩
      · obtain ⟨x, hx, hsame⟩ := hts t ht
        exact ⟨x, hx, hsymm t ht x hsame⟩
    | _ => cases h
  | annotated t rs =>
    cases u with
    | annotated u qs =>
      obtain ⟨ht, hrs⟩ := Bool.and_eq_true_iff.mp h
      exact Bool.and_eq_true_iff.mpr ⟨same_symm t u ht, sameRemarks_symm hrs⟩
    | _ => cases h
  | literal vs =>
    cases u with
    | literal ws => exact sameLiterals_iff.mpr fun l => (sameLiterals_iff.mp h l).symm
    | _ => cases h
  | classVar t =>
    cases u with
    | classVar u => exact same_symm t u h
    | _ => cases h
  | initVar t =>
    cases u with
    | initVar u => exact same_symm t u h
    | _ => cases h
  | newType i g t =>
    cases u with
    | newType j k u =>
      obtain ⟨hn, ht⟩ := Bool.and_eq_true_iff.mp h
      obtain ⟨hi, hg⟩ := Bool.and_eq_true_iff.mp hn
      obtain rfl := eq_of_beq hi
      obtain rfl := eq_of_beq hg
      simp [same, same_symm t u ht]
    | _ => cases h
  | typeVar i b ts =>
    cases u with
    | typeVar j c us =>
      obtain ⟨hn, hts⟩ := Bool.and_eq_true_iff.mp h
      obtain ⟨hi, hb⟩ := Bool.and_eq_true_iff.mp hn
      obtain rfl := eq_of_beq hi
      simp [same, sameBound_symm b c hb, samePairwise_symm ts us hts]
    | _ => cases h
  | _ => exact eq_of_same rfl h ▸ h
termination_by structural t

theorem samePairwise_symm (ts us : List Ty) (h : samePairwise ts us = true) :
    samePairwise us ts = true := by
  cases ts with
  | nil =>
    cases us with
    | nil => rfl
    | cons => cases h
  | cons t ts =>
    cases us with
    | nil => cases h
    | cons u us =>
      obtain ⟨ht, hts⟩ := Bool.and_eq_true_iff.mp h
      exact Bool.and_eq_true_iff.mpr ⟨same_symm t u ht, samePairwise_symm ts us hts⟩
termination_by structural ts

theorem sameBound_symm (b c : Option Ty) (h : sameBound b c = true) : sameBound c b = true := by
  cases b with
  | none =>
    cases c with
    | none => rfl
    | some => cases h
  | some t =>
    cases c with
    | none => cases h
    | some u => exact same_symm t u h
termination_by structural b

theorem same_symm_of_mem (ts : List Ty) :
    ∀ t ∈ ts, ∀ u : Ty, t.same u = true → u.same t = true := by
  cases ts with
  | nil => exact fun t ht => absurd ht List.not_mem_nil
  | cons t ts => exact List.forall_mem_cons.mpr ⟨same_symm t, same_symm_of_mem ts⟩
termination_by structural ts

end

mutual

/-- Types that equal the same type are equal. -/
theorem same_trans (t u v : Ty) (h : t.same u = true) (h' : u.same v = true) :
    t.same v = true := by
  -- only types of one shape are equal, so all three have the shape of the first one
  cases t with
  | generic g c ts =>
    cases u with
    | generic k d us =>
      cases v with
      | generic l e vs =>
        simp only [same, Bool.and_eq_true, beq_iff_eq] at h h' ⊢
        obtain ⟨⟨rfl, rfl⟩, hts⟩ := h
        exact ⟨h'.1, samePairwise_trans ts us vs hts h'.2⟩
      | _ => cases h'
    | _ => cases h
  | union s ts =>
    cases u with
    | union r us =>
      cases v with
      | union q vs =>
        -- members are compared as sets: each one is found again by way of a member in the middle
        obtain ⟨hts, hus⟩ := same_union_iff.mp h
        obtain ⟨hus', hvs⟩ := same_union_iff.mp h'
        have htrans := same_trans_of_mem ts
        refine same_union_iff.mpr ⟨fun t ht => ?_, fun y hy => ?_⟩
        · obtain ⟨x, hx, htx⟩ := hts t ht
          obtain ⟨y, hy, hxy⟩ := hus' x hx
          exact ⟨y, hy, htrans t ht x y htx hxy⟩
        · obtain ⟨x, hx, hxy⟩ := hvs y hy
          obtain ⟨t, ht, htx⟩ := hus x hx
          exact ⟨t, ht, htrans t ht x y htx hxy⟩
      | _ => cases h'
    | _ => cases h
  | annotated t rs =>
    cases u with
    | annotated u qs =>
      cases v with
      | annotated v ps =>
        -- remarks come in order, unlike the members of a union
        obtain ⟨ht, hrs⟩ := Bool.and_eq_true_iff.mp h
        obtain ⟨hu, hqs⟩ := Bool.and_eq_true_iff.mp h'
        exact Bool.and_eq_true_iff.mpr ⟨same_trans t u v ht hu, sameRemarks_trans hrs hqs⟩
      | _ => cases h'
    | _ => cases h
  | literal vs =>
    cases u with
    | literal ws =>
      cases v with
      | literal xs =>
        -- literal values are compared as sets too, but by their own equality
        exact sameLiterals_iff.mpr fun l =>
          (sameLiterals_iff.mp h l).trans (sameLiterals_iff.mp h' l)
      | _ => cases h'
    | _ => cases h
  | classVar t =>
    cases u with
    | classVar u =>
      cases v with
      | classVar v => exact same_trans t u v h h'
      | _ => cases h'
    | _ => cases h
  | initVar t =>
    cases u with
    | initVar u =>
      cases v with
      | initVar v => exact same_trans t u v h h'
      | _ => cases h'
    | _ => cases h
  | newType i g t =>
    cases u with
    | newType j k u =>
      cases v with
      | newType l m v =>
        -- the name and its home are compared as they are, and only the base as a type
        simp only [same, Bool.and_eq_true, beq_iff_eq] at h h' ⊢
        obtain ⟨⟨rfl, rfl⟩, ht⟩ := h
        exact ⟨h'.1, same_trans t u v ht h'.2⟩
      | _ => cases h'
    | _ => cases h
  | typeVar i b ts =>
    cases u with
    | typeVar j c us =>
      cases v with
      | typeVar k d vs =>
        -- the bound may be missing, which has a lemma of its own below
        simp only [same, Bool.and_eq_true, beq_iff_eq] at h h' ⊢
        obtain ⟨⟨rfl, hb⟩, hts⟩ := h
        obtain ⟨⟨rfl, hc⟩, hus⟩ := h'
        exact ⟨⟨rfl, sameBound_trans b c d hb hc⟩, samePairwise_trans ts us vs hts hus⟩
      | _ => cases h'
    | _ => cases h
  -- the other types have no parts, and those that are equal are the same
  | _ => exact eq_of_same rfl h ▸ h'
termination_by structural t

theorem samePairwise_trans (ts us vs : List Ty) (h : samePairwise ts us = true)
    (h' : samePairwise us vs = true) : samePairwise ts vs = true := by
  cases ts with
  | nil =>
    cases us with
    | nil => exact h'
    | cons => cases h
  | cons t ts =>
    cases us with
    | nil => cases h
    | cons u us =>
      cases vs with
      | nil => cases h'
      | cons v vs =>
        obtain ⟨ht, hts⟩ := Bool.and_eq_true_iff.mp h
        obtain ⟨hu, hus⟩ := Bool.and_eq_true_iff.mp h'
        exact Bool.and_eq_true_iff.mpr
          ⟨same_trans t u v ht hu, samePairwise_trans ts us vs hts hus⟩
termination_by structural ts

theorem sameBound_trans (b c d : Option Ty) (h : sameBound b c = true)
    (h' : sameBound c d = true) : sameBound b d = true := by
  cases b with
  | none =>
    cases c with
    | none => exact h'
    | some => cases h
  | some t =>
    cases c with
    | none => cases h
    | some u =>
      cases d with
      | none => cases h'
      | some v => exact same_trans t u v h h'
termination_by structural b

theorem same_trans_of_mem (ts : List Ty) :
    ∀ t ∈ ts, ∀ u v : Ty, t.same u = true → u.same v = true → t.same v = true := by
  cases ts with
  | nil => exact fun t ht => absurd ht List.not_mem_nil
  | cons t ts => exact List.forall_mem_cons.mpr ⟨same_trans t, same_trans_of_mem ts⟩
termination_by structural ts

end

/-- Equality of declared types is an equivalence. -/
instance : EquivBEq Ty where
  symm := same_symm _ _
  trans := same_trans _ _ _
  rfl := same_self _

end Ty

/-! ### Keys -/

namespace Number.Exact

/-- A ratio has a positive denominator. -/
def IsProper : Exact → Prop
  | .ratio _ d => 0 < d
  | _ => True

variable {a b c : Exact}

theorem same_symm (h : a.same b = true) : b.same a = true := by
  cases a with
  | nan => cases h
  | infinite n =>
    cases b with
    | infinite m =>
      have hnm : n = m := by simpa [same] using h
      simpa [same] using hnm.symm
    | _ => cases h
  | ratio x d =>
    cases b with
    | ratio y e =>
      have hxy : x * e = y * d := by simpa [same] using h
      simpa [same] using hxy.symm
    | _ => cases h

/-- Both sides of `x / d = y / e` and `y / e = z / f` may be multiplied by `e`, which is no zero. -/
theorem same_trans (hb : b.IsProper) (h : a.same b = true) (h' : b.same c = true) :
    a.same c = true := by
  cases a with
  | nan => cases h
  | infinite n =>
    cases b with
    | infinite m =>
      obtain rfl : n = m := by simpa [same] using h
      exact h'
    | _ => cases h
  | ratio x d =>
    cases b with
    | ratio y e =>
      cases c with
      | ratio z f =>
        have hxy : x * e = y * d := by simpa [same] using h
        have hyz : y * f = z * e := by simpa [same] using h'
        have he : (e : Int) ≠ 0 := by
          have hpos : 0 < e := hb
          omega
        have hcross : x * f * e = z * d * e := by
          calc x * f * e = x * e * f := by ring
            _ = y * d * f := by rw [hxy]
            _ = y * f * d := by ring
            _ = z * e * d := by rw [hyz]
            _ = z * d * e := by ring
        have hxz : x * f = z * d := mul_right_cancel₀ he hcross
        simpa [same] using hxz
      | _ => cases h'
    | _ => cases h

theorem isProper_ofInt (i : Int) : (ofInt i).IsProper := Nat.one_pos

theorem isProper_scaled (n : Nat) (e : Int) : 0 < (scaled n e).2 := by
  unfold scaled
  split
  · exact Nat.pow_pos (by decide)
  · exact Nat.one_pos

theorem isProper_ofText (s : String) : (ofText s).IsProper := by
  dsimp only [ofText]
  split
  · trivial
  · split
    · exact isProper_scaled _ _
    · split
      · exact Nat.succ_pos _
      · trivial

end Number.Exact

theorem Number.Binary64.isProper_exact (x : Number.Binary64) : x.exact.IsProper := by
  cases x with
  | finite n m e =>
    by_cases he : e < 0
    · rw [exact, if_pos he]
      exact Nat.pow_pos Nat.two_pos
    · rw [exact, if_neg he]
      exact Nat.one_pos
  | _ => trivial

namespace Value

theorem isProper_number {v : Value} {x : Number.Exact} (h : v.number? = some x) : x.IsProper := by
  unfold number? at h
  split at h
  · cases h
    exact Number.Exact.isProper_ofInt _
  · cases h
    exact Number.Exact.isProper_ofInt _
  · cases h
    exact Number.Binary64.isProper_exact _
  · cases h
    exact Number.Exact.isProper_ofInt _
  · split at h
    · cases h
      exact Number.Exact.isProper_ofText _
    · cases h
  · cases h

namespace Key

mutual

/-- Every ratio in the key is a proper one. -/
def IsProper : Key → Prop
  | .number x => x.IsProper
  | .tuple ks => AreProper ks
  | _ => True

/-- The same for several keys. -/
def AreProper : List Key → Prop
  | [] => True
  | k :: ks => k.IsProper ∧ AreProper ks

end

/-- A key that is no number, no tuple and no type. -/
def isAtom : Key → Bool
  | .number _ | .tuple _ | .type _ => false
  | _ => true

variable {k l : Key}

/-- Such a key equals nothing but itself. -/
theorem eq_of_same (hk : k.isAtom = true) (h : k.same l = true) : k = l := by
  cases k with
  | number | tuple | type => cases hk
  | _ => cases l <;> first | rfl | cases h | simpa [same] using h

mutual

/-- Equal keys are equal the other way round. -/
theorem same_symm (k l : Key) (h : k.same l = true) : l.same k = true := by
  cases k with
  | tuple ks =>
    cases l with
    | tuple ls => exact samePairwise_symm ks ls h
    | _ => cases h
  | number x =>
    cases l with
    | number y => exact Number.Exact.same_symm h
    | _ => cases h
  | type t =>
    cases l with
    | type u => exact Ty.same_symm t u h
    | _ => cases h
  | _ => exact eq_of_same rfl h ▸ h
termination_by structural k

theorem samePairwise_symm (ks ls : List Key) (h : samePairwise ks ls = true) :
    samePairwise ls ks = true := by
  cases ks with
  | nil =>
    cases ls with
    | nil => rfl
    | cons => cases h
  | cons k ks =>
    cases ls with
    | nil => cases h
    | cons l ls =>
      obtain ⟨hk, hks⟩ := Bool.and_eq_true_iff.mp h
      exact Bool.and_eq_true_iff.mpr ⟨same_symm k l hk, samePairwise_symm ks ls hks⟩
termination_by structural ks

end

mutual

/-- Keys that equal the same proper key are equal. -/
theorem same_trans (k l m : Key) (hl : l.IsProper) (h : k.same l = true) (h' : l.same m = true) :
    k.same m = true := by
  cases k with
  | tuple ks =>
    cases l with
    | tuple ls =>
      cases m with
      | tuple ms => exact samePairwise_trans ks ls ms hl h h'
      | _ => cases h'
    | _ => cases h
  | number x =>
    cases l with
    | number y =>
      cases m with
      | number z => exact Number.Exact.same_trans hl h h'
      | _ => cases h'
    | _ => cases h
  | type t =>
    cases l with
    | type u =>
      cases m with
      | type v => exact Ty.same_trans t u v h h'
      | _ => cases h'
    | _ => cases h
  | _ => exact eq_of_same rfl h ▸ h'
termination_by structural k

theorem samePairwise_trans (ks ls ms : List Key) (hl : AreProper ls)
    (h : samePairwise ks ls = true) (h' : samePairwise ls ms = true) :
    samePairwise ks ms = true := by
  cases ks with
  | nil =>
    cases ls with
    | nil => exact h'
    | cons => cases h
  | cons k ks =>
    cases ls with
    | nil => cases h
    | cons l ls =>
      cases ms with
      | nil => cases h'
      | cons m ms =>
        obtain ⟨hk, hks⟩ := Bool.and_eq_true_iff.mp h
        obtain ⟨hm, hms⟩ := Bool.and_eq_true_iff.mp h'
        exact Bool.and_eq_true_iff.mpr
          ⟨same_trans k l m hl.1 hk hm, samePairwise_trans ks ls ms hl.2 hks hms⟩
termination_by structural ks

end

end Key

theorem isProper_atomKey (v : Value) : v.atomKey.IsProper := by
  unfold atomKey
  split
  · trivial
  · exact isProper_number (by assumption)
  · split <;> trivial

mutual

/-- The keys of values are proper ones. -/
theorem isProper_of_key? (mutable : ClassRef → Bool) (v : Value) {k : Key}
    (h : v.key? mutable = some k) : k.IsProper := by
  cases v with
  | list | dict => cases h
  | tuple xs =>
    obtain ⟨ks, hks, rfl⟩ := Option.map_eq_some_iff.mp h
    exact areProper_of_keys? mutable xs hks
  | record c b as =>
    cases hc : mutable c with
    | true => cases b <;> simp [key?, hc] at h
    | false =>
      cases b with
      | none =>
        obtain rfl : _ = k := by simpa [key?, hc] using h
        trivial
      | some b => exact isProper_of_key? mutable b (by simpa [key?, hc] using h)
  | stored a c b =>
    cases hc : mutable c with
    | true => cases b <;> simp [key?, hc] at h
    | false =>
      cases b with
      | none =>
        obtain rfl : _ = k := by simpa [key?, hc] using h
        trivial
      | some b => exact isProper_of_key? mutable b (by simpa [key?, hc] using h)
  | _ =>
    cases h
    exact isProper_atomKey _
termination_by structural v

theorem areProper_of_keys? (mutable : ClassRef → Bool) (vs : List Value) {ks : List Key}
    (h : keys? mutable vs = some ks) : Key.AreProper ks := by
  cases vs with
  | nil =>
    cases h
    trivial
  | cons v vs =>
    rw [keys?] at h
    split at h
    · next k ks hk hks =>
      cases h
      exact ⟨isProper_of_key? mutable v hk, areProper_of_keys? mutable vs hks⟩
    · cases h
termination_by structural vs

end

end Value

/-! ### Names -/

namespace Name

/-- The key of the name is a proper one. -/
def IsProper (n : Name) : Prop := n.key.IsProper

variable {n m k : Name}

theorem beq_comm (n m : Name) : (n == m) = (m == n) := by
  rw [Bool.eq_iff_iff]
  exact ⟨Value.Key.same_symm _ _, Value.Key.same_symm _ _⟩

theorem beq_trans (hm : m.IsProper) (h : (n == m) = true) (h' : (m == k) = true) :
    (n == k) = true :=
  Value.Key.same_trans _ _ _ hm h h'

end Name

/-- **The names that values have are proper ones.** -/
theorem World.isProper_of_nameOf {W : World} {v : Value} {n : Name} (h : W.nameOf v = .ok n) :
    n.IsProper := by
  unfold World.nameOf at h
  split at h
  · next k hk =>
    cases h
    exact Value.isProper_of_key? W.isMutable v hk
  · cases h

end RecordText
