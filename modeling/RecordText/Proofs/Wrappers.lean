/-
Remarks around types and inside of them.

A type may carry remarks, and so may the members of every union in it (`Ty.Wraps`).  The strategy of
a member is found below the remarks around its declared type.  It is not found below those inside of
an optional type: there the type beside the absent value decides as it stands, and with remarks
around it that type is an object like any other form.

* `Ty.option?` — the type beside the absent value, when both stand without remarks;
* `Hierarchy.strategy_of_isJoined` — the strategy of a union;
* `strategy_of_wraps` — **remarks change a strategy exactly when they are put into an optional
  type**, around either of the two that it is made of.
-/
import RecordText.Strategy
import RecordText.Proofs.Unions
import RecordText.Proofs.Leaves

namespace RecordText

namespace Ty

/-! ### Wrapping -/

/-- A type with remarks. -/
def isAnnotated : Ty → Bool
  | .annotated _ _ => true
  | _ => false

/-- The second type is the first one with more remarks: around the type, around the members of a
union in it, or around the arguments of a form. Remarks next to remarks are taken together, and a
union may be spelled anew. What a new name stands for gets remarks inside only, because the new name
and not the type below it stands where the members of unions do. -/
inductive Wraps : Ty → Ty → Prop
  | self (t : Ty) : Wraps t t
  | around {t u : Ty} (rs : List Remark) : Wraps t u → Wraps t (.annotated u rs)
  | under {t u : Ty} (rs qs : List Remark) : Wraps t u →
      Wraps (.annotated t rs) (.annotated u (rs ++ qs))
  | union {ts us : List Ty} (s r : UnionSpelling) : List.Forall₂ Wraps ts us →
      Wraps (.union s ts) (.union r us)
  | generic {ts us : List Ty} (g : GenericHead) (c : ClassRef) : List.Forall₂ Wraps ts us →
      Wraps (.generic g c ts) (.generic g c us)
  | classVar {t u : Ty} : Wraps t u → Wraps (.classVar t) (.classVar u)
  | initVar {t u : Ty} : Wraps t u → Wraps (.initVar t) (.initVar u)
  | newType {t u : Ty} (i : Ident) (home : String) : Wraps t u →
      t.isAnnotated = u.isAnnotated → Wraps (.newType i home t) (.newType i home u)
  | typeVar {b c : Option Ty} {ts us : List Ty} (i : Ident) : Option.Rel Wraps b c →
      List.Forall₂ Wraps ts us → Wraps (.typeVar i b ts) (.typeVar i c us)

/-- The types beside the absent value. -/
def present (ts : List Ty) : List Ty := ts.filter fun t => !t.isNoneType

/-- The only type beside the absent value, when it stands without remarks. -/
def optionOf (ts : List Ty) : Option Ty :=
  match present ts with
  | [x] => if x.isAnnotated then none else some x
  | _ => none

/-- The type that an optional type is made of, when both that type and the absent value stand
without remarks. -/
def option? (t : Ty) : Option Ty :=
  match t.core with
  | .union _ ts => optionOf ts
  | _ => none

/-- If there is a union under the remarks, it is one that can be made. -/
def Proper (t : Ty) : Prop := ∀ s ts, t.core = .union s ts → IsJoined ts

variable {t u x y : Ty} {ts us : List Ty}

theorem core_of_not_annotated (h : t.isAnnotated = false) : t.core = t := by
  cases t with
  | annotated => cases h
  | _ => rfl

/-- Taking the remarks off leaves the members and the arguments as they are. -/
theorem Wraps.core : ∀ {t u : Ty}, t.Wraps u → t.core.Wraps u.core
  | _, _, .self _ => .self _
  | _, _, .around _ h => h.core
  | _, _, .under _ _ h => h.core
  | _, _, .union s r h => .union s r h
  | _, _, .generic g c h => .generic g c h
  | _, _, .classVar h => .classVar h
  | _, _, .initVar h => .initVar h
  | _, _, .newType i g h hann => .newType i g h hann
  | _, _, .typeVar i hb h => .typeVar i hb h

/-- A type without remarks had none before either. -/
theorem Wraps.isAnnotated_eq_false (h : x.Wraps y) (hy : y.isAnnotated = false) :
    x.isAnnotated = false := by
  cases h with
  | self => exact hy
  | around | under => cases hy
  | _ => rfl

/-- The absent value without remarks had none before either. -/
theorem Wraps.eq_of_isNoneType (h : x.Wraps y) (hy : y.isNoneType = true) : x = y := by
  cases h with
  | self => rfl
  | _ => cases hy

/-- The absent value is itself or carries remarks now. -/
theorem Wraps.isNoneType_of_isNoneType (h : x.Wraps y) (hx : x.isNoneType = true)
    (hy : y.isAnnotated = false) : y.isNoneType = true := by
  cases h with
  | self => exact hx
  | around | under => cases hy
  | _ => cases hx

/-! ### The type beside the absent value -/

/-- Remarks do not make the absent value disappear, so if nothing stands beside it now, then nothing
did before. -/
theorem present_eq_nil (h : List.Forall₂ Wraps ts us) (hu : present us = []) :
    present ts = [] := by
  induction h with
  | nil => rfl
  | @cons t u ts us hwraps _ ih =>
    cases hnone : u.isNoneType with
    | true =>
      obtain rfl := hwraps.eq_of_isNoneType hnone
      simp only [present, List.filter_cons, hnone, Bool.not_true] at hu ⊢
      exact ih hu
    | false => simp [present, hnone] at hu

/-- A single type without remarks beside the absent value was the only one before. -/
theorem present_eq_singleton (h : List.Forall₂ Wraps ts us) (hu : present us = [y])
    (hy : y.isAnnotated = false) : ∃ x, present ts = [x] ∧ x.Wraps y := by
  induction h with
  | nil => cases hu
  | @cons t u ts us hwraps hrest ih =>
    cases hnone : u.isNoneType with
    | true =>
      obtain rfl := hwraps.eq_of_isNoneType hnone
      simp only [present, List.filter_cons, hnone, Bool.not_true] at hu ⊢
      exact ih hu
    | false =>
      simp only [present, List.filter_cons, hnone, Bool.not_false, if_true] at hu
      obtain ⟨rfl, hus⟩ := List.cons.inj hu
      have hts := present_eq_nil hrest hus
      have ht : t.isNoneType = false := by
        cases ht : t.isNoneType with
        | false => rfl
        | true =>
          have hu := hwraps.isNoneType_of_isNoneType ht hy
          rw [hnone] at hu
          cases hu
      refine ⟨t, ?_, hwraps⟩
      rw [present] at hts ⊢
      rw [List.filter_cons, hts, ht]
      rfl

theorem optionOf_eq_some (hts : present ts = [x]) (hx : x.isAnnotated = false) :
    optionOf ts = some x := by
  rw [optionOf, hts]
  exact if_neg (by simp [hx])

theorem present_of_optionOf (h : optionOf ts = some x) :
    present ts = [x] ∧ x.isAnnotated = false := by
  unfold optionOf at h
  split at h
  · next y hy =>
    split at h
    · cases h
    · next hann =>
      cases h
      exact ⟨hy, Bool.eq_false_iff.mpr hann⟩
  · cases h

/-- An optional type without remarks inside was one before. -/
theorem optionOf_of_wraps (h : List.Forall₂ Wraps ts us) (hu : optionOf us = some y) :
    ∃ x, optionOf ts = some x ∧ x.Wraps y := by
  obtain ⟨hpresent, hy⟩ := present_of_optionOf hu
  obtain ⟨x, hts, hwraps⟩ := present_eq_singleton h hpresent hy
  exact ⟨x, optionOf_eq_some hts (hwraps.isAnnotated_eq_false hy), hwraps⟩

theorem option?_of_not_union (h : t.core.isUnion = false) : t.option? = none := by
  unfold option?
  split
  · next hc =>
    rw [hc] at h
    cases h
  · rfl

end Ty

namespace Hierarchy

variable {H : Hierarchy} {t u x y : Ty} {ts us : List Ty}

/-! ### Strategies -/

/-- Whether something iterates is found below new names, but not below remarks. -/
theorem isIterable_of_wraps (H : Hierarchy) : ∀ {x y : Ty}, x.Wraps y →
    x.isAnnotated = y.isAnnotated → H.isIterable y = H.isIterable x
  | _, _, .self _, _ => rfl
  | x, _, .around _ _, hann => by
    cases x with
    | annotated => rfl
    | _ => cases hann
  | _, _, .under _ _ _, _ => rfl
  | _, _, .union _ _ _, _ => rfl
  | _, _, .generic _ _ _, _ => rfl
  | _, _, .classVar _, _ => rfl
  | _, _, .initVar _, _ => rfl
  | _, _, .newType _ _ h hann, _ => by
    have hiter := isIterable_of_wraps H h hann
    rw [isIterable, isIterable, hiter]
  | _, _, .typeVar _ _ _, _ => rfl

/-- Without remarks around it a type has the strategy that it had before. -/
theorem strategyOfBare_of_wraps (H : Hierarchy) (h : x.Wraps y) (hy : y.isAnnotated = false) :
    H.strategyOfBare y = H.strategyOfBare x := by
  cases h with
  | self => rfl
  | around | under => cases hy
  | newType i g h hann =>
    have hiter := H.isIterable_of_wraps h hann
    simp only [strategyOfBare, isIterable, hiter]
    rfl
  | _ => rfl

theorem strategy_of_not_union (h : t.core.isUnion = false) :
    H.strategy t = H.strategyOfBare t.core := by
  unfold strategy
  cases hc : t.core with
  | union => rw [hc] at h; cases h
  | _ => rfl

theorem eq_noneType (h : t.isNoneType = true) : t = Ty.noneType := by
  unfold Ty.isNoneType at h
  split at h
  · rfl
  · cases h

/-- In a union there is one absent value at most. -/
theorem present_ne_nil (h : Ty.IsJoined ts) : Ty.present ts ≠ [] := by
  intro hnil
  have hnone : ∀ t ∈ ts, t = Ty.noneType := by
    intro t ht
    refine eq_noneType ?_
    by_contra hpresent
    have hmem : t ∈ Ty.present ts := List.mem_filter.mpr ⟨ht, by simpa using hpresent⟩
    rw [hnil] at hmem
    cases hmem
  match ts, h.several, hnone, h.distinct with
  | t :: u :: _, _, hnone, hdistinct =>
    have hdiffer := List.rel_of_pairwise_cons hdistinct List.mem_cons_self
    rw [hnone t (by simp), hnone u (by simp)] at hdiffer
    cases hdiffer

/-- **A union is written as the type beside the absent value, if that is a single one without
remarks, and as an object otherwise.** -/
theorem strategyOfBare_stripOptional (h : Ty.IsJoined ts) (s : UnionSpelling) :
    H.strategyOfBare (Ty.union s ts).stripOptional.1 =
      ((Ty.optionOf ts).map H.strategyOfBare).getD .object := by
  have hsub : (Ty.present ts).Sublist ts := List.filter_sublist
  have hseveral := h.several
  unfold Ty.stripOptional Ty.optionOf
  dsimp only
  rw [← Ty.present]
  cases hp : Ty.present ts with
  | nil => exact absurd hp (present_ne_nil h)
  | cons x xs =>
    cases xs with
    | nil =>
      rw [if_neg (by simp; omega)]
      cases x with
      | annotated => rfl
      | _ => rfl
    | cons y ys =>
      -- the union stays, or the union of the types that remain is made
      rw [hp] at hsub
      split
      · rfl
      · change H.strategyOfBare (Ty.joined .form (x :: y :: ys)) = _
        rw [Ty.joined_of_isJoined (h.sublist hsub (by simp))]
        rfl

theorem strategy_of_isJoined {s : UnionSpelling} (hu : t.core = .union s ts)
    (h : Ty.IsJoined ts) : H.strategy t = (t.option?.map H.strategyOfBare).getD .object := by
  have ho : t.option? = Ty.optionOf ts := by
    rw [Ty.option?, hu]
  rw [ho, strategy, hu, strategyOfBare_stripOptional h]

/-- The same for two unions whose members differ in remarks. -/
theorem strategy_of_wraps_union {s r : UnionSpelling} (ht : t.core = .union s ts)
    (hu : u.core = .union r us) (hts : Ty.IsJoined ts) (hus : Ty.IsJoined us)
    (h : List.Forall₂ Ty.Wraps ts us) :
    (t.option? = none ∨ u.option?.isSome = true → H.strategy u = H.strategy t) ∧
    (t.option?.isSome = true → u.option? = none → H.strategy u = .object) := by
  have hot : t.option? = Ty.optionOf ts := by rw [Ty.option?, ht]
  have hou : u.option? = Ty.optionOf us := by rw [Ty.option?, hu]
  rw [strategy_of_isJoined ht hts, strategy_of_isJoined hu hus, hot, hou]
  cases hy : Ty.optionOf us with
  | none => 
    refine ⟨fun hkept => ?_, fun _ _ => rfl⟩
    rcases hkept with hnone | hsome
    · rw [hnone]
    · cases hsome
  | some y =>
    obtain ⟨x, hx, hwraps⟩ := Ty.optionOf_of_wraps h hy
    have hbare := (Ty.present_of_optionOf hy).2
    rw [hx]
    refine ⟨fun _ => ?_, fun _ hnone => by cases hnone⟩
    exact H.strategyOfBare_of_wraps hwraps hbare

end Hierarchy

/-- **Remarks change a strategy exactly when they are put into an optional type.**  As long as the
absent value and the single type beside it stand without remarks, or if there was no such pair in
the first place, remarks around the type, around members of unions and around arguments leave the
strategy as it is, however many there are.  A pair that gets remarks inside is written as an
object. -/
theorem strategy_of_wraps (H : Hierarchy) {t u : Ty} (h : t.Wraps u) (ht : t.Proper)
    (hu : u.Proper) :
    (t.option? = none ∨ u.option?.isSome = true → H.strategy u = H.strategy t) ∧
    (t.option?.isSome = true → u.option? = none → H.strategy u = .object) := by
  have hcore := h.core
  have hleaf := Ty.isLeaf_or_isUnion_core u
  generalize hc : t.core = a at hcore
  generalize hd : u.core = b at hcore
  cases hcore with
  | self =>
    -- the types differ in the remarks around them alone
    have hoption : u.option? = t.option? := by rw [Ty.option?, Ty.option?, hc, hd]
    have hstrategy : H.strategy u = H.strategy t := by
      rw [Hierarchy.strategy, Hierarchy.strategy, hc, hd]
    refine ⟨fun _ => hstrategy, fun hsome hnone => ?_⟩
    rw [← hoption, hnone] at hsome
    cases hsome
  | around | under =>
    rw [hd] at hleaf
    rcases hleaf with h | h <;> cases h
  | union s r heach =>
    exact Hierarchy.strategy_of_wraps_union hc hd (ht s _ hc) (hu r _ hd) heach
  | generic | classVar | initVar | newType | typeVar =>
    have htu : t.core.isUnion = false := by rw [hc]; rfl
    have huu : u.core.isUnion = false := by rw [hd]; rfl
    have hbare := H.strategyOfBare_of_wraps h.core (by rw [hd]; rfl)
    have hstrategy : H.strategy u = H.strategy t := by
      rw [Hierarchy.strategy_of_not_union htu, Hierarchy.strategy_of_not_union huu, hbare]
    refine ⟨fun _ => hstrategy, fun hsome => ?_⟩
    rw [Ty.option?_of_not_union htu] at hsome
    cases hsome

/-! ### Remarks inside of an optional text -/

/-- An optional text. -/
def optionalText : Ty := .union .form [Ty.str, Ty.noneType]

/-- The same with a remark around it. -/
def remarkedText : Ty := .annotated optionalText [.text "m"]

/-- The same with a remark around the text. -/
def hiddenText : Ty := .union .form [.annotated Ty.str [.text "m"], Ty.noneType]

theorem strategy_of_wraps_text :
    optionalText.Wraps remarkedText ∧ optionalText.Wraps hiddenText ∧
      Hierarchy.known.strategy optionalText = .string ∧
      Hierarchy.known.strategy remarkedText = .string ∧
      Hierarchy.known.strategy hiddenText = .object := by
  have hout : optionalText.Wraps remarkedText := .around _ (.self _)
  have hin : optionalText.Wraps hiddenText :=
    .union _ _ (.cons (.around _ (.self _)) (.cons (.self _) .nil))
  have hproper : optionalText.Proper := by
    intro s ts h
    cases h
    exact ⟨by decide, by decide, by decide⟩
  have hproper' : hiddenText.Proper := by
    intro s ts h
    cases h
    exact ⟨by decide, by decide, by decide⟩
  have htext : Hierarchy.known.strategy optionalText = .string := by decide
  obtain ⟨hkept, -⟩ := strategy_of_wraps Hierarchy.known hout hproper hproper
  obtain ⟨-, hlost⟩ := strategy_of_wraps Hierarchy.known hin hproper hproper'
  exact ⟨hout, hin, htext, (hkept (.inr rfl)).trans htext, hlost rfl rfl⟩

end RecordText
