/-
Tables as finite maps.

A table is known by its keys, which keep the order in which they were first put, and by what it
holds under each of them:

* `lookup_put`, `lookup_erase` — only the key that is put or taken away is touched;
* `keys_put`, `keys_erase` — a known key keeps its place, and a new one comes last;
* `nodup_put`, `nodup_erase`, `nodup_foldl` — no key stands twice in a table.
-/
import RecordText.Table
import Mathlib.Data.List.Basic
import Mathlib.Data.List.Nodup

namespace RecordText.Table

variable {κ α β : Type} [BEq κ] [LawfulBEq κ] [DecidableEq κ] {k : κ} {a : α}
  {es : List (κ × α)}

/-! ### Looking up -/

theorem lookup_cons (k l : κ) (b : α) (es : List (κ × α)) :
    ((l, b) :: es).lookup k = if k = l then some b else es.lookup k := by
  rw [List.lookup_cons]
  by_cases h : k = l
  · simp [h]
  · rw [if_neg h, beq_false_of_ne h]

theorem lookup_put (k l : κ) (a : α) (es : List (κ × α)) :
    (put k a es).lookup l = if l = k then some a else es.lookup l := by
  induction es with
  | nil => rw [put, lookup_cons, List.lookup_nil]
  | cons e es ih =>
    obtain ⟨m, b⟩ := e
    rw [put]
    by_cases hm : m = k
    · subst hm
      simp only [beq_self_eq_true, if_true, lookup_cons]
      by_cases hl : l = m <;> simp [hl]
    · rw [if_neg (by simpa using hm), lookup_cons, lookup_cons, ih]
      by_cases hl : l = m
      · simp [hl, hm]
      · simp [hl]

theorem lookup_erase (k l : κ) (es : List (κ × α)) :
    (erase k es).lookup l = if l = k then none else es.lookup l := by
  induction es with
  | nil => simp [erase]
  | cons e es ih =>
    obtain ⟨m, b⟩ := e
    rw [erase, List.filter_cons]
    by_cases hm : m = k
    · subst hm
      rw [if_neg (by simp), lookup_cons, ← erase, ih]
      by_cases hl : l = m <;> simp [hl]
    · rw [if_pos (by simpa using hm), lookup_cons, lookup_cons, ← erase, ih]
      by_cases hl : l = m
      · simp [hl, hm]
      · simp [hl]

theorem lookup_eq_none_iff : es.lookup k = none ↔ k ∉ es.map Prod.fst := by
  induction es with
  | nil => simp
  | cons e es ih =>
    obtain ⟨m, b⟩ := e
    rw [lookup_cons, List.map_cons, List.mem_cons, not_or, ← ih]
    by_cases hk : k = m <;> simp [hk]

/-- Where no key stands twice, an entry is what its key is looked up as. -/
theorem lookup_eq_some_iff (h : (es.map Prod.fst).Nodup) : es.lookup k = some a ↔ (k, a) ∈ es := by
  induction es with
  | nil => simp
  | cons e es ih =>
    obtain ⟨m, b⟩ := e
    rw [List.map_cons, List.nodup_cons] at h
    rw [lookup_cons, List.mem_cons, Prod.mk.injEq]
    by_cases hk : k = m
    · subst hk
      have hn : (k, a) ∉ es := fun hmem => h.1 (List.mem_map.mpr ⟨(k, a), hmem, rfl⟩)
      simp [hn, eq_comm]
    · simp [hk, ih h.2]

/-! ### Keys -/

theorem keys_put (k : κ) (a : α) (es : List (κ × α)) :
    (put k a es).map Prod.fst =
      if k ∈ es.map Prod.fst then es.map Prod.fst else es.map Prod.fst ++ [k] := by
  induction es with
  | nil => simp [put]
  | cons e es ih =>
    obtain ⟨m, b⟩ := e
    rw [put]
    by_cases hm : m = k
    · simp [hm]
    · rw [if_neg (by simpa using hm), List.map_cons, ih, List.map_cons]
      by_cases hk : k ∈ es.map Prod.fst
      · simp [hk]
      · simp [hk, Ne.symm hm]

omit [LawfulBEq κ] [DecidableEq κ] in
theorem keys_erase (k : κ) (es : List (κ × α)) :
    (erase k es).map Prod.fst = (es.map Prod.fst).filter fun l => !(l == k) := by
  rw [erase, List.filter_map]
  rfl

theorem nodup_put (k : κ) (a : α) (h : (es.map Prod.fst).Nodup) :
    ((put k a es).map Prod.fst).Nodup := by
  rw [keys_put]
  split_ifs with hk
  · exact h
  · exact List.Nodup.append h (List.nodup_singleton k) (by simpa using hk)

omit [LawfulBEq κ] [DecidableEq κ] in
theorem nodup_erase (k : κ) (h : (es.map Prod.fst).Nodup) :
    ((erase k es).map Prod.fst).Nodup := by
  rw [keys_erase]
  exact h.filter _

omit [BEq κ] [LawfulBEq κ] [DecidableEq κ] in
/-- Steps that leave every key single leave it single in the end. -/
theorem nodup_foldl {step : List (κ × α) → β → List (κ × α)}
    (hstep : ∀ t x, (t.map Prod.fst).Nodup → ((step t x).map Prod.fst).Nodup) (xs : List β)
    (h : (es.map Prod.fst).Nodup) : ((xs.foldl step es).map Prod.fst).Nodup := by
  induction xs generalizing es with
  | nil => exact h
  | cons x xs ih => exact ih (hstep es x h)

theorem nodup_foldl_put (key : β → κ) (value : β → α) (xs : List β)
    (h : (es.map Prod.fst).Nodup) :
    ((xs.foldl (fun t x => put (key x) (value x) t) es).map Prod.fst).Nodup :=
  nodup_foldl (fun _ _ => nodup_put _ _) xs h

end RecordText.Table
