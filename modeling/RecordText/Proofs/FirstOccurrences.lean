/-
Lists without repetitions, and tables, when equality is given by a test.

A test need not be an equality: names count as equal when their keys do, and some names differ from
themselves.  Three ways of leaving out repetitions agree for every test: taking in what is not there
yet, one after the other; `List.eraseDupsBy`; and the keys of a table.  Where the test is symmetric
and transitive, a table holds under each key what was put last (`Table.ofList_eq`).
-/
import RecordText.Table
import Mathlib.Data.List.Induction
import Mathlib.Tactic.Common

namespace RecordText

/-! ### First occurrences -/

section

variable {α : Type} {r : α → α → Bool}

theorem mem_of_mem_eraseDupsBy {a : α} : ∀ {l : List α}, a ∈ l.eraseDupsBy r → a ∈ l
  | [], h => h
  | b :: l, h => by
    rw [List.eraseDupsBy_cons] at h
    rcases List.mem_cons.mp h with rfl | h
    · exact List.mem_cons_self
    · exact List.mem_cons_of_mem b (List.mem_filter.mp (mem_of_mem_eraseDupsBy h)).1
termination_by l => l.length
decreasing_by exact Nat.lt_succ_of_le (List.length_filter_le _ _)

/-- Nothing that is kept repeats an earlier one. -/
theorem pairwise_eraseDupsBy : ∀ l : List α,
    (l.eraseDupsBy r).Pairwise fun a b => r b a = false
  | [] => List.Pairwise.nil
  | a :: l => by
    rw [List.eraseDupsBy_cons]
    refine List.Pairwise.cons (fun b hb => ?_) (pairwise_eraseDupsBy _)
    have hb := (List.mem_filter.mp (mem_of_mem_eraseDupsBy hb)).2
    exact of_decide_eq_true hb
termination_by l => l.length
decreasing_by exact Nat.lt_succ_of_le (List.length_filter_le _ _)

/-- One more element is kept unless it repeats one that is kept already. -/
theorem eraseDupsBy_concat (x : α) : ∀ l : List α, (l ++ [x]).eraseDupsBy r =
    if (l.eraseDupsBy r).any (r x) then l.eraseDupsBy r else l.eraseDupsBy r ++ [x]
  | [] => rfl
  | a :: l => by
    rw [List.cons_append, List.eraseDupsBy_cons, List.eraseDupsBy_cons, List.filter_append,
      List.any_cons]
    cases hx : r x a with
    | true => simp [hx]
    | false =>
      have ih := eraseDupsBy_concat x (l.filter fun b => decide (r b a = false))
      simp only [hx, List.filter_cons, List.filter_nil, decide_true, if_true, Bool.false_or]
      rw [ih]
      split <;> rfl
termination_by l => l.length
decreasing_by exact Nat.lt_succ_of_le (List.length_filter_le _ _)

/-- Leaving out repetitions by a test on parts is leaving out repeated parts. -/
theorem map_eraseDupsBy {β : Type} (f : α → β) {q : β → β → Bool} : ∀ l : List α,
    (l.eraseDupsBy fun a b => q (f a) (f b)).map f = (l.map f).eraseDupsBy q
  | [] => rfl
  | a :: l => by
    rw [List.eraseDupsBy_cons, List.map_cons, List.map_cons, List.eraseDupsBy_cons,
      map_eraseDupsBy f, List.filter_map]
    rfl
termination_by l => l.length
decreasing_by exact Nat.lt_succ_of_le (List.length_filter_le _ _)

end

/-- Taking in what is not there yet, one after the other, keeps the first occurrences. -/
theorem foldl_takeIn {α : Type} [BEq α] (l : List α) :
    l.foldl (fun kept x => if kept.contains x then kept else kept ++ [x]) [] = l.eraseDups := by
  induction l using List.reverseRecOn with
  | nil => rfl
  | append_singleton l x ih =>
    rw [List.foldl_append, ih, List.foldl_cons, List.foldl_nil, List.eraseDups, List.eraseDups,
      eraseDupsBy_concat, List.contains_eq_any_beq]

/-! ### Tables -/

namespace Table

variable {κ α : Type} [BEq κ] {k : κ} {a : α} {es : List (κ × α)}

/-- A new key comes last. -/
theorem put_of_new (h : ∀ e ∈ es, (e.1 == k) = false) : put k a es = es ++ [(k, a)] := by
  induction es with
  | nil => rfl
  | cons e es ih =>
    obtain ⟨he, hes⟩ := List.forall_mem_cons.mp h
    rw [put, if_neg (by simp [he]), ih hes]
    rfl

/-- A key that one entry has keeps its place. -/
theorem put_of_known (hone : es.Pairwise fun e f => (e.1 == k) = true → (f.1 == k) = false)
    (h : ∃ e ∈ es, (e.1 == k) = true) :
    put k a es = es.map fun e => if (e.1 == k) = true then (e.1, a) else e := by
  induction es with
  | nil =>
    obtain ⟨e, he, -⟩ := h
    cases he
  | cons e es ih =>
    obtain ⟨hfirst, hrest⟩ := List.pairwise_cons.mp hone
    obtain ⟨l, b⟩ := e
    rw [put, List.map_cons]
    cases hl : l == k with
    | true =>
      -- the entries behind the one that is found have other keys
      have hothers : es.map (fun e => if (e.1 == k) = true then (e.1, a) else e) = es := by
        refine (List.map_congr_left fun f hf => ?_).trans (List.map_id es)
        rw [if_neg (by simp [hfirst f hf hl])]
        rfl
      rw [hothers]
      rfl
    | false =>
      have hlater : ∃ e ∈ es, (e.1 == k) = true := by
        obtain ⟨e, he, hek⟩ := h
        rcases List.mem_cons.mp he with rfl | he
        · rw [hl] at hek
          cases hek
        · exact ⟨e, he, hek⟩
      rw [ih hrest hlater]
      rfl

/-- What a key is given last. -/
def latest (k : κ) (es : List (κ × α)) : Option α :=
  es.reverse.findSome? fun e => if (e.1 == k) = true then some e.2 else none

theorem latest_concat (k : κ) (es : List (κ × α)) (e : κ × α) :
    latest k (es ++ [e]) = if (e.1 == k) = true then some e.2 else latest k es := by
  rw [latest, List.reverse_append, List.reverse_singleton, List.singleton_append,
    List.findSome?_cons]
  by_cases h : (e.1 == k) = true
  · rw [if_pos h, if_pos h]
  · rw [if_neg h, if_neg h, latest]

theorem latest_eq_none (h : ∀ e ∈ es, (e.1 == k) = false) : latest k es = none := by
  refine List.findSome?_eq_none_iff.mpr fun e he => ?_
  rw [if_neg (by simp [h e (List.mem_reverse.mp he)])]

theorem ofList_concat (es : List (κ × α)) (e : κ × α) :
    ofList (es ++ [e]) = put e.1 e.2 (ofList es) := by
  rw [ofList, List.foldl_append]
  rfl

/-- **A table has the keys that were put, each at its first place, and under each of them what was
put last.**  A key that differs from itself is never found again, so it keeps what it came with. -/
theorem ofList_eq {P : κ → Prop} (hcomm : ∀ k l : κ, (k == l) = (l == k))
    (htrans : ∀ k l m : κ, P l → (k == l) = true → (l == m) = true → (k == m) = true)
    (h : ∀ e ∈ es, P e.1) :
    ofList es = (es.eraseDupsBy fun e f => e.1 == f.1).map fun e =>
      (e.1, (latest e.1 es).getD e.2) := by
  induction es using List.reverseRecOn with
  | nil => rfl
  | append_singleton es e ih =>
    have hes : ∀ f ∈ es, P f.1 := fun f hf => h f (List.mem_append_left _ hf)
    have he : P e.1 := h e (by simp)
    rw [ofList_concat, ih hes, eraseDupsBy_concat]
    generalize hkept : (es.eraseDupsBy fun e f => e.1 == f.1) = kept
    have hdiffer : kept.Pairwise fun f g => (g.1 == f.1) = false :=
      hkept ▸ pairwise_eraseDupsBy es
    split
    -- one of the keys equals the new one
    · next hany =>
      rw [put_of_known, List.map_map]
      · refine List.map_congr_left fun f _ => ?_
        simp only [Function.comp_apply, latest_concat, hcomm e.1 f.1]
        split <;> rfl
      · refine List.pairwise_map.mpr (hdiffer.imp fun {f g} hfg hf => ?_)
        by_contra hg
        have hg : (g.1 == e.1) = true := by simpa using hg
        rw [htrans _ _ _ he hg ((hcomm _ _).trans hf)] at hfg
        cases hfg
      · obtain ⟨f, hf, hef⟩ := List.any_eq_true.mp hany
        exact ⟨_, List.mem_map_of_mem hf, (hcomm _ _).trans hef⟩
    · next hnone =>
      have hnew : ∀ f ∈ kept, (e.1 == f.1) = false := by simpa using hnone
      rw [put_of_new, List.map_append]
      · congr 1
        · refine List.map_congr_left fun f hf => ?_
          rw [latest_concat, if_neg (by simp [hnew f hf])]
        · have hlatest : (latest e.1 (es ++ [e])).getD e.2 = e.2 := by
            rw [latest_concat]
            split
            · rfl
            · next hself =>
              -- a key that differs from itself differs from all others
              rw [latest_eq_none fun f hf => ?_]
              · rfl
              · by_contra hfe
                have hfe : (f.1 == e.1) = true := by simpa using hfe
                exact hself (htrans _ _ _ (hes f hf) ((hcomm _ _).trans hfe) hfe)
          rw [List.map_singleton, hlatest]
      · intro f hf
        obtain ⟨g, hg, rfl⟩ := List.mem_map.mp hf
        exact (hcomm _ _).trans (hnew g hg)

end Table

end RecordText
