/-
Quoted fragments can be read back.

A quoted fragment ends at the first quote that no backslash escapes, so whatever follows it is left
untouched, quotes and backslashes included:

* `escapeTwice_eq` — escaping backslashes first and quotes second is the same as escaping both in
  one pass;
* `unquote_quoted` — **`unquote` gives back the text and the rest.**
-/
import RecordText.Text.Quoted

namespace RecordText.Text

variable {q : Char}

/-! ### One pass and two passes -/

theorem escape_cons (q c : Char) (s : List Char) :
    escape q (c :: s) = (if c = q ∨ c = backslash then [backslash, c] else [c]) ++ escape q s :=
  rfl

theorem escapeTwice_cons (q c : Char) (s : List Char) :
    escapeTwice q (c :: s) =
      replaceEach q [backslash, q] (if c = backslash then [backslash, backslash] else [c]) ++
        escapeTwice q s := by
  simp only [escapeTwice, replaceEach, List.flatMap_cons, List.flatMap_append]

/-- The quotes that the second pass escapes are those of the text: the first pass writes none. -/
theorem escapeTwice_eq (hq : q ≠ backslash) (s : List Char) : escapeTwice q s = escape q s := by
  induction s with
  | nil => rfl
  | cons c s ih =>
    rw [escapeTwice_cons, escape_cons, ih]
    by_cases hc : c = backslash
    · simp [hc, replaceEach, Ne.symm hq]
    · by_cases hcq : c = q
      · simp [hcq, hq, replaceEach]
      · simp [hc, hcq, replaceEach]

theorem quotedTwice_eq (hq : q ≠ backslash) (s : String) : quotedTwice q s = quoted q s := by
  rw [quotedTwice, quoted, escapeTwice_eq hq]

/-! ### Reading back -/

theorem unquoteBody_escaped (q c : Char) (r : List Char) :
    unquoteBody q (backslash :: c :: r) =
      (unquoteBody q r).map fun p => (c :: p.1, p.2) := by
  rw [unquoteBody, if_pos rfl]

theorem unquoteBody_plain {c : Char} (hb : c ≠ backslash) (hq : c ≠ q) (r : List Char) :
    unquoteBody q (c :: r) = (unquoteBody q r).map fun p => (c :: p.1, p.2) := by
  rw [unquoteBody.eq_def]
  exact (if_neg hb).trans (if_neg hq)

theorem unquoteBody_escape (hq : q ≠ backslash) (s r : List Char) :
    unquoteBody q (escape q s ++ q :: r) = some (s, r) := by
  induction s with
  | nil =>
    rw [unquoteBody.eq_def]
    exact (if_neg hq).trans (if_pos rfl)
  | cons c s ih =>
    rw [escape_cons]
    by_cases hc : c = q ∨ c = backslash
    · rw [if_pos hc]
      show unquoteBody q (backslash :: c :: (escape q s ++ q :: r)) = _
      rw [unquoteBody_escaped, ih]
      rfl
    · obtain ⟨hcq, hcb⟩ := not_or.mp hc
      rw [if_neg hc]
      show unquoteBody q (c :: (escape q s ++ q :: r)) = _
      rw [unquoteBody_plain hcb hcq, ih]
      rfl

/-- **A quoted text is read back, and what follows it is left.** -/
theorem unquote_quoted (hq : q ≠ backslash) (s : String) (r : List Char) :
    unquote q ((quoted q s).toList ++ r) = some (s.toList, r) := by
  have h : (quoted q s).toList ++ r = q :: (escape q s.toList ++ q :: r) := by
    rw [quoted, String.toList_ofList]
    simp
  rw [h, unquote, if_pos rfl, unquoteBody_escape hq]

/-- Without an opening quote there is nothing to read. -/
theorem unquote_of_ne {c : Char} (h : c ≠ q) (r : List Char) : unquote q (c :: r) = none := by
  rw [unquote, if_neg h]

end RecordText.Text
