/-
Places in a lineage.

A lineage is walked from its end to the class itself, and what a class brings is taken in its own
order (`Layer.walk`).  So every entry stands at a place: its class, counted from the end of the
lineage, and its position there.  Some entries of a walk add their name to those that are collected
and others take it away (`retain`).  What has been collected in the end is known by the runs of
names, the latest entries of a name as long as all of them add it (`Located.run`):

* `mem_retained_iff` — **a name is collected exactly when it has a run**;
* `pairwise_retained` — **and the names stand in the order of the places where their runs start**;
* `lt_iff_precedes` — the order of a list, said by places alone.
-/
import RecordText.Class.Defined
import RecordText.Proofs.Hints
import Mathlib.Data.List.DropRight
import Mathlib.Data.Prod.Lex

namespace RecordText

/-- A place in a lineage: a class, counted from the end, and a position in what it brings. -/
abbrev Place := ℕ ×ₗ ℕ

/-- What stands under a name at a place. -/
structure Located (α : Type) where
  place : Place
  name : String
  content : α

/-- The place of the one name comes before the place of the other one. -/
def Precedes (place? : String → Option Place) (n m : String) : Prop :=
  ∃ s t, place? n = some s ∧ place? m = some t ∧ s < t

namespace Precedes

variable {place? : String → Option Place} {n m : String}

theorem irrefl (n : String) : ¬Precedes place? n n := by
  rintro ⟨s, t, hs, ht, hlt⟩
  obtain rfl := Option.some.inj (hs.symm.trans ht)
  exact lt_irrefl s hlt

theorem asymm (h : Precedes place? n m) : ¬Precedes place? m n := by
  obtain ⟨s, t, hs, ht, hlt⟩ := h
  rintro ⟨t', s', ht', hs', hlt'⟩
  obtain rfl := Option.some.inj (hs.symm.trans hs')
  obtain rfl := Option.some.inj (ht.symm.trans ht')
  exact lt_asymm hlt hlt'

end Precedes

/-- Where names stand in the order of their places, the places tell which comes first. -/
theorem lt_iff_precedes {α : Type} {name : α → String} {place? : String → Option Place}
    {xs : List α} (h : (xs.map name).Pairwise (Precedes place?)) {i j : ℕ} (hi : i < xs.length)
    (hj : j < xs.length) : i < j ↔ Precedes place? (name xs[i]) (name xs[j]) := by
  rw [List.pairwise_map, List.pairwise_iff_getElem] at h
  refine ⟨h i j hi hj, fun hp => ?_⟩
  rcases Nat.lt_trichotomy i j with hlt | rfl | hlt
  · exact hlt
  · exact absurd hp (Precedes.irrefl _)
  · exact absurd hp (h j i hj hi hlt).asymm

/-! ### Walks -/

namespace Located

variable {α : Type}

/-- The entry without its place. -/
def entry (d : Located α) : String × α := (d.name, d.content)

/-- What one class brings, where `i` classes have been walked before. -/
def ofEntries (i : ℕ) (es : List (String × α)) : List (Located α) :=
  es.zipIdx.map fun e => ⟨toLex (i, e.2), e.1.1, e.1.2⟩

theorem map_entry_ofEntries (i : ℕ) (es : List (String × α)) :
    (ofEntries i es).map entry = es := by
  rw [ofEntries, List.map_map]
  exact List.zipIdx_map_fst 0 es

theorem ofEntries_concat (i : ℕ) (es : List (String × α)) (e : String × α) :
    ofEntries i (es ++ [e]) = ofEntries i es ++ [⟨toLex (i, es.length), e.1, e.2⟩] := by
  rw [ofEntries, List.zipIdx_append, List.map_append, Nat.zero_add]
  rfl

theorem class_of_mem_ofEntries {i : ℕ} {es : List (String × α)} {d : Located α}
    (h : d ∈ ofEntries i es) : (ofLex d.place).1 = i := by
  obtain ⟨e, -, rfl⟩ := List.mem_map.mp h
  rfl

theorem pairwise_ofEntries (i : ℕ) (es : List (String × α)) :
    (ofEntries i es).Pairwise fun d e => d.place < e.place := by
  rw [ofEntries, List.pairwise_map]
  have hpositions : (es.zipIdx.map Prod.snd).Pairwise (· < ·) := by
    rw [List.zipIdx_map_snd]
    exact List.pairwise_lt_range'
  refine (List.pairwise_map.mp hpositions).imp fun {d e} hlt => ?_
  exact Prod.Lex.toLex_lt_toLex.mpr (.inr ⟨rfl, hlt⟩)

end Located

namespace Layer

variable {α : Type} (brings : Layer → List (String × α))

/-- What the classes of a lineage bring, from the end of the lineage to the class itself. -/
def walk : List Layer → List (Located α)
  | [] => []
  | l :: ls => walk ls ++ Located.ofEntries ls.length (brings l)

theorem map_entry_walk (layers : List Layer) :
    (walk brings layers).map Located.entry = layers.reverse.flatMap brings := by
  induction layers with
  | nil => rfl
  | cons l ls ih =>
    rw [walk, List.map_append, ih, Located.map_entry_ofEntries, List.reverse_cons,
      List.flatMap_append, List.flatMap_singleton]

theorem class_lt_of_mem_walk {layers : List Layer} {d : Located α}
    (h : d ∈ walk brings layers) : (ofLex d.place).1 < layers.length := by
  induction layers with
  | nil => exact absurd h List.not_mem_nil
  | cons l ls ih =>
    rw [List.length_cons]
    rcases List.mem_append.mp h with h | h
    · exact Nat.lt_succ_of_lt (ih h)
    · rw [Located.class_of_mem_ofEntries h]
      exact Nat.lt_succ_self _

/-- The places of a walk increase. -/
theorem pairwise_walk (layers : List Layer) :
    (walk brings layers).Pairwise fun d e => d.place < e.place := by
  induction layers with
  | nil => exact List.Pairwise.nil
  | cons l ls ih =>
    refine List.pairwise_append.mpr ⟨ih, Located.pairwise_ofEntries _ _, fun d hd e he => ?_⟩
    refine Prod.Lex.lt_iff.mpr (.inl ?_)
    rw [Located.class_of_mem_ofEntries he]
    exact class_lt_of_mem_walk brings hd

end Layer

/-! ### Runs -/

section

variable {α : Type} (keep : α → Bool)

/-- A name is added by an entry that is kept, unless it is there already, and taken away by any
other entry. -/
def retain (ns : List String) (e : String × α) : List String :=
  if keep e.2 then Scope.addKey ns e.1 else ns.filter fun n => !(n == e.1)

namespace Located

/-- The run of a name: its latest entries, as long as they are kept. -/
def run (ds : List (Located α)) (n : String) : List (Located α) :=
  (ds.filter fun d => d.name == n).rtakeWhile fun d => keep d.content

/-- Where the run of a name starts. -/
def runStart? (ds : List (Located α)) (n : String) : Option Place :=
  (run keep ds n).head?.map place

theorem run_concat (ds : List (Located α)) (d : Located α) (n : String) :
    run keep (ds ++ [d]) n =
      if d.name = n then if keep d.content then run keep ds n ++ [d] else [] else
        run keep ds n := by
  unfold run
  rw [List.filter_append]
  by_cases hn : d.name = n
  · rw [if_pos hn, List.filter_cons_of_pos (by simpa using hn), List.filter_nil,
      List.rtakeWhile_concat]
  · rw [if_neg hn, List.filter_cons_of_neg (by simpa using hn), List.filter_nil, List.append_nil]

/-- An entry that is kept starts a run where there is none and continues it otherwise; any other
entry ends it. -/
theorem runStart?_concat (ds : List (Located α)) (d : Located α) (n : String) :
    runStart? keep (ds ++ [d]) n =
      if d.name = n then if keep d.content then (runStart? keep ds n).or (some d.place) else none
        else runStart? keep ds n := by
  unfold runStart?
  rw [run_concat]
  split_ifs
  · rw [List.head?_append]
    cases (run keep ds n).head? <;> rfl
  · rfl
  · rfl

section

variable {keep} {ds : List (Located α)} {d : Located α} {n : String} {s : Place}

/-- An entry of another name changes nothing. -/
theorem runStart?_concat_of_ne (h : d.name ≠ n) :
    runStart? keep (ds ++ [d]) n = runStart? keep ds n := by
  rw [runStart?_concat, if_neg h]

/-- A run that goes on starts where it did. -/
theorem runStart?_concat_of_some (hk : keep d.content = true) (h : runStart? keep ds n = some s) :
    runStart? keep (ds ++ [d]) n = some s := by
  rw [runStart?_concat, if_pos hk, h, Option.some_or, ite_self]

theorem runStart?_concat_of_none (hk : keep d.content = true)
    (h : runStart? keep ds d.name = none) :
    runStart? keep (ds ++ [d]) d.name = some d.place := by
  rw [runStart?_concat, if_pos rfl, if_pos hk, h, Option.none_or]

end

/-- A run starts at one of the entries. -/
theorem exists_of_runStart? {ds : List (Located α)} {n : String} {s : Place}
    (h : runStart? keep ds n = some s) : ∃ d ∈ ds, d.place = s := by
  obtain ⟨d, hd, rfl⟩ := Option.map_eq_some_iff.mp h
  have hrun : d ∈ run keep ds n := List.mem_of_head? hd
  have hfilter := (List.rtakeWhile_suffix _ _).subset hrun
  exact ⟨d, (List.mem_filter.mp hfilter).1, rfl⟩

/-- Where every entry is kept, a run starts at the first entry of the name. -/
theorem runStart?_of_all (ds : List (Located α)) (n : String) :
    runStart? (fun _ => true) ds n = (ds.find? fun d => d.name == n).map place := by
  have hall : ∀ l : List (Located α), l.rtakeWhile (fun _ => true) = l :=
    fun l => List.rtakeWhile_eq_self_iff.mpr fun _ _ => rfl
  rw [runStart?, run, hall, List.head?_filter]

/-- What one more class makes of a run, where it brings every name at most once. -/
theorem runStart?_append_ofEntries (ds : List (Located α)) (i : ℕ) {es : List (String × α)}
    (h : (es.map Prod.fst).Nodup) (n : String) :
    runStart? keep (ds ++ ofEntries i es) n =
      match es.lookup n with
      | none => runStart? keep ds n
      | some a =>
        if keep a then (runStart? keep ds n).or (some (toLex (i, (es.map Prod.fst).idxOf n)))
        else none := by
  induction es using List.reverseRecOn with
  | nil => rw [ofEntries, List.zipIdx_nil, List.map_nil, List.append_nil, List.lookup_nil]
  | append_singleton es e ih =>
    obtain ⟨m, a⟩ := e
    rw [List.map_append, List.map_singleton] at h ⊢
    obtain ⟨hes, -, hm⟩ := List.nodup_append'.mp h
    replace hm : m ∉ es.map Prod.fst := fun hmem => hm hmem (List.mem_singleton_self m)
    rw [ofEntries_concat, ← List.append_assoc, runStart?_concat, ih hes, List.lookup_append,
      Table.lookup_cons, List.lookup_nil]
    by_cases hn : m = n
    · subst hn
      rw [Table.lookup_eq_none_iff.mpr hm, if_pos rfl, if_pos rfl,
        List.idxOf_append_of_notMem hm, List.idxOf_cons_self, Nat.add_zero, List.length_map]
      rfl
    · rw [if_neg hn, if_neg fun h => hn h.symm, Option.or_none]
      cases hlookup : es.lookup n with
      | none => rfl
      | some b =>
        have hmem : n ∈ es.map Prod.fst := by
          by_contra hnot
          rw [Table.lookup_eq_none_iff.mpr hnot] at hlookup
          cases hlookup
        rw [List.idxOf_append_of_mem hmem]

end Located

/-! ### What is collected -/

/-- The names that are collected on a walk. -/
def retained (ds : List (Located α)) : List String :=
  (ds.map Located.entry).foldl (retain keep) []

theorem retained_concat (ds : List (Located α)) (d : Located α) :
    retained keep (ds ++ [d]) =
      if keep d.content then Scope.addKey (retained keep ds) d.name
        else (retained keep ds).filter fun n => !(n == d.name) := by
  rw [retained, List.map_append, List.foldl_append]
  rfl

theorem mem_retained_concat_iff {ds : List (Located α)} {d : Located α} {n : String} :
    n ∈ retained keep (ds ++ [d]) ↔
      if d.name = n then keep d.content = true else n ∈ retained keep ds := by
  rw [retained_concat, Scope.addKey]
  by_cases hn : d.name = n
  · subst hn
    rw [if_pos rfl]
    by_cases hk : keep d.content = true
    · rw [if_pos hk]
      split_ifs with hmem
      · simp [hk, hmem]
      · simp [hk]
    · simp [hk]
  · rw [if_neg hn]
    have hn' : n ≠ d.name := fun h => hn h.symm
    split_ifs <;> simp [hn']

/-- **A name is collected exactly when it has a run.** -/
theorem mem_retained_iff (ds : List (Located α)) (n : String) :
    n ∈ retained keep ds ↔ ∃ s, Located.runStart? keep ds n = some s := by
  induction ds using List.reverseRecOn with
  | nil => simp [retained, Located.runStart?, Located.run]
  | append_singleton ds d ih =>
    rw [mem_retained_concat_iff, Located.runStart?_concat]
    split_ifs with hn hk
    · cases Located.runStart? keep ds n <;> simp [hk]
    · simp [hk]
    · exact ih

section

variable {keep} {ds : List (Located α)} {d : Located α}

/-- Runs that go on leave the order as it was. -/
theorem pairwise_concat_of_keep (hk : keep d.content = true)
    (h : (retained keep ds).Pairwise (Precedes (Located.runStart? keep ds))) :
    (retained keep ds).Pairwise (Precedes (Located.runStart? keep (ds ++ [d]))) := by
  refine h.imp ?_
  rintro n m ⟨s, t, hs, ht, hlt⟩
  exact ⟨s, t, Located.runStart?_concat_of_some hk hs, Located.runStart?_concat_of_some hk ht, hlt⟩

/-- A new run starts behind all others. -/
theorem precedes_new (hk : keep d.content = true) (hlast : ∀ e ∈ ds, e.place < d.place)
    (hnew : d.name ∉ retained keep ds) :
    ∀ n ∈ retained keep ds, Precedes (Located.runStart? keep (ds ++ [d])) n d.name := by
  intro n hn
  obtain ⟨s, hs⟩ := (mem_retained_iff keep ds n).mp hn
  obtain ⟨e, he, rfl⟩ := Located.exists_of_runStart? keep hs
  have hnone : Located.runStart? keep ds d.name = none := by
    by_contra hsome
    exact hnew ((mem_retained_iff keep ds _).mpr (Option.ne_none_iff_exists'.mp hsome))
  exact ⟨e.place, d.place, Located.runStart?_concat_of_some hk hs,
    Located.runStart?_concat_of_none hk hnone, hlast e he⟩

/-- A run that ends leaves the order of the others as it was. -/
theorem pairwise_concat_filter
    (h : (retained keep ds).Pairwise (Precedes (Located.runStart? keep ds))) :
    ((retained keep ds).filter fun n => !(n == d.name)).Pairwise
      (Precedes (Located.runStart? keep (ds ++ [d]))) := by
  have hother : ∀ n ∈ (retained keep ds).filter (fun n => !(n == d.name)), d.name ≠ n := by
    rintro n hn rfl
    simpa using (List.mem_filter.mp hn).2
  refine (h.filter _).imp_of_mem fun {n m} hn hm hp => ?_
  obtain ⟨s, t, hs, ht, hlt⟩ := hp
  exact ⟨s, t, (Located.runStart?_concat_of_ne (hother n hn)).trans hs,
    (Located.runStart?_concat_of_ne (hother m hm)).trans ht, hlt⟩

end

/-- **The names that are collected stand in the order in which their runs start.** -/
theorem pairwise_retained {ds : List (Located α)}
    (h : ds.Pairwise fun d e => d.place < e.place) :
    (retained keep ds).Pairwise (Precedes (Located.runStart? keep ds)) := by
  induction ds using List.reverseRecOn with
  | nil => exact List.Pairwise.nil
  | append_singleton ds d ih =>
    obtain ⟨hds, -, hlast⟩ := List.pairwise_append.mp h
    have hlast : ∀ e ∈ ds, e.place < d.place := fun e he => hlast e he d List.mem_cons_self
    rw [retained_concat]
    by_cases hk : keep d.content = true
    · rw [if_pos hk, Scope.addKey]
      by_cases hmem : d.name ∈ retained keep ds
      · rw [if_pos hmem]
        exact pairwise_concat_of_keep hk (ih hds)
      · rw [if_neg hmem]
        refine List.pairwise_append.mpr ⟨pairwise_concat_of_keep hk (ih hds),
          List.pairwise_singleton _ _, fun n hn m hm => ?_⟩
        obtain rfl := List.mem_singleton.mp hm
        exact precedes_new hk hlast hmem n hn
    · rw [if_neg hk]
      exact pairwise_concat_filter (ih hds)

end

end RecordText
