/-
Composing and compiling plans.

A plan is composed part by part and then checked as a whole, and it is compiled entry by entry.
This file says what comes out without the steps in between:

* `Entry.ofPart` — the entry that a part gets, and `Plan.renderer` — the renderer of a plan;
* `compose_eq_ok_iff` — a plan is composed exactly when every part has support and no name stands
  twice, and then its entries are those of the parts, in their order;
* `compose_eq_error_iff` — otherwise the first part without support decides, and only when there is
  none the names that stand twice do;
* `compile_of_compose` — a composed plan always compiles;
* `composes` — **all of it together: when a plan is composed, what it consists of, and how it fails
  otherwise.**
-/
import RecordText.Proofs.FirstOccurrences
import RecordText.Proofs.Outcome
import Mathlib.Data.List.Nodup
import Mathlib.Data.String.Basic

namespace RecordText

/-! ### Strategies of parts -/

theorem strategyOfBare_ne_verbatim (H : Hierarchy) (t : Ty) : H.strategyOfBare t ≠ .verbatim := by
  unfold Hierarchy.strategyOfBare
  split_ifs <;> simp

/-- No declared type has the verbatim strategy. -/
theorem strategy_ne_verbatim (H : Hierarchy) (t : Ty) : H.strategy t ≠ .verbatim :=
  strategyOfBare_ne_verbatim H _

/-- The strategy of a part: parts with a substitute are written as they are. -/
def Part.strategy (H : Hierarchy) : Part → Strategy
  | .base m => H.strategy m.declared
  | .substituted _ _ _ => .verbatim

/-- The entry of a part. -/
def Entry.ofPart (H : Hierarchy) (p : Part) : Entry := ⟨p.name, p, p.strategy H⟩

@[simp] theorem Entry.ofPart_label (H : Hierarchy) (p : Part) :
    (Entry.ofPart H p).label = p.name := rfl

@[simp] theorem Entry.ofPart_part (H : Hierarchy) (p : Part) : (Entry.ofPart H p).part = p := rfl

@[simp] theorem Entry.ofPart_strategy (H : Hierarchy) (p : Part) :
    (Entry.ofPart H p).strategy = p.strategy H := rfl

namespace Plan

variable {H : Hierarchy} {target : String} {settings : Settings} {parts : List Part}

theorem supported_eq (H : Hierarchy) (t : Ty) (member target : String) :
    supported H t member target = if H.strategy t = .unsupported
      then .error (.unsupported member target t) else .ok (H.strategy t) := by
  unfold supported
  cases H.strategy t <;> rfl

theorem entryOf_eq (H : Hierarchy) (target : String) (p : Part) :
    entryOf H target p = if p.strategy H = .unsupported
      then .error (.unsupported p.name target p.declared) else .ok (Entry.ofPart H p) := by
  cases p with
  | substituted m f t => rfl
  | base m =>
    rw [entryOf, supported_eq, Part.strategy]
    split_ifs <;> rfl

theorem entryOf_eq_ok_iff {p : Part} {e : Entry} :
    entryOf H target p = .ok e ↔ p.strategy H ≠ .unsupported ∧ e = Entry.ofPart H p := by
  rw [entryOf_eq]
  by_cases h : p.strategy H = .unsupported
  · simp [h]
  · simp [h, eq_comm]

theorem entryOf_eq_error_iff {p : Part} {r : Rejection} :
    entryOf H target p = .error r ↔
      p.strategy H = .unsupported ∧ r = .unsupported p.name target p.declared := by
  rw [entryOf_eq]
  by_cases h : p.strategy H = .unsupported
  · simp [h, eq_comm]
  · simp [h]

theorem mapM_entryOf_eq_ok_iff {es : List Entry} :
    parts.mapM (entryOf H target) = .ok es ↔
      (∀ p ∈ parts, p.strategy H ≠ .unsupported) ∧ es = parts.map (Entry.ofPart H) :=
  mapM_eq_ok_iff_map fun _ _ => entryOf_eq_ok_iff

/-! ### Labels that stand twice -/

theorem mem_duplicates {labels : List String} {l : String} :
    l ∈ duplicates labels ↔ 1 < labels.count l := by
  simp only [duplicates, List.mem_mergeSort, List.mem_eraseDups, List.mem_filter,
    decide_eq_true_eq, and_iff_right_iff_imp]
  -- a label that stands twice is one of the labels
  intro h
  exact List.count_pos_iff.mp (by omega)

theorem duplicates_eq_nil_iff {labels : List String} : duplicates labels = [] ↔ labels.Nodup := by
  rw [List.eq_nil_iff_forall_not_mem, List.nodup_iff_count_le_one]
  simp only [mem_duplicates, Nat.not_lt]

/-- The labels that stand twice are sorted, each one once. -/
theorem pairwise_duplicates (labels : List String) : (duplicates labels).Pairwise (· < ·) := by
  have hsorted : (duplicates labels).Pairwise fun l m => textLe l m = true := by
    refine List.pairwise_mergeSort (fun l m n hlm hmn => ?_) (fun l m => ?_) _
    · exact decide_eq_true (String.le_trans (of_decide_eq_true hlm) (of_decide_eq_true hmn))
    · simpa [textLe] using String.le_total l m
  have hdistinct : (duplicates labels).Pairwise fun l m => m ≠ l := by
    refine (List.mergeSort_perm _ _).symm.pairwise ?_ fun h => Ne.symm h
    exact (pairwise_eraseDupsBy _).imp fun h => by simpa using h
  exact (hsorted.and hdistinct).imp fun h => lt_of_le_of_ne (of_decide_eq_true h.1) h.2.symm

theorem ofEntries_eq (target : String) (es : List Entry) (settings : Settings) :
    ofEntries target es settings = if (es.map Entry.label).Nodup then .ok ⟨target, es, settings⟩
      else .error (.invalid [.duplicateLabels (duplicates (es.map Entry.label))]) := by
  unfold ofEntries
  split
  · next h => rw [if_pos (duplicates_eq_nil_iff.mp h)]; rfl
  · next h => rw [if_neg (fun hn => h (duplicates_eq_nil_iff.mpr hn))]; rfl

/-! ### Composition -/

theorem labels_ofPart (H : Hierarchy) (parts : List Part) :
    (parts.map (Entry.ofPart H)).map Entry.label = parts.map Part.name := by
  rw [List.map_map]
  rfl

theorem compose_eq_ok_iff {p : Plan} :
    compose H parts target settings = .ok p ↔
      (∀ x ∈ parts, x.strategy H ≠ .unsupported) ∧ (parts.map Part.name).Nodup ∧
        p = ⟨target, parts.map (Entry.ofPart H), settings⟩ := by
  simp only [compose, bind_eq_ok_iff, rejecting_eq_ok_iff, mapM_entryOf_eq_ok_iff, ofEntries_eq]
  constructor
  · rintro ⟨es, ⟨hs, rfl⟩, h⟩
    rw [labels_ofPart] at h
    split_ifs at h with hn
    exact ⟨hs, hn, (Except.ok.inj h).symm⟩
  · rintro ⟨hs, hn, rfl⟩
    refine ⟨_, ⟨hs, rfl⟩, ?_⟩
    rw [labels_ofPart, if_pos hn]

theorem compose_eq_error_iff {f : Failure} :
    compose H parts target settings = .error f ↔
      (∃ x, First (fun x => x.strategy H = .unsupported) parts x ∧
        f = .rejected (.unsupported x.name target x.declared)) ∨
      (∀ x ∈ parts, x.strategy H ≠ .unsupported) ∧ ¬(parts.map Part.name).Nodup ∧
        f = .invalid [.duplicateLabels (duplicates (parts.map Part.name))] := by
  simp only [compose, bind_eq_error_iff, rejecting_eq_error_iff, rejecting_eq_ok_iff,
    mapM_entryOf_eq_ok_iff, mapM_eq_error_iff, entryOf_eq_error_iff, ofEntries_eq]
  refine or_congr ?_ ?_
  -- every part without support has a refusal, so the refusal says nothing about which is first
  · have hfirst : ∀ x, First (fun x => ∃ r, x.strategy H = .unsupported ∧
        r = Rejection.unsupported x.name target x.declared) parts x ↔
          First (fun x => x.strategy H = .unsupported) parts x :=
      fun x => First.congr fun y _ => by simp
    simp only [hfirst]
    constructor
    · rintro ⟨r, ⟨x, hx, -, rfl⟩, rfl⟩
      exact ⟨x, hx, rfl⟩
    · rintro ⟨x, hx, rfl⟩
      exact ⟨_, ⟨x, hx, hx.holds, rfl⟩, rfl⟩
  · constructor
    · rintro ⟨es, ⟨hs, rfl⟩, h⟩
      rw [labels_ofPart] at h
      split_ifs at h with hn
      exact ⟨hs, hn, (Except.error.inj h).symm⟩
    · rintro ⟨hs, hn, rfl⟩
      refine ⟨_, ⟨hs, rfl⟩, ?_⟩
      rw [labels_ofPart, if_neg hn]

/-! ### Compilation -/

/-- The writer of an entry whose strategy has one. -/
def writerOf (e : Entry) : Writer :=
  ⟨e.strategy, e.strategy = .primitive && Writer.allowsAbsent e.part.declared⟩

/-- The step of an entry after a token. -/
def stepFor (settings : Settings) (token : String) (e : Entry) : Step :=
  ⟨token ++ e.label ++ settings.assignment, e.part, writerOf e⟩

/-- The steps of entries: the first one writes `token`, the others write the separator. -/
def stepsFor (settings : Settings) (token : String) : List Entry → List Step
  | [] => []
  | e :: es => stepFor settings token e :: stepsFor settings settings.separator es

/-- The renderer of a plan. -/
def renderer (p : Plan) : Renderer :=
  match p.entries with
  | [] => .constant p.settings.empty
  | es => .steps (stepsFor p.settings p.settings.opening es) p.settings.closing

theorem ofStrategy_eq {e : Entry} (h : e.strategy ≠ .unsupported) :
    Writer.ofStrategy e.strategy e.part.declared = .ok (writerOf e) := by
  unfold Writer.ofStrategy writerOf
  cases hs : e.strategy with
  | unsupported => exact absurd hs h
  | primitive => simp
  | char => rfl
  | string => rfl
  | object => rfl
  | verbatim => rfl

theorem stepsOf_eq (settings : Settings) (token : String) {es : List Entry}
    (h : ∀ e ∈ es, e.strategy ≠ .unsupported) :
    stepsOf settings token es = .ok (stepsFor settings token es) := by
  induction es generalizing token with
  | nil => rfl
  | cons e es ih =>
    -- only the token differs between the first step and the others
    have he : stepOf settings token e = .ok (stepFor settings token e) := by
      rw [stepOf, ofStrategy_eq (h e (by simp))]
      rfl
    rw [stepsOf, he, ih _ fun x hx => h x (by simp [hx])]
    rfl

theorem compile_eq {p : Plan} (h : ∀ e ∈ p.entries, e.strategy ≠ .unsupported) :
    p.compile = .ok p.renderer := by
  obtain ⟨target, es, settings⟩ := p
  cases es with
  | nil => rfl
  | cons e es =>
    have hs := stepsOf_eq settings settings.opening h
    show (stepsOf settings settings.opening (e :: es) >>= fun ss =>
      .ok (Renderer.steps ss settings.closing)) = _
    rw [hs]
    rfl

theorem compile_of_compose {p : Plan} (hp : compose H parts target settings = .ok p) :
    p.compile = .ok p.renderer := by
  obtain ⟨hs, -, rfl⟩ := compose_eq_ok_iff.mp hp
  refine compile_eq fun e he => ?_
  obtain ⟨x, hx, rfl⟩ := List.mem_map.mp he
  exact hs x hx

/-- Compiling a composed plan never stops what follows. -/
theorem compose_compile {α : Type} (g : Plan → Renderer → Except Failure α) :
    (compose H parts target settings >>= fun p => rejecting p.compile >>= g p) =
      compose H parts target settings >>= fun p => g p p.renderer := by
  cases h : compose H parts target settings with
  | error f => rfl
  | ok p =>
    rw [ok_bind, ok_bind, compile_of_compose h]
    rfl

/-! ### All of it together -/

/-- Only a member without substitute can lack support. -/
theorem strategy_eq_unsupported_iff {x : Part} :
    x.strategy H = .unsupported ↔ ∃ m, x = .base m ∧ H.strategy m.declared = .unsupported := by
  cases x <;> simp [Part.strategy]

/-- Exactly the parts with a substitute are written as they are. -/
theorem strategy_eq_verbatim_iff {x : Part} :
    x.strategy H = .verbatim ↔ ∃ m f t, x = .substituted m f t := by
  cases x with
  | base m => simpa [Part.strategy] using strategy_ne_verbatim H m.declared
  | substituted m f t => simp [Part.strategy]

/-- The entry that a plan has for a part. -/
structure EntryFor (x : Part) (e : Entry) : Prop where
  label : e.label = x.name
  part : e.part = x
  /-- The strategy is the verbatim one exactly for a part with a substitute. -/
  verbatim_iff : e.strategy = .verbatim ↔ ∃ m f t, x = .substituted m f t
  supported : e.strategy ≠ .unsupported

/-- What comes of composing parts. -/
structure Composes (H : Hierarchy) (parts : List Part) (target : String) (settings : Settings) :
    Prop where
  /-- A plan is composed exactly when every member without substitute has support and no name stands
  twice. -/
  succeeds_iff : (∃ p, compose H parts target settings = .ok p) ↔
    (∀ m, .base m ∈ parts → H.strategy m.declared ≠ .unsupported) ∧ (parts.map Part.name).Nodup
  /-- It has one entry for each part, in their order. -/
  entries : ∀ p, compose H parts target settings = .ok p →
    p.target = target ∧ p.settings = settings ∧ List.Forall₂ EntryFor parts p.entries
  /-- Compiling it fails in no way. -/
  compiles : ∀ p, compose H parts target settings = .ok p → ∃ r, p.compile = .ok r
  /-- Where some member lacks support, the first one is refused with its declared type, whatever
  the names are. -/
  refused : (∃ m, .base m ∈ parts ∧ H.strategy m.declared = .unsupported) →
    ∃ m, First (fun x => ∃ k, x = .base k ∧ H.strategy k.declared = .unsupported) parts (.base m) ∧
      ∃ r : Rejection, compose H parts target settings = .error (.rejected r) ∧
        r.kind = .unsupported ∧ r.refused? = some m.declared
  /-- Where all members have support, the names that stand twice are reported, in order and without
  repetition. -/
  duplicated : (∀ m, .base m ∈ parts → H.strategy m.declared ≠ .unsupported) →
    ¬(parts.map Part.name).Nodup → ∃ ds,
      compose H parts target settings = .error (.invalid [.duplicateLabels ds]) ∧
        ds.Pairwise (· < ·) ∧ ∀ l, l ∈ ds ↔ 2 ≤ (parts.map Part.name).count l

theorem supported_iff : (∀ x ∈ parts, x.strategy H ≠ .unsupported) ↔
    ∀ m, .base m ∈ parts → H.strategy m.declared ≠ .unsupported := by
  constructor
  · exact fun h m hm => h _ hm
  · intro h x hx hs
    obtain ⟨m, rfl, hm⟩ := strategy_eq_unsupported_iff.mp hs
    exact h m hx hm

theorem forall₂_entryFor (h : ∀ x ∈ parts, x.strategy H ≠ .unsupported) :
    List.Forall₂ EntryFor parts (parts.map (Entry.ofPart H)) := by
  rw [List.forall₂_map_right_iff, List.forall₂_same]
  exact fun x hx => ⟨rfl, rfl, strategy_eq_verbatim_iff, h x hx⟩

/-- **When a plan is composed, what it consists of, and how it fails otherwise.** -/
theorem composes (H : Hierarchy) (parts : List Part) (target : String) (settings : Settings) :
    Composes H parts target settings := by
  refine ⟨?_, fun p hp => ?_, fun p hp => ⟨_, compile_of_compose hp⟩,
    fun ⟨m, hm, hs⟩ => ?_, fun hs hn => ?_⟩
  · simp only [compose_eq_ok_iff, supported_iff, ← and_assoc, exists_and_left, exists_eq, and_true]
  · obtain ⟨hs, -, rfl⟩ := compose_eq_ok_iff.mp hp
    exact ⟨rfl, rfl, forall₂_entryFor hs⟩
  · have hsome : ∃ x, First (fun x => x.strategy H = .unsupported) parts x :=
      First.exists_iff.mpr ⟨.base m, hm, hs⟩
    obtain ⟨x, hx⟩ := hsome
    obtain ⟨k, rfl, -⟩ := strategy_eq_unsupported_iff.mp hx.holds
    exact ⟨k, (First.congr fun x _ => strategy_eq_unsupported_iff).mp hx, _,
      compose_eq_error_iff.mpr (.inl ⟨_, hx, rfl⟩), rfl, rfl⟩
  · exact ⟨_, compose_eq_error_iff.mpr (.inr ⟨supported_iff.mpr hs, hn, rfl⟩),
      pairwise_duplicates _, fun l => mem_duplicates⟩

end Plan

end RecordText
