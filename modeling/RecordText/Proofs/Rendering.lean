/-
A compiled renderer writes the plain form of a record.

The plain form is said entry by entry: `Entry.fragment` reads the member and writes its value by
the strategy of the entry, or writes what the substitute makes of the value.  With all fragments
there, `Plan.written` puts labels, tokens and fragments together.  A renderer works differently: its
tokens and labels are fused into leads, its first position is special, and it checks for missing
data only where the declared type asks for it.  The two agree:

* `fragment_stepFor` — step by step;
* `joined_pieces` — fused leads and fragments make the same text as the separator between members;
* `Plan.writes_of_compose` — **every composed plan compiles to a renderer of its plain form**, with
  the failure of the earliest entry that fails, and nothing read after it.
-/
import RecordText.Proofs.Composition
import RecordText.Proofs.Demands

namespace RecordText

/-! ### Fragments -/

/-- Whether a strategy leaves an empty fragment for missing data. -/
def Strategy.leavesOut (declared : Ty) : Strategy → Bool
  | .primitive => Writer.allowsAbsent declared
  | _ => true

/-- The text that a strategy makes of present data. -/
def Strategy.textOf (B : Behaviour) (v : Value) : Strategy → Except Failure String
  | .char => Fragment.ofChar B v
  | .string => Fragment.ofString B v
  | _ => B.text v

/-- The fragment of an entry for the record `x`. -/
def Entry.fragment (B : Behaviour) (x : Value) (e : Entry) : Except Failure String :=
  match e.part with
  | .base m => do
    let v ← m.read B x
    if v.isAbsent && e.strategy.leavesOut m.declared then return "" else e.strategy.textOf B v
  | .substituted m f _ => do
    let v ← m.read B x
    let w ← f.apply B v
    Part.substituteText B w

theorem write_base (B : Behaviour) (v : Value) {k : Strategy} (declared : Ty)
    (hu : k ≠ .unsupported) (hv : k ≠ .verbatim) :
    Writer.write B ⟨k, k = .primitive && Writer.allowsAbsent declared⟩ v =
      (if v.isAbsent && k.leavesOut declared then .ok "" else k.textOf B v) >>= fun t =>
        .ok (.text t) := by
  cases k with
  | unsupported => exact absurd rfl hu
  | verbatim => exact absurd rfl hv
  | primitive =>
    -- the only strategy that asks the declared type whether data may be missing
    cases h : v.isAbsent <;> cases ha : Writer.allowsAbsent declared <;>
      simp [Writer.write, Strategy.leavesOut, Strategy.textOf, Fragment.empty, h, ha]
  | char | string | object =>
    cases h : v.isAbsent <;>
      simp [Writer.write, Strategy.leavesOut, Strategy.textOf, Fragment.empty, h]

/-- A step writes the fragment of its entry. -/
theorem fragment_stepFor {H : Hierarchy} {p : Part} (hp : p.strategy H ≠ .unsupported)
    (settings : Settings) (token : String) (B : Behaviour) (x : Value) :
    (Plan.stepFor settings token (Entry.ofPart H p)).fragment B x =
      (Entry.ofPart H p).fragment B x >>= fun t => .ok (.text t) := by
  cases p with
  | base m =>
    show (m.read B x >>= fun v => Writer.write B _ v) = _
    simp only [Entry.fragment, Entry.ofPart_part]
    cases m.read B x with
    | error f => rfl
    | ok v => exact write_base B v m.declared hp (strategy_ne_verbatim H _)
  | substituted m f t =>
    -- what was read is a text already, and the verbatim writer passes it on
    show ((m.read B x >>= fun v => f.apply B v >>= fun w => Part.substituteText B w >>= fun s =>
      .ok (Value.text s)) >>= fun v => Writer.write B ⟨.verbatim, false⟩ v) = _
    simp only [Entry.fragment, Entry.ofPart_part]
    cases m.read B x with
    | error f => rfl
    | ok v =>
      simp only [ok_bind]
      cases f.apply B v with
      | error f => rfl
      | ok w =>
        simp only [ok_bind]
        cases Part.substituteText B w <;> rfl

theorem fragment_stepFor_ok {H : Hierarchy} {p : Part} (hp : p.strategy H ≠ .unsupported)
    (settings : Settings) (token : String) {B : Behaviour} {x : Value} {t : String}
    (h : (Entry.ofPart H p).fragment B x = .ok t) :
    (Plan.stepFor settings token (Entry.ofPart H p)).fragment B x = .ok (.text t) := by
  rw [fragment_stepFor hp, h, ok_bind]

theorem fragment_stepFor_error {H : Hierarchy} {p : Part} (hp : p.strategy H ≠ .unsupported)
    (settings : Settings) (token : String) {B : Behaviour} {x : Value} {f : Failure}
    (h : (Entry.ofPart H p).fragment B x = .error f) :
    (Plan.stepFor settings token (Entry.ofPart H p)).fragment B x = .error f := by
  rw [fragment_stepFor hp, h, error_bind]

/-! ### Pieces -/

namespace Plan

/-- The leads and fragments that are joined: the first lead has `token`, the others have the
separator. -/
def pieces (settings : Settings) (token : String) : List (String × String) → List String
  | [] => []
  | m :: ms =>
    (token ++ m.1 ++ settings.assignment) :: m.2 :: pieces settings settings.separator ms

theorem joined_texts (separator : String) (ss : List String) :
    Behaviour.joined separator (ss.map Value.text) = .ok (separator.intercalate ss) := by
  have h : (ss.map Value.text).mapM Behaviour.joined.textOf = .ok ss := by
    rw [mapM_eq_ok_iff, List.forall₂_map_left_iff, List.forall₂_same]
    exact fun _ _ => rfl
  rw [Behaviour.joined, h]
  rfl

theorem join_cons (s : String) (ss : List String) :
    "".intercalate (s :: ss) = s ++ "".intercalate ss := by
  cases ss with
  | nil => simp
  | cons t ss => rw [String.intercalate_cons_cons, String.append_empty]

/-- Fused leads make the same text as separators between the members. -/
theorem join_pieces (settings : Settings) (token closing : String) (m : String × String)
    (ms : List (String × String)) :
    "".intercalate (pieces settings token (m :: ms) ++ [closing]) = token ++
      settings.separator.intercalate ((m :: ms).map fun m => m.1 ++ settings.assignment ++ m.2) ++
      closing := by
  -- the second member starts with the separator, so the induction is for every token
  induction ms generalizing m token with
  | nil => simp [pieces, String.append_assoc]
  | cons m' ms ih =>
    rw [pieces, List.cons_append, List.cons_append, join_cons, join_cons, ih]
    simp only [List.map_cons, String.intercalate_cons_cons, String.append_assoc]

theorem joined_pieces (settings : Settings) {ms : List (String × String)} (h : ms ≠ []) :
    Behaviour.joined "" ((pieces settings settings.opening ms).map Value.text ++
      [.text settings.closing]) = .ok (written settings ms) := by
  obtain ⟨m, ms, rfl⟩ := List.exists_cons_of_ne_nil h
  -- the closing token is one more text behind the pieces
  rw [show [Value.text settings.closing] = [settings.closing].map Value.text from rfl,
    ← List.map_append, joined_texts, join_pieces]
  rfl

/-! ### Runs of steps -/

section

variable {H : Hierarchy} {B : Behaviour} {x : Value} {settings : Settings} {token t : String}
  {p : Part} {ps : List Part} {f : Failure}

theorem partsWith_cons_ok (hs : p.strategy H ≠ .unsupported)
    (hp : (Entry.ofPart H p).fragment B x = .ok t) :
    Renderer.partsWith B (Demand.answer B x)
        (stepsFor settings token ((p :: ps).map (Entry.ofPart H))) =
      Renderer.partsWith B (Demand.answer B x)
        (stepsFor settings settings.separator (ps.map (Entry.ofPart H))) >>= fun fs =>
          .ok (.text (token ++ p.name ++ settings.assignment) :: .text t :: fs) := by
  show ((stepFor settings token (Entry.ofPart H p)).fragment B x >>= _) = _
  rw [fragment_stepFor_ok hs settings token hp]
  rfl

theorem partsWith_cons_error (hs : p.strategy H ≠ .unsupported)
    (hp : (Entry.ofPart H p).fragment B x = .error f) :
    Renderer.partsWith B (Demand.answer B x)
      (stepsFor settings token ((p :: ps).map (Entry.ofPart H))) = .error f := by
  show ((stepFor settings token (Entry.ofPart H p)).fragment B x >>= _) = _
  rw [fragment_stepFor_error hs settings token hp, error_bind]

theorem demandsOf_cons_ok (hs : p.strategy H ≠ .unsupported)
    (hp : (Entry.ofPart H p).fragment B x = .ok t) :
    demandsOf B x (stepsFor settings token ((p :: ps).map (Entry.ofPart H))) =
      p.demands B x ++
        demandsOf B x (stepsFor settings settings.separator (ps.map (Entry.ofPart H))) := by
  show p.demands B x ++ after ((stepFor settings token (Entry.ofPart H p)).fragment B x) _ = _
  rw [fragment_stepFor_ok hs settings token hp, after_ok]

theorem demandsOf_cons_error (hs : p.strategy H ≠ .unsupported)
    (hp : (Entry.ofPart H p).fragment B x = .error f) :
    demandsOf B x (stepsFor settings token ((p :: ps).map (Entry.ofPart H))) =
      p.demands B x := by
  show p.demands B x ++ after ((stepFor settings token (Entry.ofPart H p)).fragment B x) _ = _
  rw [fragment_stepFor_error hs settings token hp, after_error, List.append_nil]

end

variable {H : Hierarchy} {B : Behaviour} {x : Value} {settings : Settings} {parts : List Part}

/-- When every entry has its fragment, the steps give leads and fragments. -/
theorem partsWith_of_fragments (hs : ∀ p ∈ parts, p.strategy H ≠ .unsupported) (token : String)
    {ts : List String}
    (h : List.Forall₂ (fun p t => (Entry.ofPart H p).fragment B x = .ok t) parts ts) :
    Renderer.partsWith B (Demand.answer B x)
        (stepsFor settings token (parts.map (Entry.ofPart H))) =
      .ok ((pieces settings token ((parts.map Part.name).zip ts)).map Value.text) := by
  induction h generalizing token with
  | nil => rfl
  | @cons p t ps ts hp _ ih =>
    rw [partsWith_cons_ok (hs p (by simp)) hp, ih fun q hq => hs q (by simp [hq])]
    rfl

/-- The failure of the first entry without a fragment ends the run. -/
theorem partsWith_of_failure {p : Part} {ps : List Part} {f : Failure}
    (hs : ∀ q ∈ parts ++ p :: ps, q.strategy H ≠ .unsupported) (token : String)
    (h : ∀ q ∈ parts, ∃ t, (Entry.ofPart H q).fragment B x = .ok t)
    (hf : (Entry.ofPart H p).fragment B x = .error f) :
    Renderer.partsWith B (Demand.answer B x)
      (stepsFor settings token ((parts ++ p :: ps).map (Entry.ofPart H))) = .error f := by
  induction parts generalizing token with
  | nil => exact partsWith_cons_error (hs p (by simp)) hf
  | cons q qs ih =>
    obtain ⟨t, ht⟩ := h q (by simp)
    rw [List.cons_append, partsWith_cons_ok (hs q (by simp)) ht,
      ih (fun r hr => hs r (by simp at hr ⊢; tauto)) _ fun r hr => h r (by simp [hr])]
    rfl

end Plan

/-! ### Members that are read -/

/-- The member that a demand reads. -/
def Demand.member? : Demand → Option Member
  | .member m => some m
  | .call _ _ => none

/-- The members that a rendering reads, in order. -/
def Renderer.membersRead (B : Behaviour) (r : Renderer) (x : Value) : List Member :=
  (r.demands B x).filterMap Demand.member?

/-- Reading a part reads its member once. -/
theorem members_demands (B : Behaviour) (x : Value) (p : Part) :
    (p.demands B x).filterMap Demand.member? = [p.member] := by
  cases p with
  | base m => rfl
  | substituted m f t =>
    rw [Part.demands]
    cases m.read B x <;> rfl

namespace Plan

variable {H : Hierarchy} {B : Behaviour} {x : Value} {settings : Settings} {parts : List Part}

theorem membersRead_of_fragments (hs : ∀ p ∈ parts, p.strategy H ≠ .unsupported)
    (token : String) (h : ∀ p ∈ parts, ∃ t, (Entry.ofPart H p).fragment B x = .ok t) :
    (demandsOf B x (stepsFor settings token (parts.map (Entry.ofPart H)))).filterMap
      Demand.member? = parts.map Part.member := by
  induction parts generalizing token with
  | nil => rfl
  | cons p ps ih =>
    obtain ⟨t, ht⟩ := h p (by simp)
    rw [demandsOf_cons_ok (hs p (by simp)) ht, List.filterMap_append, members_demands,
      ih (fun q hq => hs q (by simp [hq])) _ fun q hq => h q (by simp [hq])]
    rfl

theorem membersRead_of_failure {p : Part} {ps : List Part} {f : Failure}
    (hs : ∀ q ∈ parts ++ p :: ps, q.strategy H ≠ .unsupported) (token : String)
    (h : ∀ q ∈ parts, ∃ t, (Entry.ofPart H q).fragment B x = .ok t)
    (hf : (Entry.ofPart H p).fragment B x = .error f) :
    (demandsOf B x (stepsFor settings token ((parts ++ p :: ps).map (Entry.ofPart H)))).filterMap
      Demand.member? = (parts ++ [p]).map Part.member := by
  induction parts generalizing token with
  | nil =>
    rw [List.nil_append, demandsOf_cons_error (hs p (by simp)) hf, members_demands]
    rfl
  | cons q qs ih =>
    obtain ⟨t, ht⟩ := h q (by simp)
    rw [List.cons_append, demandsOf_cons_ok (hs q (by simp)) ht, List.filterMap_append,
      members_demands,
      ih (fun r hr => hs r (by simp at hr ⊢; tauto)) _ fun r hr => h r (by simp [hr])]
    rfl

end Plan

/-! ### Composed plans -/

/-- A renderer writes the plain form of a plan, whatever values do when they are asked. -/
structure Renderer.Writes (r : Renderer) (p : Plan) : Prop where
  /-- The earliest entry that fails decides, and no member is read after it. -/
  first_failure : ∀ (B : Behaviour) (x : Value) (es : List Entry) (e : Entry) (es' : List Entry)
    (f : Failure), p.entries = es ++ e :: es' → (∀ d ∈ es, ∃ t, d.fragment B x = .ok t) →
      e.fragment B x = .error f → r.render B x = .error f ∧
        r.membersRead B x = (es ++ [e]).map fun d => d.part.member
  /-- Fragments of all entries are joined with their labels and the tokens. -/
  all_fragments : ∀ (B : Behaviour) (x : Value) (ts : List String),
    List.Forall₂ (fun e t => e.fragment B x = .ok t) p.entries ts →
      r.render B x = .ok (Plan.written p.settings (p.labels.zip ts)) ∧
        r.membersRead B x = p.entries.map fun d => d.part.member
  /-- Without entries, there are only the outer tokens. -/
  no_entries : p.entries = [] → ∀ (B : Behaviour) (x : Value),
    r.render B x = .ok (p.settings.opening ++ p.settings.closing)

namespace Plan

theorem render_renderer (B : Behaviour) (x : Value) {p : Plan} (h : p.entries ≠ []) :
    p.renderer.render B x =
      Renderer.partsWith B (Demand.answer B x) (stepsFor p.settings p.settings.opening p.entries)
        >>= fun (vs : List Value) =>
          Fault.lift (Behaviour.joined "" (vs ++ [.text p.settings.closing])) := by
  obtain ⟨target, es, settings⟩ := p
  obtain ⟨e, es, rfl⟩ := List.exists_cons_of_ne_nil h
  rfl

theorem membersRead_renderer (B : Behaviour) (x : Value) (p : Plan) :
    p.renderer.membersRead B x =
      (demandsOf B x (stepsFor p.settings p.settings.opening p.entries)).filterMap
        Demand.member? := by
  rw [Renderer.membersRead, Renderer.demands_eq]
  obtain ⟨target, es, settings⟩ := p
  cases es <;> rfl

theorem written_nil (settings : Settings) : written settings [] = settings.empty := by
  rw [written, List.map_nil, String.intercalate_nil, String.append_empty]
  rfl

/-- **The renderer of a composed plan writes its plain form.** -/
theorem writes_of_compose {H : Hierarchy} {parts : List Part} {target : String}
    {settings : Settings} {p : Plan} (hp : compose H parts target settings = .ok p) :
    ∃ r, p.compile = .ok r ∧ r.Writes p := by
  refine ⟨p.renderer, compile_of_compose hp, ?_⟩
  obtain ⟨hs, -, rfl⟩ := compose_eq_ok_iff.mp hp
  refine ⟨fun B x es e es' f hes hok hf => ?_, fun B x ts hts => ?_, fun h B x => ?_⟩
  -- the entries before and behind the failing one are those of parts
  · obtain ⟨qs, rs, rfl, rfl, hrs⟩ := List.map_eq_append_iff.mp hes
    obtain ⟨q, rs, rfl, rfl, -⟩ := List.map_eq_cons_iff.mp hrs
    have hq : ∀ d ∈ qs, ∃ t, (Entry.ofPart H d).fragment B x = .ok t :=
      fun d hd => hok _ (List.mem_map_of_mem hd)
    constructor
    · rw [render_renderer B x (by simp), partsWith_of_failure hs _ hq hf, error_bind]
    · rw [membersRead_renderer, membersRead_of_failure hs _ hq hf]
      simp
  · have hparts := List.forall₂_map_left_iff.mp hts
    constructor
    -- without parts nothing is joined, and the outer tokens are the whole text
    · cases parts with
      | nil =>
        cases hts
        exact congrArg Except.ok (written_nil settings).symm
      | cons q qs =>
        obtain ⟨t, ts, -, -, rfl⟩ := List.forall₂_cons_left_iff.mp hparts
        rw [render_renderer B x (by simp), partsWith_of_fragments hs _ hparts, ok_bind,
          joined_pieces settings (by simp), labels, labels_ofPart]
        rfl
    · rw [membersRead_renderer, membersRead_of_fragments hs _ (exists_of_forall₂ hparts)]
      simp
  · rw [show parts = [] from List.map_eq_nil_iff.mp h]
    rfl

/-- A number, and the length of a text that may be absent. -/
def numberAndLength : List Part :=
  [.base ⟨"id", .cls (.known .int), .field, false⟩,
    .substituted ⟨"note", .union .bars [.str, .absent], .field, false⟩ (.builtin .length) .any]

theorem writes_of_compose_numberAndLength :
    ∃ p, compose .known numberAndLength "Record" .usual = .ok p ∧ p.labels = ["id", "note"] ∧
      ∃ r, p.compile = .ok r ∧ r.Writes p := by
  have hs : ∀ x ∈ numberAndLength, x.strategy .known ≠ .unsupported := by decide
  have hn : (numberAndLength.map Part.name).Nodup := by decide
  have hp : compose .known numberAndLength "Record" .usual =
      .ok ⟨"Record", numberAndLength.map (Entry.ofPart .known), .usual⟩ :=
    compose_eq_ok_iff.mpr ⟨hs, hn, rfl⟩
  exact ⟨_, hp, rfl, writes_of_compose hp⟩

end Plan

end RecordText
