/-
Records that are written alike hold the same.

Textual and integral members are written without loss.  A quoted fragment ends at its own quote, a
number or a truth value ends where a token starts that continues no word, and missing data leaves
nothing at all, so the fragments of a record can be read off its text one after the other:

* `Content` — what a textual or integral member holds, all missing data being one;
* `Simple.written_append_inj` — a fragment and what follows it are known from the text;
* `Plan.pieces_inj` — so are all the fragments between the tokens;
* `World.written_alike_iff` — **two records have the same text exactly when all their surviving
  members hold the same**, for every class whose surviving members are textual or integral.
-/
import RecordText.Proofs.Fragments
import RecordText.Proofs.QuotedValues

namespace RecordText

/-! ### Contents -/

/-- What a textual or integral member holds.  A text is known by its characters, and all missing
data counts as one. -/
inductive Content
  | absent
  | text (s : String)
  | bool (b : Bool)
  | int (i : Int)
  deriving DecidableEq, Repr, Inhabited

/-- The content of a value.  Instances of classes above the numbers have texts of their own and
count for none, while anything that counts as a text may have its characters for content. -/
def Value.content? : Value → Option Content
  | .absent | .missing _ => some .absent
  | .bool b => some (.bool b)
  | .int i => some (.int i)
  | v => v.text?.map Content.text

namespace Value

variable {v : Value}

theorem isAbsent_of_content (h : v.content? = some .absent) : v.isAbsent = true := by
  unfold content? at h
  split at h
  · rfl
  · rfl
  all_goals simp at h

theorem eq_of_content_bool {b : Bool} (h : v.content? = some (.bool b)) : v = .bool b := by
  unfold content? at h
  split at h
  case h_3 => simpa using h
  all_goals simp at h

theorem eq_of_content_int {i : Int} (h : v.content? = some (.int i)) : v = .int i := by
  unfold content? at h
  split at h
  case h_4 => simpa using h
  all_goals simp at h

end Value

/-! ### Simple types -/

/-- The types of textual and integral members. -/
inductive Simple
  | str
  | char
  | bool
  | int
  deriving DecidableEq, Repr, Inhabited

namespace Simple

/-- The declared type. -/
def ty : Simple → Ty
  | .str => Ty.str
  | .char => Ty.char
  | .bool => .cls (.known .bool)
  | .int => .cls (.known .int)

/-- Whether members of the type are written between quotes. -/
def isQuoted : Simple → Bool
  | .str | .char => true
  | .bool | .int => false

/-- The quote of the members that have one. -/
def quote : Simple → Char
  | .char => Text.singleQuote
  | _ => Text.doubleQuote

/-- The strategy of the type. -/
def strategy : Simple → Strategy
  | .str => .string
  | .char => .char
  | .bool | .int => .primitive

/-- The contents that conform to the type: texts or missing data where there are quotes, truth
values and integers elsewhere, and missing data wherever the type allows for it. -/
def Admits (k : Simple) (optional : Bool) : Content → Prop
  | .absent => k.isQuoted = true ∨ optional = true
  | .text _ => k.isQuoted = true
  | .bool _ | .int _ => k.isQuoted = false

/-- The fragment of a content. -/
def written (k : Simple) : Content → String
  | .absent => ""
  | .text s => Text.quoted k.quote s
  | .bool b => printedBool b
  | .int i => toString i

end Simple

/-- A type is a simple one, or the simple one joined with the absent value.  Annotations around it
do not count. -/
def Ty.IsSimple (t : Ty) (k : Simple) (optional : Bool) : Prop :=
  t.core.stripOptional = (k.ty, optional)

namespace Ty.IsSimple

variable {t : Ty} {k k' : Simple} {o o' : Bool}

theorem self (k : Simple) : k.ty.IsSimple k false := by
  cases k <;> rfl

theorem orAbsent (s : UnionSpelling) (k : Simple) :
    (Ty.union s [k.ty, Ty.noneType]).IsSimple k true := by
  cases k <;> rfl

theorem allowsAbsent (h : t.IsSimple k o) : Writer.allowsAbsent t = o := by
  rw [Writer.allowsAbsent, h]

theorem strategy (h : t.IsSimple k o) (W : World) : W.hierarchy.strategy t = k.strategy := by
  rw [Hierarchy.strategy, h]
  cases k <;> rfl

theorem unique (h : t.IsSimple k o) (h' : t.IsSimple k' o') : k = k' ∧ o = o' := by
  have hp : (k.ty, o) = (k'.ty, o') := h.symm.trans h'
  obtain ⟨hk, ho⟩ := Prod.mk.inj hp
  refine ⟨?_, ho⟩
  cases k <;> cases k' <;> first | rfl | cases hk

end Ty.IsSimple

/-! ### Members -/

/-- A value has a content under a behaviour: an instance of a class above the texts has that of its
text if it is quoted as that. -/
structure Behaviour.HasContent (B : Behaviour) (v : Value) (c : Content) : Prop where
  content : v.content? = some c
  quotes : ∀ s, c = .text s → B.QuotesAs v s

/-- A member of a simple type holds a content that conforms to the type. -/
def Member.Holds (B : Behaviour) (x : Value) (m : Member) (c : Content) : Prop :=
  ∃ v k o, m.read B x = .ok v ∧ B.HasContent v c ∧ m.declared.IsSimple k o ∧ k.Admits o c

theorem Member.Holds.unique {B : Behaviour} {x : Value} {m : Member} {c c' : Content}
    (h : m.Holds B x c) (h' : m.Holds B x c') : c = c' := by
  obtain ⟨v, -, -, hv, hc, -⟩ := h
  obtain ⟨v', -, -, hv', hc', -⟩ := h'
  obtain rfl : v = v' := Except.ok.inj (hv.symm.trans hv')
  exact Option.some.inj (hc.content.symm.trans hc'.content)

/-- A textual or integral member is written as its content. -/
theorem fragment_of_content {W W' : World} {x v : Value} {m : Member} {k : Simple} {o : Bool}
    {c : Content} (hv : m.read W'.behaviour x = .ok v) (hc : W'.behaviour.HasContent v c)
    (ht : m.declared.IsSimple k o) (ha : k.Admits o c) :
    (Entry.ofPart W.hierarchy (.base m)).fragment W'.behaviour x = .ok (k.written c) := by
  have hf : (Entry.ofPart W.hierarchy (.base m)).fragment W'.behaviour x =
      if (v.isAbsent && k.strategy.leavesOut m.declared) = true then .ok ""
      else k.strategy.textOf W'.behaviour v := by
    rw [← ht.strategy W]
    show (m.read W'.behaviour x >>= _) = _
    rw [hv]
    rfl
  rw [hf]
  cases c with
  | absent =>
    have hleaves : k.strategy.leavesOut m.declared = true := by
      cases k with
      | str => rfl
      | char => rfl
      -- without quotes, only an optional type allows for missing data
      | bool => exact ht.allowsAbsent.trans (ha.resolve_left (by decide))
      | int => exact ht.allowsAbsent.trans (ha.resolve_left (by decide))
    rw [Value.isAbsent_of_content hc.content, hleaves]
    rfl
  | text s =>
    have hs := hc.quotes s rfl
    rw [Value.isAbsent_of_text hs.text, Bool.false_and, if_neg Bool.false_ne_true]
    cases k with
    | str =>
      refine (Fragment.ofString_of_quotesAs hs).trans ?_
      exact congrArg Except.ok (Text.quotedTwice_eq (by decide) s)
    | char => exact Fragment.ofChar_of_quotesAs hs
    | bool => cases ha
    | int => cases ha
  | bool b =>
    obtain rfl := Value.eq_of_content_bool hc.content
    cases k with
    | str => cases ha
    | char => cases ha
    | bool => rfl
    | int => rfl
  | int i =>
    obtain rfl := Value.eq_of_content_int hc.content
    cases k with
    | str => cases ha
    | char => cases ha
    | bool => rfl
    | int => rfl

/-! ### Words -/

namespace Text

/-- Characters of numbers and truth values. -/
def isWordChar (c : Char) : Bool := c.isAlphanum || c == '-'

/-- Characters that neither continue a word nor open a quoted text. -/
def isStop (c : Char) : Bool := !isWordChar c && c != doubleQuote && c != singleQuote

theorem isStop_iff {c : Char} :
    isStop c = true ↔ isWordChar c = false ∧ c ≠ doubleQuote ∧ c ≠ singleQuote := by
  simp [isStop, and_assoc]

/-- A word and what follows it are known from the text. -/
theorem word_append_inj {w w' r r' : List Char} {d d' : Char}
    (hw : ∀ c ∈ w, isWordChar c = true) (hw' : ∀ c ∈ w', isWordChar c = true)
    (hd : isWordChar d = false) (hd' : isWordChar d' = false)
    (h : w ++ d :: r = w' ++ d' :: r') : w = w' ∧ d :: r = d' :: r' := by
  have htake := congrArg (List.takeWhile isWordChar) h
  have hdrop := congrArg (List.dropWhile isWordChar) h
  rw [List.takeWhile_append_of_pos hw, List.takeWhile_append_of_pos hw',
    List.takeWhile_cons_of_neg (by simp [hd]), List.takeWhile_cons_of_neg (by simp [hd']),
    List.append_nil, List.append_nil] at htake
  rw [List.dropWhile_append_of_pos hw, List.dropWhile_append_of_pos hw',
    List.dropWhile_cons_of_neg (by simp [hd]), List.dropWhile_cons_of_neg (by simp [hd'])] at hdrop
  exact ⟨htake, hdrop⟩

theorem isWordChar_of_mem_printedBool {b : Bool} :
    ∀ c ∈ (printedBool b).toList, isWordChar c = true := by
  have hall : (printedBool b).toList.all isWordChar = true := by
    cases b <;> decide
  exact List.all_eq_true.mp hall

theorem mem_repr {n : Nat} : ∀ c ∈ n.repr.toList, c.isDigit = true := by
  intro c hc
  rw [Nat.toList_repr] at hc
  exact Nat.isDigit_of_mem_toDigits (by decide) (by decide) hc

theorem eq_of_repr {m n : Nat} (h : m.repr = n.repr) : m = n := by
  have hd := congrArg (fun s => Nat.ofDigitChars 10 s.toList 0) h
  simpa only [Nat.toList_repr, Nat.ofDigitChars_ten_toDigits] using hd

theorem toList_toString_negSucc (n : Nat) :
    (toString (Int.negSucc n)).toList = '-' :: (n + 1).repr.toList := by
  show ("-" ++ (n + 1).repr).toList = _
  rw [String.toList_append]
  rfl

theorem mem_toString {i : Int} : ∀ c ∈ (toString i).toList, c.isDigit = true ∨ c = '-' := by
  intro c hc
  cases i with
  | ofNat n => exact .inl (mem_repr c hc)
  | negSucc n =>
    rw [toList_toString_negSucc] at hc
    rcases List.mem_cons.mp hc with hc | hc
    · exact .inr hc
    · exact .inl (mem_repr c hc)

/-- Only a negative integer has a sign, so the digits tell an integer. -/
theorem eq_of_toString {i j : Int} (h : toString i = toString j) : i = j := by
  have hl := congrArg String.toList h
  have hsign : ∀ n : Nat, '-' ∉ n.repr.toList := fun n hn => absurd (mem_repr _ hn) (by decide)
  cases i with
  | ofNat m =>
    cases j with
    | ofNat n => exact congrArg Int.ofNat (eq_of_repr h)
    | negSucc n =>
      rw [toList_toString_negSucc] at hl
      exact absurd (hl ▸ List.mem_cons_self) (hsign m)
  | negSucc m =>
    cases j with
    | ofNat n =>
      rw [toList_toString_negSucc] at hl
      exact absurd (hl ▸ List.mem_cons_self) (hsign n)
    | negSucc n =>
      rw [toList_toString_negSucc, toList_toString_negSucc] at hl
      have hr := eq_of_repr (String.toList_inj.mp (List.cons.inj hl).2)
      exact congrArg Int.negSucc (Nat.succ.inj hr)

theorem isWordChar_of_mem_toString {i : Int} :
    ∀ c ∈ (toString i).toList, isWordChar c = true := by
  intro c hc
  rcases mem_toString c hc with h | rfl
  · simp [isWordChar, Char.isAlphanum, h]
  · rfl

theorem toString_ne_empty (i : Int) : toString i ≠ "" := by
  intro h
  have hl := congrArg String.toList h
  cases i with
  | ofNat n => exact Nat.repr_ne_empty h
  | negSucc n =>
    rw [toList_toString_negSucc] at hl
    cases hl

theorem printedBool_ne_empty (b : Bool) : printedBool b ≠ "" := by
  cases b <;> decide

theorem eq_of_printedBool {b b' : Bool} (h : printedBool b = printedBool b') : b = b' := by
  revert h
  cases b <;> cases b' <;> decide

/-- No integer is written like a truth value, which holds letters. -/
theorem printedBool_ne_toString (b : Bool) (i : Int) : printedBool b ≠ toString i := by
  have hletter : ∃ c ∈ (printedBool b).toList, ¬(c.isDigit = true ∨ c = '-') := by
    cases b with
    | false => exact ⟨'F', by decide, by decide⟩
    | true => exact ⟨'T', by decide, by decide⟩
  intro h
  obtain ⟨c, hc, hd⟩ := hletter
  rw [h] at hc
  exact hd (mem_toString c hc)

/-- The text starts with a character that neither continues a word nor opens a quoted text. -/
def Stops (r : List Char) : Prop := ∃ d s, r = d :: s ∧ isStop d = true

theorem Stops.append {r : List Char} (h : Stops r) (s : List Char) : Stops (r ++ s) := by
  obtain ⟨d, r, rfl, hd⟩ := h
  exact ⟨d, r ++ s, rfl, hd⟩

theorem Stops.unquote {r : List Char} (h : Stops r) {q : Char}
    (hq : q = doubleQuote ∨ q = singleQuote) : unquote q r = none := by
  obtain ⟨d, r, rfl, hd⟩ := h
  obtain ⟨-, hdouble, hsingle⟩ := isStop_iff.mp hd
  refine unquote_of_ne ?_ r
  rcases hq with rfl | rfl
  · exact hdouble
  · exact hsingle

end Text

/-! ### Fragments in front of other text -/

namespace Simple

variable {k : Simple} {o : Bool} {c c' : Content} {r r' : List Char}

theorem quote_cases (k : Simple) : k.quote = Text.doubleQuote ∨ k.quote = Text.singleQuote := by
  cases k <;> simp [quote]

theorem quote_ne_backslash (k : Simple) : k.quote ≠ Text.backslash := by
  cases k <;> decide

/-- Where there are quotes, the content is read back by them, and missing data has none. -/
theorem unquote_written (hk : k.isQuoted = true) (hc : k.Admits o c) (hr : Text.Stops r) :
    c = .absent ∧ Text.unquote k.quote ((k.written c).toList ++ r) = none ∨
      ∃ s, c = .text s ∧ Text.unquote k.quote ((k.written c).toList ++ r) = some (s.toList, r) := by
  cases c with
  | absent => exact .inl ⟨rfl, hr.unquote k.quote_cases⟩
  | text s => exact .inr ⟨s, rfl, Text.unquote_quoted k.quote_ne_backslash s r⟩
  | bool b => exact absurd (hk.symm.trans hc) (by decide)
  | int i => exact absurd (hk.symm.trans hc) (by decide)

/-- Where there are none, the fragment is a word. -/
theorem isWordChar_of_mem_written (hk : k.isQuoted = false) (hc : k.Admits o c) :
    ∀ d ∈ (k.written c).toList, Text.isWordChar d = true := by
  cases c with
  | absent => exact fun d hd => absurd hd List.not_mem_nil
  | text s => exact absurd (hk.symm.trans hc) (by decide)
  | bool b => exact Text.isWordChar_of_mem_printedBool
  | int i => exact Text.isWordChar_of_mem_toString

theorem written_inj_of_word (hk : k.isQuoted = false) (hc : k.Admits o c) (hc' : k.Admits o c')
    (h : k.written c = k.written c') : c = c' := by
  cases c with
  | text s => exact absurd (hk.symm.trans hc) (by decide)
  | absent =>
    cases c' with
    | absent => rfl
    | text s => exact absurd (hk.symm.trans hc') (by decide)
    | bool b => exact absurd h.symm (Text.printedBool_ne_empty b)
    | int i => exact absurd h.symm (Text.toString_ne_empty i)
  | bool b =>
    cases c' with
    | absent => exact absurd h (Text.printedBool_ne_empty b)
    | text s => exact absurd (hk.symm.trans hc') (by decide)
    | bool b' => exact congrArg Content.bool (Text.eq_of_printedBool h)
    | int i => exact absurd h (Text.printedBool_ne_toString b i)
  | int i =>
    cases c' with
    | absent => exact absurd h (Text.toString_ne_empty i)
    | text s => exact absurd (hk.symm.trans hc') (by decide)
    | bool b => exact absurd h.symm (Text.printedBool_ne_toString b i)
    | int i' => exact congrArg Content.int (Text.eq_of_toString h)

/-- **A fragment and what follows it are known from the text.** -/
theorem written_append_inj (hc : k.Admits o c) (hc' : k.Admits o c') (hr : Text.Stops r)
    (hr' : Text.Stops r') (h : (k.written c).toList ++ r = (k.written c').toList ++ r') :
    c = c' ∧ r = r' := by
  cases hk : k.isQuoted with
  | true =>
    have hu := congrArg (Text.unquote k.quote) h
    rcases unquote_written hk hc hr with ⟨rfl, hn⟩ | ⟨s, rfl, hs⟩
    · rcases unquote_written hk hc' hr' with ⟨rfl, -⟩ | ⟨s', rfl, hs'⟩
      · exact ⟨rfl, by simpa [written] using h⟩
      · cases hn.symm.trans (hu.trans hs')
    · rcases unquote_written hk hc' hr' with ⟨rfl, hn'⟩ | ⟨s', rfl, hs'⟩
      · cases hs.symm.trans (hu.trans hn')
      · obtain ⟨hss, hrr⟩ := Prod.mk.inj (Option.some.inj (hs.symm.trans (hu.trans hs')))
        exact ⟨congrArg Content.text (String.toList_inj.mp hss), hrr⟩
  | false =>
    obtain ⟨d, r, rfl, hd⟩ := hr
    obtain ⟨d', r', rfl, hd'⟩ := hr'
    obtain ⟨hw, hrr⟩ := Text.word_append_inj (isWordChar_of_mem_written hk hc)
      (isWordChar_of_mem_written hk hc') (Text.isStop_iff.mp hd).1 (Text.isStop_iff.mp hd').1 h
    exact ⟨written_inj_of_word hk hc hc' (String.toList_inj.mp hw), hrr⟩

end Simple

/-! ### Fragments between tokens -/

/-- The separator and the closing token start with characters that end a fragment. -/
structure Settings.Delimits (s : Settings) : Prop where
  separator : Text.Stops s.separator.toList
  closing : Text.Stops s.closing.toList

theorem Settings.delimits_usual : Settings.usual.Delimits :=
  ⟨⟨',', [' '], by decide, by decide⟩, ⟨'\x7d', [], by decide, by decide⟩⟩

namespace Plan

variable {settings : Settings}

/-- What follows a fragment ends it. -/
theorem stops_pieces (hs : settings.Delimits) (ms : List (String × String)) :
    Text.Stops ("".intercalate
      (pieces settings settings.separator ms ++ [settings.closing])).toList := by
  cases ms with
  | nil => simpa [pieces] using hs.closing
  | cons m ms =>
    rw [pieces, List.cons_append, join_cons, String.toList_append, String.toList_append,
      String.toList_append, List.append_assoc, List.append_assoc]
    exact hs.separator.append _

variable {ms : List Member} {k : Member → Simple} {o : Member → Bool} {c c' : Member → Content}

/-- **The contents of all members are known from what is joined.** -/
theorem pieces_inj (hs : settings.Delimits)
    (hm : ∀ m ∈ ms, (k m).Admits (o m) (c m) ∧ (k m).Admits (o m) (c' m)) (token : String)
    (h : "".intercalate (pieces settings token
        (ms.map fun m => (m.name, (k m).written (c m))) ++ [settings.closing]) =
      "".intercalate (pieces settings token
        (ms.map fun m => (m.name, (k m).written (c' m))) ++ [settings.closing])) :
    ∀ m ∈ ms, c m = c' m := by
  induction ms generalizing token with
  | nil => simp
  | cons m ms ih =>
    obtain ⟨ha, ha'⟩ := hm m (by simp)
    simp only [List.map_cons, pieces, List.cons_append, join_cons] at h
    -- the lead is the same on both sides, and the fragment ends where the rest starts
    have h := congrArg String.toList (String.append_right_inj _ |>.mp h)
    rw [String.toList_append, String.toList_append] at h
    obtain ⟨hcc, hrest⟩ :=
      Simple.written_append_inj ha ha' (stops_pieces hs _) (stops_pieces hs _) h
    rw [List.forall_mem_cons]
    exact ⟨hcc, ih (fun n hn => hm n (by simp [hn])) _ (String.toList_inj.mp hrest)⟩

theorem written_inj (hs : settings.Delimits)
    (hm : ∀ m ∈ ms, (k m).Admits (o m) (c m) ∧ (k m).Admits (o m) (c' m))
    (h : written settings (ms.map fun m => (m.name, (k m).written (c m))) =
      written settings (ms.map fun m => (m.name, (k m).written (c' m)))) :
    ∀ m ∈ ms, c m = c' m := by
  cases ms with
  | nil => simp
  | cons m ms =>
    refine pieces_inj hs hm settings.opening ?_
    simp only [List.map_cons] at h ⊢
    rw [join_pieces, join_pieces]
    exact h

end Plan

/-! ### Renderings -/

namespace World

variable {W : World} {b : Builder} {r : Renderer} {notes notes' : List Note} {catalog : Catalog}

theorem partFor_of_no_substitutes {c : Config} (h : c.substitutes = []) (m : Member) :
    W.partFor c m = .base m := by
  rw [partFor, Config.substitute?, h]
  rfl

/-- What a record is written as when its surviving members hold the given contents. -/
theorem render_of_contents (hb : W.build b = .ok (r, notes))
    (hc : W.catalog b.target b.config.useFields b.config.useProperties = .ok (catalog, notes'))
    (hn : b.config.substitutes = []) {W' : World} {x : Value} {v : Member → Value}
    {k : Member → Simple} {o : Member → Bool} {c : Member → Content}
    (hx : ∀ m ∈ survivors b.config catalog, m.read W'.behaviour x = .ok (v m) ∧
      W'.behaviour.HasContent (v m) (c m) ∧ m.declared.IsSimple (k m) (o m) ∧
        (k m).Admits (o m) (c m)) :
    r.render W'.behaviour x = .ok (Plan.written b.settings
      ((survivors b.config catalog).map fun m => (m.name, (k m).written (c m)))) := by
  have hf : List.Forall₂ (fun m t =>
      (Entry.ofPart W.hierarchy (W.partFor b.config m)).fragment W'.behaviour x = .ok t)
        (survivors b.config catalog)
        ((survivors b.config catalog).map fun m => (k m).written (c m)) := by
    rw [List.forall₂_map_right_iff, List.forall₂_same]
    intro m hm
    obtain ⟨hv, hcv, ht, ha⟩ := hx m hm
    rw [partFor_of_no_substitutes hn]
    exact fragment_of_content hv hcv ht ha
  rw [render_of_fragments hb hc hf, List.zip_map']

/-- A text is a content under every behaviour. -/
theorem hasContent_text (B : Behaviour) (s : String) : B.HasContent (.text s) (.text s) := by
  refine ⟨rfl, fun t ht => ?_⟩
  cases ht
  exact Behaviour.quotesAs_of_ownText rfl

/-- **Records of textual and integral members are written alike exactly when all surviving members
hold the same.**  The two records may live in different worlds, or in different states of one. -/
theorem written_alike_iff (hb : W.build b = .ok (r, notes))
    (hc : W.catalog b.target b.config.useFields b.config.useProperties = .ok (catalog, notes'))
    (hn : b.config.substitutes = []) (hs : b.settings.Delimits) {W₁ W₂ : World} {x y : Value}
    (hx : ∀ m ∈ survivors b.config catalog, ∃ c, m.Holds W₁.behaviour x c)
    (hy : ∀ m ∈ survivors b.config catalog, ∃ c, m.Holds W₂.behaviour y c) {s t : String}
    (hrx : r.render W₁.behaviour x = .ok s) (hry : r.render W₂.behaviour y = .ok t) :
    s = t ↔ ∀ m ∈ survivors b.config catalog,
      ∃ c, m.Holds W₁.behaviour x c ∧ m.Holds W₂.behaviour y c := by
  choose! c v k o hv hcv ht ha using hx
  choose! c' v' k' o' hv' hcv' ht' ha' using hy
  -- both records are read through the same declared types
  have hk : ∀ m ∈ survivors b.config catalog, k' m = k m ∧ o' m = o m :=
    fun m hm => (ht' m hm).unique (ht m hm)
  have hs₁ : s = Plan.written b.settings ((survivors b.config catalog).map fun m =>
      (m.name, (k m).written (c m))) :=
    Except.ok.inj (hrx.symm.trans (render_of_contents hb hc hn
      fun m hm => ⟨hv m hm, hcv m hm, ht m hm, ha m hm⟩))
  have ha₂ : ∀ m ∈ survivors b.config catalog, (k m).Admits (o m) (c' m) := by
    intro m hm
    obtain ⟨hkm, hom⟩ := hk m hm
    rw [← hkm, ← hom]
    exact ha' m hm
  have hs₂ : t = Plan.written b.settings ((survivors b.config catalog).map fun m =>
      (m.name, (k m).written (c' m))) :=
    Except.ok.inj (hry.symm.trans (render_of_contents hb hc hn
      fun m hm => ⟨hv' m hm, hcv' m hm, ht m hm, ha₂ m hm⟩))
  constructor
  · intro hst m hm
    rw [hs₁, hs₂] at hst
    have hcc := Plan.written_inj hs (fun m hm => ⟨ha m hm, ha₂ m hm⟩) hst m hm
    exact ⟨c m, ⟨v m, k m, o m, hv m hm, hcv m hm, ht m hm, ha m hm⟩,
      v' m, k m, o m, hv' m hm, hcc ▸ hcv' m hm, ht m hm, ha m hm⟩
  · intro h
    rw [hs₁, hs₂]
    refine congrArg (Plan.written b.settings) (List.map_congr_left fun m hm => ?_)
    obtain ⟨d, hd, hd'⟩ := h m hm
    have hcd : c m = d :=
      Member.Holds.unique ⟨v m, k m, o m, hv m hm, hcv m hm, ht m hm, ha m hm⟩ hd
    have hcd' : c' m = d :=
      Member.Holds.unique ⟨v' m, k m, o m, hv' m hm, hcv' m hm, ht m hm, ha₂ m hm⟩ hd'
    rw [hcd, hcd']

end World

/-! ### Two records that would be written alike without escapes -/

/-- A model with two texts. -/
def textsWorld : World := .ofModel [("first", Ty.str), ("second", Ty.str)]

/-- Its fields. -/
def textsFirst : Member := ⟨"first", Ty.str, .field, false⟩

@[inherit_doc textsFirst]
def textsSecond : Member := ⟨"second", Ty.str, .field, false⟩

/-- An instance of it. -/
def textsRecord (first second : String) : Value :=
  .record (.defined modelIdent) none [("first", .text first), ("second", .text second)]

theorem holds_texts (k : Condition) :
    k.Holds textsWorld (.ofModel []) ⟨[textsFirst, textsSecond]⟩ := by
  cases k with
  | mode => exact .inl rfl
  | ignored => exact fun n hn => absurd hn List.not_mem_nil
  | substituted => exact fun n hn => absurd hn List.not_mem_nil
  | accepted => exact fun m _ s hs => absurd hs (by simp [Config.substitute?, Builder.ofModel])
  | supported =>
    intro m hm _
    rcases List.mem_pair.mp hm with rfl | rfl <;> decide
  | distinct => exact (by decide : ["first", "second"].Nodup)

theorem textsFirst_holds (first second : String) :
    textsFirst.Holds textsWorld.behaviour (textsRecord first second) (.text first) :=
  ⟨.text first, .str, false, Behaviour.readPath_of_not_mem (by decide) _ _,
    World.hasContent_text _ _, rfl, rfl⟩

theorem textsSecond_holds (first second : String) :
    textsSecond.Holds textsWorld.behaviour (textsRecord first second) (.text second) :=
  ⟨.text second, .str, false, Behaviour.readPath_of_not_mem (by decide) _ _,
    World.hasContent_text _ _, rfl, rfl⟩

theorem holds_textsRecord (first second : String) :
    ∀ m ∈ World.survivors (Builder.ofModel []).config ⟨[textsFirst, textsSecond]⟩,
      ∃ c, m.Holds textsWorld.behaviour (textsRecord first second) c := by
  intro m hm
  rcases List.mem_pair.mp hm with rfl | rfl
  · exact ⟨_, textsFirst_holds first second⟩
  · exact ⟨_, textsSecond_holds first second⟩

/-- Without escapes, both records would be written with `first="1", second="2", second="3"` between
the outer tokens. -/
theorem written_alike_iff_texts :
    ∃ r notes s t, textsWorld.build (.ofModel []) = .ok (r, notes) ∧
      r.render textsWorld.behaviour (textsRecord "1\", second=\"2" "3") = .ok s ∧
      r.render textsWorld.behaviour (textsRecord "1" "2\", second=\"3") = .ok t ∧ s ≠ t := by
  obtain ⟨notes, hc⟩ := World.catalog_ofModel [("first", Ty.str), ("second", Ty.str)]
    (by simp [isPrivate])
  have hb := (World.build_eq_ok_iff hc).mpr ⟨holds_texts, rfl⟩
  refine ⟨_, _, _, _, hb, rfl, rfl, fun h => ?_⟩
  -- the first members differ
  obtain ⟨c, hx, hy⟩ := (World.written_alike_iff hb hc rfl Settings.delimits_usual
    (holds_textsRecord _ _) (holds_textsRecord _ _) rfl rfl).mp h textsFirst List.mem_cons_self
  have hx := hx.unique (textsFirst_holds _ _)
  have hy := hy.unique (textsFirst_holds _ _)
  exact absurd (hx.symm.trans hy) (by decide)

end RecordText
