import ProofCarrying.Predicate.ShapeConfig
import ProofCarrying.Proofs.Numerals

/-! Which keys a configuration may have and must have, and which values count as whole numbers.
Only texts are written like the names of keys, so no other key passes for one. -/

namespace ProofCarrying

namespace Binary64

theorem stripZeros_ne_nil (ds : List Char) : stripZeros ds ≠ [] := by
  rw [stripZeros]
  split
  next => simp
  next h => exact h

/-- The text of a finite number is not made of letters only. -/
theorem exists_mem_decimalText (d : Decimal) : ∃ c ∈ decimalText d, c ∈ ['.', '-', '+'] := by
  have hne := stripZeros_ne_nil (Text.naturalText d.digits)
  simp only [decimalText]
  split
  next =>
    split
    next => exact ⟨'.', by simp, by simp⟩
    next => exact ⟨'.', by simp, by simp⟩
  next =>
    have hsign : ∀ e, ∃ c ∈ exponentText e, c ∈ ['.', '-', '+'] := by
      intro e
      by_cases he : e < 0
      · exact ⟨'-', by simp [exponentText, he], by simp⟩
      · exact ⟨'+', by simp [exponentText, he], by simp⟩
    obtain ⟨c, hc, hs⟩ := hsign (d.exponent + (Text.naturalText d.digits).length - 1)
    cases hds : stripZeros (Text.naturalText d.digits) with
    | nil => exact absurd hds hne
    | cons a as =>
      cases as with
      | nil => exact ⟨c, List.mem_cons_of_mem a hc, hs⟩
      | cons b bs => exact ⟨c, by simp [hc], hs⟩

theorem text_cases (x : Binary64) :
    x.text = ['n', 'a', 'n'] ∨ x.text = ['i', 'n', 'f'] ∨ ∃ c ∈ x.text, c ∈ ['.', '-', '+'] := by
  cases x with
  | nan => exact Or.inl rfl
  | infinite s =>
    cases s with
    | false => exact Or.inr (Or.inl rfl)
    | true => exact Or.inr (Or.inr ⟨'-', by simp [text], by simp⟩)
  | finite s m e =>
    cases s with
    | true => exact Or.inr (Or.inr ⟨'-', by simp [text], by simp⟩)
    | false =>
      refine Or.inr (Or.inr ?_)
      simp only [text, magnitudeText, Bool.false_eq_true, if_false]
      by_cases hm : m = 0
      · exact ⟨'.', by simp [hm], by simp⟩
      · rw [if_neg hm]
        exact exists_mem_decimalText _

end Binary64

namespace Datum

/-- Small letters and underscores, of which the names of keys are made. -/
def isNameChar (c : Char) : Bool :=
  c.isLower || c == '_'

theorem not_isNameChar_of_isDigit {c : Char} (h : c.isDigit = true) : isNameChar c = false := by
  obtain ⟨-, h9⟩ := Text.toNat_of_isDigit h
  rw [isNameChar, Bool.or_eq_false_iff]
  refine ⟨?_, beq_eq_false_iff_ne.mpr ?_⟩
  · by_contra hl
    have hlower : (decide ('a'.val ≤ c.val) && decide (c.val ≤ 'z'.val)) = true :=
      Bool.of_not_eq_false hl
    have ha : 'a'.val ≤ c.val := of_decide_eq_true (Bool.and_eq_true_iff.mp hlower).1
    have hn : 'a'.toNat ≤ c.toNat := UInt32.le_iff_toNat_le.mp ha
    exact absurd (Nat.le_trans hn h9) (by decide)
  · rintro rfl
    exact absurd h9 (by decide)

/-- No value but a text is written like a name: with a few exceptions that are no names, some
character of what is written is none of a name. -/
theorem written_cases {d : Datum} {w : List Char} (hd : ∀ s, d ≠ text s)
    (h : d.written #[] = some w) :
    w = ['n', 'a', 'n'] ∨ w = ['i', 'n', 'f'] ∨ ∃ c ∈ w, isNameChar c = false := by
  have hfirst : ∀ {c u}, w = c :: u → isNameChar c = false → ∃ c ∈ w, isNameChar c = false :=
    fun hw hc => ⟨_, by rw [hw]; exact List.mem_cons_self, hc⟩
  cases d with
  | text s => exact absurd rfl (hd s)
  | null =>
    cases h
    exact Or.inr (Or.inr (hfirst rfl rfl))
  | boolean b =>
    cases h
    cases b <;> exact Or.inr (Or.inr (hfirst rfl rfl))
  | integer n =>
    have hi : Text.integerText? n = some w := h
    rw [Text.integerText?] at hi
    obtain ⟨-, hw⟩ := Option.ite_none_right_eq_some.mp hi
    obtain rfl := Option.some.inj hw
    obtain ⟨c, u, hcu⟩ := List.exists_cons_of_ne_nil (Text.integerText_ne_nil n)
    refine Or.inr (Or.inr (hfirst hcu ?_))
    rcases Text.mem_integerText (n := n) (by rw [hcu]; exact List.mem_cons_self) with rfl | hc
    · rfl
    · exact not_isNameChar_of_isDigit hc
  | float x =>
    cases h
    rcases x.text_cases with hx | hx | ⟨c, hc, hs⟩
    · exact Or.inl hx
    · exact Or.inr (Or.inl hx)
    · refine Or.inr (Or.inr ⟨c, hc, ?_⟩)
      simp only [List.mem_cons, List.not_mem_nil, or_false] at hs
      rcases hs with rfl | rfl | rfl <;> rfl
  | bytes b =>
    cases h
    have hmark : ∀ s, isNameChar (Text.quoteMark s) = false := by
      intro s
      rw [Text.quoteMark]
      split <;> rfl
    exact Or.inr (Or.inr ⟨_, List.mem_cons_of_mem _ List.mem_cons_self, hmark _⟩)
  | list items =>
    obtain ⟨ws, -, hw⟩ := Option.bind_eq_some_iff.mp h
    cases hw
    exact Or.inr (Or.inr (hfirst rfl rfl))
  | tuple items =>
    obtain ⟨ws, -, hw⟩ := Option.bind_eq_some_iff.mp h
    split at hw <;> cases hw <;> exact Or.inr (Or.inr (hfirst rfl rfl))
  | mapping entries =>
    obtain ⟨ws, -, hw⟩ := Option.bind_eq_some_iff.mp h
    cases hw
    exact Or.inr (Or.inr (hfirst rfl rfl))
  | shared place =>
    have hn : (shared place).written #[] = some "None".toList := by
      simp [written, writtenWithin, writtenBy, resolve]
    cases hn.symm.trans h
    exact Or.inr (Or.inr (hfirst rfl rfl))

/-- Names of keys. Two words of small letters are numbers as they are written. -/
def isName (w : List Char) : Bool :=
  w.all isNameChar && w != ['n', 'a', 'n'] && w != ['i', 'n', 'f']

/-- Only a text has the plain form of a name. -/
theorem eq_text_of_plain {d : Datum} {name : List Char} (hname : isName name = true)
    (h : d.plain = some (.ofChars name)) : d = text (.ofChars name) := by
  simp only [isName, Bool.and_eq_true, List.all_eq_true, bne_iff_ne] at hname
  obtain ⟨⟨hall, hnan⟩, hinf⟩ := hname
  by_cases hd : ∃ s, d = text s
  · obtain ⟨s, rfl⟩ := hd
    cases h
    rfl
  · have hne : ∀ s, d ≠ text s := fun s hs => hd ⟨s, hs⟩
    rw [plain.eq_2 _ hne] at h
    obtain ⟨w, hw, hf⟩ := Option.map_eq_some_iff.mp h
    have hwn : w = name := by
      have hc := congrArg Text.CodePoints.toChars? hf
      rwa [Text.CodePoints.toChars?_ofChars, Text.CodePoints.toChars?_ofChars,
        Option.some.injEq] at hc
    subst hwn
    rcases written_cases hne hw with he | he | ⟨c, hc, hs⟩
    · exact absurd he hnan
    · exact absurd he hinf
    · exact absurd (hall c hc) (by simp [hs])

end Datum

namespace Config

theorem enter_perm (t : Text.CodePoints) (ts : List Text.CodePoints) :
    (enter t ts).Perm (t :: ts) := by
  induction ts with
  | nil => exact .refl _
  | cons u us ih =>
    rw [enter]
    split
    · exact (ih.cons u).trans (.swap t u us)
    · exact .refl _

theorem foldl_enter_perm (ts us : List Text.CodePoints) :
    (ts.foldl (fun us t => enter t us) us).Perm (ts ++ us) := by
  induction ts generalizing us with
  | nil => exact .refl _
  | cons t ts ih =>
    have ht := (enter_perm t us).append_left ts
    exact (ih (enter t us)).trans (ht.trans List.perm_middle)

theorem sorted_perm (ts : List Text.CodePoints) : (sorted ts).Perm ts := by
  have h := foldl_enter_perm ts []
  rwa [List.append_nil] at h

theorem plainForms_cases (ks : List Datum) :
    (∀ k ∈ ks, k.plain.isSome) ∧ plainForms ks = .ok (ks.filterMap Datum.plain) ∨
      (∃ k ∈ ks, k.plain = none) ∧ plainForms ks = .error .tooManyDigits := by
  induction ks with
  | nil => exact Or.inl ⟨by simp, rfl⟩
  | cons k ks ih =>
    rw [plainForms, plainForm]
    cases hk : k.plain with
    | none => exact Or.inr ⟨⟨k, by simp, hk⟩, rfl⟩
    | some t =>
      rcases ih with ⟨hks, he⟩ | ⟨⟨l, hl, hn⟩, he⟩
      · refine Or.inl ⟨List.forall_mem_cons.mpr ⟨by rw [hk]; rfl, hks⟩, ?_⟩
        rw [he, List.filterMap_cons_some hk]
        rfl
      · refine Or.inr ⟨⟨l, List.mem_cons_of_mem k hl, hn⟩, ?_⟩
        rw [he]
        rfl

def Known (allowed : List Datum) (m : Entries) : Prop :=
  ∀ e ∈ m, ∃ k ∈ allowed, k.plain = e.1.plain

def Present (required : List Datum) (m : Entries) : Prop :=
  ∀ k ∈ required, (Datum.lookup k m).isSome

/-- The plain forms of keys that are not among those allowed. -/
def unknownForms (allowed : List Datum) (m : Entries) : List Text.CodePoints :=
  (m.filterMap fun e => e.1.plain).filter fun t => !(allowed.filterMap Datum.plain).contains t

/-- The plain forms of required keys that are not there. -/
def missingForms (required : List Datum) (m : Entries) : List Text.CodePoints :=
  (required.filter fun k => (Datum.lookup k m).isNone).filterMap Datum.plain

/-- What is told of keys that are not known: their plain forms in some order, unless one of the
keys cannot be written. -/
inductive TellsUnknown (place : String) (allowed : List Datum) (m : Entries) : Fault → Prop
  | unknown {keys : List Text.CodePoints} (h : keys.Perm (unknownForms allowed m)) :
    TellsUnknown place allowed m (.unknownKeys place keys)
  | unwritten {e : Datum × Datum} (he : e ∈ m) (hn : e.1.plain = none) :
    TellsUnknown place allowed m .tooManyDigits

inductive TellsMissing (place : String) (required : List Datum) (m : Entries) : Fault → Prop
  | missing {keys : List Text.CodePoints} (h : keys.Perm (missingForms required m)) :
    TellsMissing place required m (.missingKeys place keys)

variable {place : String} {allowed required : List Datum} {m : Entries}

theorem known_of_mem (h : ∀ e ∈ m, e.1 ∈ allowed) : Known allowed m :=
  fun e he => ⟨e.1, h e he, rfl⟩

theorem known_iff (hm : ∀ e ∈ m, e.1.plain.isSome) :
    Known allowed m ↔ unknownForms allowed m = [] := by
  rw [unknownForms, List.filter_eq_nil_iff, List.forall_mem_filterMap]
  refine forall₂_congr fun e he => ?_
  obtain ⟨t, ht⟩ := Option.isSome_iff_exists.mp (hm e he)
  simp [ht]

theorem checkAllowed_cases (place : String) (ha : ∀ k ∈ allowed, k.plain.isSome) :
    Known allowed m ∧ checkAllowed place allowed m = .ok () ∨
      ¬ Known allowed m ∧ ∃ f, TellsUnknown place allowed m f ∧
        checkAllowed place allowed m = .error f := by
  have hallowed : plainForms allowed = .ok (allowed.filterMap Datum.plain) := by
    rcases plainForms_cases allowed with ⟨-, h⟩ | ⟨⟨k, hk, hn⟩, -⟩
    · exact h
    · exact absurd (ha k hk) (by simp [hn])
  have hm : (m.map (·.1)).filterMap Datum.plain = m.filterMap fun e => e.1.plain := by
    rw [List.filterMap_map]
    rfl
  rcases plainForms_cases (m.map (·.1)) with ⟨hk, h⟩ | ⟨⟨k, hk, hn⟩, h⟩
  · have hwritten : ∀ e ∈ m, e.1.plain.isSome := fun e he => hk e.1 (List.mem_map_of_mem he)
    have hu : unknown allowed m = .ok (sorted (unknownForms allowed m)) := by
      simp only [unknown, hallowed, h, hm, unknownForms]
      rfl
    have hp := sorted_perm (unknownForms allowed m)
    rw [known_iff hwritten, checkAllowed, hu]
    cases hs : sorted (unknownForms allowed m) with
    | nil =>
      rw [hs] at hp
      exact Or.inl ⟨hp.nil_eq.symm, rfl⟩
    | cons t ts =>
      rw [hs] at hp
      refine Or.inr ⟨fun hn => ?_, _, .unknown hp, rfl⟩
      rw [hn] at hp
      exact absurd hp.eq_nil (by simp)
  · obtain ⟨e, he, rfl⟩ := List.mem_map.mp hk
    refine Or.inr ⟨fun hknown => ?_, _, .unwritten he hn, ?_⟩
    · obtain ⟨k, hk, heq⟩ := hknown e he
      exact absurd (ha k hk) (by simp [heq, hn])
    · simp only [checkAllowed, unknown, hallowed, h]
      rfl

theorem missing_eq (hr : ∀ k ∈ required, k.isKey = true ∧ k.plain.isSome) :
    missing m required = .ok (missingForms required m) := by
  induction required with
  | nil => rfl
  | cons k ks ih =>
    obtain ⟨hk, hp⟩ := hr k (by simp)
    obtain ⟨t, ht⟩ := Option.isSome_iff_exists.mp hp
    have hks := ih fun l hl => hr l (List.mem_cons_of_mem k hl)
    rw [missing, hk, hks, missingForms, missingForms, List.filter_cons]
    cases hl : Datum.lookup k m with
    | some d => rfl
    | none =>
      simp only [plainForm, ht, Option.isNone_none, if_true, List.filterMap_cons_some ht]
      rfl

theorem present_iff (hr : ∀ k ∈ required, k.plain.isSome) :
    Present required m ↔ missingForms required m = [] := by
  rw [missingForms, List.filterMap_eq_nil_iff]
  refine ⟨fun h k hk => ?_, fun h k hk => ?_⟩
  · obtain ⟨hk, hn⟩ := List.mem_filter.mp hk
    exact absurd (h k hk) (by simpa using hn)
  · by_contra hn
    have hp := h k (List.mem_filter.mpr ⟨hk, by simpa using hn⟩)
    exact absurd (hr k hk) (by simp [hp])

theorem checkRequired_cases (place : String)
    (hr : ∀ k ∈ required, k.isKey = true ∧ k.plain.isSome) :
    Present required m ∧ checkRequired place required m = .ok () ∨
      ¬ Present required m ∧ ∃ f, TellsMissing place required m f ∧
        checkRequired place required m = .error f := by
  have hp := sorted_perm (missingForms required m)
  rw [present_iff fun k hk => (hr k hk).2, checkRequired, missing_eq hr]
  cases hs : sorted (missingForms required m) with
  | nil =>
    rw [hs] at hp
    refine Or.inl ⟨hp.nil_eq.symm, ?_⟩
    simp only [bind, Except.bind, hs]
  | cons t ts =>
    rw [hs] at hp
    refine Or.inr ⟨fun hn => ?_, _, .missing hp, ?_⟩
    · rw [hn] at hp
      exact absurd hp.eq_nil (by simp)
    · simp only [bind, Except.bind, hs]

def IsWhole (d : Datum) : Prop :=
  ∃ n : Nat, d = .integer n

/-- What is told of a value that is no whole number. -/
inductive TellsNotWhole (store : Datum.Store) (place : String) : Datum → Fault → Prop
  | negative {n : Int} (h : n < 0) :
    TellsNotWhole store place (.integer n) (.negativeNumber place n)
  | other {d : Datum} {w : List Char} (h : ∀ n, d ≠ .integer n) (hw : d.written store = some w) :
    TellsNotWhole store place d (.notWholeNumber place w)
  | unwritten {d : Datum} (h : ∀ n, d ≠ .integer n) (hw : d.written store = none) :
    TellsNotWhole store place d .tooManyDigits

theorem wholeNumber_cases (store : Datum.Store) (place : String) (d : Datum) :
    (∃ n : Nat, d = .integer n ∧ wholeNumber store place d = .ok n) ∨
      ¬ IsWhole d ∧ ∃ f, TellsNotWhole store place d f ∧ wholeNumber store place d = .error f := by
  fun_cases wholeNumber store place d with
  | case1 n hn =>
    obtain ⟨k, rfl⟩ := Int.eq_ofNat_of_zero_le hn
    exact Or.inl ⟨k, rfl, rfl⟩
  | case2 n hn =>
    refine Or.inr ⟨?_, _, .negative (Int.not_le.mp hn), rfl⟩
    rintro ⟨k, hk⟩
    cases hk
    exact hn (Int.natCast_nonneg k)
  | case3 d hne w hw => exact Or.inr ⟨fun ⟨k, hk⟩ => hne k hk, _, .other hne hw, rfl⟩
  | case4 d hne hw => exact Or.inr ⟨fun ⟨k, hk⟩ => hne k hk, _, .unwritten hne hw, rfl⟩

end Config

namespace Shape

def keyNames : List String :=
  ["name", "type", "outgoing_message_payload_length", "incoming_message_payload_lengths",
    "local_data_length", "witness_length", "max_arity", "relies_on_same_type_inputs"]

theorem keys_eq : requiredKeys ++ optionalKeys = keyNames.map key := rfl

/-- A key that is written like one of a shape is this one. -/
theorem eq_key_of_plain {d k : Datum} (hk : k ∈ requiredKeys ++ optionalKeys)
    (h : k.plain = d.plain) : d = k := by
  have hnames : keyNames.all (fun name => Datum.isName name.toList) = true := rfl
  rw [keys_eq] at hk
  obtain ⟨name, hname, rfl⟩ := List.mem_map.mp hk
  exact Datum.eq_text_of_plain (List.all_eq_true.mp hnames name hname) h.symm

end Shape

end ProofCarrying
