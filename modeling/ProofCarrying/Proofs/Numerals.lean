import Mathlib.Data.List.Basic
import Mathlib.Data.List.Induction
import ProofCarrying.ScalarField

/-! Written numbers read back. A line of numbers has no blanks but the spaces between them and
the line feed, so trimming and splitting find the numbers again. -/

namespace ProofCarrying

namespace Text

theorem toNat_of_isDigit {c : Char} (h : c.isDigit = true) : 48 ≤ c.toNat ∧ c.toNat ≤ 57 := by
  simp only [Char.isDigit, Bool.and_eq_true, decide_eq_true_eq] at h
  exact ⟨by simpa [UInt32.le_iff_toNat_le] using h.1, by simpa [UInt32.le_iff_toNat_le] using h.2⟩

theorem digitValue?_of_isDigit {c : Char} (h : c.isDigit = true) :
    digitValue? c = some (c.toNat - 48) := by
  obtain ⟨h0, h9⟩ := toNat_of_isDigit h
  have hlt : c.toNat < 58 := by omega
  simp [digitValue?, decimalZeros, h0, hlt]

theorem isBlank_of_isDigit {c : Char} (h : c.isDigit = true) : isBlank c = false := by
  obtain ⟨h0, h9⟩ := toNat_of_isDigit h
  simp only [isBlank, Bool.or_eq_false_iff, Bool.and_eq_false_iff, decide_eq_false_iff_not,
    beq_eq_false_iff_ne]
  omega

theorem isDigit_of_mem_naturalText {n : Nat} {c : Char} (h : c ∈ naturalText n) :
    c.isDigit = true :=
  Nat.isDigit_of_mem_toDigits (by decide) (by decide) h

theorem naturalText_ne_nil (n : Nat) : naturalText n ≠ [] :=
  Nat.toDigits_ne_nil

theorem naturalText_append {m d : Nat} (hm : 0 < m) (hd : d < 10) :
    naturalText (10 * m + d) = naturalText m ++ [d.digitChar] := by
  rw [naturalText, naturalText, ← Nat.toDigits_append_toDigits (by decide) hm hd,
    Nat.toDigits_of_lt_base hd]

/-- The first digits of a number make a number, and a smaller one, unless they are all. -/
theorem exists_naturalText_of_append {n : Nat} {front back : List Char} (hf : front ≠ [])
    (h : naturalText n = front ++ back) :
    ∃ k, front = naturalText k ∧ (back = [] ∧ k = n ∨ back ≠ [] ∧ 0 < k ∧ k < n) := by
  induction back using List.reverseRecOn generalizing n with
  | nil => exact ⟨n, by simpa using h.symm, Or.inl ⟨rfl, rfl⟩⟩
  | append_singleton back c ih =>
    by_cases hn : n < 10
    · have hone : (naturalText n).length = 1 := by simp [naturalText, Nat.toDigits_of_lt_base hn]
      have hpos := List.length_pos_iff.mpr hf
      rw [h, List.length_append, List.length_append, List.length_singleton] at hone
      omega
    · have hm : 0 < n / 10 := by omega
      have hsplit := naturalText_append hm (Nat.mod_lt n (by decide))
      rw [Nat.div_add_mod, h, ← List.append_assoc] at hsplit
      obtain ⟨k, hk, hcase⟩ := ih (List.append_inj_left' hsplit rfl).symm
      have hlt : 0 < k ∧ k < n := by
        rcases hcase with ⟨-, hk⟩ | ⟨-, hk⟩ <;> omega
      exact ⟨k, hk, Or.inr ⟨by simp, hlt⟩⟩

theorem mem_integerText {n : Int} {c : Char} (h : c ∈ integerText n) :
    c = '-' ∨ c.isDigit = true := by
  cases n with
  | ofNat m => exact Or.inr (isDigit_of_mem_naturalText h)
  | negSucc m =>
    rcases List.mem_cons.mp h with h | h
    · exact Or.inl h
    · exact Or.inr (isDigit_of_mem_naturalText h)

theorem integerText_ne_nil (n : Int) : integerText n ≠ [] := by
  cases n with
  | ofNat m => exact naturalText_ne_nil m
  | negSucc m => simp [integerText]

theorem foldl_digits {s : List Char} (h : ∀ c ∈ s, c.isDigit = true) (n : Nat) :
    s.foldl (fun n c => 10 * n + (digitValue? c).getD 0) n = Nat.ofDigitChars 10 s n := by
  induction s generalizing n with
  | nil => simp
  | cons c cs ih =>
    rw [List.foldl_cons, ih (fun d hd => h d (by simp [hd])), Nat.ofDigitChars_cons,
      digitValue?_of_isDigit (h c (by simp))]
    rfl

theorem digitsValue_naturalText (n : Nat) : digitsValue (naturalText n) = n :=
  (foldl_digits (fun _ => isDigit_of_mem_naturalText) 0).trans Nat.ofDigitChars_ten_toDigits

theorem isDecimal_naturalText (n : Nat) : isDecimal (naturalText n) = true := by
  simp only [isDecimal, Bool.and_eq_true, Bool.not_eq_true', List.isEmpty_eq_false_iff,
    List.all_eq_true]
  exact ⟨naturalText_ne_nil n, fun c hc => isDigit_of_isDigit (isDigit_of_mem_naturalText hc)⟩

theorem isWritable_of_le {m n : Nat} (h : m ≤ n) (hn : isWritable n = true) :
    isWritable m = true := by
  rw [isWritable_natCast, decide_eq_true_iff] at hn ⊢
  exact Nat.lt_of_le_of_lt h hn

theorem length_naturalText_le {n k : Nat} (h : 0 < k) :
    (naturalText n).length ≤ k ↔ n < Nat.pow 10 k :=
  Nat.length_toDigits_le_iff (by decide) h

theorem length_naturalText_le_digitLimit {n : Nat} :
    (naturalText n).length ≤ digitLimit ↔ isWritable n = true := by
  rw [isWritable_natCast, decide_eq_true_iff]
  exact length_naturalText_le (by decide)

theorem ungroup_of_isDigit {s : List Char} (hs : s ≠ []) (h : ∀ c ∈ s, c.isDigit = true) :
    ungroup s = some s := by
  induction s with
  | nil => exact absurd rfl hs
  | cons c cs ih =>
    have hc := isDigit_of_isDigit (h c (by simp))
    cases cs with
    | nil => simp [ungroup, hc]
    | cons d ds =>
      have hd : d ≠ '_' := by
        rintro rfl
        exact absurd (h '_' (by simp)) (by decide)
      have hds := ih (by simp) fun e he => h e (by simp [he])
      simp [ungroup, hc, hds]

theorem natural?_naturalText {n : Nat} (h : isWritable n = true) :
    natural? (naturalText n) = some n := by
  rw [natural?, ungroup_of_isDigit (naturalText_ne_nil n) fun _ => isDigit_of_mem_naturalText]
  simp only [if_pos (length_naturalText_le_digitLimit.mpr h), digitsValue_naturalText]

theorem integer?_naturalText {n : Nat} (h : isWritable n = true) :
    integer? (naturalText n) = some (n : Int) := by
  have hn := natural?_naturalText h
  have hd := fun c => @isDigit_of_mem_naturalText n c
  generalize naturalText n = s at hn hd
  fun_cases integer? s with
  | case1 cs => exact absurd (hd '+' (by simp)) (by decide)
  | case2 cs => exact absurd (hd '-' (by simp)) (by decide)
  | case3 => simp [hn]

end Text

namespace ScalarField

theorem value_range {F : ScalarField} {x : Residue} (h : x.modulus = F.modulus) :
    0 ≤ x.value ∧ x.value < F.modulus := by
  have hv := x.value_fmod
  have h2 := F.two_le
  rw [h, Int.fmod_eq_emod_of_nonneg _ (by omega)] at hv
  rw [← hv]
  exact ⟨Int.emod_nonneg _ (by omega), Int.emod_lt_of_pos _ (by omega)⟩

end ScalarField

namespace Text

structure IsWord (w : List Char) : Prop where
  ne_nil : w ≠ []
  not_blank : ∀ c ∈ w, isBlank c = false

theorem IsWord.of_append {v w : List Char} (h : IsWord (v ++ w)) (hv : v ≠ []) : IsWord v :=
  ⟨hv, fun c hc => h.not_blank c (List.mem_append_left w hc)⟩

theorem isWord_naturalText (n : Nat) : IsWord (naturalText n) :=
  ⟨naturalText_ne_nil n, fun _ hc => isBlank_of_isDigit (isDigit_of_mem_naturalText hc)⟩

theorem words_append {w s : List Char} (hw : IsWord w) (hs : beginsWord s = false) :
    words (w ++ s) = w :: words s := by
  obtain ⟨hne, hb⟩ := hw
  induction w with
  | nil => exact absurd rfl hne
  | cons c cs ih =>
    have hc := hb c (by simp)
    cases cs with
    | nil => simp [words, hc, hs]
    | cons d ds =>
      have hd := hb d (by simp)
      have hh := ih (by simp) fun e he => hb e (by simp [he])
      rw [List.cons_append, words, hh]
      simp [hc, beginsWord, hd, growFirst]

theorem words_spaced {a b : List Char} (ha : IsWord a) (hb : IsWord b) :
    words (a ++ ' ' :: b) = [a, b] := by
  have hw : words (b ++ []) = [b] := words_append hb rfl
  rw [List.append_nil] at hw
  rw [words_append ha rfl, words, if_pos (by rfl), hw]

/-- A text that begins and ends with words. -/
structure IsTrimmed (s : List Char) : Prop where
  ne_nil : s ≠ []
  head : ∀ c ∈ s.head?, isBlank c = false
  last : ∀ c ∈ s.getLast?, isBlank c = false

theorem IsWord.isTrimmed {w : List Char} (h : IsWord w) : IsTrimmed w :=
  ⟨h.ne_nil, fun c hc => h.not_blank c (List.mem_of_mem_head? hc),
    fun c hc => h.not_blank c (List.mem_of_mem_getLast? hc)⟩

theorem isTrimmed_spaced {a b : List Char} (ha : IsWord a) (hb : IsWord b) :
    IsTrimmed (a ++ ' ' :: b) := by
  refine ⟨by simp, ?_, ?_⟩
  · rw [List.head?_append_of_ne_nil _ ha.ne_nil]
    exact ha.isTrimmed.head
  · have hc : ' ' :: b = [' '] ++ b := rfl
    rw [hc, ← List.append_assoc, List.getLast?_append_of_ne_nil _ hb.ne_nil]
    exact hb.isTrimmed.last

theorem dropWhile_append_of_head {p : Char → Bool} {s : List Char} (hs : s ≠ [])
    (h : ∀ c ∈ s.head?, p c = false) (t : List Char) : (s ++ t).dropWhile p = s ++ t := by
  cases s with
  | nil => exact absurd rfl hs
  | cons c cs => simp [h c rfl]

theorem trim_append {s t : List Char} (hs : IsTrimmed s) (ht : ∀ c ∈ t, isBlank c = true) :
    trim (s ++ t) = s := by
  have hne : s.reverse ≠ [] := by simpa using hs.ne_nil
  have hlast : ∀ c ∈ s.reverse.head?, isBlank c = false := by
    rw [List.head?_reverse]
    exact hs.last
  have hback := dropWhile_append_of_head hne hlast []
  rw [List.append_nil] at hback
  have hblank : ∀ c ∈ t.reverse, isBlank c = true := fun c hc => ht c (List.mem_reverse.mp hc)
  rw [trim, trimBy, dropWhile_append_of_head hs.ne_nil hs.head, List.reverse_append,
    List.dropWhile_append_of_pos hblank, hback, List.reverse_reverse]

theorem trim_of_isTrimmed {s : List Char} (hs : IsTrimmed s) : trim s = s := by
  have h := trim_append hs (t := []) (by simp)
  rwa [List.append_nil] at h

theorem trim_line {s : List Char} (hs : IsTrimmed s) : trim (s ++ ['\n']) = s :=
  trim_append hs (by simp [isBlank])

end Text

theorem ScalarField.modulus_of_parse {F : ScalarField} {s : List Char} {x : Residue}
    (h : F.parse s = .ok x) : x.modulus = F.modulus := by
  rw [parse] at h
  split at h
  · cases h
  · split at h
    · cases h
      rfl
    · cases h

theorem ScalarField.parse_naturalText {F : ScalarField} {n : Nat} (hn : n < F.modulus)
    (hw : Text.isWritable n = true) : F.parse (Text.naturalText n) = .ok (F.element n) := by
  have hr : 0 ≤ (n : Int) ∧ (n : Int) < F.modulus := by omega
  rw [parse, Text.trim_of_isTrimmed (Text.isWord_naturalText n).isTrimmed]
  simp only [Text.integer?_naturalText hw, if_pos hr]

end ProofCarrying
