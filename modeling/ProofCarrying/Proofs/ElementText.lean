import ProofCarrying.Proofs.LongPrimes
import ProofCarrying.Proofs.NormalForm

/-! The decimal text of elements. Reading takes the literals of the numbers below the modulus,
with blanks around them, and tells two kinds of other texts apart. Writing gives the one plain
form of a number. -/

namespace ProofCarrying

namespace Text

/-- A text is a literal with blanks around it. -/
def Denotes (text : List Char) (n : Int) : Prop :=
  ∃ front s back, Blanks front ∧ Blanks back ∧ text = front ++ s ++ back ∧ Literal s n

theorem denotes_iff {text : List Char} {n : Int} : Denotes text n ↔ Literal (trim text) n := by
  constructor
  · rintro ⟨front, s, back, hfront, hback, rfl, hs⟩
    rwa [trim_surround hfront hs.isWord.isTrimmed hback]
  · intro h
    obtain ⟨front, back, hfront, hback, hs⟩ := exists_trim text
    exact ⟨front, trim text, back, hfront, hback, hs, h⟩

theorem integer?_trim_eq_none {text : List Char} (h : ∀ n, ¬ Denotes text n) :
    integer? (trim text) = none := by
  cases hi : integer? (trim text) with
  | none => rfl
  | some n => exact absurd (denotes_iff.mpr (integer?_eq_some_iff.mp hi)) (h n)

theorem digitChar_of_isDigit {c : Char} (h : c.isDigit = true) :
    (c.toNat - 48).digitChar = c := by
  obtain ⟨h0, h9⟩ := toNat_of_isDigit h
  have hd : (c.toNat - 48).digitChar.toNat = 48 + (c.toNat - 48) :=
    Nat.toNat_digitChar_of_lt_ten (by omega)
  exact Char.toNat_inj.mp (by omega)

theorem digitsValue_concat {s : List Char} {c : Char} (h : c.isDigit = true) :
    digitsValue (s ++ [c]) = 10 * digitsValue s + (c.toNat - 48) := by
  simp [digitsValue, digitValue?_of_isDigit h]

theorem IsPlain.of_concat {s : List Char} {c : Char} (h : IsPlain (s ++ [c])) (hs : s ≠ []) :
    IsPlain s ∧ s ≠ ['0'] := by
  have hzero : ∀ t, s ≠ '0' :: t := by
    rintro t rfl
    exact absurd (h.zero (t ++ [c]) rfl) (by simp)
  refine ⟨⟨hs, fun d hd => h.digits d (List.mem_append_left _ hd), ?_⟩, hzero []⟩
  intro t ht
  exact absurd ht (hzero t)

/-- Induction on the digits from the left. What stands before the last digit has no leading
zero, so it is the text of a positive number. -/
theorem IsPlain.naturalText_eq {s : List Char} (h : IsPlain s) :
    naturalText (digitsValue s) = s := by
  induction s using List.reverseRecOn with
  | nil => exact absurd rfl h.ne_nil
  | append_singleton s c ih =>
    have hc : c.isDigit = true := h.digits c (by simp)
    obtain ⟨h0, h9⟩ := toNat_of_isDigit hc
    have hd : c.toNat - 48 < 10 := by omega
    rw [digitsValue_concat hc]
    by_cases hs : s = []
    · subst hs
      have hone : naturalText (c.toNat - 48) = [(c.toNat - 48).digitChar] :=
        Nat.toDigits_of_lt_base hd
      simpa [digitsValue, digitChar_of_isDigit hc] using hone
    · obtain ⟨hplain, hne⟩ := h.of_concat hs
      have heq := ih hplain
      have hpos : 0 < digitsValue s := by
        refine Nat.pos_of_ne_zero fun hz => hne ?_
        rw [hz] at heq
        exact heq.symm
      rw [naturalText_append hpos hd, heq, digitChar_of_isDigit hc]

theorem isPlain_iff {s : List Char} {n : Nat} :
    IsPlain s ∧ digitsValue s = n ↔ s = naturalText n := by
  constructor
  · rintro ⟨h, rfl⟩
    exact h.naturalText_eq.symm
  · rintro rfl
    exact ⟨isPlain_naturalText n, digitsValue_naturalText n⟩

end Text

namespace ScalarField

open Text

variable {F : ScalarField} {text : List Char} {x : Residue}

theorem exists_natural (h : x.modulus = F.modulus) :
    ∃ k : Nat, x.value = k ∧ k < F.modulus ∧ x = F.element k := by
  obtain ⟨h0, hlt⟩ := value_range h
  obtain ⟨k, hk⟩ := Int.eq_ofNat_of_zero_le h0
  refine ⟨k, hk, by omega, ?_⟩
  rw [← hk]
  exact eq_element_value h

theorem parse_eq_ok_iff_denotes : F.parse text = .ok x ↔
    x.modulus = F.modulus ∧ Denotes text x.value ∧ 0 ≤ x.value ∧ x.value < F.modulus := by
  rw [parse_eq_ok_iff]
  constructor
  · rintro ⟨n, hn, h0, hlt, rfl⟩
    obtain ⟨k, rfl⟩ := Int.eq_ofNat_of_zero_le h0
    have hv : (F.element k).value = k := value_element_of_lt (by omega)
    exact ⟨rfl, by rw [hv]; exact denotes_iff.mpr hn, by rw [hv]; exact ⟨h0, hlt⟩⟩
  · rintro ⟨hm, hn, h0, hlt⟩
    exact ⟨x.value, denotes_iff.mp hn, h0, hlt, eq_element_value hm⟩

theorem parse_out_of_range {n : Int} (h : Denotes text n) (hr : ¬ (0 ≤ n ∧ n < F.modulus)) :
    F.parse text = .error (.elementOutOfRange n F.modulus) := by
  have hi := integer?_eq_some_iff.mpr (denotes_iff.mp h)
  simp only [parse, hi, if_neg hr]

theorem parse_invalid (h : ∀ n, ¬ Denotes text n) :
    F.parse text = .error (.invalidElement (trim text)) := by
  simp only [parse, integer?_trim_eq_none h]

theorem integerText?_natCast {k : Nat} (h : isWritable k = true) :
    integerText? k = some (naturalText k) := by
  rw [integerText?, h]
  rfl

theorem format_of_value {k : Nat} (hx : x.value = k) (h : isWritable k = true) :
    format x = .ok (naturalText k) := by
  unfold format
  rw [hx, integerText?_natCast h]

/-- The form that is written is plain, so blanks around it are all that reading takes away. -/
theorem parse_format {k : Nat} {front back : List Char} (hk : k < F.modulus)
    (hw : isWritable k = true) (hfront : Blanks front) (hback : Blanks back) :
    F.parse (front ++ naturalText k ++ back) = .ok (F.element k) := by
  have hv : (F.element k).value = k := value_element_of_lt hk
  have hlit : Literal (naturalText k) k := integer?_eq_some_iff.mp (integer?_naturalText hw)
  refine parse_eq_ok_iff_denotes.mpr ⟨rfl, ?_, ?_⟩
  · rw [hv]
    exact ⟨front, naturalText k, back, hfront, hback, rfl, hlit⟩
  · rw [hv]
    omega

/-- The words for a number out of range are lost where the modulus cannot be written. -/
theorem told_out_of_range {n : Int} {p : Nat} (hn : isWritable n = true) :
    (Fault.elementOutOfRange n p).told = .elementOutOfRange n p ↔ isWritable p = true := by
  cases hp : isWritable p with
  | true => simp [Fault.told, Fault.numbers, hn, hp]
  | false => simp [Fault.told, Fault.numbers, hp]

theorem kind_told_out_of_range (n : Int) (p : Nat) :
    (Fault.elementOutOfRange n p).told.kind = .value :=
  Fault.kind_told_of_value rfl

/-- Which texts are read, and as which elements; what is told of a number out of range and of any
other text; and that writing gives the only plain form of the number that was read. The words for
a number out of range are told exactly if the modulus can be written. -/
theorem decimal_codec (F : ScalarField) (text : List Char) :
    (∀ x, F.parse text = .ok x ↔
      x.modulus = F.modulus ∧ Denotes text x.value ∧ 0 ≤ x.value ∧ x.value < F.modulus) ∧
    (∀ n, Denotes text n → ¬ (0 ≤ n ∧ n < F.modulus) →
      ∃ f, F.parse text = .error f ∧ f.told.kind = .value ∧
        f.message =
          "field element " ++ toString n ++ " out of range for GF(" ++ toString F.modulus ++ ")" ∧
        (f.told = f ↔ isWritable F.modulus = true)) ∧
    ((∀ n, ¬ Denotes text n) →
      ∃ f, F.parse text = .error f ∧ f.told = f ∧ f.kind = .value ∧
        f.message = "invalid field element encoding " ++ quote (trim text)) ∧
    (∀ x : Residue, x.modulus = F.modulus → (integerText x.value).length ≤ digitLimit →
      ∃ s, format x = .ok s ∧ ∀ front back, Blanks front → Blanks back →
        F.parse (front ++ s ++ back) = .ok x) ∧
    ∀ x, F.parse text = .ok x → ∃ s, format x = .ok s ∧
      ∀ w, IsPlain w ∧ (digitsValue w : Int) = x.value ↔ w = s := by
  refine ⟨fun x => parse_eq_ok_iff_denotes, ?_, ?_, ?_, ?_⟩
  · intro n hn hr
    have hw : isWritable n = true := (denotes_iff.mp hn).isWritable
    exact ⟨_, parse_out_of_range hn hr, kind_told_out_of_range n F.modulus, rfl,
      told_out_of_range hw⟩
  · intro h
    exact ⟨_, parse_invalid h, rfl, rfl, rfl⟩
  · intro x hx hl
    obtain ⟨k, hv, hk, rfl⟩ := exists_natural hx
    rw [hv] at hl
    have hw : isWritable k = true := length_naturalText_le_digitLimit.mp hl
    exact ⟨_, format_of_value hv hw, fun front back => parse_format hk hw⟩
  · intro x hx
    obtain ⟨hm, hn, -⟩ := parse_eq_ok_iff_denotes.mp hx
    obtain ⟨k, hv, -⟩ := exists_natural hm
    have hw : isWritable k = true := by
      rw [← hv]
      exact (denotes_iff.mp hn).isWritable
    refine ⟨_, format_of_value hv hw, ?_⟩
    intro w
    rw [hv, Int.natCast_inj]
    exact isPlain_iff

/-- A text with a sign, an underscore, two scripts and blanks is read and written back in its
plain form; the modulus itself is out of range, and a hexadecimal number is no literal. -/
theorem decimal_codec_two_scripts :
    ∃ (F : ScalarField) (x : Residue) (f g : Fault), F.modulus = 97 ∧
      F.parse [' ', '+', '4', '_', '٢', '\n'] = .ok x ∧ x.value = 42 ∧
      format x = .ok ['4', '2'] ∧ F.parse ['\t', '4', '2'] = .ok x ∧
      F.parse ['9', '7'] = .error f ∧
      f.told.message = "field element 97 out of range for GF(97)" ∧
      F.parse ['0', 'x', '2', 'a'] = .error g ∧ g.kind = .value := by
  let F : ScalarField := ⟨97, by decide⟩
  let x := F.element 42
  have hx : x.modulus = F.modulus := rfl
  have hdenotes : Denotes [' ', '+', '4', '_', '٢', '\n'] x.value :=
    denotes_iff.mpr (integer?_eq_some_iff.mp (by decide))
  have hlong : Denotes ['9', '7'] 97 := denotes_iff.mpr (integer?_eq_some_iff.mp (by decide))
  have hnone : ∀ n, ¬ Denotes ['0', 'x', '2', 'a'] n := by
    intro n hn
    have hi := integer?_eq_some_iff.mpr (denotes_iff.mp hn)
    exact absurd hi (by rw [show integer? (trim ['0', 'x', '2', 'a']) = none by decide]; simp)
  obtain ⟨hread, -, -, hround, hplain⟩ := decimal_codec F [' ', '+', '4', '_', '٢', '\n']
  obtain ⟨-, hrange, -⟩ := decimal_codec F ['9', '7']
  obtain ⟨-, -, hinvalid, -⟩ := decimal_codec F ['0', 'x', '2', 'a']
  have hparse := (hread x).mpr ⟨rfl, hdenotes, by decide, by decide⟩
  obtain ⟨s, hs, hform⟩ := hplain x hparse
  have hdigits : ∀ c ∈ ['4', '2'], c.isDigit = true := by simp
  obtain rfl : ['4', '2'] = s := (hform _).mp ⟨⟨by simp, hdigits, by simp⟩, by decide⟩
  obtain ⟨t, ht, hback⟩ := hround x hx (by decide)
  obtain rfl : ['4', '2'] = t := Except.ok.inj (hs.symm.trans ht)
  obtain ⟨f, hf, -, hmessage, htold⟩ := hrange 97 hlong (by decide)
  obtain ⟨g, hg, -, hkind, -⟩ := hinvalid hnone
  refine ⟨F, x, f, g, rfl, hparse, rfl, hs, hback ['\t'] [] (by simp [Blanks, isBlank])
    (by simp [Blanks]), hf, ?_, hg, hkind⟩
  have hwords : (Fault.elementOutOfRange 97 97).message =
      "field element 97 out of range for GF(97)" := by decide +kernel
  rw [htold.mpr (by decide +kernel), hmessage]
  exact hwords

theorem message_tooManyDigits_ne (n : Int) (p : Nat) :
    Fault.tooManyDigits.message ≠
      "field element " ++ toString n ++ " out of range for GF(" ++ toString p ++ ")" := by
  have hright : ∀ a b c d : String,
      ("field element " ++ a ++ b ++ c ++ d).toList.head? = some 'f' := by
    intro a b c d
    simp
  intro h
  have hleft : Fault.tooManyDigits.message.toList.head? = some 'E' := by decide +kernel
  rw [h] at hleft
  exact absurd ((hright _ _ _ _).symm.trans hleft) (by decide)

/-- The modulus is a prime number of 4457 digits. A number out of range is refused, but not in the
words that name it. -/
theorem not_told_of_long_modulus :
    ∃ (F : ScalarField) (text : List Char) (n : Int), F.modulus = longNumber 2047 ∧
      F.modulus.Prime ∧ Denotes text n ∧ ¬ (0 ≤ n ∧ n < F.modulus) ∧
      ∃ f, F.parse text = .error f ∧ f.told.message ≠
        "field element " ++ toString n ++ " out of range for GF(" ++ toString F.modulus ++ ")" := by
  let F : ScalarField := ⟨longNumber 2047, one_lt_longNumber 2047⟩
  have hn : Denotes ['-', '1'] (-1) := denotes_iff.mpr (integer?_eq_some_iff.mp (by decide))
  have hr : ¬ (0 ≤ (-1 : Int) ∧ (-1 : Int) < F.modulus) := by omega
  have htold : (Fault.elementOutOfRange (-1) F.modulus).told = .tooManyDigits := by
    simp [Fault.told, Fault.numbers, F, longNumber_not_writable]
  refine ⟨F, ['-', '1'], -1, rfl, prime_longNumber, hn, hr, _, parse_out_of_range hn hr, ?_⟩
  rw [htold]
  exact message_tooManyDigits_ne (-1) F.modulus

end ScalarField

end ProofCarrying
