import ProofCarrying.Proofs.Numerals

/-! Which texts denote an integer: a sign or none, then digits of any script, where a single
underscore may stand between two digits. Such a text has no blanks. -/

namespace ProofCarrying

namespace Text

/-- A text of digits and single underscores between them, with its digits alone. -/
inductive Grouped : List Char → List Char → Prop
  | single {c : Char} (hc : isDigit c = true) : Grouped [c] [c]
  | next {c : Char} {s ds : List Char} (hc : isDigit c = true) (h : Grouped s ds) :
    Grouped (c :: s) (c :: ds)
  | gap {c : Char} {s ds : List Char} (hc : isDigit c = true) (h : Grouped s ds) :
    Grouped (c :: '_' :: s) (c :: ds)

inductive Literal : List Char → Int → Prop
  | plain {s ds : List Char} (h : Grouped s ds) (hl : ds.length ≤ digitLimit) :
    Literal s (digitsValue ds)
  | plus {s ds : List Char} (h : Grouped s ds) (hl : ds.length ≤ digitLimit) :
    Literal ('+' :: s) (digitsValue ds)
  | minus {s ds : List Char} (h : Grouped s ds) (hl : ds.length ≤ digitLimit) :
    Literal ('-' :: s) (-digitsValue ds)

theorem Grouped.exists_cons {s ds : List Char} (h : Grouped s ds) :
    ∃ c t, s = c :: t ∧ isDigit c = true := by
  cases h with
  | single hc => exact ⟨_, _, rfl, hc⟩
  | next hc => exact ⟨_, _, rfl, hc⟩
  | gap hc => exact ⟨_, _, rfl, hc⟩

theorem ungroup_cons {c d : Char} {ds : List Char} (hc : isDigit c = true)
    (hd : isDigit d = true) : ungroup (c :: d :: ds) = (ungroup (d :: ds)).map (c :: ·) := by
  have hne : d ≠ '_' := by
    rintro rfl
    exact absurd hd (by decide)
  simp [ungroup, hc]

theorem ungroup_of_grouped {s ds : List Char} (h : Grouped s ds) : ungroup s = some ds := by
  induction h with
  | single hc => simp [ungroup, hc]
  | @next c s ds hc h ih =>
    obtain ⟨d, t, rfl, hd⟩ := h.exists_cons
    rw [ungroup_cons hc hd, ih]
    rfl
  | gap hc _ ih => simp [ungroup, hc, ih]

theorem grouped_of_ungroup {s ds : List Char} (h : ungroup s = some ds) : Grouped s ds := by
  fun_induction ungroup s generalizing ds with
  | case1 => simp at h
  | case2 c hc =>
    cases h
    exact .single hc
  | case3 c hc es ih =>
    obtain ⟨fs, hf, rfl⟩ := Option.map_eq_some_iff.mp h
    exact .gap hc (ih hf)
  | case4 c hc d es hd ih =>
    obtain ⟨fs, hf, rfl⟩ := Option.map_eq_some_iff.mp h
    exact .next hc (ih hf)
  | case5 => simp at h

theorem natural?_eq_some_iff {s : List Char} {n : Nat} :
    natural? s = some n ↔ ∃ ds, Grouped s ds ∧ ds.length ≤ digitLimit ∧ n = digitsValue ds := by
  constructor
  · intro h
    cases hu : ungroup s with
    | none => simp [natural?, hu] at h
    | some ds =>
      rw [natural?, hu] at h
      obtain ⟨hl, hn⟩ := Option.ite_none_right_eq_some.mp h
      exact ⟨ds, grouped_of_ungroup hu, hl, (Option.some.inj hn).symm⟩
  · rintro ⟨ds, hg, hl, rfl⟩
    rw [natural?, ungroup_of_grouped hg]
    exact if_pos hl

theorem integer?_eq_some_iff {s : List Char} {n : Int} :
    integer? s = some n ↔ Literal s n := by
  constructor
  · intro h
    fun_cases integer? s with
    | case1 t =>
      obtain ⟨m, hm, rfl⟩ := Option.map_eq_some_iff.mp h
      obtain ⟨ds, hg, hl, rfl⟩ := natural?_eq_some_iff.mp hm
      exact .plus hg hl
    | case2 t =>
      obtain ⟨m, hm, rfl⟩ := Option.map_eq_some_iff.mp h
      obtain ⟨ds, hg, hl, rfl⟩ := natural?_eq_some_iff.mp hm
      exact .minus hg hl
    | case3 =>
      rw [integer?] at h
      · obtain ⟨m, hm, rfl⟩ := Option.map_eq_some_iff.mp h
        obtain ⟨ds, hg, hl, rfl⟩ := natural?_eq_some_iff.mp hm
        exact .plain hg hl
      all_goals assumption
  · intro h
    cases h with
    | plus hg hl =>
      rw [integer?, natural?_eq_some_iff.mpr ⟨_, hg, hl, rfl⟩]
      rfl
    | minus hg hl =>
      rw [integer?, natural?_eq_some_iff.mpr ⟨_, hg, hl, rfl⟩]
      rfl
    | plain hg hl =>
      have hn := natural?_eq_some_iff.mpr ⟨_, hg, hl, rfl⟩
      obtain ⟨c, t, rfl, hc⟩ := hg.exists_cons
      rw [integer?, hn]
      · rfl
      · rintro u ⟨⟩
        exact absurd hc (by decide)
      · rintro u ⟨⟩
        exact absurd hc (by decide)

/-- The blocks of ten digits lie between the blanks. -/
theorem decimalZeros_between : ∀ z ∈ decimalZeros, z = 0x30 ∨ (0x660 ≤ z ∧ z + 10 ≤ 0x1680) ∨
    (0x1680 < z ∧ z + 10 ≤ 0x2000) ∨ 0x3000 < z := by
  decide

theorem not_isBlank_of_isDigit {c : Char} (h : isDigit c = true) : isBlank c = false := by
  obtain ⟨d, hd⟩ := Option.isSome_iff_exists.mp h
  obtain ⟨z, hz, -⟩ := Option.map_eq_some_iff.mp hd
  have hr := List.find?_some hz
  have hb := decimalZeros_between z (List.mem_of_find?_eq_some hz)
  simp only [Bool.and_eq_true, decide_eq_true_eq] at hr
  simp only [isBlank, Bool.or_eq_false_iff, Bool.and_eq_false_iff, decide_eq_false_iff_not,
    beq_eq_false_iff_ne]
  omega

theorem isWord_of_isDecimal {s : List Char} (h : isDecimal s = true) : IsWord s := by
  simp only [isDecimal, Bool.and_eq_true, Bool.not_eq_true', List.isEmpty_eq_false_iff,
    List.all_eq_true] at h
  exact ⟨h.1, fun c hc => not_isBlank_of_isDigit (h.2 c hc)⟩

theorem Grouped.not_blank {s ds : List Char} (h : Grouped s ds) :
    ∀ c ∈ s, isBlank c = false := by
  induction h with
  | single hc => simpa using not_isBlank_of_isDigit hc
  | next hc _ ih => exact List.forall_mem_cons.mpr ⟨not_isBlank_of_isDigit hc, ih⟩
  | gap hc _ ih =>
    exact List.forall_mem_cons.mpr
      ⟨not_isBlank_of_isDigit hc, List.forall_mem_cons.mpr ⟨by decide, ih⟩⟩

theorem Literal.isWord {s : List Char} {n : Int} (h : Literal s n) : IsWord s := by
  cases h with
  | plain hg =>
    obtain ⟨c, t, rfl, -⟩ := hg.exists_cons
    exact ⟨by simp, hg.not_blank⟩
  | plus hg => exact ⟨by simp, List.forall_mem_cons.mpr ⟨by decide, hg.not_blank⟩⟩
  | minus hg => exact ⟨by simp, List.forall_mem_cons.mpr ⟨by decide, hg.not_blank⟩⟩

end Text

/-- The text of an element denotes the least residue of the element and no other integer. -/
theorem ScalarField.parse_eq_ok_iff {F : ScalarField} {s : List Char} {x : Residue} :
    F.parse s = .ok x ↔
      ∃ n, Text.Literal (Text.trim s) n ∧ 0 ≤ n ∧ n < F.modulus ∧ x = F.element n := by
  simp only [← Text.integer?_eq_some_iff]
  constructor
  · intro h
    cases hi : Text.integer? (Text.trim s) with
    | none => simp [parse, hi] at h
    | some n =>
      by_cases hr : 0 ≤ n ∧ n < F.modulus
      · simp only [parse, hi, if_pos hr, Except.ok.injEq] at h
        exact ⟨n, rfl, hr.1, hr.2, h.symm⟩
      · simp [parse, hi, if_neg hr] at h
  · rintro ⟨n, hi, h0, hn, rfl⟩
    simp only [parse, hi, if_pos (And.intro h0 hn)]

end ProofCarrying
