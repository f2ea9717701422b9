import ProofCarrying.Proofs.Coefficients
import ProofCarrying.Proofs.Congruences
import ProofCarrying.Proofs.QueryLengths

/-! What a rank-one system answers about vectors of any residues. The rows are checked in order,
and the first that is foreign to the field or out of balance decides. -/

namespace ProofCarrying

namespace Fault

theorem kind_told_ne_index {f : Fault} (h : f.kind ≠ .index) : f.told.kind ≠ .index :=
  fun ht => h ((kind_told_eq_iff (by decide)).mp ht).1

end Fault

namespace RankOne

/-- The coefficient, or the entry that it multiplies, has another modulus than the field. -/
def Term.IsForeign (F : ScalarField) (z : List Residue) (t : Term) : Prop :=
  t.coefficient.modulus ≠ F.modulus ∨ ∃ x, x ∈ z[t.index]? ∧ x.modulus ≠ F.modulus

instance (F : ScalarField) (z : List Residue) (t : Term) : Decidable (t.IsForeign F z) :=
  inferInstanceAs (Decidable (_ ∨ _))

namespace Combination

variable {F : ScalarField} {z : List Residue} {l : Combination}

theorem within_iff (hw : l.width ≤ z.length) : l.Within F z ↔ ∀ t ∈ l, ¬ t.IsForeign F z := by
  constructor
  · intro h t ht
    obtain ⟨hc, x, hx, hm⟩ := h t ht
    rintro (hne | ⟨y, hy, hne⟩)
    · exact hne hc
    · have hxy : x = y := Option.some.inj (hx.symm.trans hy)
      exact hne (hxy ▸ hm)
  · intro h t ht
    have hlt : t.index < z.length := (index_lt_width ht).trans_le hw
    have hx := List.getElem?_eq_getElem hlt
    have hn := h t ht
    simp only [Term.IsForeign, not_or, not_not, not_exists, not_and] at hn
    exact ⟨hn.1, z[t.index], hx, hn.2 _ hx⟩

theorem accumulate_foreign (hw : l.width ≤ z.length) (h : ¬ l.Within F z) (n : Int) :
    ∃ a b, a ≠ b ∧ accumulate z (F.element n) l = .error (.mixedModuli a b) := by
  induction l generalizing n with
  | nil => exact absurd (fun t ht => absurd ht List.not_mem_nil) h
  | cons t ts ih =>
    have hlt : t.index < z.length := (index_lt_width List.mem_cons_self).trans_le hw
    have hts : width ts ≤ z.length :=
      width_le_iff.mpr fun u hu => width_le_iff.mp hw u (List.mem_cons_of_mem t hu)
    obtain ⟨x, hx⟩ : ∃ x, z[t.index]? = some x := ⟨_, List.getElem?_eq_getElem hlt⟩
    simp only [accumulate, hx, bind, Except.bind]
    by_cases hm : t.coefficient.modulus = x.modulus
    · rw [Residue.mul_of_eq hm]
      let y := t.coefficient.lift (t.coefficient.value * x.value)
      by_cases hc : y.modulus = F.modulus
      · have hrest : ¬ Within F z ts := by
          intro hin
          apply h
          intro u hu
          rcases List.mem_cons.mp hu with rfl | hu
          · exact ⟨hc, x, hx, hm.symm.trans hc⟩
          · exact hin u hu
        have hy : y = F.element y.value := ScalarField.eq_element_value hc
        have hadd : (F.element n).add y = .ok (F.element (n + y.value)) := by
          conv_lhs => rw [hy]
          exact F.add_element n y.value
        simp only [hadd, y]
        exact ih hts hrest _
      · have hne : (F.element n).modulus ≠ y.modulus := fun he => hc he.symm
        exact ⟨_, _, hne, by simp only [Residue.add_of_ne hne, y]⟩
    · exact ⟨_, _, hm, by simp only [Residue.mul_of_ne hm]⟩

theorem evaluate_foreign (hw : l.width ≤ z.length) (h : ¬ l.Within F z) :
    ∃ a b, a ≠ b ∧ l.evaluate F z = .error (.mixedModuli a b) :=
  accumulate_foreign hw h 0

end Combination

namespace Constraint

/-- Some term of the row is foreign to the field. -/
def IsForeign (F : ScalarField) (z : List Residue) (k : Constraint) : Prop :=
  ∃ t, t ∈ k.a ++ k.b ++ k.c ∧ t.IsForeign F z

/-- The row lies within the field and is out of balance. -/
def Fails (F : ScalarField) (z : List Residue) (k : Constraint) : Prop :=
  ¬ k.IsForeign F z ∧ ¬ k.Balances F (wire z)

instance (F : ScalarField) (z : List Residue) (k : Constraint) : Decidable (k.IsForeign F z) :=
  inferInstanceAs (Decidable (∃ t, t ∈ k.a ++ k.b ++ k.c ∧ _))

instance (F : ScalarField) (z : List Residue) (k : Constraint) : Decidable (k.Fails F z) :=
  inferInstanceAs (Decidable (_ ∧ _))

variable {F : ScalarField} {z : List Residue} {k : Constraint}

theorem within_iff (hw : k.width ≤ z.length) : k.Within F z ↔ ¬ k.IsForeign F z := by
  obtain ⟨ha, hb, hc⟩ := widths_le_iff.mp hw
  simp only [Within, Combination.within_iff ha, Combination.within_iff hb,
    Combination.within_iff hc, IsForeign, not_exists, not_and, List.forall_mem_append, and_assoc]

theorem holds_native (hw : k.width ≤ z.length) (h : ¬ k.IsForeign F z) :
    k.holds F z = .ok (decide (k.Balances F (wire z))) :=
  holds_within ((within_iff hw).mpr h)

theorem holds_foreign (hw : k.width ≤ z.length) (h : k.IsForeign F z) :
    ∃ a b, a ≠ b ∧ k.holds F z = .error (.mixedModuli a b) := by
  obtain ⟨hwa, hwb, hwc⟩ := widths_le_iff.mp hw
  have hn : ¬ k.Within F z := fun hin => (within_iff hw).mp hin h
  by_cases ha : k.a.Within F z
  · have hea := Combination.evaluate_within ha
    by_cases hb : k.b.Within F z
    · have heb := Combination.evaluate_within hb
      have hc : ¬ k.c.Within F z := fun hc => hn ⟨ha, hb, hc⟩
      obtain ⟨m, n, hne, hec⟩ := Combination.evaluate_foreign hwc hc
      refine ⟨m, n, hne, ?_⟩
      simp only [holds, hea, heb, hec, bind, Except.bind, F.mul_element]
    · obtain ⟨m, n, hne, heb⟩ := Combination.evaluate_foreign hwb hb
      refine ⟨m, n, hne, ?_⟩
      simp only [holds, hea, heb, bind, Except.bind]
  · obtain ⟨m, n, hne, hea⟩ := Combination.evaluate_foreign hwa ha
    refine ⟨m, n, hne, ?_⟩
    simp only [holds, hea, bind, Except.bind]

end Constraint

namespace System

/-- Rows that hold are passed over. -/
theorem check_append {F : ScalarField} {z : List Residue} {passed : List Constraint}
    (h : ∀ k ∈ passed, k.holds F z = .ok true) (total position : Nat) (ks : List Constraint) :
    check F z total position (passed ++ ks) = check F z total (position + passed.length) ks := by
  induction passed generalizing position with
  | nil => rfl
  | cons k passed ih =>
    have hrest := ih (fun j hj => h j (List.mem_cons_of_mem k hj)) (position + 1)
    have hpos : position + 1 + passed.length = position + (passed.length + 1) := by omega
    rw [List.cons_append, check, h k List.mem_cons_self, List.length_cons, ← hpos]
    exact hrest

theorem check_fault_mixed {F : ScalarField} {z : List Residue} {total position : Nat}
    {ks : List Constraint} {f : Fault} (hw : ∀ k ∈ ks, k.width ≤ z.length)
    (h : (check F z total position ks).outcome = .error f) : ∃ m n, f = .mixedModuli m n := by
  induction ks generalizing position with
  | nil => cases h
  | cons k ks ih =>
    have hk := hw k List.mem_cons_self
    have hks : ∀ j ∈ ks, j.width ≤ z.length := fun j hj => hw j (List.mem_cons_of_mem k hj)
    by_cases hf : k.IsForeign F z
    · obtain ⟨m, n, -, he⟩ := Constraint.holds_foreign hk hf
      rw [check, he] at h
      cases h
      exact ⟨m, n, rfl⟩
    · by_cases hb : k.Balances F (wire z)
      · rw [check, Constraint.holds_native hk hf, decide_eq_true hb] at h
        exact ih hks h
      · rw [check, Constraint.holds_native hk hf, decide_eq_false hb] at h
        cases h

variable {s : System} {primary auxiliary : List Residue}

section

variable (hp : primary.length + 1 = s.numPublicInputs)
  (ha : primary.length + auxiliary.length + 1 = s.numTotalVariables)

include hp ha

theorem isSatisfied_eq_check : s.isSatisfied primary auxiliary =
    check s.field (s.assignment primary auxiliary) s.constraints.length 0 s.constraints := by
  rw [isSatisfied, if_neg (not_not.mpr hp), if_neg (not_not.mpr ha)]

omit hp in
theorem width_le_assignment {k : Constraint} (hk : k ∈ s.constraints) :
    k.width ≤ (s.assignment primary auxiliary).length := by
  rw [length_assignment ha]
  exact s.width_le k hk

omit hp in
theorem holds_passed {k : Constraint} (hk : k ∈ s.constraints)
    (h : ¬ (k.IsForeign s.field (s.assignment primary auxiliary) ∨
      k.Fails s.field (s.assignment primary auxiliary))) :
    k.holds s.field (s.assignment primary auxiliary) = .ok true := by
  obtain ⟨hf, hn⟩ := not_or.mp h
  have hb : k.Balances s.field (wire (s.assignment primary auxiliary)) := by
    by_contra hb
    exact hn ⟨hf, hb⟩
  rw [Constraint.holds_native (width_le_assignment ha hk) hf, decide_eq_true hb]

theorem isSatisfied_passed (h : ∀ k ∈ s.constraints,
      ¬ (k.IsForeign s.field (s.assignment primary auxiliary) ∨
        k.Fails s.field (s.assignment primary auxiliary))) :
    s.isSatisfied primary auxiliary = .silent (.ok true) := by
  have hall := check_append (fun k hk => holds_passed ha hk (h k hk)) s.constraints.length 0 []
  rw [List.append_nil] at hall
  rw [isSatisfied_eq_check hp ha, hall]
  rfl

/-- The answer is that of the first row which does not hold. -/
theorem isSatisfied_split {passed rest : List Constraint} {k : Constraint}
    (hs : s.constraints = passed ++ k :: rest)
    (h : ∀ j ∈ passed, ¬ (j.IsForeign s.field (s.assignment primary auxiliary) ∨
      j.Fails s.field (s.assignment primary auxiliary))) :
    s.isSatisfied primary auxiliary = check s.field (s.assignment primary auxiliary)
      s.constraints.length passed.length (k :: rest) := by
  have hpass : ∀ j ∈ passed, j.holds s.field (s.assignment primary auxiliary) = .ok true := by
    intro j hj
    have hm : j ∈ s.constraints := hs ▸ List.mem_append_left _ hj
    exact holds_passed ha hm (h j hj)
  have hcheck := check_append hpass s.constraints.length 0 (k :: rest)
  rw [← hs, Nat.zero_add] at hcheck
  rw [isSatisfied_eq_check hp ha, hcheck]

theorem isSatisfied_fails {passed rest : List Constraint} {k : Constraint}
    (hs : s.constraints = passed ++ k :: rest)
    (h : ∀ j ∈ passed, ¬ (j.IsForeign s.field (s.assignment primary auxiliary) ∨
      j.Fails s.field (s.assignment primary auxiliary)))
    (hk : k.Fails s.field (s.assignment primary auxiliary)) :
    s.isSatisfied primary auxiliary =
      ⟨.ok false, [.log (unsatisfied passed.length s.constraints.length)]⟩ := by
  have hm : k ∈ s.constraints := hs ▸ List.mem_append_right _ List.mem_cons_self
  have hh := Constraint.holds_native (width_le_assignment ha hm) hk.1
  rw [isSatisfied_split hp ha hs h, check, hh, decide_eq_false hk.2]

theorem isSatisfied_foreign {passed rest : List Constraint} {k : Constraint}
    (hs : s.constraints = passed ++ k :: rest)
    (h : ∀ j ∈ passed, ¬ (j.IsForeign s.field (s.assignment primary auxiliary) ∨
      j.Fails s.field (s.assignment primary auxiliary)))
    (hk : k.IsForeign s.field (s.assignment primary auxiliary)) :
    ∃ m n, m ≠ n ∧ s.isSatisfied primary auxiliary = .silent (.error (.mixedModuli m n)) := by
  have hm : k ∈ s.constraints := hs ▸ List.mem_append_right _ List.mem_cons_self
  obtain ⟨m, n, hne, he⟩ := Constraint.holds_foreign (width_le_assignment ha hm) hk
  refine ⟨m, n, hne, ?_⟩
  rw [isSatisfied_split hp ha hs h, check, he]

end

theorem isSatisfied_fault_kind {f : Fault}
    (h : (s.isSatisfied primary auxiliary).outcome = .error f) :
    f.kind = .shape ∨ ∃ m n, f = .mixedModuli m n := by
  by_cases hk : f.kind = .shape
  · exact Or.inl hk
  · right
    have hn : ¬ (primary.length + 1 ≠ s.numPublicInputs ∨
        primary.length + auxiliary.length + 1 ≠ s.numTotalVariables) := by
      intro hl
      obtain ⟨g, hg, hgk⟩ := isSatisfied_shape_iff.mpr hl
      have hfg : f = g := Except.error.inj (h.symm.trans hg)
      exact hk (hfg ▸ hgk)
    obtain ⟨hp, ha⟩ := not_or.mp hn
    rw [not_not] at hp ha
    rw [isSatisfied_eq_check hp ha] at h
    exact check_fault_mixed (fun k hk => width_le_assignment ha hk) h

/-- Vectors of other lengths than declared are refused, as a mismatch of shapes where the
declared length can be put into words. Otherwise the first row that is foreign to the field or
out of balance decides, and there is no verdict but that of such a row or that all rows hold. -/
theorem isSatisfied_first_row (s : System) (primary auxiliary : List Residue) :
    ((∃ f, (s.isSatisfied primary auxiliary).outcome = .error f ∧ f.kind = .shape) ↔
      primary.length + 1 ≠ s.numPublicInputs ∨
        primary.length + auxiliary.length + 1 ≠ s.numTotalVariables) ∧
    ((∃ f, (s.isSatisfied primary auxiliary).outcome = .error f ∧ f.told.kind = .shape) ↔
      primary.length + 1 ≠ s.numPublicInputs ∧
        Text.isWritable (s.numPublicInputs - 1) = true ∨
      primary.length + 1 = s.numPublicInputs ∧
        primary.length + auxiliary.length + 1 ≠ s.numTotalVariables ∧
        Text.isWritable (s.numTotalVariables - s.numPublicInputs) = true) ∧
    (primary.length + 1 = s.numPublicInputs →
      primary.length + auxiliary.length + 1 = s.numTotalVariables →
      let z := s.assignment primary auxiliary
      ((∀ k ∈ s.constraints, ¬ (k.IsForeign s.field z ∨ k.Fails s.field z)) →
        s.isSatisfied primary auxiliary = .silent (.ok true)) ∧
      ∀ passed k rest, s.constraints = passed ++ k :: rest →
        (∀ j ∈ passed, ¬ (j.IsForeign s.field z ∨ j.Fails s.field z)) →
        (k.Fails s.field z → s.isSatisfied primary auxiliary =
          ⟨.ok false, [.log (unsatisfied passed.length s.constraints.length)]⟩) ∧
        (k.IsForeign s.field z → ∃ m n, m ≠ n ∧
          s.isSatisfied primary auxiliary = .silent (.error (.mixedModuli m n)) ∧
          (Fault.mixedModuli m n).told.kind = .value)) ∧
    ∀ f, (s.isSatisfied primary auxiliary).outcome = .error f →
      f.kind ≠ .index ∧ f.told.kind ≠ .index := by
  refine ⟨isSatisfied_shape_iff, isSatisfied_told_iff, ?_, ?_⟩
  · intro hp ha
    refine ⟨isSatisfied_passed hp ha, ?_⟩
    intro passed k rest hs hpassed
    refine ⟨isSatisfied_fails hp ha hs hpassed, ?_⟩
    intro hk
    obtain ⟨m, n, hne, he⟩ := isSatisfied_foreign hp ha hs hpassed hk
    exact ⟨m, n, hne, he, Fault.kind_told_mixedModuli m n⟩
  · intro f hf
    have hk : f.kind ≠ .index := by
      rcases isSatisfied_fault_kind hf with hk | ⟨m, n, rfl⟩
      · simp [hk]
      · simp [Fault.kind]
    exact ⟨hk, Fault.kind_told_ne_index hk⟩

/-- A row with a repeated variable holds and the next fails; over another field the first row
is foreign already. -/
theorem isSatisfied_first_row_of_three :
    ∃ (s : System) (primary auxiliary foreign : List Residue),
      s.isSatisfied primary auxiliary = ⟨.ok false, [.log (unsatisfied 1 3)]⟩ ∧
      (∃ m n, m ≠ n ∧ s.isSatisfied primary foreign = .silent (.error (.mixedModuli m n)) ∧
        (Fault.mixedModuli m n).told.kind = .value) ∧
      ∃ f, (s.isSatisfied primary []).outcome = .error f ∧ f.told.kind = .shape := by
  let F : ScalarField := ⟨7, by decide⟩
  let G : ScalarField := ⟨11, by decide⟩
  let holding : Constraint := ⟨[⟨1, F.element 2⟩, ⟨1, F.element 3⟩], [⟨2, F.one⟩],
    [⟨3, F.element 5⟩]⟩
  let failing : Constraint := ⟨[⟨0, F.one⟩], [⟨3, F.one⟩], [⟨2, F.one⟩]⟩
  let strange : Constraint := ⟨[⟨0, G.one⟩], [], []⟩
  let s : System := ⟨F, 2, 4, [holding, failing, strange], by decide, by decide, by decide⟩
  obtain ⟨-, -, hrows, -⟩ := isSatisfied_first_row s [F.element 3] [F.element 4, F.element 5]
  obtain ⟨-, -, hmixed, -⟩ := isSatisfied_first_row s [F.element 3] [G.element 4, F.element 5]
  obtain ⟨-, htold, -, -⟩ := isSatisfied_first_row s [F.element 3] []
  obtain ⟨-, hfirst⟩ := hrows rfl rfl
  obtain ⟨-, hstrange⟩ := hmixed rfl rfl
  refine ⟨s, [F.element 3], [F.element 4, F.element 5], [G.element 4, F.element 5], ?_, ?_, ?_⟩
  · exact (hfirst [holding] failing [strange] rfl (by decide)).1 (by decide)
  · exact (hstrange [] holding [failing, strange] rfl (by simp)).2 (by decide)
  · exact htold.mpr (Or.inr ⟨rfl, by decide, by decide +kernel⟩)

/-- A system declares a number of public inputs of 4301 digits. Vectors of other lengths are
refused, but not as a mismatch of shapes. -/
theorem not_told_of_many_inputs :
    ∃ (s : System) (primary auxiliary : List Residue),
      primary.length + 1 ≠ s.numPublicInputs ∧
      ∃ f, s.isSatisfied primary auxiliary = .silent (.error f) ∧ f.told.kind = .value := by
  obtain ⟨n, -, hn, hw⟩ := Text.exists_dvd_not_writable Nat.one_pos
  let s : System := ⟨⟨97, by decide⟩, n + 1, n + 1, [], by omega, Nat.le_refl _, by simp⟩
  have hne : ([] : List Residue).length + 1 ≠ s.numPublicInputs := by
    simp only [List.length_nil, s]
    omega
  refine ⟨s, [], [], hne, .primaryLength 0 n, ?_, ?_⟩
  · rw [isSatisfied, if_pos hne]
    simp [s]
  · simp [Fault.told, Fault.numbers, hw, Fault.kind]

end System

end RankOne

end ProofCarrying
