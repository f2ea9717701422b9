import Mathlib.Data.List.Forall2
import ProofCarrying.Proofs.SortedCoefficients

/-! Systems in which combinations are rearranged. The rows say the same as before, so the system is
accepted as before and gives the same answers, with the same records. -/

namespace ProofCarrying.RankOne

namespace Constraint

structure Rearranges (k r : Constraint) : Prop where
  a : k.a.Rearranges r.a
  b : k.b.Rearranges r.b
  c : k.c.Rearranges r.c

section

variable {F : ScalarField} {z : List Residue} {k r : Constraint}

theorem Rearranges.width_le (h : k.Rearranges r) (hk : k.CoefficientsIn F) {n : Nat}
    (hw : k.width ≤ n) : r.width ≤ n := by
  obtain ⟨⟨hka, hkb⟩, hkc⟩ := coefficientsIn_iff.mp hk
  obtain ⟨ha, hb, hc⟩ := widths_le_iff.mp hw
  exact widths_le_iff.mpr ⟨(h.a.keeps hka).width_le ha, (h.b.keeps hkb).width_le hb,
    (h.c.keeps hkc).width_le hc⟩

theorem Rearranges.holds_eq (h : k.Rearranges r) (hk : k.CoefficientsIn F) (hz : Over F z)
    (hw : k.width ≤ z.length) : r.holds F z = k.holds F z := by
  obtain ⟨⟨hka, hkb⟩, hkc⟩ := coefficientsIn_iff.mp hk
  obtain ⟨ha, hb, hc⟩ := widths_le_iff.mp hw
  have hea := (h.a.keeps hka).evaluate_eq hka hz ha
  have heb := (h.b.keeps hkb).evaluate_eq hkb hz hb
  have hec := (h.c.keeps hkc).evaluate_eq hkc hz hc
  rw [holds, holds, hea, heb, hec]

end

end Constraint

namespace System

theorem check_congr {F : ScalarField} {z : List Residue} {ks rs : List Constraint}
    (h : List.Forall₂ (fun k r => r.holds F z = k.holds F z) ks rs) (total position : Nat) :
    check F z total position rs = check F z total position ks := by
  induction h generalizing position with
  | nil => rfl
  | cons hk _ ih => rw [check, check, hk, ih]

section

variable {s : System} {rs : List Constraint}
  (hc : ∀ k ∈ s.constraints, k.CoefficientsIn s.field)
  (h : List.Forall₂ Constraint.Rearranges s.constraints rs)

include h in
theorem rearranged_rows :
    List.Forall₂ (fun k r => k ∈ s.constraints ∧ Constraint.Rearranges k r) s.constraints rs :=
  (List.forall₂_and_left _ _).mpr ⟨fun _ hk => hk, h⟩

include hc h

theorem rearranged_width_le : ∀ r ∈ rs, r.width ≤ s.numTotalVariables := by
  have hrows : List.Forall₂ (fun r _ => r.width ≤ s.numTotalVariables ∧ True)
      rs s.constraints := by
    refine .flip ((rearranged_rows h).imp ?_)
    rintro k r ⟨hk, hkr⟩
    exact ⟨hkr.width_le (hc k hk) (s.width_le k hk), trivial⟩
  exact ((List.forall₂_and_left _ _).mp hrows).1

theorem rearranged_holds {z : List Residue} (hz : Over s.field z)
    (hn : z.length = s.numTotalVariables) :
    List.Forall₂ (fun k r => Constraint.holds s.field r z = Constraint.holds s.field k z)
      s.constraints rs := by
  refine (rearranged_rows h).imp ?_
  rintro k r ⟨hk, hkr⟩
  exact hkr.holds_eq (hc k hk) hz (hn ▸ s.width_le k hk)

end

theorem over_assignment {s : System} {primary auxiliary : List Residue}
    (hp : Over s.field primary) (ha : Over s.field auxiliary) :
    Over s.field (s.assignment primary auxiliary) := by
  intro x hx
  rcases List.mem_cons.mp hx with rfl | hx
  · rfl
  · exact (List.mem_append.mp hx).elim (hp x) (ha x)

theorem isSatisfied_rearranged {s t : System} {primary auxiliary : List Residue}
    (hc : ∀ k ∈ s.constraints, k.CoefficientsIn s.field)
    (h : List.Forall₂ Constraint.Rearranges s.constraints t.constraints)
    (hf : t.field = s.field) (hn : t.numPublicInputs = s.numPublicInputs)
    (hm : t.numTotalVariables = s.numTotalVariables)
    (hp : Over s.field primary) (ha : Over s.field auxiliary) :
    t.isSatisfied primary auxiliary = s.isSatisfied primary auxiliary := by
  rw [isSatisfied, isSatisfied, hn, hm, assignment, hf, ← h.length_eq]
  by_cases hlp : primary.length + 1 = s.numPublicInputs
  · by_cases hla : primary.length + auxiliary.length + 1 = s.numTotalVariables
    · rw [if_neg (not_not.mpr hlp), if_neg (not_not.mpr hla), if_neg (not_not.mpr hlp),
        if_neg (not_not.mpr hla)]
      have hrows := rearranged_holds hc h (over_assignment hp ha) (length_assignment hla)
      exact check_congr hrows s.constraints.length 0
    · rw [if_neg (not_not.mpr hlp), if_pos hla, if_neg (not_not.mpr hlp), if_pos hla]
  · rw [if_pos hlp, if_pos hlp]

end System

theorem mkSystem_rearranged {F : ScalarField} {n m : Int} {ks rs : List Constraint} {s : System}
    (hs : mkSystem F n m ks = .ok s) (hc : ∀ k ∈ ks, k.CoefficientsIn F)
    (h : List.Forall₂ Constraint.Rearranges ks rs) :
    ∃ t, mkSystem F n m rs = .ok t ∧ ∀ primary auxiliary, Over F primary → Over F auxiliary →
      t.isSatisfied primary auxiliary = s.isSatisfied primary auxiliary := by
  obtain ⟨rfl, hn, hm, rfl⟩ := mkSystem_eq_ok_iff.mp hs
  let t : System := ⟨s.field, s.numPublicInputs, s.numTotalVariables, rs, s.one_le, s.public_le,
    System.rearranged_width_le hc h⟩
  refine ⟨t, mkSystem_eq_ok_iff.mpr ⟨rfl, hn, hm, rfl⟩, ?_⟩
  intro primary auxiliary hp ha
  exact System.isSatisfied_rearranged hc h rfl rfl rfl hp ha

/-- A combination means its coefficients added up by variable: its value is the sum of the totals
times the wires, so equal totals give equal values, and rearranged rows leave a system and its
answers as they were. Coefficients listed by index are refused when an index is negative, and
otherwise give one combination, in the order of the indices, whatever the order of the list. -/
theorem meaning_by_totals (F : ScalarField) :
    (∀ (l : Combination) (z : List Residue), l.CoefficientsIn F → Over F z →
      l.maxIndex < z.length →
      l.evaluate F z = .ok (F.element (∑ i ∈ Finset.range z.length, l.total i * wire z i))) ∧
    (∀ l r : Combination, l.CoefficientsIn F → r.CoefficientsIn F →
      (∀ i, l.total i ≡ r.total i [ZMOD F.modulus]) → ∀ z, Over F z → l.maxIndex < z.length →
      r.maxIndex < z.length → l.evaluate F z = r.evaluate F z) ∧
    (∀ n m ks rs s, mkSystem F n m ks = .ok s → (∀ k ∈ ks, k.CoefficientsIn F) →
      List.Forall₂ Constraint.Rearranges ks rs →
      ∃ t, mkSystem F n m rs = .ok t ∧ ∀ primary auxiliary, Over F primary → Over F auxiliary →
        t.isSatisfied primary auxiliary = s.isSatisfied primary auxiliary) ∧
    ∀ cs : List (Int × Int),
      ((∃ e ∈ cs, e.1 < 0) → ∃ f, Combination.ofCoefficients F cs = .error f ∧
        f.told.kind = .value ∧ f.told.message = "variable index must be >= 0") ∧
      ((∀ e ∈ cs, 0 ≤ e.1) → ∃ l, Combination.ofCoefficients F cs = .ok l ∧
        l.Pairwise (fun t u => t.index < u.index) ∧ ∀ z, Over F z → l.maxIndex < z.length →
          l.evaluate F z = .ok (F.element
            (∑ i ∈ Finset.range z.length, Combination.coefficientOf cs i * wire z i))) ∧
      (∀ cs', (∀ i, Combination.listed? cs' i = Combination.listed? cs i) →
        Combination.ofCoefficients F cs' = Combination.ofCoefficients F cs) ∧
      ((cs.map Prod.fst).Nodup → ∀ cs', cs'.Perm cs →
        Combination.ofCoefficients F cs' = Combination.ofCoefficients F cs) := by
  refine ⟨?_, ?_, ?_, ?_⟩
  · intro l z hl hz hw
    exact Combination.evaluate_eq_total hl hz (Combination.width_le_of_maxIndex_lt hw)
  · intro l r hl hr h z hz hlw hrw
    exact Combination.evaluate_congr hl hr hz (Combination.width_le_of_maxIndex_lt hlw)
      (Combination.width_le_of_maxIndex_lt hrw) h
  · intro n m ks rs s hs hc h
    exact mkSystem_rearranged hs hc h
  · intro cs
    refine ⟨?_, ?_, ?_, ?_⟩
    · intro h
      exact ⟨_, Combination.ofCoefficients_of_neg F h, rfl, rfl⟩
    · intro h
      obtain ⟨l, hl, hcol⟩ := Combination.ofCoefficients_collects (F := F) h
      refine ⟨l, hl, hcol.increasing, ?_⟩
      intro z hz hw
      exact hcol.evaluate_eq hz (Combination.width_le_of_maxIndex_lt hw)
    · intro cs' h
      rw [Combination.ofCoefficients, Combination.sorted_eq_of_listed h,
        Combination.ofCoefficients]
    · intro hnd cs' h
      rw [Combination.ofCoefficients, Combination.sorted_eq_of_perm hnd h,
        Combination.ofCoefficients]

/-- Modulo 7 the coefficients 3 and 4 of one variable cancel, and merging them away leaves a row
that fails as before. -/
theorem meaning_by_totals_modulo_seven :
    ∃ (F : ScalarField) (l r : Combination) (s t : System) (z : List Residue),
      Combination.Rearranges l r ∧ l.length = 3 ∧ r.length = 1 ∧
      l.evaluate F z = .ok (F.element 5) ∧ r.evaluate F z = l.evaluate F z ∧
      mkSystem F 2 3 [⟨l, [⟨0, F.one⟩], [⟨2, F.one⟩]⟩] = .ok s ∧
      mkSystem F 2 3 [⟨r, [⟨0, F.one⟩], [⟨2, F.one⟩]⟩] = .ok t ∧
      t.isSatisfied [F.element 5] [F.element 2] = s.isSatisfied [F.element 5] [F.element 2] ∧
      s.isSatisfied [F.element 5] [F.element 2] =
        ⟨.ok false, [.log (System.unsatisfied 0 1)]⟩ ∧
      Combination.ofCoefficients F [(2, 4), (1, 8)] =
        Combination.ofCoefficients F [(1, 8), (2, 4)] ∧
      ∃ f, Combination.ofCoefficients F [(-1, 1)] = .error f ∧ f.told.kind = .value := by
  let F : ScalarField := ⟨7, by decide⟩
  let l : Combination := [⟨2, F.element 3⟩, ⟨1, F.one⟩, ⟨2, F.element 4⟩]
  let r : Combination := [⟨1, F.one⟩]
  let row (a : Combination) : Constraint := ⟨a, [⟨0, F.one⟩], [⟨2, F.one⟩]⟩
  let z := [F.one, F.element 5, F.element 2]
  let s : System := ⟨F, 2, 3, [row l], by decide, by decide, by decide⟩
  obtain ⟨hvalue, hequal, hsystem, hmaps⟩ := meaning_by_totals F
  have hl : l.CoefficientsIn F := by simp [l, Combination.CoefficientsIn, ScalarField.one]
  have hr : r.CoefficientsIn F := by simp [r, Combination.CoefficientsIn, ScalarField.one]
  have hz : Over F z := by simp [z, Over, ScalarField.one]
  have hk : ∀ k ∈ [row l], k.CoefficientsIn F := by
    simp [row, l, Constraint.coefficientsIn_iff, ScalarField.one]
  have hlr : l.Rearranges r :=
    .head (.permute (.cons _ (.swap _ _ _)))
      (.head (.merge _ (F.add_element 3 4)) (.single (.drop _ (by decide))))
  obtain ⟨t, ht, hsame⟩ := hsystem 2 3 [row l] [row r] s rfl hk (.cons ⟨hlr, .refl, .refl⟩ .nil)
  have htotals := (hlr.keeps hl).total
  refine ⟨F, l, r, s, t, z, hlr, rfl, rfl, ?_, ?_, rfl, ht, ?_, ?_, ?_, ?_⟩
  · rw [hvalue l z hl hz (by decide)]
    exact congrArg Except.ok (ScalarField.element_eq_iff.mpr (by decide))
  · exact (hequal l r hl hr htotals z hz (by decide) (by decide)).symm
  · exact hsame _ _ (by simp [Over]) (by simp [Over])
  · dsimp only [s, row, l, F]
    rfl
  · exact (hmaps _).2.2.2 (by decide) _ (.swap _ _ _)
  · obtain ⟨f, hf, hkind, -⟩ := (hmaps [(-1, 1)]).1 (by decide)
    exact ⟨f, hf, hkind⟩

/-- No combination is built from a coefficient of the variable -1. -/
theorem not_every_map_combines :
    ¬ ∀ (F : ScalarField) (cs : List (Int × Int)),
      ∃ l, Combination.ofCoefficients F cs = .ok l := by
  intro h
  obtain ⟨l, hl⟩ := h ⟨97, by decide⟩ [(-1, 1)]
  cases hl

end ProofCarrying.RankOne
