import ProofCarrying.Proofs.Draws
import ProofCarrying.Proofs.RowVerdicts

/-! Random constraint systems are satisfied by the assignment that they were drawn for, wherever it
is split into public and private variables. -/

namespace ProofCarrying.RankOne

open ProofCarrying.Action

namespace System

variable {s : System}

theorem isSatisfied_balanced {primary auxiliary : List Residue}
    (hp : primary.length + 1 = s.numPublicInputs)
    (ha : primary.length + auxiliary.length + 1 = s.numTotalVariables)
    (h : ∀ k ∈ s.constraints, k.BalancedBy s.field (s.assignment primary auxiliary)) :
    s.isSatisfied primary auxiliary = .silent (.ok true) := by
  apply isSatisfied_passed hp ha
  intro k hk
  obtain ⟨hwidth, hwithin, hbal⟩ := h k hk
  rintro (hf | ⟨-, hn⟩)
  · exact (Constraint.within_iff hwidth).mp hwithin hf
  · exact hn hbal

variable {F : ScalarField} {zs : List Residue} {numPublicInputs numConstraints maxTerms : Int}

/-- The constant wire and the public variables come first, so any split gives back the assignment
that the rows were drawn for. -/
theorem DrawnFor.satisfied (h : s.DrawnFor F numPublicInputs zs numConstraints maxTerms)
    (h1 : 1 ≤ numPublicInputs) (hle : numPublicInputs ≤ zs.length + 1) :
    s.isSatisfied (zs.take (numPublicInputs - 1).toNat) (zs.drop (numPublicInputs - 1).toNat) =
      .silent (.ok true) := by
  have hpublic := h.publicInputs
  have htotal := h.totalVariables
  apply isSatisfied_balanced
  · rw [List.length_take]
    omega
  · rw [List.length_take, List.length_drop]
    omega
  · intro k hk
    rw [assignment, h.field, List.take_append_drop]
    exact (h.constraints k hk).toBalancedBy

end System

theorem mkSystem_out_of_range (F : ScalarField) {numPublicInputs total : Int}
    (ks : List Constraint) (h : ¬ (1 ≤ numPublicInputs ∧ numPublicInputs ≤ total)) :
    ∃ f, mkSystem F numPublicInputs total ks = .error f ∧ f.kind = .value := by
  by_cases h1 : 1 ≤ numPublicInputs
  · have hn : ¬ numPublicInputs ≤ total := fun hle => h ⟨h1, hle⟩
    refine ⟨.fewerVariables, ?_, rfl⟩
    rw [mkSystem, dif_pos h1, dif_neg hn]
  · refine ⟨.noConstantWire, ?_, rfl⟩
    rw [mkSystem, dif_neg h1]

section

variable {γ : Type} [Generator γ] {F : ScalarField} {zs : List Residue}
  {numPublicInputs numConstraints maxTerms : Int}

/-- The rows are drawn before the number of public inputs is looked at. -/
theorem randomSystem_out_of_range
    (hg : Generator.Lawful γ (CombinationRange (zs.length + 1) maxTerms))
    (hz : ∀ x ∈ zs, x.modulus = F.modulus) (ht : 1 ≤ maxTerms)
    (h : ¬ (1 ≤ numPublicInputs ∧ numPublicInputs ≤ zs.length + 1)) (g : γ) :
    ∃ f g', randomSystem F numPublicInputs zs numConstraints maxTerms g = (.error f, g') ∧
      f.kind = .value := by
  obtain ⟨ks, g', hks, -⟩ := (ensures_randomConstraint hg hz ht).times numConstraints.toNat g
  have hlen : ((F.one :: zs).length : Int) = zs.length + 1 := by
    rw [List.length_cons]
    push_cast
    rfl
  obtain ⟨f, hf, hk⟩ := mkSystem_out_of_range F ks (hlen ▸ h)
  refine ⟨f, g', ?_, hk⟩
  simp only [randomSystem, bind_apply, hks]
  rw [hf]
  rfl

/-- Whatever is drawn, the system has a variable for each entry of the assignment and for the
constant one, and as many rows as were asked for, whose first two combinations have at least one
term and no more than allowed, by increasing indices. The assignment satisfies it without a record.
A number of public inputs for which there is no split of the assignment is refused. -/
theorem randomSystem_satisfied
    (hg : Generator.Lawful γ (CombinationRange (zs.length + 1) maxTerms))
    (hz : ∀ x ∈ zs, x.modulus = F.modulus) (hn : 0 ≤ numConstraints) (ht : 1 ≤ maxTerms) (g : γ) :
    (1 ≤ numPublicInputs → numPublicInputs ≤ zs.length + 1 →
      ∃ s g', randomSystem F numPublicInputs zs numConstraints maxTerms g = (.ok s, g') ∧
        s.field = F ∧ (s.numPublicInputs : Int) = numPublicInputs ∧
        s.numTotalVariables = zs.length + 1 ∧ (s.constraints.length : Int) = numConstraints ∧
        (∀ k ∈ s.constraints, ∀ l ∈ [k.a, k.b], 1 ≤ l.length ∧ (l.length : Int) ≤ maxTerms ∧
          l.Pairwise fun t u => t.index < u.index) ∧
        s.isSatisfied (zs.take (numPublicInputs - 1).toNat)
          (zs.drop (numPublicInputs - 1).toNat) = .silent (.ok true)) ∧
    (¬ (1 ≤ numPublicInputs ∧ numPublicInputs ≤ zs.length + 1) →
      ∃ f g', randomSystem F numPublicInputs zs numConstraints maxTerms g = (.error f, g') ∧
        f.told.kind = .value) := by
  constructor
  · intro h1 hle
    obtain ⟨s, g', hs, h⟩ := ensures_randomSystem hg hz h1 hle ht g
    have hrows : (s.constraints.length : Int) = numConstraints := by
      rw [h.rows]
      exact Int.toNat_of_nonneg hn
    refine ⟨s, g', hs, h.field, h.publicInputs, h.totalVariables, hrows, ?_, h.satisfied h1 hle⟩
    intro k hk l hl
    have hd := h.constraints k hk
    have hdrawn : l.Drawn F (F.one :: zs).length maxTerms := by
      simp only [List.mem_cons, List.not_mem_nil, or_false] at hl
      rcases hl with rfl | rfl
      · exact hd.left
      · exact hd.right
    exact ⟨hdrawn.one_le, hdrawn.length_le, hdrawn.increasing⟩
  · intro h
    obtain ⟨f, g', hf, hk⟩ := randomSystem_out_of_range hg hz ht h g
    exact ⟨f, g', hf, Fault.kind_told_of_value hk⟩

end

/-- Three rows modulo six over an assignment of three, one of which is public; five public inputs
are too many. -/
theorem randomSystem_satisfied_modulo_six :
    ∃ (F : ScalarField) (s : System) (g : Congruential), F.modulus = 6 ∧
      randomSystem F 2 (F.elements [2, 3, 5]) 3 3 (Congruential.ofSeed 1) = (.ok s, g) ∧
      s.numTotalVariables = 4 ∧ (s.constraints.length : Int) = 3 ∧
      s.isSatisfied [F.element 2] [F.element 3, F.element 5] = .silent (.ok true) ∧
      ∃ f h, randomSystem F 5 (F.elements [2, 3, 5]) 3 3 (Congruential.ofSeed 1) = (.error f, h) ∧
        f.told.kind = .value := by
  let F : ScalarField := ⟨6, by decide⟩
  have hz : ∀ x ∈ F.elements [2, 3, 5], x.modulus = F.modulus := by decide
  have hg := Congruential.lawful (CombinationRange 4 3)
  obtain ⟨hdrawn, -⟩ := @randomSystem_satisfied _ _ F _ 2 3 3 hg hz (by decide) (by decide)
    (Congruential.ofSeed 1)
  obtain ⟨-, hrefused⟩ := @randomSystem_satisfied _ _ F _ 5 3 3 hg hz (by decide) (by decide)
    (Congruential.ofSeed 1)
  obtain ⟨s, g, hs, -, -, htotal, hrows, -, hsat⟩ := hdrawn (by decide) (by decide)
  exact ⟨F, s, g, rfl, hs, htotal, hrows, hsat, hrefused (by decide)⟩

end ProofCarrying.RankOne
