import ProofCarrying.Proofs.SortedCoefficients
import ProofCarrying.Proofs.TallyRows
import ProofCarrying.Proofs.WellFormedness

/-! Which tallies can be built. The arity and the name must not be negative, and the type must be
positive and not zero in the field; the tally is then well formed. -/

namespace ProofCarrying

section

variable {α β : Type} {x : Except Fault α} {f : α → Except Fault β}

/-- Only a plain value out of place makes it fail. -/
def FailsPlainly (r : Except Fault α) : Prop :=
  ∀ e, r = .error e → e.kind = .value

theorem failsPlainly_pure (a : α) : FailsPlainly (pure a) := by
  rintro e ⟨⟩

theorem FailsPlainly.bind (hx : FailsPlainly x) (hf : ∀ a, FailsPlainly (f a)) :
    FailsPlainly (x >>= f) := by
  cases x with
  | ok a => exact hf a
  | error e =>
    rintro _ ⟨⟩
    exact hx e rfl

/-- When all that follows fails in the same way, it does not matter which step fails first. -/
theorem FailsPlainly.bind_of_error (hx : FailsPlainly x)
    (hf : ∀ a, ∃ e, f a = .error e ∧ e.kind = .value) :
    ∃ e, (x >>= f) = .error e ∧ e.kind = .value := by
  cases x with
  | ok a => exact hf a
  | error e => exact ⟨e, rfl, hx e rfl⟩

end

namespace RankOne

theorem Combination.failsPlainly_ofCoefficients (F : ScalarField) (cs : List (Int × Int)) :
    FailsPlainly (ofCoefficients F cs) := by
  by_cases h : ∀ e ∈ cs, 0 ≤ e.1
  · obtain ⟨l, hl, -⟩ := ofCoefficients_collects (F := F) h
    rw [hl]
    exact failsPlainly_pure l
  · simp only [not_forall, not_le] at h
    obtain ⟨e, he, hneg⟩ := h
    rw [ofCoefficients_of_neg F ⟨e, he, hneg⟩]
    rintro _ ⟨⟩
    rfl

theorem Constraint.failsPlainly_ofCoefficients (F : ScalarField) (a b c : List (Int × Int)) :
    FailsPlainly (ofCoefficients F a b c) := by
  have ha := Combination.failsPlainly_ofCoefficients F a
  have hb := Combination.failsPlainly_ofCoefficients F b
  have hc := Combination.failsPlainly_ofCoefficients F c
  exact ha.bind fun l => hb.bind fun m => hc.bind fun n => failsPlainly_pure (Constraint.mk l m n)

end RankOne

namespace Tally

open RankOne

variable {F : ScalarField} {maxArity type name : Int}

/-- The last wire is that of the summand, so with a negative arity there are not enough wires for
the public inputs. -/
theorem mkSystem_of_neg (h : maxArity < 0) (rows : List Constraint) :
    mkSystem F (1 + payloadLength) (summandWire maxArity + 1) rows = .error .fewerVariables := by
  have h₁ : (1 : Int) ≤ 1 + payloadLength := by decide
  have h₂ : ¬ (1 + payloadLength : Int) ≤ summandWire maxArity + 1 := by
    simp only [payloadLength, summandWire]
    omega
  rw [mkSystem, dif_pos h₁, dif_neg h₂]

/-- There are no slots then, but the arity is noticed when the rows or the system are made. -/
theorem system_of_neg (F : ScalarField) (type : Int) (h : maxArity < 0) :
    ∃ f, system F maxArity type = .error f ∧ f.kind = .value := by
  have hslots : List.range maxArity.toNat = [] := by
    rw [Int.toNat_of_nonpos h.le]
    rfl
  have htypes : typeRows F type (List.range maxArity.toNat) = .ok [] := by rw [hslots]; rfl
  have hsum : FailsPlainly (sumRow F maxArity) := Constraint.failsPlainly_ofCoefficients F _ _ _
  have hcount : FailsPlainly (countRow F maxArity) :=
    Constraint.failsPlainly_ofCoefficients F _ _ _
  have harity : FailsPlainly (arityRow F maxArity type) :=
    Constraint.failsPlainly_ofCoefficients F _ _ _
  rw [system, htypes]
  refine hsum.bind_of_error fun sum => hcount.bind_of_error fun count => ?_
  exact harity.bind_of_error fun arity => ⟨.fewerVariables, mkSystem_of_neg h _, rfl⟩

/-- A tally of the shape that was asked for, with the counts of its arity, well formed without a
record. -/
structure WellBuilt (maxArity type name : Int) (p : Predicate System) : Prop where
  shape : p.shape = shape maxArity type name
  wellFormed : p.wellFormedness = .ok true
  records : p.reportRecords = .ok []
  publicInputs : p.system.numPublicInputs = 3
  totalVariables : (p.system.numTotalVariables : Int) = 5 + 3 * maxArity
  rows : (p.system.constraints.length : Int) = maxArity + 3
  equalLengths : p.shape.equalInputAndOutput = true
  reliesOnSameType : p.reliesOnSameType = true

theorem payloadTotal_replicate (n : Nat) (l : Int) :
    Layout.payloadTotal (List.replicate n l) = n * l := by
  induction n with
  | zero => simp [Layout.payloadTotal]
  | succ n ih =>
    rw [List.replicate_succ, Layout.payloadTotal, ih]
    push_cast
    ring

theorem wellBuilt {s : System} {k : Nat} (hp : ¬ (F.modulus : Int) ∣ type)
    (hs : SystemMeans F k type s) : WellBuilt k type name ⟨shape k type name, s, true, F⟩ := by
  let p : Predicate System := ⟨shape k type name, s, true, F⟩
  have hl : p.lengthsWellSpecified = true := by
    simp [p, Predicate.lengthsWellSpecified, shape]
  have hi : p.correctNumInputs = true := by
    have hpublic : (s.numPublicInputs : Int) = 3 := by rw [hs.publicInputs]; rfl
    exact beq_iff_eq.mpr hpublic.symm
  have hv : p.correctNumVariables = true := by
    have htotal : p.shape.totalVariables = s.numTotalVariables := by
      rw [hs.totalVariables]
      simp only [p, Shape.totalVariables, shape, payloadTotal_replicate, payloadLength,
        Int.toNat_natCast]
      push_cast
      ring
    exact beq_iff_eq.mpr htotal
  refine ⟨rfl, ?_, Predicate.reportRecords_eq_nil hl hi hv hp, hs.publicInputs, ?_, ?_, ?_, rfl⟩
  · rw [Predicate.wellFormedness_eq hl hi hv]
    exact if_neg hp
  · rw [hs.totalVariables]
    push_cast
    rfl
  · rw [hs.rows]
    push_cast
    rfl
  · simp [Shape.equalInputAndOutput, shape]

/-- What comes of a request for a tally: the first of four checks that fails decides, and a tally
that passes them is built. -/
inductive Outcome (F : ScalarField) (maxArity type name : Int) :
    Except Fault (Predicate System) → Prop
  | zeroType (h : (F.modulus : Int) ∣ type) : Outcome F maxArity type name (.error .zeroTallyType)
  | negativeArity (h : ¬ (F.modulus : Int) ∣ type) (ha : maxArity < 0) (f : Fault)
      (hf : f.kind = .value) : Outcome F maxArity type name (.error f)
  | negativeName (h : ¬ (F.modulus : Int) ∣ type) (ha : 0 ≤ maxArity) (hn : name < 0) :
      Outcome F maxArity type name (.error (.negativeQuantity "name" name))
  | negativeType (h : ¬ (F.modulus : Int) ∣ type) (ha : 0 ≤ maxArity) (hn : 0 ≤ name)
      (ht : type < 0) : Outcome F maxArity type name (.error (.negativeQuantity "type" type))
  | built (h : ¬ (F.modulus : Int) ∣ type) (ha : 0 ≤ maxArity) (hn : 0 ≤ name) (ht : 1 ≤ type)
      (p : Predicate System) (hp : WellBuilt maxArity type name p) :
      Outcome F maxArity type name (.ok p)

theorem zero_in_field_iff : type = 0 ∨ F.element type = F.zero ↔ (F.modulus : Int) ∣ type := by
  rw [ScalarField.element_eq_zero_iff]
  constructor
  · rintro (rfl | h)
    · exact dvd_zero _
    · exact h
  · exact Or.inr

section

variable (h : ¬ (F.modulus : Int) ∣ type)

include h

theorem predicate_eq_bind : predicate F maxArity type name = system F maxArity type >>= fun s =>
    Predicate.ofShape (shape maxArity type name) s true none := by
  have hif : ¬ (type = 0 ∨ F.element type = F.zero) := fun h0 => h (zero_in_field_iff.mp h0)
  rw [predicate, if_neg hif]

theorem predicate_of_neg_arity (ha : maxArity < 0) :
    ∃ f, predicate F maxArity type name = .error f ∧ f.kind = .value := by
  obtain ⟨f, hs, hf⟩ := system_of_neg F type ha
  exact ⟨f, by rw [predicate_eq_bind h, hs]; rfl, hf⟩

/-- The rows of a tally can be made for every type, so what is wrong with the shape is told. -/
theorem predicate_of_fault {k : Nat} {f : Fault} (hf : (shape k type name).fault? = some f) :
    predicate F k type name = .error f := by
  obtain ⟨s, hs, -⟩ := system_spec F k type
  rw [predicate_eq_bind h, hs]
  simp only [bind, Except.bind, Predicate.ofShape, hf]

theorem predicate_of_neg_name {k : Nat} (hn : name < 0) :
    predicate F k type name = .error (.negativeQuantity "name" name) := by
  apply predicate_of_fault h
  simp [Shape.fault?, shape, Shape.quantities, Shape.negative?, hn]

theorem predicate_of_neg_type {k : Nat} (hn : 0 ≤ name) (ht : type < 0) :
    predicate F k type name = .error (.negativeQuantity "type" type) := by
  apply predicate_of_fault h
  simp [Shape.fault?, shape, Shape.quantities, Shape.negative?, hn.not_gt, ht]

end

theorem predicate_outcome (F : ScalarField) (maxArity type name : Int) :
    Outcome F maxArity type name (predicate F maxArity type name) := by
  by_cases h : (F.modulus : Int) ∣ type
  · rw [predicate, if_pos (zero_in_field_iff.mpr h)]
    exact .zeroType h
  · by_cases ha : maxArity < 0
    · obtain ⟨f, he, hf⟩ : ∃ f, predicate F maxArity type name = .error f ∧ f.kind = .value :=
        predicate_of_neg_arity h ha
      rw [he]
      exact .negativeArity h ha f hf
    · have ha0 : 0 ≤ maxArity := by omega
      obtain ⟨k, rfl⟩ := Int.eq_ofNat_of_zero_le ha0
      by_cases hn : name < 0
      · rw [predicate_of_neg_name h hn]
        exact .negativeName h ha0 hn
      · have hn0 : 0 ≤ name := by omega
        by_cases ht : type < 0
        · rw [predicate_of_neg_type h hn0 ht]
          exact .negativeType h ha0 hn0 ht
        · have hne : type ≠ 0 := fun h0 => h (h0 ▸ dvd_zero _)
          have hpos : 0 < type := by omega
          obtain ⟨s, hok, hs⟩ := predicate_spec k hpos h hn0
          rw [hok]
          exact .built h ha0 hn0 hpos _ (wellBuilt h hs)

theorem kind_told_negativeQuantity (label : String) (n : Int) :
    (Fault.negativeQuantity label n).told.kind =
      if Text.isWritable n then .shape else .value := by
  cases hw : Text.isWritable n <;> simp [Fault.told, Fault.numbers, Fault.kind, hw]

/-- A tally is built exactly for an arity and a name that are not negative and a positive type that
is not zero in the field, and it is well formed then. A type that is zero in the field and a
negative arity are plain values out of place. A negative name or type is a mismatch of shapes, told
as such where the number can be put into words; the name is checked first. -/
theorem predicate_outcomes (F : ScalarField) (maxArity type name : Int) :
    ((∃ p, predicate F maxArity type name = .ok p) ↔
      0 ≤ maxArity ∧ 0 ≤ name ∧ 1 ≤ type ∧ ¬ (F.modulus : Int) ∣ type) ∧
    (∀ p, predicate F maxArity type name = .ok p → WellBuilt maxArity type name p) ∧
    ((F.modulus : Int) ∣ type ∨ maxArity < 0 →
      ∃ f, predicate F maxArity type name = .error f ∧ f.told.kind = .value) ∧
    (¬ (F.modulus : Int) ∣ type → 0 ≤ maxArity → name < 0 ∨ type < 0 →
      ∃ f, predicate F maxArity type name = .error f ∧ f.kind = .shape ∧
        f.told.kind =
          if Text.isWritable (if name < 0 then name else type) then .shape else .value) := by
  have h := predicate_outcome F maxArity type name
  generalize predicate F maxArity type name = outcome at h ⊢
  cases h with
  | zeroType h =>
    refine ⟨by simp [h], by simp, ?_, fun hn => absurd h hn⟩
    intro _
    exact ⟨_, rfl, rfl⟩
  | negativeArity h ha f hf =>
    refine ⟨by simp [ha.not_ge], by simp, ?_, fun _ ha0 => absurd ha ha0.not_gt⟩
    intro _
    exact ⟨f, rfl, Fault.kind_told_of_value hf⟩
  | negativeName h ha hn =>
    refine ⟨by simp [hn.not_ge], by simp, by simp [h, ha.not_gt], ?_⟩
    intro _ _ _
    refine ⟨_, rfl, rfl, ?_⟩
    rw [if_pos hn, kind_told_negativeQuantity]
  | negativeType h ha hn ht =>
    have hlt : ¬ 1 ≤ type := by omega
    refine ⟨by simp [hlt], by simp, by simp [h, ha.not_gt], ?_⟩
    intro _ _ _
    refine ⟨_, rfl, rfl, ?_⟩
    rw [if_neg hn.not_gt, kind_told_negativeQuantity]
  | built h ha hn ht p hp =>
    refine ⟨by simp [h, ha, hn, ht], ?_, by simp [h, ha.not_gt], ?_⟩
    · intro q hq
      cases hq
      exact hp
    · intro _ _ hneg
      omega

/-- Modulo six, of two slots and the type four; the type twelve is refused, and so is a negative
name. -/
theorem predicate_outcomes_modulo_six :
    ∃ (F : ScalarField) (p : Predicate System), F.modulus = 6 ∧
      predicate F 2 4 0 = .ok p ∧ p.wellFormedness = .ok true ∧
      (p.system.numTotalVariables : Int) = 11 ∧ (p.system.constraints.length : Int) = 5 ∧
      (∃ f, predicate F 2 12 0 = .error f ∧ f.told.kind = .value) ∧
      ∃ f, predicate F 2 4 (-1) = .error f ∧ f.told.kind = .shape := by
  let F : ScalarField := ⟨6, by decide⟩
  have h4 : ¬ (F.modulus : Int) ∣ 4 := by decide
  obtain ⟨hreturns, hbuilt, -, -⟩ := predicate_outcomes F 2 4 0
  obtain ⟨-, -, hvalue, -⟩ := predicate_outcomes F 2 12 0
  obtain ⟨-, -, -, hshape⟩ := predicate_outcomes F 2 4 (-1)
  obtain ⟨p, hp⟩ := hreturns.mpr ⟨by decide, by decide, by decide, h4⟩
  have hw := hbuilt p hp
  obtain ⟨f, hf, -, hk⟩ := hshape h4 (by decide) (Or.inl (by decide))
  refine ⟨F, p, rfl, hp, hw.wellFormed, hw.totalVariables, hw.rows,
    hvalue (Or.inl (by decide)), f, hf, ?_⟩
  rw [hk, if_pos (by decide +kernel)]

/-- Only the name is wrong, and it has 4301 digits: no mismatch of shapes is told. -/
theorem not_told_of_long_negative_name :
    ∃ (F : ScalarField) (maxArity type name : Int),
      0 ≤ maxArity ∧ 1 ≤ type ∧ ¬ (F.modulus : Int) ∣ type ∧
      name = -(Nat.pow 10 Text.digitLimit : Nat) ∧ name < 0 ∧
      ∃ f, predicate F maxArity type name = .error f ∧ f.told.kind = .value := by
  obtain ⟨n, hn, hpos, hw⟩ := Text.exists_pow_digitLimit
  rw [hn]
  let F : ScalarField := ⟨97, by decide⟩
  have h1 : ¬ (F.modulus : Int) ∣ 1 := by decide
  have hneg : (-(n : Int)) < 0 := by omega
  have hwn : Text.isWritable (-(n : Int)) = false := by
    rwa [Text.isWritable, Int.natAbs_neg]
  have he : predicate F (0 : Nat) 1 (-n) = .error (.negativeQuantity "name" (-n)) :=
    predicate_of_neg_name h1 hneg
  refine ⟨F, (0 : Nat), 1, -n, by decide, by decide, h1, rfl, hneg, _, he, ?_⟩
  rw [kind_told_negativeQuantity, hwn]
  rfl

end Tally

end ProofCarrying
