import ProofCarrying.Predicate.Report
import ProofCarrying.Proofs.SlotContents
import ProofCarrying.RankOne.Records

/-! When a predicate asks its constraint system, and about vectors of which lengths. The counts
that a report compares with those of the system are the lengths of these vectors. -/

namespace ProofCarrying

namespace Shape

structure Accepts (s : Shape) (outgoing : Message) (inputs : Inputs) : Prop where
  outgoing : (outgoing.payload.length : Int) = s.outgoing
  arity : (inputs.incoming.length : Int) ≤ s.maxArity
  slots : ∀ (i : Nat) (m : Message) (l : Int), inputs.incoming[i]? = some m →
    s.incoming[i]? = some l → (m.payload.length : Int) = l
  localData : (inputs.localData.length : Int) = s.localData
  witness : (inputs.witness.length : Int) = s.witness

/-- The first disagreement of the arguments with the declared shape, as a fault. -/
inductive Disagrees (s : Shape) (outgoing : Message) (inputs : Inputs) : Fault → Prop
  | outgoing (h : (outgoing.payload.length : Int) ≠ s.outgoing) :
    Disagrees s outgoing inputs (.outgoingLength outgoing.payload.length s.outgoing)
  | inputs {f : Fault} (ho : (outgoing.payload.length : Int) = s.outgoing)
      (h : Layout.Misfit s.incoming s.localData s.witness inputs f) :
    Disagrees s outgoing inputs f

variable {s : Shape} {outgoing : Message} {inputs : Inputs}

theorem accepts_iff (hs : s.Admissible) : s.Accepts outgoing inputs ↔
    (outgoing.payload.length : Int) = s.outgoing ∧
      Layout.Fits s.incoming s.localData s.witness inputs := by
  have hm := hs.1
  constructor
  · intro h
    have ha := h.arity
    exact ⟨h.outgoing, by omega, h.slots, h.localData, h.witness⟩
  · rintro ⟨ho, h⟩
    have ha := h.arity
    exact ⟨ho, by omega, h.slots, h.localData, h.witness⟩

theorem Disagrees.kind {f : Fault} (h : s.Disagrees outgoing inputs f) : f.kind = .shape := by
  cases h with
  | outgoing => rfl
  | inputs _ h => cases h <;> rfl

theorem Disagrees.unique {f g : Fault} (hf : s.Disagrees outgoing inputs f)
    (hg : s.Disagrees outgoing inputs g) : f = g := by
  cases hf with
  | outgoing h =>
    cases hg with
    | outgoing => rfl
    | inputs ho => exact absurd ho h
  | inputs ho h =>
    cases hg with
    | outgoing h' => exact absurd ho h'
    | inputs _ h' => exact h.unique h'

end Shape

namespace Predicate

variable {κ : Type} [ConstraintSystem κ] {p : Predicate κ} {outgoing : Message} {inputs : Inputs}

theorem isSatisfied_accepted (hs : p.shape.Admissible) (h : p.shape.Accepts outgoing inputs) :
    p.isSatisfied outgoing inputs = ConstraintSystem.satisfied p.system outgoing.payload
      (Layout.vector p.field p.shape.incoming inputs) := by
  obtain ⟨ho, hf⟩ := (Shape.accepts_iff hs).mp h
  simp only [isSatisfied, primaryInput, Layout.primary, if_pos ho, auxiliaryInput,
    Layout.auxiliary_fits hf]

theorem isSatisfied_refused (hs : p.shape.Admissible) (h : ¬ p.shape.Accepts outgoing inputs) :
    ∃ f, p.shape.Disagrees outgoing inputs f ∧
      p.isSatisfied outgoing inputs = .silent (.error f) := by
  rw [Shape.accepts_iff hs, not_and] at h
  by_cases ho : (outgoing.payload.length : Int) = p.shape.outgoing
  · obtain ⟨f, hf, he⟩ := Layout.auxiliary_misfit (F := p.field) (h ho)
    refine ⟨f, .inputs ho hf, ?_⟩
    simp only [isSatisfied, primaryInput, Layout.primary, if_pos ho, auxiliaryInput, he]
  · refine ⟨_, .outgoing ho, ?_⟩
    simp only [isSatisfied, primaryInput, Layout.primary, if_neg ho]

omit [ConstraintSystem κ] in
theorem length_vector_accepted (hs : p.shape.Admissible) (h : p.shape.Accepts outgoing inputs) :
    ((Layout.vector p.field p.shape.incoming inputs).length : Int) =
      p.shape.totalVariables - p.shape.publicInputs := by
  have hf := ((Shape.accepts_iff hs).mp h).2
  have hm := hs.1
  have hl := Layout.length_vector (F := p.field) hf hs.2.2.2.2.2.2
  rw [hl, Layout.auxiliaryLength, Shape.totalVariables, Shape.publicInputs]
  omega

end Predicate

/-- A constraint system that leaves every query in the trace before it answers. -/
structure Watched (κ : Type) where
  system : κ

instance {κ : Type} [ConstraintSystem κ] : ConstraintSystem (Watched κ) where
  numPublicInputs w := ConstraintSystem.numPublicInputs w.system
  numTotalVariables w := ConstraintSystem.numTotalVariables w.system
  field? w := ConstraintSystem.field? w.system
  satisfied w primary auxiliary :=
    let answer := ConstraintSystem.satisfied w.system primary auxiliary
    ⟨answer.outcome, .query primary auxiliary :: answer.events⟩
  records w := ConstraintSystem.records w.system

def Predicate.watched {κ : Type} (p : Predicate κ) : Predicate (Watched κ) :=
  ⟨p.shape, ⟨p.system⟩, p.reliesOnSameType, p.field⟩

theorem Residue.combine_fault {op : Int → Int → Int} {x y : Residue} {f : Fault}
    (h : combine op x y = .error f) : ∃ a b, f = .mixedModuli a b := by
  rw [combine] at h
  split at h
  · cases h
  · cases h
    exact ⟨_, _, rfl⟩

namespace RankOne

theorem Combination.accumulate_fault {z : List Residue} {l : Combination} {total : Residue}
    {f : Fault} (h : accumulate z total l = .error f) :
    f = .missingVariable ∨ ∃ a b, f = .mixedModuli a b := by
  induction l generalizing total with
  | nil => cases h
  | cons t ts ih =>
    rw [accumulate] at h
    split at h
    · cases h
      exact Or.inl rfl
    · rcases bind_eq_error_iff.mp h with he | ⟨y, _, h⟩
      · exact Or.inr (Residue.combine_fault he)
      · rcases bind_eq_error_iff.mp h with he | ⟨sum, _, h⟩
        · exact Or.inr (Residue.combine_fault he)
        · exact ih h

theorem Constraint.holds_fault {F : ScalarField} {z : List Residue} {k : Constraint} {f : Fault}
    (h : k.holds F z = .error f) : f = .missingVariable ∨ ∃ a b, f = .mixedModuli a b := by
  rcases bind_eq_error_iff.mp h with he | ⟨a, _, h⟩
  · exact Combination.accumulate_fault he
  rcases bind_eq_error_iff.mp h with he | ⟨b, _, h⟩
  · exact Combination.accumulate_fault he
  rcases bind_eq_error_iff.mp h with he | ⟨ab, _, h⟩
  · exact Or.inr (Residue.combine_fault he)
  rcases bind_eq_error_iff.mp h with he | ⟨c, _, h⟩
  · exact Combination.accumulate_fault he
  · cases h

namespace System

theorem check_fault {F : ScalarField} {z : List Residue} {total position : Nat}
    {ks : List Constraint} {f : Fault} (h : (check F z total position ks).outcome = .error f) :
    f.kind ≠ .shape := by
  induction ks generalizing position with
  | nil => cases h
  | cons k ks ih =>
    rw [check] at h
    split at h
    next he =>
      cases h
      rcases Constraint.holds_fault he with rfl | ⟨a, b, rfl⟩ <;> simp [Fault.kind]
    next => exact ih h
    next => cases h

/-- A rank-one system refuses vectors for their lengths only. -/
theorem isSatisfied_shape_fault_iff {s : System} {primary auxiliary : List Residue} {f : Fault} :
    (s.isSatisfied primary auxiliary).outcome = .error f ∧ f.kind = .shape ↔
      (primary.length + 1 ≠ s.numPublicInputs ∧
        f = .primaryLength primary.length (s.numPublicInputs - 1)) ∨
      (primary.length + 1 = s.numPublicInputs ∧
        primary.length + auxiliary.length + 1 ≠ s.numTotalVariables ∧
        f = .auxiliaryLength auxiliary.length (s.numTotalVariables - s.numPublicInputs)) := by
  by_cases hp : primary.length + 1 = s.numPublicInputs
  · by_cases ha : primary.length + auxiliary.length + 1 = s.numTotalVariables
    · rw [isSatisfied, if_neg (not_not.mpr hp), if_neg (not_not.mpr ha)]
      constructor
      · rintro ⟨h, hk⟩
        exact absurd hk (check_fault h)
      · rintro (⟨h, _⟩ | ⟨_, h, _⟩)
        · exact absurd hp h
        · exact absurd ha h
    · rw [isSatisfied, if_neg (not_not.mpr hp), if_pos ha]
      constructor
      · rintro ⟨h, _⟩
        cases h
        exact Or.inr ⟨hp, ha, rfl⟩
      · rintro (⟨h, _⟩ | ⟨_, _, rfl⟩)
        · exact absurd hp h
        · exact ⟨rfl, rfl⟩
  · rw [isSatisfied, if_pos hp]
    constructor
    · rintro ⟨h, _⟩
      cases h
      exact Or.inl ⟨hp, rfl⟩
    · rintro (⟨_, rfl⟩ | ⟨h, _⟩)
      · exact ⟨rfl, rfl⟩
      · exact absurd h hp

theorem isSatisfied_shape_iff {s : System} {primary auxiliary : List Residue} :
    (∃ f, (s.isSatisfied primary auxiliary).outcome = .error f ∧ f.kind = .shape) ↔
      primary.length + 1 ≠ s.numPublicInputs ∨
        primary.length + auxiliary.length + 1 ≠ s.numTotalVariables := by
  simp only [isSatisfied_shape_fault_iff]
  constructor
  · rintro ⟨f, ⟨hp, -⟩ | ⟨-, ha, -⟩⟩
    · exact Or.inl hp
    · exact Or.inr ha
  · intro h
    by_cases hp : primary.length + 1 = s.numPublicInputs
    · exact ⟨_, Or.inr ⟨hp, h.resolve_left (not_not.mpr hp), rfl⟩⟩
    · exact ⟨_, Or.inl ⟨hp, rfl⟩⟩

theorem isSatisfied_told_iff {s : System} {primary auxiliary : List Residue} :
    (∃ f, (s.isSatisfied primary auxiliary).outcome = .error f ∧ f.told.kind = .shape) ↔
      primary.length + 1 ≠ s.numPublicInputs ∧
        Text.isWritable (s.numPublicInputs - 1) = true ∨
      primary.length + 1 = s.numPublicInputs ∧
        primary.length + auxiliary.length + 1 ≠ s.numTotalVariables ∧
        Text.isWritable (s.numTotalVariables - s.numPublicInputs) = true := by
  constructor
  · rintro ⟨f, hf, ht⟩
    obtain ⟨hk, hw⟩ := Fault.kind_told_eq_shape_iff.mp ht
    rcases isSatisfied_shape_fault_iff.mp ⟨hf, hk⟩ with ⟨hp, rfl⟩ | ⟨hp, ha, rfl⟩
    · exact Or.inl ⟨hp, hw _ List.mem_cons_self⟩
    · exact Or.inr ⟨hp, ha, hw _ List.mem_cons_self⟩
  · rintro (⟨hp, hw⟩ | ⟨hp, ha, hw⟩)
    · obtain ⟨hf, hk⟩ := isSatisfied_shape_fault_iff.mpr (Or.inl ⟨hp, rfl⟩)
      exact ⟨_, hf, Fault.kind_told_eq_shape_iff.mpr ⟨hk, by simpa [Fault.numbers] using hw⟩⟩
    · obtain ⟨hf, hk⟩ := isSatisfied_shape_fault_iff.mpr (Or.inr ⟨hp, ha, rfl⟩)
      exact ⟨_, hf, Fault.kind_told_eq_shape_iff.mpr ⟨hk, by simpa [Fault.numbers] using hw⟩⟩

end System

end RankOne

namespace Predicate

section

variable {p : Predicate RankOne.System} {outgoing : Message} {inputs : Inputs}

theorem correctNumInputs_iff (h : p.shape.Accepts outgoing inputs) :
    p.correctNumInputs = true ↔ outgoing.payload.length + 1 = p.system.numPublicInputs := by
  rw [correctNumInputs, beq_iff_eq, Shape.publicInputs, ← h.outgoing]
  exact Int.natCast_inj

theorem correctNumVariables_iff (hs : p.shape.Admissible) (h : p.shape.Accepts outgoing inputs) :
    p.correctNumVariables = true ↔ outgoing.payload.length +
      (Layout.vector p.field p.shape.incoming inputs).length + 1 =
        p.system.numTotalVariables := by
  have hl := length_vector_accepted hs h
  have ho := h.outgoing
  have he : p.shape.totalVariables = ((outgoing.payload.length +
      (Layout.vector p.field p.shape.incoming inputs).length + 1 : Nat) : Int) := by
    rw [Shape.publicInputs] at hl
    omega
  rw [correctNumVariables, beq_iff_eq, he]
  exact Int.natCast_inj

end

variable {κ : Type} [ConstraintSystem κ] {p : Predicate κ} {outgoing : Message} {inputs : Inputs}

theorem isSatisfied_query (hs : p.shape.Admissible) (h : p.shape.Accepts outgoing inputs) :
    ∃ primary auxiliary,
      (primary.length : Int) = p.shape.publicInputs - 1 ∧
      (auxiliary.length : Int) = p.shape.totalVariables - p.shape.publicInputs ∧
      p.isSatisfied outgoing inputs = ConstraintSystem.satisfied p.system primary auxiliary ∧
      p.watched.isSatisfied outgoing inputs =
        ⟨(ConstraintSystem.satisfied p.system primary auxiliary).outcome,
          .query primary auxiliary ::
            (ConstraintSystem.satisfied p.system primary auxiliary).events⟩ := by
  refine ⟨outgoing.payload, Layout.vector p.field p.shape.incoming inputs, ?_,
    length_vector_accepted hs h, isSatisfied_accepted hs h, ?_⟩
  · rw [Shape.publicInputs, h.outgoing]
    omega
  · exact isSatisfied_accepted (p := p.watched) hs h

theorem isSatisfied_no_query (hs : p.shape.Admissible) (h : ¬ p.shape.Accepts outgoing inputs) :
    ∃ f, p.shape.Disagrees outgoing inputs f ∧
      p.isSatisfied outgoing inputs = .silent (.error f) ∧
      p.watched.isSatisfied outgoing inputs = .silent (.error f) ∧ f.kind = .shape ∧
      (f.told.kind = .shape ↔ ∀ n ∈ f.numbers, Text.isWritable n = true) := by
  obtain ⟨f, hf, he⟩ := isSatisfied_refused hs h
  obtain ⟨g, hg, hw⟩ := isSatisfied_refused (p := p.watched) hs h
  have hfg : g = f := hg.unique hf
  subst hfg
  refine ⟨g, hf, he, hw, hf.kind, ?_⟩
  rw [Fault.kind_told_eq_shape_iff, and_iff_right hf.kind]

theorem isSatisfied_rankOne_kind_iff {p : Predicate RankOne.System} (hs : p.shape.Admissible)
    (h : p.shape.Accepts outgoing inputs) :
    (∃ f, (p.isSatisfied outgoing inputs).outcome = .error f ∧ f.kind = .shape) ↔
      p.report.correctNumInputs = false ∨ p.report.correctNumVariables = false := by
  have hi := correctNumInputs_iff h
  have hv := correctNumVariables_iff hs h
  rw [isSatisfied_accepted hs h, report, ← Bool.not_eq_true, ← Bool.not_eq_true, hi, hv]
  exact RankOne.System.isSatisfied_shape_iff

theorem isSatisfied_rankOne_told_iff {p : Predicate RankOne.System} (hs : p.shape.Admissible)
    (h : p.shape.Accepts outgoing inputs) :
    (∃ f, (p.isSatisfied outgoing inputs).outcome = .error f ∧ f.told.kind = .shape) ↔
      p.report.correctNumInputs = false ∧
        Text.isWritable (p.system.numPublicInputs - 1) = true ∨
      p.report.correctNumInputs = true ∧ p.report.correctNumVariables = false ∧
        Text.isWritable (p.system.numTotalVariables - p.system.numPublicInputs) = true := by
  have hi := correctNumInputs_iff h
  have hv := correctNumVariables_iff hs h
  rw [isSatisfied_accepted hs h, report, ← Bool.not_eq_true, ← Bool.not_eq_true, hi, hv]
  exact RankOne.System.isSatisfied_told_iff

/-- Arguments of the declared shape make one query, of the lengths that the shape implies, and
its answer is the verdict. Other arguments make none and are refused as a mismatch of shapes,
unless the first declared length that they miss has too many digits for the words of the
refusal. A rank-one system refuses a query exactly where the report finds a wrong count, with the
same exception for the counts in its words. -/
theorem isSatisfied_query_lengths (shape : Shape) (relies : Bool) (field? : Option ScalarField)
    (outgoing : Message) (inputs : Inputs) :
    (∀ {κ : Type} [ConstraintSystem κ] {system : κ} {p : Predicate κ},
      ofShape shape system relies field? = .ok p →
        (p.shape.Accepts outgoing inputs → ∃ primary auxiliary,
          (primary.length : Int) = p.shape.publicInputs - 1 ∧
          (auxiliary.length : Int) = p.shape.totalVariables - p.shape.publicInputs ∧
          p.isSatisfied outgoing inputs =
            ConstraintSystem.satisfied p.system primary auxiliary ∧
          p.watched.isSatisfied outgoing inputs =
            ⟨(ConstraintSystem.satisfied p.system primary auxiliary).outcome,
              .query primary auxiliary ::
                (ConstraintSystem.satisfied p.system primary auxiliary).events⟩) ∧
        (¬ p.shape.Accepts outgoing inputs → ∃ f, p.shape.Disagrees outgoing inputs f ∧
          p.isSatisfied outgoing inputs = .silent (.error f) ∧
          p.watched.isSatisfied outgoing inputs = .silent (.error f) ∧ f.kind = .shape ∧
          (f.told.kind = .shape ↔ ∀ n ∈ f.numbers, Text.isWritable n = true))) ∧
    (∀ {system : RankOne.System} {p : Predicate RankOne.System},
      ofShape shape system relies field? = .ok p → p.shape.Accepts outgoing inputs →
        ((∃ f, (p.isSatisfied outgoing inputs).outcome = .error f ∧ f.kind = .shape) ↔
          p.report.correctNumInputs = false ∨ p.report.correctNumVariables = false) ∧
        ((∃ f, (p.isSatisfied outgoing inputs).outcome = .error f ∧ f.told.kind = .shape) ↔
          p.report.correctNumInputs = false ∧
            Text.isWritable (p.system.numPublicInputs - 1) = true ∨
          p.report.correctNumInputs = true ∧ p.report.correctNumVariables = false ∧
            Text.isWritable (p.system.numTotalVariables - p.system.numPublicInputs) = true)) := by
  refine ⟨?_, ?_⟩
  · intro κ _ system p hp
    have hs := admissible_of_ofShape hp
    exact ⟨isSatisfied_query hs, isSatisfied_no_query hs⟩
  · intro system p hp h
    have hs := admissible_of_ofShape hp
    exact ⟨isSatisfied_rankOne_kind_iff hs h, isSatisfied_rankOne_told_iff hs h⟩

/-- One message for two slots, over a system that declares a variable too few. -/
theorem isSatisfied_query_lengths_one_of_two :
    ∃ (s : Shape) (c : RankOne.System) (p : Predicate RankOne.System) (outgoing : Message)
        (inputs : Inputs),
      ofShape s c false none = .ok p ∧ p.shape.Accepts outgoing inputs ∧
      (∃ primary auxiliary, primary.length = 2 ∧ auxiliary.length = 7 ∧
        (p.watched.isSatisfied outgoing inputs).events = [.query primary auxiliary]) ∧
      (∃ f, (p.isSatisfied outgoing inputs).outcome = .error f ∧ f.told.kind = .shape) ∧
      ∃ f, p.isSatisfied outgoing ⟨inputs.incoming, [], []⟩ = .silent (.error f) ∧
        f.told.kind = .shape := by
  let F : ScalarField := ⟨7, by decide⟩
  let s : Shape := ⟨0, 1, 2, 2, [2, 0], 1, 1⟩
  let c : RankOne.System := ⟨F, 3, 9, [], by decide, by decide, by simp⟩
  let p : Predicate RankOne.System := ⟨s, c, false, F⟩
  let outgoing : Message := ⟨1, [F.element 3, F.element 4]⟩
  let inputs : Inputs := ⟨[outgoing], [F.element 5], [F.element 6]⟩
  have hp : ofShape s c false none = .ok p := rfl
  have h : p.shape.Accepts outgoing inputs := by
    refine (Shape.accepts_iff (ofShape_eq_ok_iff.mp hp).1).mpr ⟨rfl, by decide, ?_, rfl, rfl⟩
    intro i
    cases i with
    | zero => exact (Layout.slotFits_zero _ _ _ _).mpr rfl
    | succ i => exact (Layout.slotFits_succ _ _ _ _ i).mpr (Layout.slotFits_nil _ i)
  have hn : ¬ p.shape.Accepts outgoing ⟨inputs.incoming, [], []⟩ := by
    intro hh
    exact absurd hh.localData (by decide)
  obtain ⟨hany, hrank⟩ := isSatisfied_query_lengths s false none outgoing inputs
  obtain ⟨ha, -⟩ := hany hp
  obtain ⟨-, hc⟩ := hrank hp h
  obtain ⟨hnone, -⟩ := isSatisfied_query_lengths s false none outgoing ⟨inputs.incoming, [], []⟩
  obtain ⟨-, hr⟩ := hnone hp
  obtain ⟨primary, auxiliary, hl, hm, -, hw⟩ := ha h
  obtain ⟨f, hd, he, -, -, hf⟩ := hr hn
  refine ⟨s, c, p, outgoing, inputs, hp, h, ⟨primary, auxiliary, ?_, ?_, ?_⟩, ?_, f, he, ?_⟩
  · exact Int.natCast_inj.mp hl
  · exact Int.natCast_inj.mp hm
  · have hl' : primary.length = 2 := Int.natCast_inj.mp hl
    have hm' : auxiliary.length = 7 := Int.natCast_inj.mp hm
    have hs : c.isSatisfied primary auxiliary = .silent (.error (.auxiliaryLength 7 6)) := by
      simp [RankOne.System.isSatisfied, hl', hm', c]
    rw [hw]
    exact congrArg (.query primary auxiliary :: ·) (congrArg Traced.events hs)
  · exact hc.mpr (Or.inr ⟨rfl, rfl, by decide +kernel⟩)
  · have hf' : f = .localDataLength 0 1 :=
      hd.unique (.inputs rfl (.localData (by decide) h.slots (by decide)))
    exact hf.mpr (by simp only [hf']; decide +kernel)

/-- A declared length of 4301 digits is missed, and the refusal is no mismatch of shapes. -/
theorem not_told_of_long_length :
    ∃ (s : Shape) (c : Declared) (p : Predicate Declared) (outgoing : Message),
      ofShape s c false none = .ok p ∧ ¬ p.shape.Accepts outgoing ⟨[], [], []⟩ ∧
      ∃ f, p.isSatisfied outgoing ⟨[], [], []⟩ = .silent (.error f) ∧ f.told.kind = .value := by
  have hpos : ∀ k, Nat.pow 10 k ≠ 0 := fun k => Nat.ne_of_gt (Nat.pow_pos (Nat.succ_pos 9))
  obtain ⟨n, hn, hw⟩ : ∃ n : Nat, n ≠ 0 ∧ Text.isWritable n = false := by
    refine ⟨Nat.pow 10 Text.digitLimit, hpos _, ?_⟩
    rw [Text.isWritable_natCast]
    exact decide_eq_false (Nat.lt_irrefl _)
  let F : ScalarField := ⟨97, by decide⟩
  let s : Shape := ⟨1, 1, n, 0, [], 0, 0⟩
  let c : Declared := ⟨1, 1, true, some F⟩
  have hs : s.Admissible := by simp [Shape.Admissible, s]
  have hne : ((0 : Nat) : Int) ≠ n := fun h => hn (Int.natCast_inj.mp h).symm
  refine ⟨s, c, ⟨s, c, false, F⟩, ⟨1, []⟩, ofShape_eq_ok_iff.mpr ⟨hs, rfl, rfl, rfl, rfl⟩,
    fun h => hne h.outgoing, .outgoingLength 0 n, ?_, ?_⟩
  · simp only [isSatisfied, primaryInput, Layout.primary, List.length_nil, s, if_neg hne]
  · simp [Fault.told, Fault.numbers, hw, Fault.kind]

end Predicate

end ProofCarrying
