import Mathlib.Data.List.Nodup
import Mathlib.Tactic.Ring
import ProofCarrying.Proofs.Coefficients
import ProofCarrying.Tally

/-! The constraints of a tally as congruences between the integers on its wires. -/

namespace ProofCarrying.Tally

open RankOne

/-- What the rows of a tally say of the integers on the wires. -/
structure Equations (F : ScalarField) (k : Nat) (type : Int) (v : Nat → Int) : Prop where
  sum : v (4 + 3 * k) + ((List.range k).map fun i => v (5 + 3 * i)).sum ≡ v 1
    [ZMOD F.modulus]
  count : v 0 + ((List.range k).map fun i => v (6 + 3 * i)).sum ≡ v 2 [ZMOD F.modulus]
  types : ∀ i < k, v (4 + 3 * i) * (v (4 + 3 * i) - type) ≡ 0 [ZMOD F.modulus]
  arity : type * v 3 ≡ ((List.range k).map fun i => v (4 + 3 * i)).sum [ZMOD F.modulus]

/-- A constraint of the field over declared wires, with what it says of the integers on them. -/
structure RowMeans (F : ScalarField) (k : Nat) (meaning : (Nat → Int) → Prop)
    (row : Constraint) : Prop where
  coefficients : row.CoefficientsIn F
  width : row.width ≤ 5 + 3 * k
  balances : ∀ v, v 0 = 1 → (row.Balances F v ↔ meaning v)

variable {F : ScalarField} {k : Nat}

theorem rowMeans_ofCoefficients {a b c : List (Int × Int)} {meaning : (Nat → Int) → Prop}
    (hnd : (a.map Prod.fst).Nodup ∧ (b.map Prod.fst).Nodup ∧ (c.map Prod.fst).Nodup)
    (hw : ∀ e ∈ a ++ b ++ c, 0 ≤ e.1 ∧ e.1 < 5 + 3 * k)
    (hs : ∀ v : Nat → Int, v 0 = 1 → ((a.map fun e => e.2 * v e.1.toNat).sum *
      (b.map fun e => e.2 * v e.1.toNat).sum ≡ (c.map fun e => e.2 * v e.1.toNat).sum
        [ZMOD F.modulus] ↔ meaning v)) :
    ∃ row, Constraint.ofCoefficients F a b c = .ok row ∧ RowMeans F k meaning row := by
  obtain ⟨row, hr, hst⟩ := Constraint.ofCoefficients_stands (F := F) hnd fun e he => (hw e he).1
  refine ⟨row, hr, hst.coefficientsIn, hst.width_le fun e he => ?_, fun v hv => ?_⟩
  · have hlt := (hw e he).2
    omega
  · rw [hst.balances_iff v, hs v hv]

section Slots

/-! A wire of each slot. The wires of consecutive slots are three apart. -/

variable {w : Nat → Int} {first : Nat}

theorem map_fst_ones (slots : Nat) (w : Nat → Int) :
    (ones slots w).map Prod.fst = (List.range slots).map w := by
  simp [ones]

theorem nodup_ones (hw : ∀ i, w i = first + 3 * i) : ((ones k w).map Prod.fst).Nodup := by
  rw [map_fst_ones]
  apply List.nodup_range.map
  intro i j h
  rw [hw, hw] at h
  omega

theorem ones_bounds (hw : ∀ i, w i = first + 3 * i) (hf : first ≤ 7) :
    ∀ e ∈ ones k w, 0 ≤ e.1 ∧ e.1 < 5 + 3 * k := by
  intro e he
  obtain ⟨i, hi, rfl⟩ := List.mem_map.mp he
  have hlt := List.mem_range.mp hi
  simp only [hw]
  omega

theorem sum_ones (hw : ∀ i, w i = first + 3 * i) (v : Nat → Int) :
    ((ones k w).map fun e => e.2 * v e.1.toNat).sum =
      ((List.range k).map fun i => v (first + 3 * i)).sum := by
  have hn : ∀ i, (w i).toNat = first + 3 * i := by
    intro i
    rw [hw]
    omega
  simp only [ones, List.map_map, Function.comp_def, hn, one_mul]

/-- A row that adds a wire of each slot to a leading wire. -/
theorem totalRow_spec {lead out : Int} (hw : ∀ i, w i = first + 3 * i) (hf : first ≤ 7)
    (hl : 0 ≤ lead ∧ lead < 5 + 3 * k) (hne : ∀ i < k, w i ≠ lead)
    (ho : 0 ≤ out ∧ out < 5 + 3 * k) :
    ∃ row, Constraint.ofCoefficients F ((lead, 1) :: ones k w) [(oneWire, 1)] [(out, 1)] =
      .ok row ∧ RowMeans F k (fun v => v lead.toNat +
        ((List.range k).map fun i => v (first + 3 * i)).sum ≡ v out.toNat [ZMOD F.modulus])
        row := by
  apply rowMeans_ofCoefficients
  · refine ⟨?_, by simp, by simp⟩
    rw [List.map_cons, List.nodup_cons]
    refine ⟨?_, nodup_ones hw⟩
    rw [map_fst_ones, List.mem_map]
    rintro ⟨i, hi, he⟩
    exact hne i (List.mem_range.mp hi) he
  · intro e he
    simp only [List.cons_append, List.mem_cons, List.mem_append, List.not_mem_nil,
      or_false] at he
    rcases he with rfl | (he | rfl) | rfl
    · exact hl
    · exact ones_bounds hw hf e he
    · simp only [oneWire]
      omega
    · exact ho
  · intro v hv
    simp only [List.map_cons, List.sum_cons, sum_ones hw, List.map_nil, List.sum_nil, oneWire,
      Int.toNat_zero, hv, one_mul, add_zero, mul_one]

end Slots

theorem sumRow_spec (F : ScalarField) (k : Nat) :
    ∃ row, sumRow F k = .ok row ∧ RowMeans F k (fun v => v (4 + 3 * k) +
      ((List.range k).map fun i => v (5 + 3 * i)).sum ≡ v 1 [ZMOD F.modulus]) row := by
  have hlead : (summandWire k).toNat = 4 + 3 * k := by
    simp only [summandWire]
    omega
  rw [← hlead]
  have hw : ∀ i, slotSum i = (5 : Nat) + 3 * i := fun i => rfl
  apply totalRow_spec hw (by omega)
  · simp only [summandWire]
    omega
  · intro i _ h
    simp only [slotSum, summandWire] at h
    omega
  · simp only [sumWire]
    omega

theorem countRow_spec (F : ScalarField) (k : Nat) :
    ∃ row, countRow F k = .ok row ∧ RowMeans F k (fun v => v 0 +
      ((List.range k).map fun i => v (6 + 3 * i)).sum ≡ v 2 [ZMOD F.modulus]) row := by
  have hw : ∀ i, slotCount i = (6 : Nat) + 3 * i := fun i => rfl
  apply totalRow_spec hw (by omega)
  · simp only [oneWire]
    omega
  · intro i _ h
    simp only [slotCount, oneWire] at h
    omega
  · simp only [countWire]
    omega

theorem typeRow_spec (F : ScalarField) (type : Int) {i : Nat} (hi : i < k) :
    ∃ row, typeRow F type i = .ok row ∧ RowMeans F k (fun v =>
      v (4 + 3 * i) * (v (4 + 3 * i) - type) ≡ 0 [ZMOD F.modulus]) row := by
  apply rowMeans_ofCoefficients
  · refine ⟨by simp, ?_, by simp⟩
    simp only [List.map_cons, List.map_nil, slotType, oneWire, List.nodup_cons,
      List.mem_singleton, List.not_mem_nil, not_false_eq_true, List.nodup_nil, and_true]
    omega
  · intro e he
    simp only [List.cons_append, List.nil_append, List.append_nil, List.mem_cons,
      List.not_mem_nil, or_false] at he
    rcases he with rfl | rfl | rfl <;> simp only [slotType, oneWire] <;> omega
  · intro v hv
    have hn : (slotType i).toNat = 4 + 3 * i := by
      simp only [slotType]
      omega
    simp only [List.map_cons, List.map_nil, List.sum_cons, List.sum_nil, hn, oneWire,
      Int.toNat_zero, hv, one_mul, add_zero, mul_one, ← sub_eq_add_neg]

theorem arityRow_spec (F : ScalarField) (k : Nat) (type : Int) :
    ∃ row, arityRow F k type = .ok row ∧ RowMeans F k (fun v =>
      type * v 3 ≡ ((List.range k).map fun i => v (4 + 3 * i)).sum [ZMOD F.modulus]) row := by
  have hw : ∀ i, slotType i = (4 : Nat) + 3 * i := fun i => rfl
  apply rowMeans_ofCoefficients
  · exact ⟨by simp, by simp, nodup_ones hw⟩
  · intro e he
    simp only [List.cons_append, List.nil_append, List.mem_cons] at he
    rcases he with rfl | rfl | he
    · simp only [arityWire]
      omega
    · simp only [oneWire]
      omega
    · exact ones_bounds hw (by omega) e he
  · intro v hv
    have h3 : arityWire.toNat = 3 := rfl
    simp only [List.map_cons, List.map_nil, List.sum_cons, List.sum_nil, h3, oneWire,
      Int.toNat_zero, hv, add_zero, mul_one, Int.toNat_natCast, sum_ones hw]

theorem typeRows_spec (F : ScalarField) (type : Int) {slots : List Nat}
    (h : ∀ i ∈ slots, i < k) :
    ∃ rows, typeRows F type slots = .ok rows ∧ List.Forall₂ (fun i row => RowMeans F k (fun v =>
      v (4 + 3 * i) * (v (4 + 3 * i) - type) ≡ 0 [ZMOD F.modulus]) row) slots rows := by
  induction slots with
  | nil => exact ⟨[], rfl, .nil⟩
  | cons i slots ih =>
    obtain ⟨row, hr, hm⟩ := typeRow_spec F type (h i (by simp))
    obtain ⟨rows, hrs, hms⟩ := ih fun j hj => h j (by simp [hj])
    refine ⟨row :: rows, ?_, .cons hm hms⟩
    simp only [typeRows, hr, hrs]
    rfl

theorem forall_row_within {meaning : Nat → (Nat → Int) → Prop} {slots : List Nat}
    {rows : List Constraint}
    (h : List.Forall₂ (fun i row => RowMeans F k (meaning i) row) slots rows) :
    ∀ row ∈ rows, row.CoefficientsIn F ∧ row.width ≤ 5 + 3 * k := by
  induction h with
  | nil => simp
  | cons hm _ ih => exact List.forall_mem_cons.mpr ⟨⟨hm.coefficients, hm.width⟩, ih⟩

theorem forall_row_iff {meaning : Nat → (Nat → Int) → Prop} {slots : List Nat}
    {rows : List Constraint}
    (h : List.Forall₂ (fun i row => RowMeans F k (meaning i) row) slots rows)
    {v : Nat → Int} (hv : v 0 = 1) :
    (∀ row ∈ rows, row.Balances F v) ↔ ∀ i ∈ slots, meaning i v := by
  induction h with
  | nil => simp
  | cons hm _ ih => simp only [List.forall_mem_cons, hm.balances v hv, ih]

/-- The system of a tally: its counts, and what all its rows together say. -/
structure SystemMeans (F : ScalarField) (k : Nat) (type : Int) (s : System) : Prop where
  field : s.field = F
  publicInputs : s.numPublicInputs = 3
  totalVariables : s.numTotalVariables = 5 + 3 * k
  rows : s.constraints.length = k + 3
  coefficients : ∀ row ∈ s.constraints, row.CoefficientsIn F
  balances : ∀ v, v 0 = 1 →
    ((∀ row ∈ s.constraints, row.Balances F v) ↔ Equations F k type v)

theorem system_spec (F : ScalarField) (k : Nat) (type : Int) :
    ∃ s, system F k type = .ok s ∧ SystemMeans F k type s := by
  obtain ⟨sum, hs, hsum⟩ := sumRow_spec F k
  obtain ⟨count, hc, hcount⟩ := countRow_spec F k
  have hlt : ∀ i ∈ List.range k, i < k := fun i hi => List.mem_range.mp hi
  obtain ⟨types, ht, htypes⟩ := typeRows_spec F type hlt
  obtain ⟨arity, ha, harity⟩ := arityRow_spec F k type
  have hall : ∀ row ∈ sum :: count :: types ++ [arity],
      row.CoefficientsIn F ∧ row.width ≤ 5 + 3 * k := by
    intro row hr
    simp only [List.cons_append, List.mem_cons, List.mem_append, List.not_mem_nil,
      or_false] at hr
    rcases hr with rfl | rfl | hr | rfl
    · exact ⟨hsum.coefficients, hsum.width⟩
    · exact ⟨hcount.coefficients, hcount.width⟩
    · exact forall_row_within htypes row hr
    · exact ⟨harity.coefficients, harity.width⟩
  let s : System := ⟨F, 3, 5 + 3 * k, sum :: count :: types ++ [arity], by omega, by omega,
    fun row hr => (hall row hr).2⟩
  have hmk : mkSystem F (1 + payloadLength) (summandWire k + 1)
      (sum :: count :: types ++ [arity]) = .ok s := by
    refine mkSystem_eq_ok_iff.mpr ⟨rfl, rfl, ?_, rfl⟩
    simp only [summandWire, s]
    omega
  refine ⟨s, ?_, rfl, rfl, rfl, ?_, fun row hr => (hall row hr).1, ?_⟩
  · simp only [system, hs, hc, Int.toNat_natCast, ht, ha, bind, Except.bind, hmk]
  · simp [s, ← htypes.length_eq]
  · intro v hv
    simp only [s, List.cons_append, List.forall_mem_cons, List.forall_mem_append,
      List.not_mem_nil, false_imp_iff, implies_true, and_true, hsum.balances v hv,
      hcount.balances v hv, harity.balances v hv, forall_row_iff htypes hv, List.mem_range]
    exact ⟨fun h => ⟨h.1, h.2.1, h.2.2.1, h.2.2.2⟩,
      fun h => ⟨h.sum, h.count, h.types, h.arity⟩⟩

theorem shape_admissible {type name : Int} (k : Nat) (ht : 0 ≤ type) (hn : 0 ≤ name) :
    (shape k type name).Admissible := by
  refine ⟨by simp [shape], hn, ht, ?_, by simp [shape], by simp [shape], ?_⟩
  · simp [shape, payloadLength]
  · intro l hl
    simp only [shape, List.mem_replicate] at hl
    rw [hl.2]
    decide

theorem predicate_spec {F : ScalarField} {type name : Int} (k : Nat) (ht : 0 < type)
    (hp : ¬ (F.modulus : Int) ∣ type) (hn : 0 ≤ name) :
    ∃ s, predicate F k type name = .ok ⟨shape k type name, s, true, F⟩ ∧
      SystemMeans F k type s := by
  obtain ⟨s, hs, hm⟩ := system_spec F k type
  have h0 : ¬ (type = 0 ∨ F.element type = F.zero) := by
    rintro (h | h)
    · omega
    · exact hp (ScalarField.element_eq_zero_iff.mp h)
  have hadm := shape_admissible k ht.le hn
  refine ⟨s, ?_, hm⟩
  rw [predicate, if_neg h0]
  simp only [hs, bind, Except.bind]
  exact Predicate.ofShape_eq_ok_iff.mpr ⟨hadm, rfl, rfl, rfl, congrArg some hm.field⟩

end ProofCarrying.Tally
