import Mathlib.Algebra.BigOperators.ModEq
import Mathlib.Data.Nat.Prime.Int
import ProofCarrying.Proofs.QueryLengths
import ProofCarrying.Proofs.TallyRows

/-! The verdict of a tally on the messages of a node. The wires of a slot hold its message or
zeros, so the rows speak of the messages alone. -/

namespace ProofCarrying.Tally

open RankOne

def sumOf (m : Message) : Int :=
  wire m.payload 0

def countOf (m : Message) : Int :=
  wire m.payload 1

/-- A sum and a count in the field. -/
structure Fitting (F : ScalarField) (m : Message) : Prop where
  length : m.payload.length = payloadLength
  modulus : ∀ x ∈ m.payload, x.modulus = F.modulus

variable {F : ScalarField} {k : Nat} {type name : Int} {outgoing : Message}
  {incoming : List Message} {summand : Residue}

theorem accepts_shape_iff :
    (shape k type name).Accepts outgoing ⟨incoming, [summand], []⟩ ↔
      outgoing.payload.length = payloadLength ∧ incoming.length ≤ k ∧
        ∀ m ∈ incoming, m.payload.length = payloadLength := by
  constructor
  · intro h
    have ho := h.outgoing
    have ha : incoming.length ≤ k := Int.ofNat_le.mp h.arity
    refine ⟨Int.natCast_inj.mp ho, ha, ?_⟩
    intro m hm
    obtain ⟨i, hi, rfl⟩ := List.mem_iff_getElem.mp hm
    have hl : (shape k type name).incoming[i]? = some (payloadLength : Int) := by
      simp only [shape, Int.toNat_natCast]
      exact List.getElem?_replicate_of_lt (by omega)
    exact Int.natCast_inj.mp (h.slots i _ _ (List.getElem?_eq_getElem hi) hl)
  · rintro ⟨ho, ha, hm⟩
    refine ⟨congrArg _ ho, Int.ofNat_le.mpr ha, ?_, rfl, rfl⟩
    intro i m l hi hl
    have hl' := List.mem_replicate.mp (List.mem_of_getElem? hl)
    rw [hl'.2, hm m (List.mem_of_getElem? hi)]

def wires (F : ScalarField) (k : Nat) (outgoing : Message) (incoming : List Message)
    (summand : Residue) : List Residue :=
  F.one :: (outgoing.payload ++ Layout.vector F (List.replicate k (payloadLength : Int))
    ⟨incoming, [summand], []⟩)

def slots (F : ScalarField) (k : Nat) (incoming : List Message) : List (List Residue) :=
  Layout.contents F (List.replicate k (payloadLength : Int)) incoming

theorem length_slots : (slots F k incoming).length = k := by
  rw [slots, Layout.length_contents, List.length_replicate]

theorem emptyBlock_payloadLength :
    Layout.emptyBlock F payloadLength = [F.zero, F.zero, F.zero] := rfl

theorem value_zero (F : ScalarField) : F.zero.value = 0 :=
  Int.zero_fmod F.modulus

theorem value_one (F : ScalarField) : F.one.value = 1 :=
  ScalarField.value_element_of_lt F.two_le

theorem length_of_mem_slots (ha : incoming.length ≤ k)
    (hi : ∀ m ∈ incoming, m.payload.length = payloadLength) :
    ∀ b ∈ slots F k incoming, b.length = 3 := by
  refine (Layout.forall_contents_iff ?_ (by simpa using ha)).mpr ?_
  · intro l hl
    rw [(List.mem_replicate.mp hl).2, emptyBlock_payloadLength]
    rfl
  · intro m hm
    rw [Message.assignment, List.length_cons, hi m hm]
    rfl

theorem wires_eq {s c : Residue} (ho : outgoing.payload = [s, c]) :
    wires F k outgoing incoming summand =
      [F.one, s, c, F.element incoming.length] ++
        ((slots F k incoming).flatten ++ [summand]) := by
  simp [wires, ho, Layout.vector, slots]

theorem wire_private {s c : Residue} (ho : outgoing.payload = [s, c]) (i : Nat) :
    wire (wires F k outgoing incoming summand) (4 + i) =
      wire ((slots F k incoming).flatten ++ [summand]) i := by
  rw [wires_eq ho]
  exact wire_append_right [F.one, s, c, F.element incoming.length] _ i

theorem wire_slots {s c : Residue} (ho : outgoing.payload = [s, c]) (ha : incoming.length ≤ k)
    (hi : ∀ m ∈ incoming, m.payload.length = payloadLength) {j : Nat} (hj : j < 3) :
    (List.range k).map (fun i => wire (wires F k outgoing incoming summand) (4 + j + 3 * i)) =
      (slots F k incoming).map fun b => wire b j := by
  have hu := length_of_mem_slots (F := F) ha hi
  apply List.ext_getElem
  · simp [length_slots]
  · intro i h₁ h₂
    have hlt : i < (slots F k incoming).length := by simpa using h₂
    have hb := hu _ (List.getElem_mem hlt)
    have hg : (slots F k incoming).flatten[j + 3 * i]? = some (slots F k incoming)[i][j] := by
      rw [Layout.getElem?_flatten_uniform hu i hj, List.getElem?_eq_getElem hlt,
        Option.bind_some, List.getElem?_eq_getElem]
    obtain ⟨hf, -⟩ := List.getElem?_eq_some_iff.mp hg
    simp only [List.getElem_map, List.getElem_range, Nat.add_assoc]
    rw [wire_private ho, wire_append_left hf, wire_of_getElem? hg,
      wire_of_getElem? (List.getElem?_eq_getElem (by omega))]

theorem wire_summand {s c : Residue} (ho : outgoing.payload = [s, c]) (ha : incoming.length ≤ k)
    (hi : ∀ m ∈ incoming, m.payload.length = payloadLength) :
    wire (wires F k outgoing incoming summand) (4 + 3 * k) = summand.value := by
  have hl := Layout.length_flatten_uniform (length_of_mem_slots (F := F) ha hi)
  rw [length_slots] at hl
  rw [wire_private ho, ← hl, ← Nat.add_zero (List.length _), wire_append_right]
  rfl

theorem wire_emptyBlock {j : Nat} (hj : j < 3) :
    wire (Layout.emptyBlock F payloadLength) j = 0 := by
  have hz : (Layout.emptyBlock F payloadLength)[j]? = some F.zero :=
    List.getElem?_replicate_of_lt hj
  rw [wire_of_getElem? hz, value_zero]

theorem sum_wires {s c : Residue} (ho : outgoing.payload = [s, c]) (ha : incoming.length ≤ k)
    (hi : ∀ m ∈ incoming, m.payload.length = payloadLength) {j : Nat} (hj : j < 3) :
    ((List.range k).map fun i =>
      wire (wires F k outgoing incoming summand) (4 + j + 3 * i)).sum =
        (incoming.map fun m => wire (m.assignment F) j).sum := by
  rw [wire_slots ho ha hi hj]
  apply Layout.sum_contents
  · intro l hl
    rw [(List.mem_replicate.mp hl).2, wire_emptyBlock hj]
  · simpa using ha

theorem forall_wires_iff {P : Int → Prop} (hP : P 0) {s c : Residue}
    (ho : outgoing.payload = [s, c]) (ha : incoming.length ≤ k)
    (hi : ∀ m ∈ incoming, m.payload.length = payloadLength) {j : Nat} (hj : j < 3) :
    (∀ i < k, P (wire (wires F k outgoing incoming summand) (4 + j + 3 * i))) ↔
      ∀ m ∈ incoming, P (wire (m.assignment F) j) := by
  have hw : (∀ i < k, P (wire (wires F k outgoing incoming summand) (4 + j + 3 * i))) ↔
      ∀ x ∈ (slots F k incoming).map fun b => wire b j, P x := by
    rw [← @wire_slots F k outgoing incoming summand s c ho ha hi j hj, List.forall_mem_map]
    simp only [List.mem_range]
  rw [hw, List.forall_mem_map]
  refine Layout.forall_contents_iff (P := fun b => P (wire b j)) ?_ (by simpa using ha)
  intro l hl
  rwa [(List.mem_replicate.mp hl).2, wire_emptyBlock hj]

/-- What the rows of a tally say of the messages of a node. -/
structure Balanced (F : ScalarField) (type : Int) (outgoing : Message)
    (incoming : List Message) (summand : Residue) : Prop where
  sum : summand.value + (incoming.map sumOf).sum ≡ sumOf outgoing [ZMOD F.modulus]
  count : 1 + (incoming.map countOf).sum ≡ countOf outgoing [ZMOD F.modulus]
  types : ∀ m ∈ incoming, (m.type : Int) * (m.type - type) ≡ 0 [ZMOD F.modulus]
  arity : type * incoming.length ≡ (incoming.map fun m => (m.type : Int)).sum [ZMOD F.modulus]

theorem equations_iff_balanced {type : Int} (ho : outgoing.payload.length = payloadLength)
    (hi : ∀ m ∈ incoming, m.payload.length = payloadLength) (ha : incoming.length ≤ k) :
    Equations F k type (wire (wires F k outgoing incoming summand)) ↔
      Balanced F type outgoing incoming summand := by
  obtain ⟨s, c, hp⟩ := List.length_eq_two.mp ho
  let v := wire (wires F k outgoing incoming summand)
  have hone : v 0 = 1 := value_one F
  have hsum : v 1 = sumOf outgoing := by
    simp [v, wires, hp, sumOf, wire]
  have hcount : v 2 = countOf outgoing := by
    simp [v, wires, hp, countOf, wire]
  have harity : v 3 = (F.element incoming.length).value := by
    simp [v, wires_eq hp, wire]
  have hlast : v (4 + 3 * k) = summand.value := wire_summand hp ha hi
  have hsums : ((List.range k).map fun i => v (5 + 3 * i)).sum = (incoming.map sumOf).sum :=
    sum_wires (j := 1) hp ha hi (by omega)
  have hcounts : ((List.range k).map fun i => v (6 + 3 * i)).sum = (incoming.map countOf).sum :=
    sum_wires (j := 2) hp ha hi (by omega)
  have htype : ∀ m : Message, wire (m.assignment F) 0 ≡ m.type [ZMOD F.modulus] :=
    fun m => F.value_element_modEq m.type
  have htypes : ((List.range k).map fun i => v (4 + 3 * i)).sum ≡
      (incoming.map fun m => (m.type : Int)).sum [ZMOD F.modulus] := by
    have h := @sum_wires F k outgoing incoming summand s c hp ha hi 0 (by omega)
    exact h ▸ Int.ModEq.listSum_map fun m _ => htype m
  have hproducts : (∀ i < k, v (4 + 3 * i) * (v (4 + 3 * i) - type) ≡ 0 [ZMOD F.modulus]) ↔
      ∀ m ∈ incoming, (m.type : Int) * (m.type - type) ≡ 0 [ZMOD F.modulus] := by
    refine (forall_wires_iff (P := fun x => x * (x - type) ≡ 0 [ZMOD F.modulus]) (j := 0)
      (by simp) hp ha hi (by omega)).trans (forall₂_congr fun m _ => ?_)
    have he := (htype m).mul ((htype m).sub_right type)
    exact ⟨he.symm.trans, he.trans⟩
  have hlength : type * v 3 ≡ type * incoming.length [ZMOD F.modulus] := by
    rw [harity]
    exact (F.value_element_modEq _).mul_left type
  constructor
  · rintro ⟨h₁, h₂, h₃, h₄⟩
    refine ⟨?_, ?_, hproducts.mp h₃, (hlength.symm.trans h₄).trans htypes⟩
    · rwa [← hlast, ← hsums, ← hsum]
    · rwa [← hone, ← hcounts, ← hcount]
  · rintro ⟨h₁, h₂, h₃, h₄⟩
    refine ⟨?_, ?_, hproducts.mpr h₃, (hlength.trans h₄).trans htypes.symm⟩
    · rwa [← hlast, ← hsums, ← hsum] at h₁
    · rwa [← hone, ← hcounts, ← hcount] at h₂

theorem length_wires (ho : outgoing.payload.length = payloadLength)
    (hi : ∀ m ∈ incoming, m.payload.length = payloadLength) (ha : incoming.length ≤ k) :
    (wires F k outgoing incoming summand).length = 5 + 3 * k := by
  obtain ⟨s, c, hp⟩ := List.length_eq_two.mp ho
  have hl := Layout.length_flatten_uniform (length_of_mem_slots (F := F) ha hi)
  rw [length_slots] at hl
  rw [wires_eq hp, List.length_append, List.length_append, hl]
  simp only [List.length_cons, List.length_nil]
  omega

theorem modulus_wires (ho : Fitting F outgoing) (hi : ∀ m ∈ incoming, Fitting F m)
    (ha : incoming.length ≤ k) (hx : summand.modulus = F.modulus) :
    ∀ x ∈ wires F k outgoing incoming summand, x.modulus = F.modulus := by
  refine List.forall_mem_cons.mpr ⟨rfl, List.forall_mem_append.mpr ⟨ho.modulus, ?_⟩⟩
  apply Layout.modulus_vector
  · simpa using ha
  · exact fun m hm => (hi m hm).modulus
  · simpa using hx
  · simp

/-- The verdict on fitting messages, for any modulus. -/
theorem outcome_spec {type name : Int} {s : System} (hm : SystemMeans F k type s)
    (ht : 0 ≤ type) (hn : 0 ≤ name) (ho : Fitting F outgoing) (hi : ∀ m ∈ incoming, Fitting F m)
    (ha : incoming.length ≤ k) (hx : summand.modulus = F.modulus) :
    ∃ b, (Predicate.isSatisfied ⟨shape k type name, s, true, F⟩ outgoing
        ⟨incoming, [summand], []⟩).outcome = .ok b ∧
      (b = true ↔ Balanced F type outgoing incoming summand) := by
  have hlen : ∀ m ∈ incoming, m.payload.length = payloadLength := fun m h => (hi m h).length
  have hacc : (shape k type name).Accepts outgoing ⟨incoming, [summand], []⟩ :=
    accepts_shape_iff.mpr ⟨ho.length, ha, hlen⟩
  let z := Layout.vector F (List.replicate k (payloadLength : Int)) ⟨incoming, [summand], []⟩
  have hw : s.assignment outgoing.payload z = wires F k outgoing incoming summand := by
    rw [System.assignment, hm.field, wires]
  have hp : outgoing.payload.length + 1 = s.numPublicInputs := by
    rw [ho.length, hm.publicInputs]
    rfl
  have htotal : outgoing.payload.length + z.length + 1 = s.numTotalVariables := by
    rw [hm.totalVariables, ← length_wires ho.length hlen ha, ← hw, System.assignment,
      List.length_cons, List.length_append]
  have hmod : ∀ x ∈ outgoing.payload ++ z, x.modulus = s.field.modulus := by
    rw [hm.field]
    exact (List.forall_mem_cons.mp (modulus_wires ho hi ha hx)).2
  have hc : ∀ row ∈ s.constraints, row.CoefficientsIn s.field := by
    rw [hm.field]
    exact hm.coefficients
  have hv := System.isSatisfied_within hp htotal hc hmod
  refine ⟨_, (congrArg Traced.outcome
    (Predicate.isSatisfied_accepted (shape_admissible k ht hn) hacc)).trans hv, ?_⟩
  rw [decide_eq_true_iff, hw, hm.field, hm.balances _ (value_one F)]
  exact equations_iff_balanced ho.length hlen ha

theorem Fitting.payload_eq {m : Message} (h : Fitting F m) :
    m.payload = [F.element (sumOf m), F.element (countOf m)] := by
  obtain ⟨s, c, hp⟩ := List.length_eq_two.mp h.length
  have hm := h.modulus
  rw [hp] at hm
  have hs : s = F.element s.value := ScalarField.eq_element_value (hm s (by simp))
  have hc : c = F.element c.value := ScalarField.eq_element_value (hm c (by simp))
  have hsum : sumOf m = s.value := by simp [sumOf, wire, hp]
  have hcount : countOf m = c.value := by simp [countOf, wire, hp]
  rw [hsum, hcount, ← hs, ← hc, hp]

theorem totals_spec (hi : ∀ m ∈ incoming, Fitting F m) (a b : Int) :
    totals (F.element a) (F.element b) incoming =
      .ok (F.element (a + (incoming.map sumOf).sum),
        F.element (b + (incoming.map countOf).sum)) := by
  induction incoming generalizing a b with
  | nil => simp [totals]
  | cons m ms ih =>
    have hm := (hi m (by simp)).payload_eq
    have hms := ih fun n hn => hi n (by simp [hn])
    simp only [totals, hm, F.add_element, bind, Except.bind, hms, List.map_cons,
      List.sum_cons, Int.add_assoc]

theorem outgoing_spec {type : Int} (hi : ∀ m ∈ incoming, Fitting F m) (ht : 0 ≤ type)
    (n : Int) : Tally.outgoing F incoming n type =
      .ok ⟨type.toNat, [F.element (n + (incoming.map sumOf).sum),
        F.element (1 + (incoming.map countOf).sum)]⟩ := by
  rw [Tally.outgoing, ScalarField.one, totals_spec hi]
  simp only [bind, Except.bind, Message.ofInt, if_pos ht]

/-- The outgoing message adds up, every incoming type is that of the tally or zero in the field,
and the number of those that are zero is a multiple of the modulus. -/
structure Agrees (F : ScalarField) (type : Int) (outgoing : Message) (incoming : List Message)
    (summand : Residue) : Prop where
  sum : outgoing.payload[0]? = some (F.element (summand.value + (incoming.map sumOf).sum))
  count : outgoing.payload[1]? = some (F.element (1 + (incoming.map countOf).sum))
  types : ∀ m ∈ incoming,
    (m.type : Int) ≡ 0 [ZMOD F.modulus] ∨ (m.type : Int) ≡ type [ZMOD F.modulus]
  untyped : F.modulus ∣ incoming.countP fun m => F.modulus ∣ m.type

theorem type_modEq_zero_iff (m : Message) :
    (m.type : Int) ≡ 0 [ZMOD F.modulus] ↔ F.modulus ∣ m.type :=
  Int.modEq_zero_iff_dvd.trans Int.natCast_dvd_natCast

theorem not_dvd_type {type : Int} {m : Message} (hpt : ¬ (F.modulus : Int) ∣ type)
    (hm : (m.type : Int) ≡ type [ZMOD F.modulus]) : ¬ F.modulus ∣ m.type :=
  fun hd => hpt (Int.modEq_zero_iff_dvd.mp (hm.symm.trans ((type_modEq_zero_iff m).mpr hd)))

theorem sum_types_modEq {type : Int} (hpt : ¬ (F.modulus : Int) ∣ type)
    (h : ∀ m ∈ incoming,
      (m.type : Int) ≡ 0 [ZMOD F.modulus] ∨ (m.type : Int) ≡ type [ZMOD F.modulus]) :
    (incoming.map fun m => (m.type : Int)).sum +
        type * (incoming.countP fun m => F.modulus ∣ m.type : Nat) ≡
      type * incoming.length [ZMOD F.modulus] := by
  induction incoming with
  | nil => simp
  | cons m ms ih =>
    have hms := ih fun n hn => h n (by simp [hn])
    rw [List.map_cons, List.sum_cons, List.length_cons]
    rcases h m (by simp) with hm | hm
    · rw [List.countP_cons_of_pos (by simpa using (type_modEq_zero_iff m).mp hm)]
      push_cast
      calc _ = (m.type : Int) + ((ms.map fun m => (m.type : Int)).sum +
            type * (ms.countP fun m => F.modulus ∣ m.type : Nat) + type) := by ring
        _ ≡ 0 + (type * ms.length + type) [ZMOD F.modulus] := hm.add (hms.add_right type)
        _ = type * (ms.length + 1) := by ring
    · rw [List.countP_cons_of_neg (by simpa using not_dvd_type hpt hm)]
      push_cast
      calc _ = (m.type : Int) + ((ms.map fun m => (m.type : Int)).sum +
            type * (ms.countP fun m => F.modulus ∣ m.type : Nat)) := by ring
        _ ≡ type + type * ms.length [ZMOD F.modulus] := hm.add hms
        _ = type * (ms.length + 1) := by ring

theorem type_product_iff {type : Int} (hp : F.modulus.Prime) (m : Message) :
    (m.type : Int) * (m.type - type) ≡ 0 [ZMOD F.modulus] ↔
      (m.type : Int) ≡ 0 [ZMOD F.modulus] ∨ (m.type : Int) ≡ type [ZMOD F.modulus] := by
  rw [Int.modEq_zero_iff_dvd, (Nat.prime_iff_prime_int.mp hp).dvd_mul, Int.modEq_zero_iff_dvd,
    Int.modEq_iff_dvd, dvd_sub_comm]

theorem arity_iff {type : Int} (hp : F.modulus.Prime) (hpt : ¬ (F.modulus : Int) ∣ type)
    (h : ∀ m ∈ incoming,
      (m.type : Int) ≡ 0 [ZMOD F.modulus] ∨ (m.type : Int) ≡ type [ZMOD F.modulus]) :
    type * incoming.length ≡ (incoming.map fun m => (m.type : Int)).sum [ZMOD F.modulus] ↔
      F.modulus ∣ incoming.countP fun m => F.modulus ∣ m.type := by
  have hadd := sum_types_modEq hpt h
  rw [← Int.natCast_dvd_natCast]
  constructor
  · intro ha
    have hz : type * (incoming.countP fun m => F.modulus ∣ m.type : Nat) ≡ 0
        [ZMOD F.modulus] := by
      apply Int.ModEq.add_left_cancel' (incoming.map fun m => (m.type : Int)).sum
      rw [add_zero]
      exact hadd.trans ha
    exact ((Nat.prime_iff_prime_int.mp hp).dvd_or_dvd (Int.modEq_zero_iff_dvd.mp hz)).resolve_left
      hpt
  · intro hd
    have hz := Int.modEq_zero_iff_dvd.mpr (hd.mul_left type)
    have hs := hz.add_left (incoming.map fun m => (m.type : Int)).sum
    rw [add_zero] at hs
    exact hadd.symm.trans hs

/-- In a prime field the products of the type rows vanish only where a factor does, and the arity
row then counts the messages whose type is zero. -/
theorem balanced_iff_agrees {type : Int} (hp : F.modulus.Prime)
    (hpt : ¬ (F.modulus : Int) ∣ type) (ho : Fitting F outgoing) :
    Balanced F type outgoing incoming summand ↔ Agrees F type outgoing incoming summand := by
  have hpay := ho.payload_eq
  have hsum : summand.value + (incoming.map sumOf).sum ≡ sumOf outgoing [ZMOD F.modulus] ↔
      outgoing.payload[0]? = some (F.element (summand.value + (incoming.map sumOf).sum)) := by
    rw [← ScalarField.element_eq_iff, hpay, eq_comm]
    simp
  have hcount : 1 + (incoming.map countOf).sum ≡ countOf outgoing [ZMOD F.modulus] ↔
      outgoing.payload[1]? = some (F.element (1 + (incoming.map countOf).sum)) := by
    rw [← ScalarField.element_eq_iff, hpay, eq_comm]
    simp
  constructor
  · rintro ⟨h₁, h₂, h₃, h₄⟩
    have h := fun m hm => (type_product_iff hp m).mp (h₃ m hm)
    exact ⟨hsum.mp h₁, hcount.mp h₂, h, (arity_iff hp hpt h).mp h₄⟩
  · rintro ⟨h₁, h₂, h₃, h₄⟩
    exact ⟨hsum.mpr h₁, hcount.mpr h₂, fun m hm => (type_product_iff hp m).mpr (h₃ m hm),
      (arity_iff hp hpt h₃).mpr h₄⟩

/-- Fewer messages than the modulus leave no room for a type that is zero in the field. -/
theorem agrees_iff_of_length_lt {type : Int} (hpt : ¬ (F.modulus : Int) ∣ type)
    (ho : Fitting F outgoing) (hl : incoming.length < F.modulus) :
    Agrees F type outgoing incoming summand ↔
      outgoing.payload = [F.element (summand.value + (incoming.map sumOf).sum),
        F.element (1 + (incoming.map countOf).sum)] ∧
      ∀ m ∈ incoming, (m.type : Int) ≡ type [ZMOD F.modulus] := by
  have hpay := ho.payload_eq
  constructor
  · rintro ⟨h₁, h₂, h₃, h₄⟩
    rw [hpay] at h₁ h₂
    have hz : (incoming.countP fun m => F.modulus ∣ m.type) = 0 :=
      Nat.eq_zero_of_dvd_of_lt h₄ (List.countP_le_length.trans_lt hl)
    refine ⟨?_, fun m hm => (h₃ m hm).resolve_left fun h0 => ?_⟩
    · rw [hpay, Option.some.inj h₁, Option.some.inj h₂]
    · exact List.countP_eq_zero.mp hz m hm (by simpa using (type_modEq_zero_iff m).mp h0)
  · rintro ⟨h₁, h₂⟩
    have hz : (incoming.countP fun m => F.modulus ∣ m.type) = 0 :=
      List.countP_eq_zero.mpr fun m hm => by simpa using not_dvd_type hpt (h₂ m hm)
    refine ⟨?_, ?_, fun m hm => Or.inr (h₂ m hm), hz ▸ dvd_zero _⟩
    · rw [h₁]
      rfl
    · rw [h₁]
      rfl

/-- In a prime field the tally accepts the fitting messages that agree and refuses all others.
Where fewer messages come in than the modulus, these are the ones with the payload that an honest
node emits and with incoming messages of the type of the tally only. -/
theorem isSatisfied_iff_agrees {F : ScalarField} {k : Nat} {type name : Int}
    (hp : F.modulus.Prime) (ht : 1 ≤ type) (hpt : ¬ (F.modulus : Int) ∣ type) (hn : 0 ≤ name) :
    ∃ P, predicate F k type name = .ok P ∧
      ∀ (outgoing : Message) (incoming : List Message) (summand : Residue),
        Fitting F outgoing → (∀ m ∈ incoming, Fitting F m) → incoming.length ≤ k →
        summand.modulus = F.modulus →
        ∃ b, (P.isSatisfied outgoing ⟨incoming, [summand], []⟩).outcome = .ok b ∧
          (b = true ↔ Agrees F type outgoing incoming summand) ∧
          ∀ n, F.element n = summand → ∃ honest, Tally.outgoing F incoming n type = .ok honest ∧
            (incoming.length < F.modulus →
              (b = true ↔ outgoing.payload = honest.payload ∧
                ∀ m ∈ incoming, (m.type : Int) ≡ type [ZMOD F.modulus])) := by
  obtain ⟨s, hs, hm⟩ := predicate_spec k ht hpt hn
  refine ⟨_, hs, ?_⟩
  intro outgoing incoming summand ho hi ha hx
  obtain ⟨b, hb, hiff⟩ := outcome_spec hm (by omega) hn ho hi ha hx
  rw [balanced_iff_agrees hp hpt ho] at hiff
  refine ⟨b, hb, hiff, fun n hsum => ⟨_, outgoing_spec hi (by omega) n, fun hl => ?_⟩⟩
  have hv : F.element (summand.value + (incoming.map sumOf).sum) =
      F.element (n + (incoming.map sumOf).sum) := by
    rw [← hsum]
    exact ScalarField.element_eq_iff.mpr ((F.value_element_modEq n).add_right _)
  rw [hiff, agrees_iff_of_length_lt hpt ho hl, hv]

/-- Three messages of types that are zero modulo three pass, and two of them do not. -/
theorem isSatisfied_iff_agrees_modulo_three :
    ∃ (F : ScalarField) (P : Predicate System) (outgoing : Message) (a b c : Message),
      F.modulus = 3 ∧ predicate F 3 1 0 = .ok P ∧
      [a, b, c].map Message.type = [0, 3, 6] ∧
      (P.isSatisfied outgoing ⟨[a, b, c], [F.zero], []⟩).outcome = .ok true ∧
      (P.isSatisfied outgoing ⟨[a, b], [F.zero], []⟩).outcome = .ok false := by
  let F : ScalarField := ⟨3, by decide⟩
  let m : Nat → Message := fun type => ⟨type, [F.zero, F.zero]⟩
  let outgoing : Message := ⟨1, [F.zero, F.one]⟩
  have hm : ∀ type, Fitting F (m type) := fun _ => ⟨rfl, by simp [m, ScalarField.zero]⟩
  have ho : Fitting F outgoing := ⟨rfl, by simp [outgoing, ScalarField.zero, ScalarField.one]⟩
  obtain ⟨P, hP, hv⟩ := @isSatisfied_iff_agrees F 3 1 0 (by decide) (by decide) (by decide)
    (by decide)
  obtain ⟨b₃, h₃, hb₃, -⟩ := hv outgoing [m 0, m 3, m 6] F.zero ho (by simp [hm]) (by simp) rfl
  obtain ⟨b₂, h₂, hb₂, -⟩ := hv outgoing [m 0, m 3] F.zero ho (by simp [hm]) (by simp) rfl
  refine ⟨F, P, outgoing, m 0, m 3, m 6, rfl, hP, rfl, ?_, ?_⟩
  · have ha : Agrees F 1 outgoing [m 0, m 3, m 6] F.zero :=
      ⟨by decide, by decide, by decide, by decide⟩
    rw [h₃, hb₃.mpr ha]
  · have ha : ¬ Agrees F 1 outgoing [m 0, m 3] F.zero := fun h =>
      absurd h.untyped (by decide)
    rw [h₂, Bool.eq_false_iff.mpr (mt hb₂.mp ha)]

end ProofCarrying.Tally
