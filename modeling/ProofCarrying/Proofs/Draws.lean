import ProofCarrying.Proofs.Coefficients
import ProofCarrying.Random.Congruential
import ProofCarrying.Random.Instance

/-! What draws come to when the generator gives what is asked of it, whichever numbers these
are. -/

namespace ProofCarrying

/-- From every state the action succeeds, with a value of this kind. -/
def Action.Ensures {σ α : Type} (p : Action σ α) (R : α → Prop) : Prop :=
  ∀ s, ∃ a t, p s = (.ok a, t) ∧ R a

namespace Action

variable {σ α β : Type} {p : Action σ α} {f : α → Action σ β} {R : α → Prop} {S : β → Prop}

theorem Ensures.bind (hp : p.Ensures R) (hf : ∀ a, R a → (f a).Ensures S) :
    (p >>= f).Ensures S := by
  intro s
  obtain ⟨a, t, ha, hr⟩ := hp s
  obtain ⟨b, u, hb, hs⟩ := hf a hr t
  refine ⟨b, u, ?_, hs⟩
  rw [bind_apply, ha]
  exact hb

theorem ensures_pure {a : α} (h : R a) : (pure a : Action σ α).Ensures R :=
  fun s => ⟨a, s, rfl, h⟩

theorem ensures_ofExcept {r : Except Fault α} {a : α} (hr : r = .ok a) (h : R a) :
    (ofExcept r : Action σ α).Ensures R :=
  fun s => ⟨a, s, congrArg (·, s) hr, h⟩

theorem ensures_ok {r : Except Fault α} {a : α} (hr : r = .ok a) :
    (ofExcept r : Action σ α).Ensures fun b => b = a :=
  ensures_ofExcept hr rfl

theorem Ensures.mono {T : α → Prop} (hp : p.Ensures R) (h : ∀ a, R a → T a) : p.Ensures T := by
  intro s
  obtain ⟨a, t, ha, hr⟩ := hp s
  exact ⟨a, t, ha, h a hr⟩

theorem ensures_numbered {q : Nat → Action σ α} {R : Nat → α → Prop} {i n : Nat}
    (h : ∀ j, i ≤ j → j < i + n → (q j).Ensures (R j)) :
    (numbered q i n).Ensures fun l => l.length = n ∧ ∀ j a, l[j]? = some a → R (i + j) a := by
  induction n generalizing i with
  | zero => exact ensures_pure (by simp)
  | succ n ih =>
    have hrest := ih (i := i + 1) fun j hj hlt => h j (by omega) (by omega)
    refine (h i (Nat.le_refl i) (by omega)).bind fun a ha => hrest.bind fun l hl => ensures_pure ?_
    refine ⟨by simp [hl.1], ?_⟩
    intro j b hb
    cases j with
    | zero =>
      have hab : a = b := by simpa using hb
      exact hab ▸ ha
    | succ j =>
      have hj := hl.2 j b (by simpa using hb)
      rwa [Nat.add_right_comm, Nat.add_assoc] at hj

theorem Ensures.times (hp : p.Ensures R) (n : Nat) :
    (times n p).Ensures fun l => l.length = n ∧ ∀ a ∈ l, R a := by
  refine (ensures_numbered fun _ _ _ => hp).mono ?_
  rintro l ⟨hl, h⟩
  refine ⟨hl, ?_⟩
  intro a ha
  obtain ⟨j, hj⟩ := List.mem_iff_getElem?.mp ha
  exact h j a hj

theorem ensures_each {q : β → Action σ α} {T : β → α → Prop} {bs : List β}
    (h : ∀ b ∈ bs, (q b).Ensures (T b)) : (each q bs).Ensures (List.Forall₂ T bs) := by
  induction bs with
  | nil => exact ensures_pure .nil
  | cons b bs ih =>
    have hb := h b List.mem_cons_self
    have hrest := ih fun c hc => h c (List.mem_cons_of_mem b hc)
    exact hb.bind fun a ha => hrest.bind fun l hl => ensures_pure (.cons ha hl)

end Action

open ProofCarrying.Action

namespace Congruential

theorem ensures_draw : draw.Ensures fun _ => True :=
  fun g => ⟨_, g.advance, rfl, trivial⟩

/-- The remainder of a draw, moved to the beginning of the range. -/
theorem ensures_draw_between {low high : Int} (h : low < high) :
    (draw >>= fun x => pure (low + x % (high - low)) : Action Congruential Int).Ensures
      fun n => low ≤ n ∧ n < high := by
  refine ensures_draw.bind fun x _ => ensures_pure ?_
  have h0 := Int.emod_nonneg (x : Int) (by omega : high - low ≠ 0)
  have hlt := Int.emod_lt_of_pos (x : Int) (by omega : 0 < high - low)
  omega

theorem lawful (R : Int → Int → Prop) : Generator.Lawful Congruential R where
  bytes_length n := by
    have hb := ensures_draw.bind fun x _ =>
      ensures_pure (a := UInt8.ofNat x) (R := fun _ => True) trivial
    exact (hb.times n).mono fun _ hl => hl.1
  integer_mem low high g _ h := by
    have he : (Generator.integer low high : Action Congruential Int) =
        draw >>= fun x => pure (low + x % (high - low)) := if_neg (by omega)
    rw [he]
    exact ensures_draw_between h g
  integers_mem low high k g _ h := by
    have he : (Generator.integers low high k : Action Congruential (List Int)) =
        times k (draw >>= fun x => pure (low + x % (high - low))) := if_neg (by omega)
    rw [he]
    exact (ensures_draw_between h).times k g

end Congruential

variable {γ : Type} [Generator γ] {R : Int → Int → Prop}

namespace Generator.Lawful

theorem mono {S : Int → Int → Prop} (hg : Lawful γ S) (h : ∀ low high, R low high → S low high) :
    Lawful γ R where
  bytes_length := hg.bytes_length
  integer_mem low high g hr := hg.integer_mem low high g (h low high hr)
  integers_mem low high k g hr := hg.integers_mem low high k g (h low high hr)

theorem ensures_bytes (hg : Lawful γ R) (n : Nat) :
    (Generator.bytes n : Action γ (List UInt8)).Ensures fun bs => bs.length = n :=
  hg.bytes_length n

theorem ensures_integer (hg : Lawful γ R) {low high : Int} (hr : R low high) (h : low < high) :
    (Generator.integer low high : Action γ Int).Ensures fun n => low ≤ n ∧ n < high :=
  fun g => hg.integer_mem low high g hr h

theorem ensures_integers (hg : Lawful γ R) {low high : Int} (hr : R low high) (h : low < high)
    (k : Nat) : (Generator.integers low high k : Action γ (List Int)).Ensures fun ns =>
      ns.length = k ∧ ∀ n ∈ ns, low ≤ n ∧ n < high :=
  fun g => hg.integers_mem low high k g hr h

end Generator.Lawful

open Generator (Lawful)

variable {F : ScalarField}

namespace ScalarField

/-- A number of elements of the field. -/
def Payload (F : ScalarField) (n : Int) (xs : List Residue) : Prop :=
  (xs.length : Int) = n ∧ ∀ x ∈ xs, x.modulus = F.modulus

theorem ensures_randomElement (hg : Lawful γ R) :
    (F.randomElement : Action γ Residue).Ensures fun x => x.modulus = F.modulus :=
  (hg.ensures_bytes F.drawBytes).bind fun _ _ => ensures_pure rfl

theorem ensures_randomElements (hg : Lawful γ R) {n : Int} (h : 0 ≤ n) :
    (F.randomElements n : Action γ (List Residue)).Ensures (F.Payload n) := by
  refine ((ensures_randomElement hg).times n.toNat).mono ?_
  rintro xs ⟨hl, hm⟩
  exact ⟨by omega, hm⟩

end ScalarField

theorem ensures_randomMessage (hg : Lawful γ R) {type n : Int} (ht : 0 ≤ type) (hn : 0 ≤ n) :
    (randomMessage F type n : Action γ Message).Ensures fun m => F.Payload n m.payload :=
  (F.ensures_randomElements hg hn).bind fun _ hp => ensures_ofExcept (if_pos ht) hp

namespace RankOne

theorem mem_enterIndex {i j : Int} {is : List Int} :
    j ∈ enterIndex i is ↔ j = i ∨ j ∈ is := by
  induction is with
  | nil => simp [enterIndex]
  | cons k is ih =>
    rw [enterIndex]
    split
    · exact List.mem_cons
    · split
      next h => simp [h]
      next => simp [ih, or_left_comm]

theorem mem_foldl_enterIndex {i : Int} {is js : List Int} :
    i ∈ is.foldl (fun js i => enterIndex i js) js ↔ i ∈ js ∨ i ∈ is := by
  induction is generalizing js with
  | nil => simp
  | cons k is ih => simp [ih, mem_enterIndex, or_assoc, or_left_comm]

theorem mem_distinct {i : Int} {is : List Int} : i ∈ distinct is ↔ i ∈ is := by
  simp [distinct, mem_foldl_enterIndex]

theorem length_enterIndex_le (i : Int) (is : List Int) :
    (enterIndex i is).length ≤ is.length + 1 := by
  induction is with
  | nil => exact Nat.le_refl 1
  | cons j is ih =>
    by_cases hlt : i < j
    · rw [enterIndex, if_pos hlt]
      exact Nat.le_refl _
    · by_cases hij : i = j
      · rw [enterIndex, if_neg hlt, if_pos hij]
        exact Nat.le_succ _
      · rw [enterIndex, if_neg hlt, if_neg hij]
        exact Nat.succ_le_succ ih

theorem length_foldl_enterIndex_le (is js : List Int) :
    (is.foldl (fun js i => enterIndex i js) js).length ≤ js.length + is.length := by
  induction is generalizing js with
  | nil => exact Nat.le_refl _
  | cons i is ih =>
    have hrest := ih (enterIndex i js)
    have hfirst := length_enterIndex_le i js
    rw [List.foldl_cons, List.length_cons]
    omega

theorem length_distinct_le (is : List Int) : (distinct is).length ≤ is.length := by
  have h := length_foldl_enterIndex_le is []
  rwa [List.length_nil, Nat.zero_add] at h

theorem increasing_enterIndex {is : List Int} (h : is.Pairwise (· < ·)) (i : Int) :
    (enterIndex i is).Pairwise (· < ·) := by
  induction is with
  | nil => exact List.pairwise_singleton _ i
  | cons j is ih =>
    obtain ⟨hj, his⟩ := List.pairwise_cons.mp h
    by_cases hlt : i < j
    · rw [enterIndex, if_pos hlt]
      refine List.pairwise_cons.mpr ⟨?_, h⟩
      intro k hk
      rcases List.mem_cons.mp hk with rfl | hk
      · exact hlt
      · exact hlt.trans (hj k hk)
    · by_cases hij : i = j
      · rw [enterIndex, if_neg hlt, if_pos hij]
        exact h
      · rw [enterIndex, if_neg hlt, if_neg hij]
        refine List.pairwise_cons.mpr ⟨?_, ih his⟩
        intro k hk
        rcases mem_enterIndex.mp hk with rfl | hk
        · omega
        · exact hj k hk

theorem increasing_foldl_enterIndex {js : List Int} (h : js.Pairwise (· < ·)) (is : List Int) :
    (is.foldl (fun js i => enterIndex i js) js).Pairwise (· < ·) := by
  induction is generalizing js with
  | nil => exact h
  | cons i is ih => exact ih (increasing_enterIndex h i)

theorem increasing_distinct (is : List Int) : (distinct is).Pairwise (· < ·) :=
  increasing_foldl_enterIndex .nil is

/-- A combination over so many wires of the field, of at least one term and at most so many, in the
order of their indices. -/
structure Combination.Drawn (F : ScalarField) (width : Nat) (maxTerms : Int) (l : Combination) :
    Prop where
  width_le : l.width ≤ width
  coefficients : ∀ t ∈ l, t.coefficient.modulus = F.modulus
  one_le : 1 ≤ l.length
  length_le : (l.length : Int) ≤ maxTerms
  increasing : l.Pairwise fun t u => t.index < u.index

/-- A term of the field at an index that was drawn. -/
def Term.DrawnAt (F : ScalarField) (i : Int) (t : Term) : Prop :=
  t.index = i.toNat ∧ t.coefficient.modulus = F.modulus

theorem ensures_randomTerm (hg : Lawful γ R) (i : Int) :
    (randomTerm F i : Action γ Term).Ensures (Term.DrawnAt F i) :=
  (F.ensures_randomElement hg).bind fun _ hc => ensures_pure ⟨rfl, hc⟩

theorem indices_of_drawnAt {is : List Int} {l : Combination}
    (h : List.Forall₂ (Term.DrawnAt F) is l) : l.map Term.index = is.map Int.toNat := by
  induction h with
  | nil => rfl
  | cons ht _ ih => rw [List.map_cons, List.map_cons, ht.1, ih]

theorem modulus_of_drawnAt {is : List Int} {l : Combination}
    (h : List.Forall₂ (Term.DrawnAt F) is l) : ∀ t ∈ l, t.coefficient.modulus = F.modulus := by
  induction h with
  | nil => simp
  | cons ht _ ih => exact List.forall_mem_cons.mpr ⟨ht.2, ih⟩

theorem drawn_of_drawnAt {width : Nat} {maxTerms : Int} {is : List Int} {l : Combination}
    (h : List.Forall₂ (Term.DrawnAt F) is l) (hrange : ∀ i ∈ is, 0 ≤ i ∧ i < width)
    (hone : 1 ≤ is.length) (hmax : (is.length : Int) ≤ maxTerms) (hinc : is.Pairwise (· < ·)) :
    l.Drawn F width maxTerms := by
  have hlen := h.length_eq
  have hindices := indices_of_drawnAt h
  refine ⟨?_, modulus_of_drawnAt h, hlen ▸ hone, hlen ▸ hmax, ?_⟩
  · apply Combination.width_le_iff.mpr
    intro t ht
    have hmem : t.index ∈ is.map Int.toNat := hindices ▸ List.mem_map_of_mem ht
    obtain ⟨i, hi, hti⟩ := List.mem_map.mp hmem
    have hlt := hrange i hi
    omega
  · have hnat : (is.map Int.toNat).Pairwise (· < ·) := by
      refine List.pairwise_map.mpr (hinc.imp_of_mem ?_)
      intro i j hi hj hlt
      have hi0 := (hrange i hi).1
      omega
    rw [← hindices] at hnat
    exact List.pairwise_map.mp hnat

/-- The ranges that the number of terms of a combination over so many wires and their indices are
drawn from. -/
inductive CombinationRange (width : Nat) (maxTerms : Int) : Int → Int → Prop
  | terms : CombinationRange width maxTerms 1 (maxTerms + 1)
  | indices : CombinationRange width maxTerms 0 width

theorem ensures_randomCombination {width : Nat} {maxTerms : Int}
    (hg : Lawful γ (CombinationRange width maxTerms)) (hw : 0 < width) (ht : 1 ≤ maxTerms) :
    (randomCombination F width maxTerms : Action γ Combination).Ensures
      (Combination.Drawn F width maxTerms) := by
  refine (hg.ensures_integer .terms (by omega)).bind fun n hn => ?_
  refine (hg.ensures_integers .indices (by omega) n.toNat).bind fun indices hi => ?_
  refine (ensures_each fun i _ => ensures_randomTerm hg i).mono fun l hl => ?_
  have hle := length_distinct_le indices
  have hone : 1 ≤ (distinct indices).length := by
    obtain ⟨i, hmem⟩ := List.exists_mem_of_length_pos (by omega : 0 < indices.length)
    exact List.length_pos_of_mem (mem_distinct.mpr hmem)
  have hrange : ∀ i ∈ distinct indices, 0 ≤ i ∧ i < width :=
    fun i hmem => hi.2 i (mem_distinct.mp hmem)
  have hmax : ((distinct indices).length : Int) ≤ maxTerms := by omega
  exact drawn_of_drawnAt hl hrange hone hmax (increasing_distinct indices)

/-- A constraint over the wires of an assignment and its field, which the assignment balances. -/
structure Constraint.BalancedBy (F : ScalarField) (z : List Residue) (k : Constraint) :
    Prop where
  width : k.width ≤ z.length
  within : k.Within F z
  balances : k.Balances F (wire z)

/-- On the constant wire the product of two combinations is their product. -/
theorem balances_product (F : ScalarField) (zs : List Residue) (a b : Combination) :
    Constraint.Balances F (wire (F.one :: zs)) ⟨a, b, [⟨0, F.element
      (a.dot (wire (F.one :: zs)) * b.dot (wire (F.one :: zs)))⟩]⟩ := by
  have hone : wire (F.one :: zs) 0 ≡ 1 [ZMOD F.modulus] := F.value_element_modEq 1
  have hprod := F.value_element_modEq
    (a.dot (wire (F.one :: zs)) * b.dot (wire (F.one :: zs)))
  have hdot := hprod.mul hone
  rw [Int.mul_one] at hdot
  simpa [Constraint.Balances, Combination.dot] using hdot.symm

/-- A balanced constraint of two combinations that were drawn, whatever the third is. -/
structure Constraint.DrawnFor (F : ScalarField) (z : List Residue) (maxTerms : Int)
    (k : Constraint) : Prop extends k.BalancedBy F z where
  left : k.a.Drawn F z.length maxTerms
  right : k.b.Drawn F z.length maxTerms

theorem ensures_randomConstraint {zs : List Residue} {maxTerms : Int}
    (hg : Lawful γ (CombinationRange (zs.length + 1) maxTerms))
    (hz : ∀ x ∈ zs, x.modulus = F.modulus) (ht : 1 ≤ maxTerms) :
    (randomConstraint F (F.one :: zs) maxTerms : Action γ Constraint).Ensures
      (Constraint.DrawnFor F (F.one :: zs) maxTerms) := by
  have hpos : 0 < (F.one :: zs).length := Nat.succ_pos _
  have hall : ∀ x ∈ F.one :: zs, x.modulus = F.modulus := List.forall_mem_cons.mpr ⟨rfl, hz⟩
  refine (ensures_randomCombination hg hpos ht).bind fun a ha => ?_
  refine (ensures_randomCombination hg hpos ht).bind fun b hb => ?_
  have hwa := Combination.within_of_width_le ha.coefficients hall ha.width_le
  have hwb := Combination.within_of_width_le hb.coefficients hall hb.width_le
  have hea := Combination.evaluate_within hwa
  have heb := Combination.evaluate_within hwb
  have hproduct : (do
      let x ← a.evaluate F (F.one :: zs)
      let y ← b.evaluate F (F.one :: zs)
      x.mul y) = .ok (F.element (a.dot (wire (F.one :: zs)) * b.dot (wire (F.one :: zs)))) := by
    simp only [hea, heb, bind, Except.bind, F.mul_element]
  refine (ensures_ok hproduct).bind fun product hp => ensures_pure ?_
  subst hp
  have hwc : Combination.Within F (F.one :: zs) [⟨0, F.element
      (a.dot (wire (F.one :: zs)) * b.dot (wire (F.one :: zs)))⟩] :=
    List.forall_mem_singleton.mpr ⟨rfl, F.one, rfl, rfl⟩
  exact ⟨⟨Constraint.widths_le_iff.mpr ⟨ha.width_le, hb.width_le, hpos⟩, ⟨hwa, hwb, hwc⟩,
    balances_product F zs a b⟩, ha, hb⟩

/-- A system over an assignment of the field, with the counts that were asked for, whose rows were
drawn for the assignment. -/
structure System.DrawnFor (F : ScalarField) (numPublicInputs : Int) (zs : List Residue)
    (numConstraints maxTerms : Int) (s : System) : Prop where
  field : s.field = F
  publicInputs : (s.numPublicInputs : Int) = numPublicInputs
  totalVariables : s.numTotalVariables = zs.length + 1
  rows : s.constraints.length = numConstraints.toNat
  constraints : ∀ k ∈ s.constraints, k.DrawnFor F (F.one :: zs) maxTerms

theorem ensures_randomSystem {zs : List Residue} {numPublicInputs numConstraints maxTerms : Int}
    (hg : Lawful γ (CombinationRange (zs.length + 1) maxTerms))
    (hz : ∀ x ∈ zs, x.modulus = F.modulus) (h1 : 1 ≤ numPublicInputs)
    (hp : numPublicInputs ≤ zs.length + 1) (ht : 1 ≤ maxTerms) :
    (randomSystem F numPublicInputs zs numConstraints maxTerms : Action γ System).Ensures
      (System.DrawnFor F numPublicInputs zs numConstraints maxTerms) := by
  refine ((ensures_randomConstraint hg hz ht).times numConstraints.toNat).bind fun ks hks => ?_
  have hw : ∀ k ∈ ks, k.width ≤ zs.length + 1 := fun k hk => (hks.2 k hk).width
  let s : System := ⟨F, numPublicInputs.toNat, zs.length + 1, ks, by omega, by omega, hw⟩
  have hs : mkSystem F numPublicInputs (F.one :: zs).length ks = .ok s :=
    mkSystem_eq_ok_iff.mpr ⟨rfl, Int.toNat_of_nonneg (by omega), rfl, rfl⟩
  exact ensures_ofExcept hs ⟨rfl, Int.toNat_of_nonneg (by omega), rfl, hks.1, hks.2⟩

end RankOne

end ProofCarrying
