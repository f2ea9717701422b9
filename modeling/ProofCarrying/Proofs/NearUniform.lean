import Mathlib.Data.Int.CardIntervalMod
import Mathlib.Data.Nat.Digits.Lemmas
import Mathlib.Probability.Distributions.Uniform
import Mathlib.Tactic.FieldSimp
import ProofCarrying.Proofs.DotProduct
import ProofCarrying.Random.Generator

/-! How evenly the elements of a field are drawn. The bytes of a draw are the digits of a number,
and every number below a power of 256 is met once. So many numbers fall as evenly into the
classes of a modulus as they can, and with eight bytes to spare the difference is small. -/

namespace ProofCarrying

theorem bigEndian_eq_ofDigits (bs : List UInt8) :
    bigEndian bs = Nat.ofDigits 256 (bs.reverse.map UInt8.toNat) := by
  induction bs using List.reverseRecOn with
  | nil => rfl
  | append_singleton bs b ih =>
    have hstep : bigEndian (bs ++ [b]) = 256 * bigEndian bs + b.toNat := by simp [bigEndian]
    rw [hstep, ih, List.reverse_concat, List.map_cons, Nat.ofDigits_cons, Nat.add_comm]

theorem bijOn_digits (n : Nat) :
    Set.BijOn (fun bs : List UInt8 => bs.reverse.map UInt8.toNat) {bs | bs.length = n}
      {l | l.length = n ∧ ∀ d ∈ l, d < 256} := by
  refine ⟨?_, ?_, ?_⟩
  · intro bs hbs
    refine ⟨by simpa using hbs, ?_⟩
    intro d hd
    obtain ⟨b, -, rfl⟩ := List.mem_map.mp hd
    exact b.toNat_lt
  · intro bs _ cs _ h
    have hmap := List.map_injective_iff.mpr (fun _ _ => UInt8.toNat_inj.mp) h
    exact List.reverse_injective hmap
  · rintro l ⟨hl, hlt⟩
    refine ⟨(l.map UInt8.ofNat).reverse, by simpa using hl, ?_⟩
    have hback : ∀ d ∈ l, (UInt8.toNat ∘ UInt8.ofNat) d = d :=
      fun d hd => UInt8.toNat_ofNat_of_lt (hlt d hd)
    simp [List.map_congr_left hback]

theorem bijOn_bigEndian (n : Nat) :
    Set.BijOn bigEndian {bs | bs.length = n} {v | v < 256 ^ n} := by
  refine ((Nat.bijOn_ofDigits (by decide) n).comp (bijOn_digits n)).congr ?_
  exact fun bs _ => (bigEndian_eq_ofDigits bs).symm

theorem finite_strings (n : Nat) : {bs : List UInt8 | bs.length = n}.Finite :=
  (bijOn_bigEndian n).finite_iff_finite.mpr (Set.finite_lt_nat _)

theorem nonempty_strings (n : Nat) : {bs : List UInt8 | bs.length = n}.Nonempty :=
  ⟨List.replicate n 0, List.length_replicate⟩

/-- There are as many strings as numbers that they denote. -/
theorem ncard_strings_where (n : Nat) (p : Nat → Prop) [DecidablePred p] :
    {bs : List UInt8 | bs.length = n ∧ p (bigEndian bs)}.ncard = (256 ^ n).count p := by
  have hsub : {v | v < 256 ^ n ∧ p v} ⊆ {v | v < 256 ^ n} := fun _ hv => hv.1
  have hstrings : {bs : List UInt8 | bs.length = n ∧ p (bigEndian bs)} =
      {bs | bs.length = n} ∩ Set.preimage bigEndian {v | v < 256 ^ n ∧ p v} := by
    ext bs
    exact and_congr_right fun hbs => (and_iff_right ((bijOn_bigEndian n).mapsTo hbs)).symm
  have hrange : {v | v < 256 ^ n ∧ p v} = ↑({v ∈ Finset.range (256 ^ n) | p v}) := by
    ext v
    simp
  rw [hstrings, ((bijOn_bigEndian n).subset_right hsub).ncard_eq, hrange, Set.ncard_coe_finset,
    Nat.count_eq_card_filter_range]

theorem ncard_strings (n : Nat) : {bs : List UInt8 | bs.length = n}.ncard = 256 ^ n := by
  simpa using ncard_strings_where n fun _ => True

/-- A source that hands out the bytes put into it, in their order, and nothing else. -/
structure ByteStore where
  bytes : List UInt8

instance : Generator ByteStore where
  bytes n s :=
    if n ≤ s.bytes.length then (.ok (s.bytes.take n), ⟨s.bytes.drop n⟩)
    else (.error (.streamEnded "bytes"), s)
  integer _ _ := Action.fail .emptyRange
  integers _ _ _ := Action.fail .emptyRange

/-- What an action answers when its first state is taken from a distribution. -/
noncomputable def Action.answers {σ α : Type} (p : Action σ α) (μ : PMF σ) :
    PMF (Except Fault α) :=
  μ.map fun s => (p s).1

theorem Action.answers_bind_pure {σ α β : Type} (p : Action σ α) (f : α → β) (μ : PMF σ) :
    (p >>= fun a => pure (f a)).answers μ = (p.answers μ).map (Except.map f) := by
  rw [answers, answers, PMF.map_comp]
  congr 1
  funext s
  rw [bind_apply, Function.comp_apply]
  rcases p s with ⟨_ | a, t⟩ <;> rfl

/-- Every string of `n` bytes is handed out with the same probability. -/
def UniformBytes {γ : Type} [Generator γ] (μ : PMF γ) (n : Nat) : Prop :=
  ∀ bs : List UInt8, bs.length = n → (Generator.bytes n).answers μ (.ok bs) = (256 ^ n)⁻¹

/-- A store that holds any string of `n` bytes with the same probability. -/
noncomputable def uniformStore (n : Nat) : PMF ByteStore :=
  (PMF.uniformOfFinset (finite_strings n).toFinset
    ((finite_strings n).toFinset_nonempty.mpr (nonempty_strings n))).map ByteStore.mk

theorem bytes_store {bs : List UInt8} {n : Nat} (h : bs.length = n) :
    Generator.bytes n (ByteStore.mk bs) = (.ok bs, ⟨[]⟩) := by
  simp [Generator.bytes, ← h]

theorem uniformBytes_uniformStore (n : Nat) : UniformBytes (uniformStore n) n := by
  intro bs hbs
  rw [uniformStore, Action.answers, PMF.map_comp, PMF.map_apply, tsum_eq_single bs]
  · rw [Function.comp_apply, bytes_store hbs, if_pos rfl,
      PMF.uniformOfFinset_apply_of_mem _ (by simpa using hbs),
      ← Set.ncard_eq_toFinset_card _ (finite_strings n), ncard_strings, Nat.cast_pow,
      Nat.cast_ofNat]
  · intro cs hne
    by_cases hcs : cs.length = n
    · rw [Function.comp_apply, bytes_store hcs]
      exact if_neg fun h => hne (Except.ok.inj h).symm
    · rw [PMF.uniformOfFinset_apply_of_notMem _ (by simpa using hcs), ite_self]

/-- When the points of a finite set divide the probability evenly among them, an event has the
share of it that the event has of the set. -/
theorem toOuterMeasure_of_uniform {α : Type} {μ : PMF α} {s : Set α} (hs : s.Finite)
    (hne : s.Nonempty) (h : ∀ a ∈ s, μ a = (s.ncard : ENNReal)⁻¹) (t : Set α) :
    μ.toOuterMeasure t = (s ∩ t).ncard * (s.ncard : ENNReal)⁻¹ := by
  have hpart : ∀ u ⊆ s, μ.toOuterMeasure u = u.ncard * (s.ncard : ENNReal)⁻¹ := by
    intro u hu
    lift u to Finset α using hs.subset hu
    rw [PMF.toOuterMeasure_apply_finset, Finset.sum_congr rfl fun a ha => h a (hu ha),
      Finset.sum_const, nsmul_eq_mul, Set.ncard_coe_finset]
  have hpos : (s.ncard : ENNReal) ≠ 0 := by exact_mod_cast ((Set.ncard_pos hs).mpr hne).ne'
  have hall : μ.toOuterMeasure s = 1 :=
    (hpart s subset_rfl).trans (ENNReal.mul_inv_cancel hpos (ENNReal.natCast_ne_top _))
  have hsupport : μ.support ⊆ s := (μ.toOuterMeasure_apply_eq_one_iff s).mp hall
  have hinter : t ∩ μ.support = s ∩ t ∩ μ.support := by
    ext a
    constructor
    · exact fun ⟨ht, ha⟩ => ⟨⟨hsupport ha, ht⟩, ha⟩
    · exact fun ⟨⟨_, ht⟩, ha⟩ => ⟨ht, ha⟩
  rw [μ.toOuterMeasure_apply_eq_of_inter_support_eq hinter]
  exact hpart _ Set.inter_subset_left

namespace ScalarField

variable {F : ScalarField}

/-- A draw from a store uses the bytes up just if there are as many as it asks for. -/
theorem randomElement_store_iff {bs : List UInt8} {x : Residue} :
    F.randomElement (ByteStore.mk bs) = (.ok x, ⟨[]⟩) ↔
      bs.length = F.drawBytes ∧ F.element (bigEndian bs) = x := by
  by_cases hn : F.drawBytes ≤ bs.length
  · have hrun : F.randomElement (ByteStore.mk bs) =
        (.ok (F.element (bigEndian (bs.take F.drawBytes))), ⟨bs.drop F.drawBytes⟩) := by
      rw [randomElement, Action.bind_apply]
      simp [Generator.bytes, hn, Action.pure_apply]
    rw [hrun, Prod.mk.injEq, ByteStore.mk.injEq, List.drop_eq_nil_iff, Except.ok.injEq]
    constructor
    · rintro ⟨hx, hle⟩
      rw [List.take_of_length_le hle] at hx
      exact ⟨by omega, hx⟩
    · rintro ⟨hlen, hx⟩
      rw [List.take_of_length_le hlen.le]
      exact ⟨hx, hlen.le⟩
  · have hrun : F.randomElement (ByteStore.mk bs) = (.error (.streamEnded "bytes"), ⟨bs⟩) := by
      rw [randomElement, Action.bind_apply]
      simp [Generator.bytes, hn]
    rw [hrun]
    constructor
    · rintro ⟨⟩
    · rintro ⟨hlen, -⟩
      omega

/-- Eight bytes are to spare. -/
theorem modulus_lt_strings (F : ScalarField) : 2 ^ 64 * F.modulus < 256 ^ F.drawBytes := by
  have hlog : F.modulus < 2 ^ (F.modulus.log2 + 1) := Nat.lt_log2_self
  have hbits : 64 + (F.modulus.log2 + 1) ≤ 8 * F.drawBytes := by
    rw [drawBytes]
    omega
  calc
    2 ^ 64 * F.modulus < 2 ^ 64 * 2 ^ (F.modulus.log2 + 1) := by gcongr
    _ = 2 ^ (64 + (F.modulus.log2 + 1)) := (Nat.pow_add ..).symm
    _ ≤ 2 ^ (8 * F.drawBytes) := Nat.pow_le_pow_right (by decide) hbits
    _ = 256 ^ F.drawBytes := Nat.pow_mul ..

/-- The numbers of the strings are counted off by residue, so the residues below the last number
come one time more. -/
theorem ncard_strings_element {r : Nat} (hr : r < F.modulus) (n : Nat) :
    {bs : List UInt8 | bs.length = n ∧ F.element (bigEndian bs) = F.element r}.ncard =
      256 ^ n / F.modulus + if r < 256 ^ n % F.modulus then 1 else 0 := by
  have hcount := ncard_strings_where n (· ≡ r [MOD F.modulus])
  rw [Nat.count_modEq_card _ (by omega), Nat.mod_eq_of_lt hr] at hcount
  simpa only [element_eq_iff, Int.natCast_modEq_iff] using hcount

variable {γ : Type} [Generator γ] {μ : PMF γ}

theorem answers_randomElement (h : UniformBytes μ F.drawBytes) (x : Residue) :
    F.randomElement.answers μ (.ok x) =
      {bs : List UInt8 | bs.length = F.drawBytes ∧ F.element (bigEndian bs) = x}.ncard *
        (256 ^ F.drawBytes : ENNReal)⁻¹ := by
  let strings : Set (List UInt8) := {bs | bs.length = F.drawBytes}
  let answered : Set (Except Fault (List UInt8)) := Except.ok '' strings
  have hinj : Function.Injective (Except.ok : List UInt8 → Except Fault (List UInt8)) :=
    fun _ _ => Except.ok.inj
  have hcard : answered.ncard = 256 ^ F.drawBytes := by
    rw [Set.ncard_image_of_injective _ hinj, ncard_strings]
  have huniform : ∀ a ∈ answered,
      (Generator.bytes F.drawBytes).answers μ a = (answered.ncard : ENNReal)⁻¹ := by
    rintro _ ⟨bs, hbs, rfl⟩
    rw [h bs hbs, hcard, Nat.cast_pow, Nat.cast_ofNat]
  have hne : answered.Nonempty := (nonempty_strings F.drawBytes).image _
  have hevent : answered ∩ Set.preimage (Except.map fun bs => F.element (bigEndian bs)) {.ok x} =
      Except.ok '' {bs | bs.length = F.drawBytes ∧ F.element (bigEndian bs) = x} := by
    ext a
    constructor
    · rintro ⟨⟨bs, hbs, rfl⟩, hx⟩
      exact ⟨bs, ⟨hbs, Except.ok.inj hx⟩, rfl⟩
    · rintro ⟨bs, ⟨hbs, hx⟩, rfl⟩
      exact ⟨⟨bs, hbs, rfl⟩, congrArg Except.ok hx⟩
  rw [randomElement, Action.answers_bind_pure, ← PMF.toOuterMeasure_apply_singleton,
    PMF.toOuterMeasure_map_apply,
    toOuterMeasure_of_uniform ((finite_strings _).image _) hne huniform, hevent,
    Set.ncard_image_of_injective _ hinj, hcard, Nat.cast_pow, Nat.cast_ofNat]

/-- The share of one class differs from an equal share by less than one number. -/
theorem share_near {N p : Nat} (hN : 0 < N) (hp : 0 < p) (r : Nat) :
    |((N / p + if r < N % p then 1 else 0 : Nat) : ℝ) * (N : ℝ)⁻¹ - 1 / p| < 1 / N := by
  let c := N / p + if r < N % p then 1 else 0
  have hdiv : p * (N / p) + N % p = N := Nat.div_add_mod N p
  have hmod : N % p < p := Nat.mod_lt N hp
  have hc : c * p < N + p ∧ N < c * p + p := by
    by_cases hr : r < N % p
    · have hcp : c * p = p * (N / p) + p := by simp only [c, if_pos hr]; ring
      omega
    · have hcp : c * p = p * (N / p) := by simp only [c, if_neg hr]; ring
      omega
  have hNr : (0 : ℝ) < N := by exact_mod_cast hN
  have hpr : (0 : ℝ) < p := by exact_mod_cast hp
  have hlt : |(c : ℝ) * p - N| < p := by
    have hhigh : (c : ℝ) * p < N + p := by exact_mod_cast hc.1
    have hlow : (N : ℝ) < c * p + p := by exact_mod_cast hc.2
    rw [abs_lt]
    constructor <;> linarith
  calc
    |(c : ℝ) * (N : ℝ)⁻¹ - 1 / p| = |((c : ℝ) * p - N) / ((N : ℝ) * p)| := by
      congr 1
      field_simp
    _ = |(c : ℝ) * p - N| / ((N : ℝ) * p) := by rw [abs_div, abs_of_pos (mul_pos hNr hpr)]
    _ < p / ((N : ℝ) * p) := by gcongr
    _ = 1 / N := by field_simp

theorem answers_randomElement_near (h : UniformBytes μ F.drawBytes) {r : Nat}
    (hr : r < F.modulus) :
    |(F.randomElement.answers μ (.ok (F.element r))).toReal - 1 / F.modulus| <
      1 / (2 ^ 64 * F.modulus) := by
  have hp : 0 < F.modulus := by omega
  have hp' : (0 : ℝ) < F.modulus := by exact_mod_cast hp
  have hN : (2 ^ 64 * F.modulus : ℝ) < (256 ^ F.drawBytes : Nat) := by
    exact_mod_cast F.modulus_lt_strings
  have hnear := share_near (Nat.pow_pos (by decide : 0 < 256) : 0 < 256 ^ F.drawBytes) hp r
  rw [answers_randomElement h, ncard_strings_element hr, ENNReal.toReal_mul,
    ENNReal.toReal_natCast, ENNReal.toReal_inv, ENNReal.toReal_pow, ENNReal.toReal_ofNat]
  rw [Nat.cast_pow, Nat.cast_ofNat] at hnear hN
  exact hnear.trans (one_div_lt_one_div_of_lt (by positivity) hN)

/-- Draws are nearly uniform. A draw takes one string of `F.drawBytes` bytes; the strings are more
than `2 ^ 64` times as many as the residues, and each residue comes from as many of them as any
other, or from one more. So if the bytes are uniform, then so is the residue, but for less than
one part in `2 ^ 64`. -/
theorem randomElement_near_uniform (F : ScalarField) :
    (∀ bs : List UInt8,
      (∃ x, F.randomElement (ByteStore.mk bs) = (.ok x, ⟨[]⟩)) ↔ bs.length = F.drawBytes) ∧
    2 ^ 64 * F.modulus < 256 ^ F.drawBytes ∧
    ∀ r < F.modulus,
      {bs | F.randomElement (ByteStore.mk bs) = (.ok (F.element r), ⟨[]⟩)}.ncard =
        256 ^ F.drawBytes / F.modulus + (if r < 256 ^ F.drawBytes % F.modulus then 1 else 0) ∧
      ∀ {γ : Type} [Generator γ] (μ : PMF γ), UniformBytes μ F.drawBytes →
        |(F.randomElement.answers μ (.ok (F.element r))).toReal - 1 / F.modulus| <
          1 / (2 ^ 64 * F.modulus) := by
  refine ⟨?_, F.modulus_lt_strings, ?_⟩
  · intro bs
    simp [randomElement_store_iff]
  · intro r hr
    refine ⟨?_, ?_⟩
    · rw [← ncard_strings_element hr]
      congr 1
      ext bs
      exact randomElement_store_iff
    · intro γ _ μ h
      exact answers_randomElement_near h hr

theorem randomElement_near_uniform_modulo_256 :
    let F : ScalarField := ⟨256, by decide⟩
    UniformBytes (uniformStore 10) F.drawBytes ∧
      |(F.randomElement.answers (uniformStore 10) (.ok (F.element 3))).toReal - 1 / 256| <
        1 / (2 ^ 64 * 256) := by
  have hbytes : ScalarField.drawBytes ⟨256, by decide⟩ = 10 := by decide
  have h : UniformBytes (uniformStore 10) (ScalarField.drawBytes ⟨256, by decide⟩) := by
    rw [hbytes]
    exact uniformBytes_uniformStore 10
  have hnear := ((randomElement_near_uniform ⟨256, by decide⟩).2.2 3 (by decide)).2 _ h
  exact ⟨h, by simpa using hnear⟩

end ScalarField

end ProofCarrying
