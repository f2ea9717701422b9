import ProofCarrying.Proofs.DrawnSystems
import ProofCarrying.Proofs.WellFormedness

/-! Random predicates are satisfied by the inputs that are drawn with them. -/

namespace ProofCarrying

open ProofCarrying.Action RankOne

/-- No number is negative, and there are slots for all messages that are asked for. -/
structure Request.Feasible (r : Request) : Prop where
  maxArity : 0 ≤ r.maxArity
  arity : ∀ n ∈ r.arity?, n ≤ r.maxArity
  maxPayloadLength : 0 ≤ r.maxPayloadLength
  name : 0 ≤ r.name
  type : 0 ≤ r.type

/-- The wires of an instance whose payloads and private inputs are all of the greatest length. -/
def Request.mostWires (r : Request) : Int :=
  2 + r.maxArity + (r.maxArity + 3) * r.maxPayloadLength

/-- The ranges that an instance is drawn from: those of the lengths, of an arity that is not asked
for, and of the combinations over the wires. -/
inductive Request.Range (r : Request) : Int → Int → Prop
  | length : r.Range 0 (r.maxPayloadLength + 1)
  | arity (h : r.arity? = none) : r.Range 0 (r.maxArity + 1)
  | combination {width : Nat} {low high : Int} (hw : width ≤ r.mostWires)
      (h : CombinationRange width standardTerms low high) : r.Range low high

/-- A predicate of the shape that was asked for, inputs of this shape, and a system over the
field whose rows they balance. -/
structure Instance.Meets (F : ScalarField) (r : Request) (i : Instance) : Prop where
  field : i.predicate.field = F
  admissible : i.predicate.shape.Admissible
  type : i.predicate.shape.type = r.type
  maxArity : i.predicate.shape.maxArity = r.maxArity
  lengths : ∀ l ∈ i.predicate.shape.incoming, l ≤ r.maxPayloadLength
  accepts : i.predicate.shape.Accepts i.outgoing i.inputs
  arity : ∀ n ∈ r.arity?, (i.inputs.incoming.length : Int) = max 0 n
  systemField : i.predicate.system.field = F
  publicInputs : (i.predicate.system.numPublicInputs : Int) = i.predicate.shape.publicInputs
  totalVariables :
    (i.predicate.system.numTotalVariables : Int) = i.predicate.shape.totalVariables
  rows : ∀ k ∈ i.predicate.system.constraints, k.BalancedBy F
    (F.one :: (i.outgoing.payload ++ Layout.vector F i.predicate.shape.incoming i.inputs))

theorem Layout.payloadTotal_le {lengths : List Int} {n : Int} (h : ∀ l ∈ lengths, l ≤ n) :
    payloadTotal lengths ≤ lengths.length * n := by
  induction lengths with
  | nil => simp [payloadTotal]
  | cons l lengths ih =>
    obtain ⟨hl, hrest⟩ := List.forall_mem_cons.mp h
    have hle := ih hrest
    rw [payloadTotal, List.length_cons, Nat.cast_add_one, add_one_mul]
    omega

namespace Shape

variable {s : Shape} {r : Request} {outgoing : Message} {inputs : Inputs}

theorem totalVariables_le (hs : s.Admissible) (hm : s.maxArity = r.maxArity)
    (h : ∀ l ∈ s.incoming, l ≤ r.maxPayloadLength) (ho : s.outgoing ≤ r.maxPayloadLength)
    (hd : s.localData ≤ r.maxPayloadLength) (hw : s.witness ≤ r.maxPayloadLength) :
    s.totalVariables ≤ r.mostWires := by
  have hle := Layout.payloadTotal_le h
  rw [hs.1, hm] at hle
  rw [totalVariables, hm, Request.mostWires, add_mul]
  omega

theorem Accepts.length_succ (hs : s.Admissible) (h : s.Accepts outgoing inputs)
    (F : ScalarField) : ((outgoing.payload ++ Layout.vector F s.incoming inputs).length + 1 : Nat) =
      s.totalVariables := by
  obtain ⟨ho, hfits⟩ := (accepts_iff hs).mp h
  obtain ⟨hm, -, -, -, -, -, hpos⟩ := hs
  have hlen := Layout.length_vector (F := F) hfits hpos
  rw [Layout.auxiliaryLength] at hlen
  rw [List.length_append, totalVariables]
  push_cast
  omega

end Shape

section

variable {γ : Type} [Generator γ] {F : ScalarField} {r : Request}

theorem ensures_randomLength (hg : Generator.Lawful γ r.Range) (h : 0 ≤ r.maxPayloadLength) :
    (randomLength r : Action γ Int).Ensures fun n => 0 ≤ n ∧ n ≤ r.maxPayloadLength := by
  refine (hg.ensures_integer .length (by omega)).mono fun n hn => ?_
  omega

theorem ensures_randomArity (hg : Generator.Lawful γ r.Range) (h : r.Feasible) :
    (randomArity r : Action γ Int).Ensures fun n => n ≤ r.maxArity ∧ ∀ m ∈ r.arity?, n = m := by
  have ha := h.arity
  have hm := h.maxArity
  rw [randomArity]
  cases hr : r.arity? with
  | none =>
    refine (hg.ensures_integer (.arity hr) (by omega)).mono fun n hn => ⟨?_, by simp⟩
    omega
  | some n => exact ensures_pure ⟨ha n hr, by simp⟩

theorem ensures_incoming {R : Int → Int → Prop} (hg : Generator.Lawful γ R) {lengths : List Int}
    {type : Int} {n : Nat} (ht : 0 ≤ type) (hl : ∀ l ∈ lengths, 0 ≤ l) (hn : n ≤ lengths.length) :
    (numbered (randomIncoming F type lengths) 0 n : Action γ (List Message)).Ensures fun ms =>
      ms.length = n ∧ (∀ j, Layout.SlotFits lengths ms j) ∧
        ∀ m ∈ ms, ∀ x ∈ m.payload, x.modulus = F.modulus := by
  have hslot : ∀ j, 0 ≤ j → j < 0 + n →
      (randomIncoming F type lengths j : Action γ Message).Ensures fun m =>
        ∃ l, lengths[j]? = some l ∧ F.Payload l m.payload := by
    intro j _ hj
    have hget := List.getElem?_eq_getElem (by omega : j < lengths.length)
    simp only [randomIncoming, hget]
    refine (ensures_randomMessage hg ht (hl _ (List.getElem_mem _))).mono fun m hm => ?_
    exact ⟨_, rfl, hm⟩
  refine (ensures_numbered hslot).mono ?_
  rintro ms ⟨hlen, h⟩
  simp only [Nat.zero_add] at h
  refine ⟨hlen, ?_, ?_⟩
  · intro j m l hm hjl
    obtain ⟨k, hjk, hsize, -⟩ := h j m hm
    exact Option.some.inj (hjk.symm.trans hjl) ▸ hsize
  · intro m hm
    obtain ⟨j, hj⟩ := List.mem_iff_getElem?.mp hm
    obtain ⟨-, -, -, hmod⟩ := h j m hj
    exact hmod

theorem ensures_randomInstance (hg : Generator.Lawful γ r.Range) (h : r.Feasible) :
    (randomInstance F r : Action γ Instance).Ensures (Instance.Meets F r) := by
  have hlength := ensures_randomLength hg h.maxPayloadLength
  have hm := h.maxArity
  refine (hlength.times r.maxArity.toNat).bind fun lengths hls => ?_
  refine hlength.bind fun outgoingLength ho => ?_
  refine hlength.bind fun localLength hl => ?_
  refine hlength.bind fun witnessLength hw => ?_
  have hpos : ∀ l ∈ lengths, 0 ≤ l := fun l hmem => (hls.2 l hmem).1
  have hmax : ∀ l ∈ lengths, l ≤ r.maxPayloadLength := fun l hmem => (hls.2 l hmem).2
  let shape : Shape := ⟨r.name, r.type, outgoingLength, r.maxArity, lengths, localLength,
    witnessLength⟩
  have hshape : shape.Admissible :=
    ⟨by simp only [shape, hls.1]; omega, h.name, h.type, ho.1, hl.1, hw.1, hpos⟩
  refine (ensures_randomArity hg h).bind fun arity ha => ?_
  refine (ensures_randomMessage hg h.type ho.1).bind fun outgoing hout => ?_
  have hslots : arity.toNat ≤ lengths.length := by omega
  refine (ensures_incoming hg h.type hpos hslots).bind fun messages hms => ?_
  refine (F.ensures_randomElements hg hl.1).bind fun localData hd => ?_
  refine (F.ensures_randomElements hg hw.1).bind fun witness hx => ?_
  let inputs : Inputs := ⟨messages, localData, witness⟩
  have hfits : Layout.Fits lengths localLength witnessLength inputs :=
    ⟨hms.1.trans_le hslots, hms.2.1, hd.1, hx.1⟩
  have haccepts : shape.Accepts outgoing inputs :=
    (Shape.accepts_iff hshape).mpr ⟨hout.1, hfits⟩
  have hmod : ∀ x ∈ outgoing.payload ++ Layout.vector F lengths inputs,
      x.modulus = F.modulus :=
    List.forall_mem_append.mpr
      ⟨hout.2, Layout.modulus_vector hfits.arity hms.2.2 hd.2 hx.2⟩
  have hwires := haccepts.length_succ hshape F
  have hmost := Shape.totalVariables_le hshape rfl hmax ho.2 hl.2 hw.2
  refine (ensures_ok (if_pos hout.1)).bind fun primary hprimary => ?_
  refine (ensures_ok (Layout.auxiliary_fits hfits)).bind fun auxiliary hauxiliary => ?_
  subst hprimary hauxiliary
  have hgs := hg.mono fun _ _ => Request.Range.combination (hwires.trans_le hmost)
  have hpublic : outgoingLength + 1 ≤
      (outgoing.payload ++ Layout.vector F lengths inputs).length + 1 := by
    have hsize := hout.1
    rw [List.length_append]
    push_cast
    omega
  refine (ensures_randomSystem hgs hmod (by omega) hpublic (by decide)).bind fun s hs => ?_
  have hp : Predicate.ofShape shape s false none = .ok ⟨shape, s, false, F⟩ :=
    Predicate.ofShape_eq_ok_iff.mpr ⟨hshape, rfl, rfl, rfl, congrArg some hs.field⟩
  refine (ensures_ok hp).bind fun p hp => ensures_pure ?_
  subst hp
  refine ⟨rfl, hshape, rfl, rfl, hmax, haccepts, ?_, hs.field, hs.publicInputs, ?_, ?_⟩
  · intro n hn
    have hn := ha.2 n hn
    simp only [hms.1]
    omega
  · rw [hs.totalVariables]
    exact hwires
  · exact fun k hk => (hs.constraints k hk).toBalancedBy

end

namespace Instance.Meets

variable {F : ScalarField} {r : Request} {i : Instance}

theorem lengthsWellSpecified (h : i.Meets F r) : i.predicate.lengthsWellSpecified = true :=
  beq_iff_eq.mpr h.admissible.1

theorem correctNumInputs (h : i.Meets F r) : i.predicate.correctNumInputs = true :=
  beq_iff_eq.mpr h.publicInputs.symm

theorem correctNumVariables (h : i.Meets F r) : i.predicate.correctNumVariables = true :=
  beq_iff_eq.mpr h.totalVariables.symm

theorem satisfied (h : i.Meets F r) :
    i.predicate.isSatisfied i.outgoing i.inputs = .silent (.ok true) := by
  have hlen := Predicate.length_vector_accepted h.admissible h.accepts
  have hout := h.accepts.outgoing
  have hpublic := h.publicInputs
  have htotal := h.totalVariables
  rw [Predicate.isSatisfied_accepted h.admissible h.accepts]
  rw [h.field] at hlen ⊢
  apply System.isSatisfied_balanced
  · rw [Shape.publicInputs] at hpublic
    omega
  · rw [Shape.publicInputs] at hlen
    omega
  · rw [System.assignment, h.systemField]
    exact h.rows

theorem isWellFormed_iff (h : i.Meets F r) :
    i.predicate.isWellFormed = true ↔ ¬ (F.modulus : Int) ∣ r.type := by
  rw [Predicate.isWellFormed_eq h.lengthsWellSpecified h.correctNumInputs h.correctNumVariables,
    Predicate.typeNotZero_iff, h.field, h.type]

theorem wellFormedness_eq (h : i.Meets F r) : i.predicate.wellFormedness =
    if (F.modulus : Int) ∣ r.type then
      if Text.isWritable r.type then .ok false else .error .tooManyDigits
    else .ok true := by
  rw [Predicate.wellFormedness_eq h.lengthsWellSpecified h.correctNumInputs
    h.correctNumVariables, h.field, h.type]

end Instance.Meets

/-- A feasible request is met from every state of a generator that serves its ranges. The inputs
satisfy the predicate, whose shape and system agree, and it is well formed unless its type is zero
in the field. That it is not well formed is told only if the type can be put into words. -/
theorem randomInstance_satisfied {γ : Type} [Generator γ] (F : ScalarField) {r : Request}
    (hg : Generator.Lawful γ r.Range) (h : r.Feasible) (g : γ) :
    ∃ i g', randomInstance F r g = (.ok i, g') ∧
      i.predicate.isSatisfied i.outgoing i.inputs = .silent (.ok true) ∧
      i.predicate.report.correctNumInputs = true ∧
      i.predicate.report.correctNumVariables = true ∧
      (∀ l ∈ i.predicate.shape.incoming, 0 ≤ l ∧ l ≤ r.maxPayloadLength) ∧
      (i.inputs.incoming.length : Int) ≤ r.maxArity ∧
      (∀ n ∈ r.arity?, (i.inputs.incoming.length : Int) = max 0 n) ∧
      (i.predicate.isWellFormed = true ↔ ¬ (F.modulus : Int) ∣ r.type) ∧
      i.predicate.wellFormedness =
        if (F.modulus : Int) ∣ r.type then
          if Text.isWritable r.type then .ok false else .error .tooManyDigits
        else .ok true := by
  obtain ⟨i, g', hi, hm⟩ := ensures_randomInstance (F := F) hg h g
  obtain ⟨-, -, -, -, -, -, hpos⟩ := hm.admissible
  refine ⟨i, g', hi, hm.satisfied, hm.correctNumInputs, hm.correctNumVariables, ?_, ?_,
    hm.arity, hm.isWellFormed_iff, hm.wellFormedness_eq⟩
  · exact fun l hl => ⟨hpos l hl, hm.lengths l hl⟩
  · exact hm.maxArity ▸ hm.accepts.arity

/-- One message for two slots modulo six, with a type that is zero there. -/
theorem randomInstance_satisfied_modulo_six :
    ∃ (F : ScalarField) (r : Request) (i : Instance) (g : Congruential),
      F.modulus = 6 ∧ r.type = 12 ∧
      randomInstance F r (Congruential.ofSeed 1) = (.ok i, g) ∧
      i.predicate.isSatisfied i.outgoing i.inputs = .silent (.ok true) ∧
      i.inputs.incoming.length = 1 ∧ i.predicate.wellFormedness = .ok false := by
  let F : ScalarField := ⟨6, by decide⟩
  let r : Request := ⟨2, some 1, 4, 4, 0, 12⟩
  have h : r.Feasible := ⟨by decide, by decide, by decide, by decide, by decide⟩
  obtain ⟨i, g, hi, hs, -, -, -, -, ha, -, hw⟩ :=
    randomInstance_satisfied F (Congruential.lawful r.Range) h (Congruential.ofSeed 1)
  have hone : (i.inputs.incoming.length : Int) = 1 := ha 1 rfl
  refine ⟨F, r, i, g, rfl, rfl, hi, hs, Int.natCast_inj.mp hone, ?_⟩
  rw [hw, if_pos (by decide : ((6 : Nat) : Int) ∣ 12),
    if_pos (by decide +kernel : Text.isWritable 12 = true)]

/-- A type of more than 4300 digits that is zero in the field: the predicate is satisfied, and
there is no answer to whether it is well formed. -/
theorem not_told_of_long_type :
    ∃ (F : ScalarField) (r : Request) (i : Instance) (g : Congruential),
      r.Feasible ∧ randomInstance F r (Congruential.ofSeed 1) = (.ok i, g) ∧
      (F.modulus : Int) ∣ r.type ∧ i.predicate.wellFormedness = .error .tooManyDigits := by
  let F : ScalarField := ⟨97, by decide⟩
  obtain ⟨n, hd, hn, hw⟩ := Text.exists_dvd_not_writable (p := F.modulus) (by decide)
  let r : Request := ⟨0, none, 4, 0, 0, n⟩
  have h : r.Feasible := ⟨Int.le_refl 0, by simp [r], Int.natCast_nonneg 4, Int.le_refl 0,
    Int.natCast_nonneg n⟩
  have hdvd : (F.modulus : Int) ∣ r.type := Int.natCast_dvd_natCast.mpr hd
  obtain ⟨i, g, hi, hm⟩ :=
    ensures_randomInstance (F := F) (Congruential.lawful r.Range) h (Congruential.ofSeed 1)
  refine ⟨F, r, i, g, h, hi, hdvd, ?_⟩
  rw [hm.wellFormedness_eq, if_pos hdvd, hw]
  rfl

end ProofCarrying
