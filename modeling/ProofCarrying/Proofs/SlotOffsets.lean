import ProofCarrying.Proofs.Indistinguishable

/-! Where the auxiliary vector holds what: the arity first, then the block of each slot at an
offset that depends on the lengths of the slots before it, then the private inputs. Inputs that do
not fit have no vector, and the first misfit is the fault. -/

namespace ProofCarrying.Layout

/-- Where the block of a slot begins: after the arity and the blocks before it. -/
def blockStart (slots : List Nat) (i : Nat) : Nat :=
  1 + ((slots.take i).map (1 + ·)).sum

/-- A vector that holds the arity, a block for each slot and the private inputs in their places.
Numbers are reduced by the modulus. -/
structure Laid (F : ScalarField) (slots : List Nat) (inputs : Inputs) (v : List Residue) :
    Prop where
  arity : v[0]? = some (F.element (inputs.incoming.length % F.modulus : Nat))
  supplied : ∀ (i : Nat) (m : Message), inputs.incoming[i]? = some m →
    (v.drop (blockStart slots i)).take (1 + m.payload.length) =
      F.element (m.type % F.modulus : Nat) :: m.payload
  absent : ∀ i l, slots[i]? = some l → inputs.incoming.length ≤ i →
    (v.drop (blockStart slots i)).take (1 + l) = List.replicate (1 + l) F.zero
  privates : v.drop (blockStart slots slots.length) = inputs.localData ++ inputs.witness

variable {F : ScalarField} {slots : List Nat} {localData witness : Int} {inputs : Inputs}

theorem element_mod (n : Nat) : F.element (n % F.modulus : Nat) = F.element n := by
  refine ScalarField.element_eq_iff.mpr ?_
  rw [Int.natCast_mod]
  exact Int.mod_modEq _ _

theorem slots_nonneg (slots : List Nat) : ∀ l ∈ slots.map Int.ofNat, 0 ≤ l := by
  intro l hl
  obtain ⟨n, -, rfl⟩ := List.mem_map.mp hl
  exact Int.natCast_nonneg n

theorem fits_iff : Fits (slots.map Int.ofNat) localData witness inputs ↔
    inputs.incoming.length ≤ slots.length ∧
      (∀ (i : Nat) (m : Message), inputs.incoming[i]? = some m →
        slots[i]? = some m.payload.length) ∧
      inputs.localData.length = localData ∧ inputs.witness.length = witness := by
  constructor
  · rintro ⟨ha, hs, hd, hw⟩
    rw [List.length_map] at ha
    refine ⟨ha, fun i m hm => ?_, hd, hw⟩
    have hi : i < slots.length := (List.getElem?_eq_some_iff.mp hm).1.trans_le ha
    have hl := hs i m slots[i] hm (by simp [hi])
    rw [List.getElem?_eq_getElem hi, Int.natCast_inj.mp hl]
  · rintro ⟨ha, hs, hd, hw⟩
    refine ⟨by rwa [List.length_map], fun i m l hm hl => ?_, hd, hw⟩
    rw [List.getElem?_map, hs i m hm] at hl
    exact Option.some.inj hl

theorem map_length_slots (h : Fits (slots.map Int.ofNat) localData witness inputs) :
    (contents F (slots.map Int.ofNat) inputs.incoming).map List.length = slots.map (1 + ·) := by
  rw [map_length_contents h.slots, List.map_map]
  refine List.map_congr_left fun l _ => ?_
  simp only [Function.comp_apply, Int.ofNat_eq_natCast]
  omega

/-- What a vector holds from the block of a slot on, or from the private inputs on where all slots
are passed. -/
theorem drop_vector (h : Fits (slots.map Int.ofNat) localData witness inputs) {i : Nat}
    (hi : i ≤ slots.length) :
    (vector F (slots.map Int.ofNat) inputs).drop (blockStart slots i) =
      ((contents F (slots.map Int.ofNat) inputs.incoming).drop i).flatten ++
        (inputs.localData ++ inputs.witness) := by
  have hsizes := map_length_slots (F := F) h
  have hcount : (contents F (slots.map Int.ofNat) inputs.incoming).length = slots.length := by
    rw [length_contents, List.length_map]
  rw [blockStart, Nat.add_comm, List.map_take, ← hsizes, vector, List.cons_append, List.cons_append,
    List.drop_succ_cons, List.append_assoc]
  generalize contents F (slots.map Int.ofNat) inputs.incoming = blocks at hcount ⊢
  generalize inputs.localData ++ inputs.witness = privates
  have hdrop := List.drop_sum_flatten (blocks ++ [privates]) i
  rw [List.map_append, List.take_append_of_le_length (by simpa [hcount] using hi),
    List.drop_append_of_le_length (by omega), List.flatten_append, List.flatten_append,
    List.flatten_singleton] at hdrop
  exact hdrop

theorem take_block (h : Fits (slots.map Int.ofNat) localData witness inputs) {i : Nat}
    {b : List Residue} (hb : (contents F (slots.map Int.ofNat) inputs.incoming)[i]? = some b) :
    ((vector F (slots.map Int.ofNat) inputs).drop (blockStart slots i)).take b.length = b := by
  obtain ⟨hi, rfl⟩ := List.getElem?_eq_some_iff.mp hb
  have hle : i ≤ slots.length := by
    rw [length_contents, List.length_map] at hi
    exact Nat.le_of_lt hi
  rw [drop_vector h hle, List.drop_eq_getElem_cons hi, List.flatten_cons, List.append_assoc,
    List.take_left]

theorem laid_vector (h : Fits (slots.map Int.ofNat) localData witness inputs) :
    Laid F slots inputs (vector F (slots.map Int.ofNat) inputs) := by
  obtain ⟨ha, hs, -, -⟩ := fits_iff.mp h
  have hblock := getElem?_contents (F := F) (slots_nonneg slots) inputs.incoming
  refine ⟨?_, fun i m hm => ?_, fun i l hl hi => ?_, ?_⟩
  · rw [element_mod]
    rfl
  · have hb := hblock i
    rw [List.getElem?_map, hs i m hm, Option.map_some, Option.map_some, slotType, slotPayload,
      hm] at hb
    rw [element_mod, Nat.add_comm]
    exact take_block h hb
  · have hb := hblock i
    rw [List.getElem?_map, hl, Option.map_some, Option.map_some, slotType, slotPayload,
      List.getElem?_eq_none hi] at hb
    have he : F.element (0 : Nat) :: List.replicate l F.zero = List.replicate (1 + l) F.zero := by
      rw [Nat.add_comm, List.replicate_succ]
      rfl
    have ht := take_block h hb
    simp only [Option.map_none, Option.getD_none, Int.ofNat_eq_natCast, Int.toNat_natCast] at ht
    rwa [he, List.length_replicate] at ht
  · rw [drop_vector h le_rfl, List.drop_of_length_le (by simp [length_contents]),
      List.flatten_nil, List.nil_append]

theorem Misfit.kind {lengths : List Int} {f : Fault}
    (h : Misfit lengths localData witness inputs f) : f.kind = .shape := by
  cases h <;> rfl

/-- Inputs have an auxiliary vector exactly if they fit the declared lengths. The vector is then as
long as these lengths imply, and holds everything in its place. Otherwise the first misfit is the
fault, which is told as a mismatch of shapes unless the declared length in its words has too many
digits. -/
theorem auxiliary_layout (F : ScalarField) (slots : List Nat) (localData witness : Int)
    (inputs : Inputs) :
    ((∃ v, auxiliary F (slots.map Int.ofNat) localData witness inputs = .ok v) ↔
      inputs.incoming.length ≤ slots.length ∧
        (∀ (i : Nat) (m : Message), inputs.incoming[i]? = some m →
          slots[i]? = some m.payload.length) ∧
        inputs.localData.length = localData ∧ inputs.witness.length = witness) ∧
    (∀ v, auxiliary F (slots.map Int.ofNat) localData witness inputs = .ok v →
      (v.length : Int) = auxiliaryLength (slots.map Int.ofNat) localData witness ∧
        Laid F slots inputs v) ∧
    ((¬ ∃ v, auxiliary F (slots.map Int.ofNat) localData witness inputs = .ok v) →
      ∃ f, auxiliary F (slots.map Int.ofNat) localData witness inputs = .error f ∧
        Misfit (slots.map Int.ofNat) localData witness inputs f ∧ f.kind = .shape ∧
        ((∀ n ∈ f.numbers, Text.isWritable n = true) ∧ f.told = f ∨
          (∃ n ∈ f.numbers, Text.isWritable n = false) ∧ f.told.kind = .value)) := by
  rw [← fits_iff]
  by_cases h : Fits (slots.map Int.ofNat) localData witness inputs
  · have hv := auxiliary_fits (F := F) h
    refine ⟨⟨fun _ => h, fun _ => ⟨_, hv⟩⟩, fun v he => ?_, fun hn => absurd ⟨_, hv⟩ hn⟩
    cases hv.symm.trans he
    exact ⟨length_vector h (slots_nonneg slots), laid_vector h⟩
  · obtain ⟨f, hf, he⟩ := auxiliary_misfit (F := F) h
    have hnone : ¬ ∃ v, auxiliary F (slots.map Int.ofNat) localData witness inputs = .ok v := by
      rintro ⟨v, hv⟩
      cases he.symm.trans hv
    refine ⟨⟨fun hh => absurd hh hnone, fun hh => absurd hh h⟩, fun v hv => absurd ⟨v, hv⟩ hnone,
      fun _ => ⟨f, he, hf, hf.kind, ?_⟩⟩
    have hkind : f.kind ≠ .value := by simp [hf.kind]
    rcases Fault.told_cases hkind with ⟨hw, ht⟩ | ⟨hw, ht⟩
    · exact Or.inl ⟨hw, ht⟩
    · exact Or.inr ⟨hw, by rw [ht]; rfl⟩

/-- Of three slots the second has no payload and the last no message. -/
example : auxiliary ⟨5, by decide⟩ [2, 0, 1] 1 0
    ⟨[⟨7, [.reduce 3 5 (by decide), .reduce 4 5 (by decide)]⟩, ⟨1, []⟩],
      [.reduce 1 5 (by decide)], []⟩ =
      .ok ([2, 2, 3, 4, 1, 0, 0, 1].map (ScalarField.element ⟨5, by decide⟩)) := by
  decide

/-- The local data miss a declared length of 4301 digits, and no mismatch of shapes is told. -/
theorem not_told_of_long_localData :
    ∃ f, auxiliary ⟨97, by decide⟩ [] (Nat.pow 10 Text.digitLimit : Nat) 0 ⟨[], [], []⟩ =
      .error f ∧ f.told.kind = .value := by
  obtain ⟨n, hn, hpos, hw⟩ := Text.exists_pow_digitLimit
  rw [hn]
  have hne : ((0 : Nat) : Int) ≠ n := fun h => Nat.ne_of_lt hpos (Int.natCast_inj.mp h)
  have hfit : ¬ Fits [] n 0 ⟨[], [], []⟩ := fun h => hne h.localData
  have hfirst : Misfit [] n 0 ⟨[], [], []⟩ (.localDataLength 0 n) :=
    .localData (by decide) (slotFits_nil []) hne
  obtain ⟨f, hf, he⟩ := auxiliary_misfit (F := ⟨97, by decide⟩) hfit
  obtain rfl := hf.unique hfirst
  refine ⟨_, he, ?_⟩
  simp [Fault.told, Fault.numbers, hw, Fault.kind]

end ProofCarrying.Layout
