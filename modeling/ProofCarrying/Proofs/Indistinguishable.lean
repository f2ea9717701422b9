import ProofCarrying.Proofs.DotProduct
import ProofCarrying.Proofs.SlotContents

/-! What the auxiliary vector tells of the inputs of a node. Arity and types are known up to the
modulus only, and an absent message looks like one of type zero whose payload is zeros. -/

namespace ProofCarrying.Layout

def slotType (ms : List Message) (i : Nat) : Nat :=
  (ms[i]?.map Message.type).getD 0

def slotPayload (F : ScalarField) (l : Int) (ms : List Message) (i : Nat) : List Residue :=
  (ms[i]?.map Message.payload).getD (List.replicate l.toNat F.zero)

/-- Inputs that agree in all that the auxiliary vector tells. -/
structure Alike (F : ScalarField) (lengths : List Int) (x y : Inputs) : Prop where
  arity : (x.incoming.length : Int) ≡ y.incoming.length [ZMOD F.modulus]
  types : ∀ i < lengths.length,
    (slotType x.incoming i : Int) ≡ slotType y.incoming i [ZMOD F.modulus]
  payloads : ∀ i l, lengths[i]? = some l →
    slotPayload F l x.incoming i = slotPayload F l y.incoming i
  localData : x.localData = y.localData
  witness : x.witness = y.witness

variable {F : ScalarField}

theorem emptyBlock_eq {l : Int} (hl : 0 ≤ l) :
    emptyBlock F l = F.element (0 : Nat) :: List.replicate l.toNat F.zero := by
  have hn : (1 + l).toNat = l.toNat + 1 := by omega
  rw [emptyBlock, hn, List.replicate_succ]
  rfl

theorem getElem?_contents {ls : List Int} (hl : ∀ l ∈ ls, 0 ≤ l) (ms : List Message) (i : Nat) :
    (contents F ls ms)[i]? =
      ls[i]?.map fun l => F.element (slotType ms i) :: slotPayload F l ms i := by
  induction ls generalizing ms i with
  | nil => simp [contents]
  | cons l ls ih =>
    have hls : ∀ k ∈ ls, 0 ≤ k := fun k hk => hl k (by simp [hk])
    cases ms with
    | nil =>
      have he := emptyBlock_eq (F := F) (hl l (by simp))
      cases i with
      | zero => simp [contents, he, slotType, slotPayload]
      | succ i => simpa [contents, slotType, slotPayload] using ih hls [] i
    | cons m ms =>
      cases i with
      | zero => simp [contents, Message.assignment, slotType, slotPayload]
      | succ i => simpa [contents, slotType, slotPayload] using ih hls ms i

theorem map_length_contents {ls : List Int} {ms : List Message} (h : ∀ i, SlotFits ls ms i) :
    (contents F ls ms).map List.length = ls.map fun l => (1 + l).toNat := by
  induction ls generalizing ms with
  | nil => rfl
  | cons l ls ih =>
    cases ms with
    | nil => simp [contents, emptyBlock, ih (slotFits_nil ls)]
    | cons m ms =>
      have hm := (slotFits_zero l ls m ms).mp (h 0)
      have hms : ∀ i, SlotFits ls ms i := fun i => (slotFits_succ l ls m ms i).mp (h (i + 1))
      have hn : m.payload.length + 1 = (1 + l).toNat := by omega
      simp [contents, Message.assignment, ih hms, hn]

theorem contents_eq_iff {ls : List Int} {ms ns : List Message} (hl : ∀ l ∈ ls, 0 ≤ l) :
    contents F ls ms = contents F ls ns ↔ ∀ i l, ls[i]? = some l →
      (slotType ms i : Int) ≡ slotType ns i [ZMOD F.modulus] ∧
        slotPayload F l ms i = slotPayload F l ns i := by
  rw [List.ext_getElem?_iff]
  refine forall_congr' fun i => ?_
  rw [getElem?_contents hl, getElem?_contents hl]
  cases ls[i]? with
  | none => simp
  | some l => simp [ScalarField.element_eq_iff]

theorem vector_eq_iff_alike {lengths : List Int} {localData witness : Int} {x y : Inputs}
    (hl : ∀ l ∈ lengths, 0 ≤ l) (hx : Fits lengths localData witness x)
    (hy : Fits lengths localData witness y) :
    vector F lengths x = vector F lengths y ↔ Alike F lengths x y := by
  have hsizes : (contents F lengths x.incoming).map List.length =
      (contents F lengths y.incoming).map List.length :=
    (map_length_contents hx.slots).trans (map_length_contents hy.slots).symm
  have hflat : (contents F lengths x.incoming).flatten.length =
      (contents F lengths y.incoming).flatten.length := by
    rw [List.length_flatten, List.length_flatten, hsizes]
  have hdata : x.localData.length = y.localData.length :=
    Int.natCast_inj.mp (hx.localData.trans hy.localData.symm)
  constructor
  · intro h
    rw [vector, vector, List.cons_append, List.cons_append, List.cons_append, List.cons_append,
      List.cons.injEq] at h
    obtain ⟨ha, h⟩ := h
    obtain ⟨h, hw⟩ := List.append_inj h (by simp [hflat, hdata])
    obtain ⟨hc, hd⟩ := List.append_inj h hflat
    have hslots := (contents_eq_iff hl).mp (List.eq_iff_flatten_eq.mpr ⟨hc, hsizes⟩)
    exact ⟨ScalarField.element_eq_iff.mp ha,
      fun i hi => (hslots i _ (List.getElem?_eq_getElem hi)).1,
      fun i l h => (hslots i l h).2, hd, hw⟩
  · intro h
    have hc : contents F lengths x.incoming = contents F lengths y.incoming := by
      refine (contents_eq_iff hl).mpr fun i l hi => ⟨h.types i ?_, h.payloads i l hi⟩
      exact (List.getElem?_eq_some_iff.mp hi).1
    rw [vector, vector, hc, h.localData, h.witness, ScalarField.element_eq_iff.mpr h.arity]

theorem Alike.length_eq {lengths : List Int} {localData witness : Int} {x y : Inputs}
    (h : Alike F lengths x y) (hx : Fits lengths localData witness x)
    (hy : Fits lengths localData witness y) (hp : lengths.length < F.modulus) :
    x.incoming.length = y.incoming.length := by
  have hxp := hx.arity.trans_lt hp
  have hyp := hy.arity.trans_lt hp
  exact Nat.ModEq.eq_of_lt_of_lt (Int.natCast_modEq_iff.mp h.arity) hxp hyp

/-- The auxiliary vectors of fitting inputs are equal exactly if the inputs are alike. With fewer
slots than the modulus, equal vectors come from as many messages, of congruent types and with
equal payloads, and from equal private inputs. -/
theorem auxiliary_eq_iff_alike {lengths : List Int} {localData witness : Int} {x y : Inputs}
    (hl : ∀ l ∈ lengths, 0 ≤ l) (hx : Fits lengths localData witness x)
    (hy : Fits lengths localData witness y) :
    ∃ u v, auxiliary F lengths localData witness x = .ok u ∧
      auxiliary F lengths localData witness y = .ok v ∧ (u = v ↔ Alike F lengths x y) ∧
      (lengths.length < F.modulus → u = v →
        x.incoming.length = y.incoming.length ∧
        (∀ (i : Nat) (m n : Message), x.incoming[i]? = some m → y.incoming[i]? = some n →
          (m.type : Int) ≡ n.type [ZMOD F.modulus] ∧ m.payload = n.payload) ∧
        x.localData = y.localData ∧ x.witness = y.witness) := by
  have hiff := vector_eq_iff_alike (F := F) hl hx hy
  refine ⟨_, _, auxiliary_fits hx, auxiliary_fits hy, hiff, fun hp he => ?_⟩
  have h := hiff.mp he
  refine ⟨h.length_eq hx hy hp, fun i m n hm hn => ?_, h.localData, h.witness⟩
  have hi : i < lengths.length := (List.getElem?_eq_some_iff.mp hm).1.trans_le hx.arity
  have ht := h.types i hi
  have hq := h.payloads i _ (List.getElem?_eq_getElem hi)
  simp only [slotType, slotPayload, hm, hn, Option.map_some, Option.getD_some] at ht hq
  exact ⟨ht, hq⟩

/-- Modulo two, two messages of even types look like none. -/
theorem auxiliary_eq_of_even_types :
    ∃ (F : ScalarField) (x y : Inputs) (u : List Residue), F.modulus = 2 ∧
      x.incoming.map Message.type = [] ∧ y.incoming.map Message.type = [2, 4] ∧
      auxiliary F [1, 0] 1 0 x = .ok u ∧ auxiliary F [1, 0] 1 0 y = .ok u := by
  let F : ScalarField := ⟨2, by decide⟩
  let x : Inputs := ⟨[], [F.one], []⟩
  let y : Inputs := ⟨[⟨2, [F.zero]⟩, ⟨4, []⟩], [F.one], []⟩
  have hx : Fits [1, 0] 1 0 x := ⟨by decide, slotFits_nil _, rfl, rfl⟩
  have hy : Fits [1, 0] 1 0 y := by
    refine ⟨by decide, fun i => ?_, rfl, rfl⟩
    rcases i with _ | _ | i
    · exact (slotFits_zero _ _ _ _).mpr rfl
    · exact (slotFits_succ _ _ _ _ 0).mpr ((slotFits_zero _ _ _ _).mpr rfl)
    · simp [SlotFits, y]
  obtain ⟨u, v, hu, hv, hiff, -⟩ := auxiliary_eq_iff_alike (F := F) (by decide) hx hy
  have ha : Alike F [1, 0] x y := by
    refine ⟨by decide, by decide, fun i l hi => ?_, rfl, rfl⟩
    rcases i with _ | _ | i
    · cases hi
      rfl
    · cases hi
      rfl
    · simp at hi
  refine ⟨F, x, y, u, rfl, rfl, rfl, hu, ?_⟩
  rw [hv, hiff.mpr ha]

end ProofCarrying.Layout
