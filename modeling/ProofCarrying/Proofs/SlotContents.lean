import Mathlib.Algebra.BigOperators.Group.List.Basic
import Mathlib.Algebra.Ring.Int.Defs
import ProofCarrying.Layout

/-! What the auxiliary vector holds: the arity, the contents of each slot, and the private
inputs. A slot holds its message or zeros, and its size does not depend on which. -/

namespace ProofCarrying.Layout

theorem getElem?_flatten_uniform {α : Type} {n : Nat} {L : List (List α)}
    (h : ∀ b ∈ L, b.length = n) (i : Nat) {j : Nat} (hj : j < n) :
    L.flatten[j + n * i]? = L[i]?.bind (·[j]?) := by
  induction L generalizing i with
  | nil => simp
  | cons b L ih =>
    have hb : b.length = n := h b (by simp)
    rw [List.flatten_cons]
    cases i with
    | zero =>
      rw [Nat.mul_zero, Nat.add_zero, List.getElem?_append_left (by omega)]
      rfl
    | succ i =>
      have hi : j + n * (i + 1) = b.length + (j + n * i) := by
        rw [hb, Nat.mul_succ]
        omega
      rw [hi, List.getElem?_append_right (by omega), Nat.add_sub_cancel_left,
        ih fun c hc => h c (by simp [hc])]
      rfl

def contents (F : ScalarField) : List Int → List Message → List (List Residue)
  | [], _ => []
  | l :: ls, [] => emptyBlock F l :: contents F ls []
  | _ :: ls, m :: ms => m.assignment F :: contents F ls ms

/-- The message in a slot, if there is one, has the payload length of the slot. -/
def SlotFits (ls : List Int) (ms : List Message) (i : Nat) : Prop :=
  ∀ m l, ms[i]? = some m → ls[i]? = some l → (m.payload.length : Int) = l

@[simp] theorem slotFits_nil (ls : List Int) (i : Nat) : SlotFits ls [] i := by
  intro m l hm
  simp at hm

@[simp] theorem slotFits_zero (l : Int) (ls : List Int) (m : Message) (ms : List Message) :
    SlotFits (l :: ls) (m :: ms) 0 ↔ (m.payload.length : Int) = l := by
  simp [SlotFits]

@[simp] theorem slotFits_succ (l : Int) (ls : List Int) (m : Message) (ms : List Message)
    (i : Nat) : SlotFits (l :: ls) (m :: ms) (i + 1) ↔ SlotFits ls ms i := by
  simp [SlotFits]

theorem blocks_fit {F : ScalarField} {ls : List Int} {ms : List Message}
    (h : ∀ i, SlotFits ls ms i) (slot : Nat) :
    blocks F slot ls ms = .ok (contents F ls ms).flatten := by
  induction ls generalizing ms slot with
  | nil => rfl
  | cons l ls ih =>
    cases ms with
    | nil =>
      simp only [blocks, ih (slotFits_nil ls), contents, List.flatten_cons]
      rfl
    | cons m ms =>
      have hm := (slotFits_zero l ls m ms).mp (h 0)
      have hms : ∀ i, SlotFits ls ms i := fun i => (slotFits_succ l ls m ms i).mp (h (i + 1))
      simp only [blocks, if_pos hm, ih hms, contents, List.flatten_cons]
      rfl

/-- A message that does not fit its slot, where all messages before it do. -/
structure FirstMisfit (ls : List Int) (ms : List Message) (i : Nat) (m : Message) (l : Int) :
    Prop where
  message : ms[i]? = some m
  slot : ls[i]? = some l
  length_ne : (m.payload.length : Int) ≠ l
  before : ∀ j < i, SlotFits ls ms j

theorem FirstMisfit.succ {ls : List Int} {ms : List Message} {i : Nat} {m n : Message}
    {l k : Int} (h : FirstMisfit ls ms i m l) (hn : (n.payload.length : Int) = k) :
    FirstMisfit (k :: ls) (n :: ms) (i + 1) m l := by
  refine ⟨by simpa using h.message, by simpa using h.slot, h.length_ne, ?_⟩
  intro j hj
  cases j with
  | zero => exact (slotFits_zero k ls n ms).mpr hn
  | succ j => exact (slotFits_succ k ls n ms j).mpr (h.before j (by omega))

theorem FirstMisfit.not_slotFits {ls : List Int} {ms : List Message} {i : Nat} {m : Message}
    {l : Int} (h : FirstMisfit ls ms i m l) : ¬ SlotFits ls ms i :=
  fun hf => h.length_ne (hf m l h.message h.slot)

theorem FirstMisfit.unique {ls : List Int} {ms : List Message} {i j : Nat} {m n : Message}
    {l k : Int} (h : FirstMisfit ls ms i m l) (h' : FirstMisfit ls ms j n k) :
    i = j ∧ m = n ∧ l = k := by
  have hij : i = j := by
    rcases Nat.lt_trichotomy i j with hlt | he | hlt
    · exact absurd (h'.before i hlt) h.not_slotFits
    · exact he
    · exact absurd (h.before j hlt) h'.not_slotFits
  subst hij
  exact ⟨rfl, Option.some.inj (h.message.symm.trans h'.message),
    Option.some.inj (h.slot.symm.trans h'.slot)⟩

/-- Either all messages fit their slots, or the first that does not is the fault. -/
theorem blocks_cases (F : ScalarField) (ls : List Int) (ms : List Message) (slot : Nat) :
    (∀ i, SlotFits ls ms i) ∨ ∃ i m l, FirstMisfit ls ms i m l ∧
      blocks F slot ls ms = .error (.incomingLength (slot + i) m.payload.length l) := by
  induction ls generalizing ms slot with
  | nil =>
    left
    intro i m l _ hl
    simp at hl
  | cons l ls ih =>
    cases ms with
    | nil => exact Or.inl (slotFits_nil _)
    | cons m ms =>
      by_cases hm : (m.payload.length : Int) = l
      · rcases ih ms (slot + 1) with hf | ⟨i, n, k, hk, he⟩
        · left
          intro i
          cases i with
          | zero => exact (slotFits_zero l ls m ms).mpr hm
          | succ i => exact (slotFits_succ l ls m ms i).mpr (hf i)
        · right
          refine ⟨i + 1, n, k, hk.succ hm, ?_⟩
          simp only [blocks, if_pos hm, he, bind, Except.bind]
          rw [Nat.add_right_comm, Nat.add_assoc]
      · right
        refine ⟨0, m, l, ⟨rfl, rfl, hm, by simp⟩, ?_⟩
        simp only [blocks, if_neg hm, Nat.add_zero]

theorem length_flatten_uniform {α : Type} {n : Nat} {L : List (List α)}
    (h : ∀ b ∈ L, b.length = n) : L.flatten.length = n * L.length := by
  induction L with
  | nil => simp
  | cons b L ih =>
    have hL := ih fun c hc => h c (by simp [hc])
    rw [List.flatten_cons, List.length_append, h b (by simp), hL, List.length_cons, Nat.mul_succ]
    omega

theorem length_contents (F : ScalarField) (ls : List Int) (ms : List Message) :
    (contents F ls ms).length = ls.length := by
  induction ls generalizing ms with
  | nil => rfl
  | cons l ls ih => cases ms <;> simp [contents, ih]

theorem length_flatten_contents {F : ScalarField} {ls : List Int} {ms : List Message}
    (h : ∀ i, SlotFits ls ms i) (hl : ∀ l ∈ ls, 0 ≤ l) :
    ((contents F ls ms).flatten.length : Int) = ls.length + payloadTotal ls := by
  induction ls generalizing ms with
  | nil => rfl
  | cons l ls ih =>
    have hl0 := hl l (by simp)
    have hls : ∀ k ∈ ls, 0 ≤ k := fun k hk => hl k (by simp [hk])
    cases ms with
    | nil =>
      have hh := ih (slotFits_nil ls) hls
      simp only [contents, List.flatten_cons, List.length_append, emptyBlock,
        List.length_replicate, List.length_cons, payloadTotal]
      omega
    | cons m ms =>
      have hm := (slotFits_zero l ls m ms).mp (h 0)
      have hh := ih (fun i => (slotFits_succ l ls m ms i).mp (h (i + 1))) hls
      simp only [contents, List.flatten_cons, List.length_append, Message.assignment,
        List.length_cons, payloadTotal]
      omega

theorem sum_contents {F : ScalarField} {g : List Residue → Int} {ls : List Int}
    {ms : List Message} (hg : ∀ l ∈ ls, g (emptyBlock F l) = 0) (h : ms.length ≤ ls.length) :
    ((contents F ls ms).map g).sum = (ms.map fun m => g (m.assignment F)).sum := by
  induction ls generalizing ms with
  | nil =>
    have hn : ms = [] := List.length_eq_zero_iff.mp (by simpa using h)
    simp [hn, contents]
  | cons l ls ih =>
    have hls : ∀ k ∈ ls, g (emptyBlock F k) = 0 := fun k hk => hg k (by simp [hk])
    cases ms with
    | nil =>
      have hh := @ih [] hls (by simp)
      simp only [contents, List.map_cons, List.sum_cons, hg l (by simp), hh]
      simp
    | cons m ms =>
      have hh := ih hls (by simpa using h)
      simp only [contents, List.map_cons, List.sum_cons, hh]

theorem forall_contents_iff {F : ScalarField} {P : List Residue → Prop} {ls : List Int}
    {ms : List Message} (hP : ∀ l ∈ ls, P (emptyBlock F l)) (h : ms.length ≤ ls.length) :
    (∀ b ∈ contents F ls ms, P b) ↔ ∀ m ∈ ms, P (m.assignment F) := by
  induction ls generalizing ms with
  | nil =>
    have hn : ms = [] := List.length_eq_zero_iff.mp (by simpa using h)
    simp [hn, contents]
  | cons l ls ih =>
    have hls : ∀ k ∈ ls, P (emptyBlock F k) := fun k hk => hP k (by simp [hk])
    cases ms with
    | nil =>
      have hh := @ih [] hls (by simp)
      simp only [contents, List.forall_mem_cons, hP l (by simp), true_and, hh]
    | cons m ms =>
      have hh := ih hls (by simpa using h)
      simp only [contents, List.forall_mem_cons, hh]

structure Fits (lengths : List Int) (localData witness : Int) (inputs : Inputs) : Prop where
  arity : inputs.incoming.length ≤ lengths.length
  slots : ∀ i, SlotFits lengths inputs.incoming i
  localData : (inputs.localData.length : Int) = localData
  witness : (inputs.witness.length : Int) = witness

/-- The first disagreement of the inputs with the declared lengths, as a fault. -/
inductive Misfit (lengths : List Int) (localData witness : Int) (inputs : Inputs) : Fault → Prop
  | arity (h : lengths.length < inputs.incoming.length) :
    Misfit lengths localData witness inputs
      (.tooManyMessages inputs.incoming.length lengths.length)
  | slot {i : Nat} {m : Message} {l : Int} (ha : inputs.incoming.length ≤ lengths.length)
      (h : FirstMisfit lengths inputs.incoming i m l) :
    Misfit lengths localData witness inputs (.incomingLength i m.payload.length l)
  | localData (ha : inputs.incoming.length ≤ lengths.length)
      (hs : ∀ i, SlotFits lengths inputs.incoming i)
      (h : (inputs.localData.length : Int) ≠ localData) :
    Misfit lengths localData witness inputs
      (.localDataLength inputs.localData.length localData)
  | witness (ha : inputs.incoming.length ≤ lengths.length)
      (hs : ∀ i, SlotFits lengths inputs.incoming i)
      (hd : (inputs.localData.length : Int) = localData)
      (h : (inputs.witness.length : Int) ≠ witness) :
    Misfit lengths localData witness inputs (.witnessLength inputs.witness.length witness)

theorem Misfit.unique {lengths : List Int} {localData witness : Int} {inputs : Inputs}
    {f g : Fault} (hf : Misfit lengths localData witness inputs f)
    (hg : Misfit lengths localData witness inputs g) : f = g := by
  cases hf with
  | arity h =>
    cases hg with
    | arity => rfl
    | slot ha | localData ha | witness ha => exact absurd ha (Nat.not_le.mpr h)
  | slot ha h =>
    cases hg with
    | arity h' => exact absurd ha (Nat.not_le.mpr h')
    | slot _ h' =>
      obtain ⟨rfl, rfl, rfl⟩ := h.unique h'
      rfl
    | localData _ hs | witness _ hs => exact absurd (hs _) h.not_slotFits
  | localData ha hs h =>
    cases hg with
    | arity h' => exact absurd ha (Nat.not_le.mpr h')
    | slot _ h' => exact absurd (hs _) h'.not_slotFits
    | localData => rfl
    | witness _ _ hd => exact absurd hd h
  | witness ha hs hd h =>
    cases hg with
    | arity h' => exact absurd ha (Nat.not_le.mpr h')
    | slot _ h' => exact absurd (hs _) h'.not_slotFits
    | localData _ _ h' => exact absurd hd h'
    | witness => rfl

def vector (F : ScalarField) (lengths : List Int) (inputs : Inputs) : List Residue :=
  F.element inputs.incoming.length :: (contents F lengths inputs.incoming).flatten ++
    inputs.localData ++ inputs.witness

theorem modulus_vector {F : ScalarField} {lengths : List Int} {inputs : Inputs}
    (ha : inputs.incoming.length ≤ lengths.length)
    (hm : ∀ m ∈ inputs.incoming, ∀ x ∈ m.payload, x.modulus = F.modulus)
    (hd : ∀ x ∈ inputs.localData, x.modulus = F.modulus)
    (hw : ∀ x ∈ inputs.witness, x.modulus = F.modulus) :
    ∀ x ∈ vector F lengths inputs, x.modulus = F.modulus := by
  have hslots : ∀ b ∈ contents F lengths inputs.incoming, ∀ x ∈ b, x.modulus = F.modulus := by
    refine (forall_contents_iff (P := fun b => ∀ x ∈ b, x.modulus = F.modulus) ?_ ha).mpr ?_
    · intro l _ x hmem
      rw [(List.mem_replicate.mp hmem).2]
      rfl
    · exact fun m hmem => List.forall_mem_cons.mpr ⟨rfl, hm m hmem⟩
  simp only [vector, List.cons_append, List.forall_mem_cons, List.forall_mem_append]
  refine ⟨rfl, ⟨?_, hd⟩, hw⟩
  intro x hx
  obtain ⟨b, hb, hxb⟩ := List.mem_flatten.mp hx
  exact hslots b hb x hxb

theorem auxiliary_fits {F : ScalarField} {lengths : List Int} {localData witness : Int}
    {inputs : Inputs} (h : Fits lengths localData witness inputs) :
    auxiliary F lengths localData witness inputs = .ok (vector F lengths inputs) := by
  simp only [auxiliary, if_neg (Nat.not_lt.mpr h.arity), blocks_fit h.slots, bind, Except.bind,
    if_neg (not_not.mpr h.localData), if_neg (not_not.mpr h.witness)]
  rfl

theorem auxiliary_misfit {F : ScalarField} {lengths : List Int} {localData witness : Int}
    {inputs : Inputs} (h : ¬ Fits lengths localData witness inputs) :
    ∃ f, Misfit lengths localData witness inputs f ∧
      auxiliary F lengths localData witness inputs = .error f := by
  by_cases ha : lengths.length < inputs.incoming.length
  · exact ⟨_, .arity ha, by rw [auxiliary, if_pos ha]⟩
  · rw [auxiliary, if_neg ha]
    rw [Nat.not_lt] at ha
    rcases blocks_cases F lengths inputs.incoming 0 with hs | ⟨i, m, l, hf, he⟩
    · simp only [blocks_fit hs, bind, Except.bind]
      by_cases hd : (inputs.localData.length : Int) = localData
      · by_cases hw : (inputs.witness.length : Int) = witness
        · exact absurd ⟨ha, hs, hd, hw⟩ h
        · refine ⟨_, .witness ha hs hd hw, ?_⟩
          rw [if_neg (not_not.mpr hd), if_pos hw]
      · refine ⟨_, .localData ha hs hd, ?_⟩
        rw [if_pos hd]
    · refine ⟨_, .slot ha hf, ?_⟩
      simp only [he, bind, Except.bind, Nat.zero_add]

theorem length_vector {F : ScalarField} {lengths : List Int} {localData witness : Int}
    {inputs : Inputs} (h : Fits lengths localData witness inputs) (hl : ∀ l ∈ lengths, 0 ≤ l) :
    ((vector F lengths inputs).length : Int) = auxiliaryLength lengths localData witness := by
  have hc := length_flatten_contents (F := F) h.slots hl
  have hd := h.localData
  have hw := h.witness
  simp only [vector, List.length_append, List.length_cons, auxiliaryLength]
  omega

end ProofCarrying.Layout
