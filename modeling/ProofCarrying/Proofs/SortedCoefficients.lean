import Mathlib.Data.List.Perm.Basic
import ProofCarrying.Proofs.CoefficientTotals

/-! Coefficients listed by index, of which the last for an index counts. Sorting keeps what is
listed and forgets the order, so that a combination depends on the listed coefficients alone. -/

namespace ProofCarrying.RankOne.Combination

/-- The coefficient listed last for an index. -/
def listed? (cs : List (Int × Int)) (i : Int) : Option Int :=
  cs.reverse.lookup i

/-- The coefficient of a variable, which is zero when none is listed. -/
def coefficientOf (cs : List (Int × Int)) (i : Nat) : Int :=
  (listed? cs i).getD 0

def Ascending (m : List (Int × Int)) : Prop :=
  m.Pairwise fun e d => e.1 < d.1

theorem lookup_cons_of_ne {i j : Int} (h : j ≠ i) (c : Int) (m : List (Int × Int)) :
    ((i, c) :: m).lookup j = m.lookup j := by
  rw [List.lookup_cons, beq_false_of_ne h]

theorem lookup_cons_congr {m m' : List (Int × Int)} (e : Int × Int) {j : Int}
    (h : m.lookup j = m'.lookup j) : (e :: m).lookup j = (e :: m').lookup j := by
  rw [List.lookup_cons, List.lookup_cons, h]

theorem lookup_enter (i c j : Int) (m : List (Int × Int)) :
    (enter i c m).lookup j = ((i, c) :: m).lookup j := by
  induction m with
  | nil => rfl
  | cons e m ih =>
    obtain ⟨k, d⟩ := e
    by_cases hlt : i < k
    · rw [enter, if_pos hlt]
    · by_cases hik : i = k
      · rw [enter, if_neg hlt, if_pos hik]
        by_cases hj : j = i
        · rw [hj, List.lookup_cons_self, List.lookup_cons_self]
        · rw [lookup_cons_of_ne hj, lookup_cons_of_ne hj, lookup_cons_of_ne (hik ▸ hj)]
      · rw [enter, if_neg hlt, if_neg hik, lookup_cons_congr (k, d) ih]
        by_cases hj : j = i
        · rw [lookup_cons_of_ne (hj ▸ hik), hj, List.lookup_cons_self, List.lookup_cons_self]
        · rw [lookup_cons_of_ne hj]
          exact lookup_cons_congr (k, d) (lookup_cons_of_ne hj c m)

theorem lookup_foldl_enter (cs m : List (Int × Int)) (j : Int) :
    (cs.foldl (fun m e => enter e.1 e.2 m) m).lookup j = (cs.reverse ++ m).lookup j := by
  induction cs generalizing m with
  | nil => rfl
  | cons e cs ih =>
    rw [List.foldl_cons, ih, List.reverse_cons, List.append_assoc, List.lookup_append,
      List.lookup_append, lookup_enter]
    rfl

theorem lookup_sorted (cs : List (Int × Int)) (j : Int) :
    (sorted cs).lookup j = listed? cs j := by
  rw [sorted, lookup_foldl_enter, List.append_nil, listed?]

theorem index_mem_enter {i c j : Int} {m : List (Int × Int)} :
    j ∈ (enter i c m).map Prod.fst ↔ j = i ∨ j ∈ m.map Prod.fst := by
  induction m with
  | nil => simp [enter]
  | cons e m ih =>
    obtain ⟨k, d⟩ := e
    by_cases hlt : i < k
    · simp [enter, if_pos hlt]
    · by_cases hik : i = k
      · simp [enter, hik]
      · simp only [enter, if_neg hlt, if_neg hik, List.map_cons, List.mem_cons, ih]
        exact or_left_comm

theorem index_mem_foldl_enter {cs m : List (Int × Int)} {j : Int} :
    j ∈ (cs.foldl (fun m e => enter e.1 e.2 m) m).map Prod.fst ↔
      j ∈ cs.map Prod.fst ∨ j ∈ m.map Prod.fst := by
  induction cs generalizing m with
  | nil => simp
  | cons e cs ih =>
    rw [List.foldl_cons, ih, index_mem_enter, List.map_cons, List.mem_cons, or_left_comm, or_assoc]

theorem index_mem_sorted {cs : List (Int × Int)} {j : Int} :
    j ∈ (sorted cs).map Prod.fst ↔ j ∈ cs.map Prod.fst := by
  rw [sorted, index_mem_foldl_enter]
  simp

theorem nonneg_sorted {cs : List (Int × Int)} (h : ∀ e ∈ cs, 0 ≤ e.1) :
    ∀ e ∈ sorted cs, 0 ≤ e.1 := by
  intro e he
  obtain ⟨d, hd, hde⟩ := List.mem_map.mp (index_mem_sorted.mp (List.mem_map_of_mem he))
  exact hde ▸ h d hd

theorem Ascending.enter {m : List (Int × Int)} (h : Ascending m) (i c : Int) :
    Ascending (enter i c m) := by
  induction m with
  | nil => exact List.pairwise_singleton _ _
  | cons e m ih =>
    obtain ⟨k, d⟩ := e
    obtain ⟨hk, hm⟩ := List.pairwise_cons.mp h
    by_cases hlt : i < k
    · rw [Combination.enter, if_pos hlt]
      refine List.pairwise_cons.mpr ⟨?_, h⟩
      intro f hf
      rcases List.mem_cons.mp hf with rfl | hf
      · exact hlt
      · exact hlt.trans (hk f hf)
    · by_cases hik : i = k
      · rw [Combination.enter, if_neg hlt, if_pos hik, hik]
        exact List.pairwise_cons.mpr ⟨hk, hm⟩
      · rw [Combination.enter, if_neg hlt, if_neg hik]
        refine List.pairwise_cons.mpr ⟨?_, ih hm⟩
        intro f hf
        have hf : f.1 = i ∨ f.1 ∈ m.map Prod.fst :=
          index_mem_enter.mp (List.mem_map_of_mem hf)
        rcases hf with hf | hf
        · show k < f.1
          omega
        · obtain ⟨g, hg, hgf⟩ := List.mem_map.mp hf
          exact hgf ▸ hk g hg

theorem Ascending.foldl_enter {m : List (Int × Int)} (h : Ascending m) (cs : List (Int × Int)) :
    Ascending (cs.foldl (fun m e => Combination.enter e.1 e.2 m) m) := by
  induction cs generalizing m with
  | nil => exact h
  | cons e cs ih => exact ih (h.enter e.1 e.2)

theorem ascending_sorted (cs : List (Int × Int)) : Ascending (sorted cs) :=
  Ascending.foldl_enter .nil cs

theorem Ascending.mem_iff_lookup {m : List (Int × Int)} (h : Ascending m) {i c : Int} :
    (i, c) ∈ m ↔ m.lookup i = some c := by
  induction m with
  | nil => simp
  | cons e m ih =>
    obtain ⟨k, d⟩ := e
    obtain ⟨hk, hm⟩ := List.pairwise_cons.mp h
    by_cases hik : i = k
    · subst hik
      have hnot : (i, c) ∉ m := fun hc => (lt_irrefl i) (hk _ hc)
      simp [hnot, eq_comm]
    · rw [lookup_cons_of_ne hik, ← ih hm]
      simp [hik]

theorem Ascending.nodup {m : List (Int × Int)} (h : Ascending m) : m.Nodup :=
  h.imp fun hlt he => hlt.ne (congrArg Prod.fst he)

theorem Ascending.eq_of_perm {m m' : List (Int × Int)} (h : Ascending m) (h' : Ascending m')
    (hp : m.Perm m') : m = m' :=
  hp.eq_of_pairwise (fun _ _ _ _ hlt hgt => absurd hlt hgt.not_gt) h h'

/-- Ascending lists in which the same is found for every index are the same. -/
theorem Ascending.eq_of_lookup {m m' : List (Int × Int)} (h : Ascending m) (h' : Ascending m')
    (he : ∀ i, m.lookup i = m'.lookup i) : m = m' := by
  refine h.eq_of_perm h' ((List.perm_ext_iff_of_nodup h.nodup h'.nodup).mpr ?_)
  rintro ⟨i, c⟩
  rw [h.mem_iff_lookup, h'.mem_iff_lookup, he]

section

variable {cs cs' : List (Int × Int)}

theorem sorted_eq_of_listed (h : ∀ i, listed? cs' i = listed? cs i) : sorted cs' = sorted cs := by
  refine (ascending_sorted cs').eq_of_lookup (ascending_sorted cs) ?_
  intro i
  rw [lookup_sorted, lookup_sorted, h]

theorem sorted_eq_of_perm (hnd : (cs.map Prod.fst).Nodup) (h : cs'.Perm cs) :
    sorted cs' = sorted cs := by
  have hnd' : (cs'.map Prod.fst).Nodup := (h.map Prod.fst).nodup_iff.mpr hnd
  have hp := ((sorted_perm hnd').trans h).trans (sorted_perm hnd).symm
  exact (ascending_sorted cs').eq_of_perm (ascending_sorted cs) hp

end

theorem ofTerms_of_neg {ts : List (Int × Residue)} (h : ∃ t ∈ ts, t.1 < 0) :
    ofTerms ts = .error .negativeIndex := by
  induction ts with
  | nil => simp at h
  | cons t ts ih =>
    obtain ⟨i, c⟩ := t
    by_cases hi : 0 ≤ i
    · obtain ⟨u, hu, hneg⟩ := h
      have hts : ∃ u ∈ ts, u.1 < 0 := by
        rcases List.mem_cons.mp hu with rfl | hu
        · exact absurd hi (not_le.mpr hneg)
        · exact ⟨u, hu, hneg⟩
      rw [ofTerms, if_pos hi, ih hts]
      rfl
    · rw [ofTerms, if_neg hi]

theorem ofCoefficients_of_neg (F : ScalarField) {cs : List (Int × Int)} (h : ∃ e ∈ cs, e.1 < 0) :
    ofCoefficients F cs = .error .negativeIndex := by
  apply ofTerms_of_neg
  obtain ⟨e, he, hneg⟩ := h
  have hi : e.1 ∈ (sorted cs).map Prod.fst := index_mem_sorted.mpr (List.mem_map_of_mem he)
  obtain ⟨d, hd, hde⟩ := List.mem_map.mp hi
  have hdneg : d.1 < 0 := hde ▸ hneg
  exact ⟨_, List.mem_map_of_mem hd, hdneg⟩

section

variable {F : ScalarField} {m : List (Int × Int)}

theorem total_of_ascending (h : Ascending m) (h0 : ∀ e ∈ m, 0 ≤ e.1) (i : Nat) :
    total (m.map fun e => ⟨e.1.toNat, F.element e.2⟩) i ≡ (m.lookup (i : Int)).getD 0
      [ZMOD F.modulus] := by
  induction m with
  | nil => rfl
  | cons e m ih =>
    obtain ⟨k, d⟩ := e
    obtain ⟨hk, hm⟩ := List.pairwise_cons.mp h
    have hrest := ih hm fun e he => h0 e (by simp [he])
    have hk0 : 0 ≤ k := h0 (k, d) (by simp)
    rw [List.map_cons, total_cons]
    by_cases hik : (i : Int) = k
    · have hnone : m.lookup (i : Int) = none := by
        refine List.lookup_eq_none_iff.mpr ?_
        intro f hf
        exact bne_iff_ne.mpr (hik ▸ (hk f hf).ne)
      have htoNat : k.toNat = i := by omega
      have hsum := (F.value_element_modEq d).add hrest
      rw [hnone, Option.getD_none, Int.add_zero] at hsum
      rw [if_pos htoNat, hik, List.lookup_cons_self]
      exact hsum
    · have htoNat : k.toNat ≠ i := by omega
      rw [if_neg htoNat, Int.zero_add, lookup_cons_of_ne hik]
      exact hrest

theorem increasing_of_ascending (h : Ascending m) (h0 : ∀ e ∈ m, 0 ≤ e.1) :
    (m.map fun e => (⟨e.1.toNat, F.element e.2⟩ : Term)).Pairwise
      fun t u => t.index < u.index := by
  refine List.pairwise_map.mpr (h.imp_of_mem ?_)
  intro e d he hd hlt
  have he0 := h0 e he
  show e.1.toNat < d.1.toNat
  omega

end

/-- The combination that integer coefficients by index stand for. -/
structure Collects (F : ScalarField) (cs : List (Int × Int)) (l : Combination) : Prop where
  coefficients : l.CoefficientsIn F
  increasing : l.Pairwise fun t u => t.index < u.index
  total : ∀ i, l.total i ≡ coefficientOf cs i [ZMOD F.modulus]

theorem ofCoefficients_collects {F : ScalarField} {cs : List (Int × Int)}
    (h : ∀ e ∈ cs, 0 ≤ e.1) : ∃ l, ofCoefficients F cs = .ok l ∧ Collects F cs l := by
  have hs : ∀ e ∈ sorted cs, 0 ≤ e.1 := nonneg_sorted h
  have hasc := ascending_sorted cs
  refine ⟨_, ofTerms_map hs, ?_, increasing_of_ascending hasc hs, ?_⟩
  · intro t ht
    obtain ⟨e, -, rfl⟩ := List.mem_map.mp ht
    rfl
  · intro i
    rw [coefficientOf, ← lookup_sorted]
    exact total_of_ascending hasc hs i

theorem Collects.evaluate_eq {F : ScalarField} {cs : List (Int × Int)} {l : Combination}
    (h : Collects F cs l) {z : List Residue} (hz : Over F z) (hw : l.width ≤ z.length) :
    l.evaluate F z =
      .ok (F.element (∑ i ∈ Finset.range z.length, coefficientOf cs i * wire z i)) :=
  evaluate_eq_of_total h.coefficients hz hw h.total

end ProofCarrying.RankOne.Combination
