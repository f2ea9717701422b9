import ProofCarrying.Proofs.DotProduct

/-! Combinations and constraints built from integer coefficients by index. -/

namespace ProofCarrying.RankOne

namespace Combination

theorem enter_perm {i c : Int} {m : List (Int × Int)} (h : i ∉ m.map Prod.fst) :
    (enter i c m).Perm ((i, c) :: m) := by
  induction m with
  | nil => exact .refl _
  | cons e m ih =>
    obtain ⟨j, d⟩ := e
    simp only [List.map_cons, List.mem_cons, not_or] at h
    by_cases hlt : i < j
    · simp only [enter, if_pos hlt]
      exact .refl _
    · simp only [enter, if_neg hlt, if_neg h.1]
      exact ((ih h.2).cons (j, d)).trans (.swap _ _ _)

theorem foldl_enter_perm {cs m : List (Int × Int)} (h : ((m ++ cs).map Prod.fst).Nodup) :
    (cs.foldl (fun m e => enter e.1 e.2 m) m).Perm (m ++ cs) := by
  induction cs generalizing m with
  | nil => simp
  | cons e cs ih =>
    have hmid : (m ++ e :: cs).Perm (e :: m ++ cs) := List.perm_middle
    have hnd : ((e :: m ++ cs).map Prod.fst).Nodup := ((hmid.map _).nodup_iff).mp h
    have hnew : e.1 ∉ m.map Prod.fst := by
      intro hm
      exact (List.nodup_cons.mp hnd).1 (by simpa using Or.inl (by simpa using hm))
    have hp : (enter e.1 e.2 m ++ cs).Perm (e :: m ++ cs) := (enter_perm hnew).append_right cs
    exact ((ih (((hp.map _).nodup_iff).mpr hnd)).trans hp).trans hmid.symm

theorem sorted_perm {cs : List (Int × Int)} (h : (cs.map Prod.fst).Nodup) :
    (sorted cs).Perm cs :=
  foldl_enter_perm (m := []) h

theorem ofTerms_map {F : ScalarField} {cs : List (Int × Int)} (h : ∀ e ∈ cs, 0 ≤ e.1) :
    ofTerms (cs.map fun e => (e.1, F.element e.2)) =
      .ok (cs.map fun e => ⟨e.1.toNat, F.element e.2⟩) := by
  induction cs with
  | nil => rfl
  | cons e cs ih =>
    rw [List.map_cons, ofTerms, if_pos (h e (by simp)), ih fun d hd => h d (by simp [hd])]
    rfl

theorem dot_map_modEq (F : ScalarField) (v : Nat → Int) (cs : List (Int × Int)) :
    dot (cs.map fun e => ⟨e.1.toNat, F.element e.2⟩) v ≡
      (cs.map fun e => e.2 * v e.1.toNat).sum [ZMOD F.modulus] := by
  induction cs with
  | nil => exact .refl _
  | cons e cs ih => exact ((F.value_element_modEq e.2).mul_right _).add ih

/-- A combination that stands for integer coefficients by index. -/
structure Stands (F : ScalarField) (cs : List (Int × Int)) (l : Combination) : Prop where
  coefficients : ∀ t ∈ l, t.coefficient.modulus = F.modulus
  indices : ∀ t ∈ l, ∃ e ∈ cs, e.1 = t.index
  dot : ∀ v, l.dot v ≡ (cs.map fun e => e.2 * v e.1.toNat).sum [ZMOD F.modulus]

theorem ofCoefficients_stands {F : ScalarField} {cs : List (Int × Int)}
    (hnd : (cs.map Prod.fst).Nodup) (h : ∀ e ∈ cs, 0 ≤ e.1) :
    ∃ l, ofCoefficients F cs = .ok l ∧ Stands F cs l := by
  have hp := sorted_perm hnd
  have hs : ∀ e ∈ sorted cs, 0 ≤ e.1 := fun e he => h e (hp.mem_iff.mp he)
  refine ⟨_, ofTerms_map hs, ?_, ?_, ?_⟩
  · intro t ht
    obtain ⟨e, _, rfl⟩ := List.mem_map.mp ht
    rfl
  · intro t ht
    obtain ⟨e, he, rfl⟩ := List.mem_map.mp ht
    exact ⟨e, hp.mem_iff.mp he, (Int.toNat_of_nonneg (hs e he)).symm⟩
  · intro v
    rw [← (hp.map fun e => e.2 * v e.1.toNat).sum_eq]
    exact dot_map_modEq F v (sorted cs)

theorem foldl_width_le {l : Combination} {n b : Nat} (hn : n ≤ b)
    (h : ∀ t ∈ l, t.index < b) : l.foldl (fun n t => Nat.max n (t.index + 1)) n ≤ b := by
  induction l generalizing n with
  | nil => exact hn
  | cons t ts ih =>
    exact ih (Nat.max_le.mpr ⟨hn, h t (by simp)⟩) fun u hu => h u (by simp [hu])

theorem width_le_iff {l : Combination} {b : Nat} : l.width ≤ b ↔ ∀ t ∈ l, t.index < b :=
  ⟨fun h _ ht => (index_lt_width ht).trans_le h, foldl_width_le (Nat.zero_le b)⟩

theorem Stands.width_le {F : ScalarField} {cs : List (Int × Int)} {l : Combination} {b : Nat}
    (h : Stands F cs l) (hb : ∀ e ∈ cs, e.1 < b) : l.width ≤ b := by
  apply width_le_iff.mpr
  intro t ht
  obtain ⟨e, he, hi⟩ := h.indices t ht
  have hlt := hb e he
  omega

end Combination

namespace Constraint

theorem width_le_iff {k : Constraint} {b : Nat} :
    k.width ≤ b ↔ ∀ t ∈ k.a ++ k.b ++ k.c, t.index < b := by
  simp only [widths_le_iff, Combination.width_le_iff, List.forall_mem_append, and_assoc]

structure Stands (F : ScalarField) (a b c : List (Int × Int)) (k : Constraint) : Prop where
  a : k.a.Stands F a
  b : k.b.Stands F b
  c : k.c.Stands F c

theorem ofCoefficients_stands {F : ScalarField} {a b c : List (Int × Int)}
    (hnd : (a.map Prod.fst).Nodup ∧ (b.map Prod.fst).Nodup ∧ (c.map Prod.fst).Nodup)
    (h : ∀ e ∈ a ++ b ++ c, 0 ≤ e.1) :
    ∃ k, ofCoefficients F a b c = .ok k ∧ k.Stands F a b c := by
  obtain ⟨l, hl, hal⟩ := Combination.ofCoefficients_stands (F := F) hnd.1
    fun e he => h e (by simp [he])
  obtain ⟨m, hm, hbm⟩ := Combination.ofCoefficients_stands (F := F) hnd.2.1
    fun e he => h e (by simp [he])
  obtain ⟨n, hn, hcn⟩ := Combination.ofCoefficients_stands (F := F) hnd.2.2
    fun e he => h e (by simp [he])
  refine ⟨⟨l, m, n⟩, ?_, hal, hbm, hcn⟩
  simp only [ofCoefficients, hl, hm, hn]
  rfl

variable {F : ScalarField} {a b c : List (Int × Int)} {k : Constraint}

theorem Stands.coefficientsIn (h : k.Stands F a b c) : k.CoefficientsIn F :=
  coefficientsIn_iff.mpr ⟨⟨h.a.coefficients, h.b.coefficients⟩, h.c.coefficients⟩

theorem Stands.width_le (h : k.Stands F a b c) {n : Nat} (hn : ∀ e ∈ a ++ b ++ c, e.1 < n) :
    k.width ≤ n :=
  widths_le_iff.mpr ⟨h.a.width_le fun e he => hn e (by simp [he]),
    h.b.width_le fun e he => hn e (by simp [he]), h.c.width_le fun e he => hn e (by simp [he])⟩

/-- Whether a constraint balances is decided by the coefficients that it stands for. -/
theorem Stands.balances_iff (h : k.Stands F a b c) (v : Nat → Int) :
    k.Balances F v ↔
      (a.map fun e => e.2 * v e.1.toNat).sum * (b.map fun e => e.2 * v e.1.toNat).sum ≡
        (c.map fun e => e.2 * v e.1.toNat).sum [ZMOD F.modulus] := by
  have hp := (h.a.dot v).mul (h.b.dot v)
  have hc := h.c.dot v
  exact ⟨fun hh => (hp.symm.trans hh).trans hc, fun hh => (hp.trans hh).trans hc.symm⟩

end Constraint

end ProofCarrying.RankOne
