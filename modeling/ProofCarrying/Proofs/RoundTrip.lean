import ProofCarrying.Predicate.Records
import ProofCarrying.Proofs.DotProduct
import ProofCarrying.Proofs.RecordReading
import ProofCarrying.RankOne.Records

/-! Predicates over rank-one systems read back from their text. A text keeps all but the hint on
types and the moduli of the coefficients. -/

namespace ProofCarrying

namespace Record

/-- Every number of the records has few enough digits to be written. -/
def Writable (rs : List Record) : Prop :=
  ∀ r ∈ rs, ∀ n ∈ r, Text.isWritable n = true

instance (rs : List Record) : Decidable (Writable rs) :=
  inferInstanceAs (Decidable (∀ r ∈ rs, ∀ n ∈ r, Text.isWritable n = true))

theorem write_writable {rs : List Record} (h : Writable rs) : write rs = .ok (render rs) := by
  have hall : rs.all isWritable = true := by
    simp only [List.all_eq_true, isWritable]
    exact h
  rw [write, if_pos hall]

theorem write_eq_ok {rs : List Record} {text : List Char} (h : write rs = .ok text) :
    Writable rs ∧ text = render rs := by
  rw [write] at h
  split at h
  next hall =>
    cases h
    simp only [List.all_eq_true, isWritable] at hall
    exact ⟨hall, rfl⟩
  · cases h

theorem writable_append {rs ss : List Record} :
    Writable (rs ++ ss) ↔ Writable rs ∧ Writable ss :=
  List.forall_mem_append

theorem writable_single {r : Record} : Writable [r] ↔ ∀ n ∈ r, Text.isWritable n = true :=
  List.forall_mem_singleton

theorem writable_flatMap {α : Type} {w : α → List Record} {l : List α} :
    Writable (l.flatMap w) ↔ ∀ a ∈ l, Writable (w a) := by
  simp only [Writable, List.mem_flatMap]
  exact ⟨fun h a ha r hr => h r ⟨a, ha, hr⟩, fun h r ⟨a, ha, hr⟩ => h a ha r hr⟩

end Record

open Record

theorem Takes.times {α : Type} {p : Action Source α} {w : α → List Record} {l : List α}
    (hw : Text.isWritable l.length = true) (h : ∀ a ∈ l, Takes p (w a) a) (label : String) :
    Takes (do let n ← Source.number label; Action.times n p)
      ([[(l.length : Int)]] ++ l.flatMap w) l :=
  (Takes.number hw label).bind (Takes.numbered (fun _ => h) 0)

namespace RankOne

theorem Combination.records_eq (l : Combination) : l.records = [[(l.length : Int)]] ++
    l.flatMap fun t => [[(t.index : Int), t.coefficient.value]] := by
  simp [records, List.map_eq_flatMap]

theorem System.records_eq (s : System) : s.records = [[(s.numPublicInputs : Int)]] ++
    ([[(s.numTotalVariables : Int)]] ++ ([[(s.constraints.length : Int)]] ++
      s.constraints.flatMap Constraint.records)) := by
  simp [records]

variable {F : ScalarField}

theorem takes_term {t : Term} (hm : t.coefficient.modulus = F.modulus)
    (hw : Writable [[(t.index : Int), t.coefficient.value]]) :
    Takes (readTerm F) [[(t.index : Int), t.coefficient.value]] t := by
  obtain ⟨i, c⟩ := t
  obtain ⟨h0, hlt⟩ := ScalarField.value_range hm
  obtain ⟨n, hn⟩ := Int.eq_ofNat_of_zero_le h0
  simp only at hm hw hn hlt
  simp only [writable_single, List.forall_mem_cons] at hw
  obtain ⟨hi, hv, -⟩ := hw
  simp only [hn] at hv hlt ⊢
  have hwi := Text.isWord_naturalText i
  have hwn := Text.isWord_naturalText n
  apply Takes.of_record
  · rw [text_pair]
    exact Text.isTrimmed_spaced hwi hwn
  · intro s
    have hc : F.parse (Text.naturalText n) = .ok c := by
      rw [ScalarField.parse_naturalText (by omega) hv, ← hn, ← ScalarField.eq_element_value hm]
    rw [text_pair, Text.words_spaced hwi hwn]
    simp only [Text.isDecimal_naturalText, if_pos, hc,
      Text.length_naturalText_le_digitLimit.mpr hi, Text.digitsValue_naturalText]
    rfl

theorem takes_combination {l : Combination} (hm : ∀ t ∈ l, t.coefficient.modulus = F.modulus)
    (hw : Writable l.records) : Takes (readCombination F) l.records l := by
  rw [Combination.records_eq] at hw ⊢
  rw [writable_append, writable_single, List.forall_mem_singleton, writable_flatMap] at hw
  exact Takes.times hw.1 (fun t ht => takes_term (hm t ht) (hw.2 t ht)) _

theorem takes_constraint {k : Constraint} (hm : k.CoefficientsIn F) (hw : Writable k.records) :
    Takes (readConstraint F) k.records k := by
  obtain ⟨⟨ha, hb⟩, hc⟩ := Constraint.coefficientsIn_iff.mp hm
  rw [Constraint.records, writable_append, writable_append] at hw
  rw [Constraint.records, List.append_assoc]
  exact (takes_combination ha hw.1.1).bind
    ((takes_combination hb hw.1.2).bind ((takes_combination hc hw.2).map _))

theorem takes_system {s : System} (hm : ∀ k ∈ s.constraints, k.CoefficientsIn s.field)
    (hw : Writable s.records) : Takes (readSystem s.field) s.records s := by
  rw [System.records_eq] at hw ⊢
  simp only [writable_append, writable_single, List.forall_mem_singleton, writable_flatMap] at hw
  obtain ⟨hp, ht, hn, hk⟩ := hw
  have hmk : mkSystem s.field s.numPublicInputs s.numTotalVariables s.constraints = .ok s :=
    mkSystem_eq_ok_iff.mpr ⟨rfl, rfl, rfl, rfl⟩
  have hconstraints := Takes.times hn fun k h => takes_constraint (hm k h) (hk k h)
  refine (Takes.number hp _).bind ((Takes.number ht _).bind ?_)
  rw [← Action.bind_assoc]
  refine (hconstraints _).finish fun t => ?_
  rw [hmk]
  rfl

theorem yields_term : (readTerm F).Yields fun t => t.coefficient.modulus = F.modulus := by
  refine (Action.yields_true _).bind fun r _ => ?_
  split
  next =>
    split
    · split
      next => exact Action.yields_fail _
      next hc =>
        split
        · exact Action.yields_pure (ScalarField.modulus_of_parse hc)
        · exact Action.yields_fail _
    · exact Action.yields_fail _
  next => exact Action.yields_fail _

theorem yields_combination :
    (readCombination F).Yields fun l => ∀ t ∈ l, t.coefficient.modulus = F.modulus :=
  (Action.yields_true _).bind fun n _ => Action.yields_numbered (fun _ => yields_term) 0 n

theorem yields_constraint : (readConstraint F).Yields (Constraint.CoefficientsIn F) := by
  refine yields_combination.bind fun a ha => yields_combination.bind fun b hb =>
    yields_combination.bind fun c hc => Action.yields_pure ?_
  exact Constraint.coefficientsIn_iff.mpr ⟨⟨ha, hb⟩, hc⟩

theorem yields_system :
    (readSystem F).Yields fun s => ∀ k ∈ s.constraints, k.CoefficientsIn F := by
  refine (Action.yields_true _).bind fun _ _ => (Action.yields_true _).bind fun _ _ =>
    (Action.yields_true _).bind fun n _ =>
      (Action.yields_numbered (fun _ => yields_constraint) 0 n).bind fun ks hks => ?_
  split
  next s hs =>
    apply Action.yields_pure
    rwa [(mkSystem_eq_ok_iff.mp hs).2.2.2]
  next => exact Action.yields_fail _

end RankOne

namespace Shape

theorem map_ofNat_toNat {ls : List Int} (h : ∀ l ∈ ls, 0 ≤ l) :
    (ls.map Int.toNat).map Int.ofNat = ls := by
  rw [List.map_map]
  refine (List.map_congr_left fun l hl => ?_).trans (List.map_id ls)
  exact Int.toNat_of_nonneg (h l hl)

theorem exists_naturals {s : Shape} (hs : s.Admissible) :
    ∃ (name type outgoing localData witness : Nat) (slots : List Nat),
      s = ⟨name, type, outgoing, slots.length, slots.map Int.ofNat, localData, witness⟩ := by
  obtain ⟨name, type, outgoing, maxArity, incoming, localData, witness⟩ := s
  obtain ⟨hm, h₁, h₂, h₃, h₄, h₅, hl⟩ := hs
  dsimp only at hm h₁ h₂ h₃ h₄ h₅ hl
  subst hm
  obtain ⟨name, rfl⟩ := Int.eq_ofNat_of_zero_le h₁
  obtain ⟨type, rfl⟩ := Int.eq_ofNat_of_zero_le h₂
  obtain ⟨outgoing, rfl⟩ := Int.eq_ofNat_of_zero_le h₃
  obtain ⟨localData, rfl⟩ := Int.eq_ofNat_of_zero_le h₄
  obtain ⟨witness, rfl⟩ := Int.eq_ofNat_of_zero_le h₅
  refine ⟨name, type, outgoing, localData, witness, incoming.map Int.toNat, ?_⟩
  rw [map_ofNat_toNat hl, List.length_map]

theorem records_of_naturals (name type outgoing localData witness : Nat) (slots : List Nat) :
    records ⟨name, type, outgoing, slots.length, slots.map Int.ofNat, localData, witness⟩ =
      [[(name : Int)]] ++ ([[(type : Int)]] ++ ([[(slots.length : Int)]] ++
        ((slots.flatMap fun l : Nat => [[(l : Int)]]) ++
          ([[(outgoing : Int)]] ++ ([[(localData : Int)]] ++ [[(witness : Int)]]))))) := by
  have hflat : (slots.flatMap fun l : Nat => [[(l : Int)]]) =
      (slots.map Int.ofNat).map fun l => [l] := by
    rw [List.map_map, List.map_eq_flatMap]
    rfl
  simp [records, hflat]

theorem takes_read {s : Shape} (hs : s.Admissible) (hw : Writable s.records) :
    Takes Shape.read s.records s := by
  obtain ⟨name, type, outgoing, localData, witness, slots, rfl⟩ := exists_naturals hs
  rw [records_of_naturals] at hw ⊢
  simp only [writable_append, writable_single, List.forall_mem_singleton, writable_flatMap] at hw
  obtain ⟨hn, ht, hm, hi, ho, hd, hx⟩ := hw
  refine (Takes.number hn _).bind ((Takes.number ht _).bind ((Takes.number hm _).bind ?_))
  have hslots := Takes.numbered (w := fun l : Nat => [[(l : Int)]])
    (fun i l h => Takes.number (hi l h) (slotLabel i)) 0
  refine hslots.bind ?_
  exact (Takes.number ho _).bind ((Takes.number hd _).bind ((Takes.number hx _).map _))

end Shape

namespace Predicate

theorem ofShape_admissible {x : Shape} (hx : x.Admissible) (c : RankOne.System)
    (field? : Option ScalarField) :
    ofShape x c false field? = .ok ⟨x, c, false, field?.getD c.field⟩ := by
  have hfield : field?.or (some c.field) = some (field?.getD c.field) := by cases field? <;> rfl
  exact ofShape_eq_ok_iff.mpr ⟨hx, rfl, rfl, rfl, hfield⟩

theorem takes_read {p : Predicate RankOne.System} (field? : Option ScalarField)
    (hs : p.shape.Admissible) (hm : ∀ k ∈ p.system.constraints, k.CoefficientsIn p.system.field)
    (hw : Writable p.records) :
    Takes (read (RankOne.readSystem p.system.field) field?) p.records
      ⟨p.shape, p.system, false, field?.getD p.system.field⟩ := by
  obtain ⟨hws, hwc⟩ := writable_append.mp hw
  refine (Shape.takes_read hs hws).bind ((RankOne.takes_system hm hwc).finish fun t => ?_)
  rw [ofShape_admissible hs]
  rfl

theorem yields_read {F : ScalarField} {field? : Option ScalarField} :
    (read (RankOne.readSystem F) field?).Yields fun p =>
      ∀ k ∈ p.system.constraints, k.CoefficientsIn F := by
  refine (Action.yields_true _).bind fun _ _ => RankOne.yields_system.bind fun s hs => ?_
  intro t p u h
  have hp : ofShape _ s false field? = .ok p := congrArg Prod.fst h
  rwa [(ofShape_eq_ok_iff.mp hp).2.2.1]

/-- The text of a predicate reads back as the predicate, up to the hint on types, and what
follows it is left, if all coefficients belong to the field of the system. If one does not, no
text reads back as the predicate. -/
theorem read_encode {F : ScalarField} {shape : Shape} {system : RankOne.System} {relies : Bool}
    {field? : Option ScalarField} {p : Predicate RankOne.System}
    (hp : ofShape shape system relies field? = .ok p) (hF : p.system.field = F)
    (hw : Writable p.records) :
    ∃ text, p.encode = .ok text ∧
      ((∀ k ∈ p.system.constraints, k.CoefficientsIn F) → ∀ rest, ∃ q,
        read (RankOne.readSystem F) none (Source.ofText (text ++ rest)) =
          (.ok q, Source.ofText rest) ∧
        p.same q = true ∧ q.shape = p.shape ∧ q.system = p.system ∧
        q.reliesOnSameType = false ∧ q.field = F ∧ q.encode = .ok text) ∧
      (¬ (∀ k ∈ p.system.constraints, k.CoefficientsIn F) → ∀ source q rest,
        read (RankOne.readSystem F) none source = (.ok q, rest) → p.same q = false) := by
  subst hF
  have hs := admissible_of_ofShape hp
  have he : p.encode = .ok (render p.records) := write_writable hw
  refine ⟨_, he, fun hm rest => ?_, fun hm source q rest hq => ?_⟩
  · refine ⟨⟨p.shape, p.system, false, p.system.field⟩, takes_read none hs hm hw rest, ?_, rfl, rfl,
      rfl, rfl, he⟩
    simp [same]
  · have hk := yields_read source q rest hq
    rw [same, Bool.and_eq_false_iff]
    right
    refine beq_eq_false_iff_ne.mpr fun h => hm fun k hmem => ?_
    rw [h] at hmem
    exact hk k hmem

/-- A system over seven elements with a repeated index, once with coefficients of its field and
once with a coefficient modulo eleven. -/
theorem read_encode_modulo_seven :
    ∃ (p q r : Predicate RankOne.System) (text : List Char), p.encode = .ok text ∧
      read (RankOne.readSystem ⟨7, by decide⟩) none (Source.ofText (text ++ ['1'])) =
        (.ok q, Source.ofText ['1']) ∧ p.same q = true ∧
      ∀ source found rest, read (RankOne.readSystem ⟨7, by decide⟩) none source =
        (.ok found, rest) → r.same found = false := by
  obtain ⟨text, he, hread, -⟩ := @read_encode ⟨7, by decide⟩ ⟨0, 1, 1, 1, [2], 0, 0⟩
    ⟨⟨7, by decide⟩, 2, 6, [⟨[⟨5, .reduce 3 7 (by decide)⟩, ⟨5, .reduce 2 7 (by decide)⟩,
      ⟨0, .reduce 6 7 (by decide)⟩], [], []⟩], by decide, by decide, by decide⟩ true none _
    rfl rfl (by decide +kernel)
  obtain ⟨-, -, -, hnone⟩ := @read_encode ⟨7, by decide⟩ ⟨0, 1, 1, 1, [2], 0, 0⟩
    ⟨⟨7, by decide⟩, 2, 6, [⟨[⟨5, .reduce 3 11 (by decide)⟩], [], []⟩], by decide, by decide,
      by decide⟩ true none _ rfl rfl (by decide +kernel)
  obtain ⟨q, hq, hsame, -⟩ := hread (by simp [RankOne.Constraint.CoefficientsIn, Residue.reduce])
    ['1']
  exact ⟨_, q, _, text, he, hq, hsame,
    hnone (by simp [RankOne.Constraint.CoefficientsIn, Residue.reduce])⟩

end Predicate

end ProofCarrying
