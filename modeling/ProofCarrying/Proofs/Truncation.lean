import Mathlib.Data.List.ModifyLast
import ProofCarrying.Proofs.Framing
import ProofCarrying.Proofs.RoundTrip
import ProofCarrying.Proofs.Severed
import ProofCarrying.Proofs.SystemGrammar

/-! Texts of predicates that break off. Only within the last coefficient, or before the last line
feed, is it not noticed that something is missing. -/

namespace ProofCarrying

open Source Text Record

namespace RankOne

/-- The digits of a residue break off behind some of them. The others and a line feed are what
would follow. -/
def BreaksDigits (x : Residue) (front tail : List Char) : Prop :=
  ∃ back, integerText x.value = front ++ back ∧ front ≠ [] ∧ back ≠ [] ∧ tail = back ++ ['\n']

def Combination.putLast (x : Residue) (l : Combination) : Combination :=
  l.modifyLast fun t => { t with coefficient := x }

theorem Combination.putLast_concat (x : Residue) (l : Combination) (t : Term) :
    putLast x (l ++ [t]) = l ++ [⟨t.index, x⟩] :=
  List.modifyLast_concat _ t l

theorem Combination.width_putLast (x : Residue) (l : Combination) :
    (l.putLast x).width = l.width := by
  obtain rfl | ⟨init, t, rfl⟩ := List.eq_nil_or_concat' l
  · rfl
  · simp [putLast_concat, width]

def Constraint.putLast (x : Residue) (k : Constraint) : Constraint :=
  { k with c := k.c.putLast x }

theorem Constraint.width_putLast (x : Residue) (k : Constraint) :
    (k.putLast x).width = k.width := by
  simp [putLast, width, Combination.width_putLast]

namespace System

/-- The term in the last record of a system, if that is a term. -/
def lastTerm? (s : System) : Option Term :=
  s.constraints.getLast?.bind fun k => k.c.getLast?

theorem width_putLast (s : System) (x : Residue) :
    ∀ k ∈ s.constraints.modifyLast (Constraint.putLast x), k.width ≤ s.numTotalVariables := by
  have hw := s.width_le
  obtain hnil | ⟨init, k, hk⟩ := List.eq_nil_or_concat' s.constraints
  · rw [hnil]
    exact List.forall_mem_nil _
  · rw [hk, List.forall_mem_append, List.forall_mem_singleton] at hw
    rw [hk, List.modifyLast_concat, List.forall_mem_append, List.forall_mem_singleton]
    exact ⟨hw.1, (Constraint.width_putLast x k).trans_le hw.2⟩

/-- The system with another coefficient in its last term. -/
def putLast (s : System) (x : Residue) : System :=
  { s with
    constraints := s.constraints.modifyLast (Constraint.putLast x)
    width_le := s.width_putLast x }

@[simp] theorem numPublicInputs_putLast (s : System) (x : Residue) :
    (s.putLast x).numPublicInputs = s.numPublicInputs := rfl

@[simp] theorem numTotalVariables_putLast (s : System) (x : Residue) :
    (s.putLast x).numTotalVariables = s.numTotalVariables := rfl

variable {s : System} {t : Term}

theorem lastTerm?_eq_some_iff : s.lastTerm? = some t ↔
    ∃ js a b l, s.constraints = js ++ [⟨a, b, l ++ [t]⟩] := by
  simp only [lastTerm?, Option.bind_eq_some_iff, List.getLast?_eq_some_iff]
  constructor
  · rintro ⟨⟨a, b, c⟩, ⟨js, hk⟩, l, rfl⟩
    exact ⟨js, a, b, l, hk⟩
  · rintro ⟨js, a, b, l, hk⟩
    exact ⟨⟨a, b, l ++ [t]⟩, ⟨js, hk⟩, l, rfl⟩

theorem constraints_putLast {js : List Constraint} {a b l : Combination}
    (h : s.constraints = js ++ [⟨a, b, l ++ [t]⟩]) (x : Residue) :
    (s.putLast x).constraints = js ++ [⟨a, b, l ++ [⟨t.index, x⟩]⟩] := by
  have hmodify : (s.putLast x).constraints = s.constraints.modifyLast (Constraint.putLast x) := rfl
  rw [hmodify, h, List.modifyLast_concat, Constraint.putLast, Combination.putLast_concat]

theorem lastTerm?_putLast (h : s.lastTerm? = some t) (x : Residue) :
    (s.putLast x).lastTerm? = some ⟨t.index, x⟩ := by
  obtain ⟨js, a, b, l, hk⟩ := lastTerm?_eq_some_iff.mp h
  exact lastTerm?_eq_some_iff.mpr ⟨js, a, b, l, constraints_putLast hk x⟩

theorem putLast_ne {x : Residue} (h : s.lastTerm? = some t) (hx : x ≠ t.coefficient) :
    s.putLast x ≠ s := by
  intro hs
  have hlast := lastTerm?_putLast h x
  rw [hs, h, Option.some.injEq] at hlast
  exact hx (congrArg Term.coefficient hlast).symm

theorem modulus_of_lastTerm? {F : ScalarField} (h : s.lastTerm? = some t)
    (hm : ∀ k ∈ s.constraints, k.CoefficientsIn F) : t.coefficient.modulus = F.modulus := by
  obtain ⟨js, a, b, l, hk⟩ := lastTerm?_eq_some_iff.mp h
  exact hm ⟨a, b, l ++ [t]⟩ (by simp [hk]) t (by simp)

theorem coefficientsIn_putLast {F : ScalarField} {x : Residue} (h : s.lastTerm? = some t)
    (hm : ∀ k ∈ s.constraints, k.CoefficientsIn F) (hx : x.modulus = F.modulus) :
    ∀ k ∈ (s.putLast x).constraints, k.CoefficientsIn F := by
  obtain ⟨js, a, b, l, hk⟩ := lastTerm?_eq_some_iff.mp h
  rw [hk, List.forall_mem_append, List.forall_mem_singleton] at hm
  rw [constraints_putLast hk x, List.forall_mem_append, List.forall_mem_singleton]
  refine ⟨hm.1, ?_⟩
  obtain ⟨hab, hc⟩ := Constraint.coefficientsIn_iff.mp hm.2
  refine Constraint.coefficientsIn_iff.mpr ⟨hab, ?_⟩
  rw [List.forall_mem_append, List.forall_mem_singleton] at hc ⊢
  exact ⟨hc.1, hx⟩

theorem exists_records (h : s.lastTerm? = some t) : ∃ rs : List Record,
    s.records = rs ++ [[(t.index : Int), t.coefficient.value]] ∧
      ∀ x, (s.putLast x).records = rs ++ [[(t.index : Int), x.value]] := by
  obtain ⟨js, a, b, l, hk⟩ := lastTerm?_eq_some_iff.mp h
  let rs : List Record := [[(s.numPublicInputs : Int)], [(s.numTotalVariables : Int)],
    [(js.length + 1 : Int)]] ++ js.flatMap Constraint.records ++ a.records ++ b.records ++
      [[(l.length + 1 : Int)]] ++ l.map fun t => [(t.index : Int), t.coefficient.value]
  refine ⟨rs, ?_, fun x => ?_⟩
  · simp [rs, records, hk, Constraint.records, Combination.records]
  · simp [rs, records, constraints_putLast hk x, Constraint.records, Combination.records]

end System

/-- A text ends with a certain term, or with no term, and breaks off where it is not noticed. -/
def Unnoticed (t? : Option Term) (tail : List Char) : Prop :=
  tail = ['\n'] ∨ ∃ t ∈ t?, ∃ front, BreaksDigits t.coefficient front tail

variable {F : ScalarField}

theorem words_of_break {i n : Nat} {front back : List Char} (hne : front ≠ [])
    (h : naturalText i ++ ' ' :: naturalText n = front ++ back) :
    (∃ w, words front = [w]) ∨
      ∃ u, words front = [naturalText i, u] ∧ u ≠ [] ∧ naturalText n = u ++ back := by
  have hi := isWord_naturalText i
  rcases List.append_eq_append_iff.mp h with ⟨v, rfl, hv⟩ | ⟨v, hv, -⟩
  · cases v with
    | nil => exact Or.inl ⟨_, words_word hi (by simp [Blanks])⟩
    | cons c u =>
      obtain ⟨rfl, hu⟩ := List.cons.inj hv
      by_cases hnil : u = []
      · rw [hnil]
        exact Or.inl ⟨_, words_word hi (by simp [Blanks, isBlank])⟩
      · have hword : IsWord u := (hu ▸ isWord_naturalText n).of_append hnil
        exact Or.inr ⟨u, words_spaced hi hword, hnil, hu⟩
  · have hword : IsWord front := (hv ▸ hi).of_append hne
    have hwords := words_word hword (b := []) (by simp [Blanks])
    rw [List.append_nil] at hwords
    exact Or.inl ⟨front, hwords⟩

theorem severs_term {t : Term} (hm : t.coefficient.modulus = F.modulus)
    (hw : isWritable t.index = true) :
    Severs (readTerm F) [[(t.index : Int), t.coefficient.value]] fun tail _ =>
      Unnoticed (some t) tail := by
  obtain ⟨n, hn⟩ := Int.eq_ofNat_of_zero_le (ScalarField.value_range hm).1
  refine .of_record fun front back hne h => ?_
  rw [hn, text_pair] at h
  rw [words_trim]
  rcases words_of_break hne h with ⟨w, hwords⟩ | ⟨u, hwords, hu, hcut⟩
  · rw [hwords]
    exact .refused _ _ rfl rfl
  · simp only [hwords, if_pos (isDecimal_naturalText t.index),
      if_pos (length_naturalText_le_digitLimit.mpr hw)]
    cases F.parse u with
    | error e => exact .refused _ _ rfl rfl
    | ok x =>
      refine .accepted _ rfl ?_
      by_cases hback : back = []
      · exact Or.inl (by rw [hback, List.nil_append])
      · have htext : integerText t.coefficient.value = u ++ back := by
          rw [hn]
          exact hcut
        exact Or.inr ⟨t, rfl, u, back, htext, hu, hback, rfl⟩

theorem starves_term (F : ScalarField) : Starves (readTerm F) :=
  .refused (.streamEnded "term") (ofText []) rfl rfl

theorem starves_combination (F : ScalarField) : Starves (readCombination F) :=
  (starves_number _).bind

theorem severs_combination {l : Combination} (hm : ∀ t ∈ l, t.coefficient.modulus = F.modulus)
    (hw : Writable l.records) :
    Severs (readCombination F) l.records fun tail _ => Unnoticed l.getLast? tail := by
  rw [Combination.records_eq] at hw ⊢
  rw [writable_append, writable_single, List.forall_mem_singleton, writable_flatMap] at hw
  obtain ⟨hn, hts⟩ := hw
  have hi : ∀ t ∈ l, isWritable t.index = true := by
    intro t ht
    exact writable_single.mp (hts t ht) _ List.mem_cons_self
  have hterms := Severs.times hn (fun t ht => takes_term (hm t ht) (hts t ht))
    (fun t ht => severs_term (hm t ht) (hi t ht)) (starves_term F)
  refine (hterms _).mono fun tail _ h => ?_
  rcases h with hnl | ⟨t, ht, hnl | ⟨s, hs, hbreak⟩⟩
  · exact Or.inl hnl
  · exact Or.inl hnl
  · cases hs
    exact Or.inr ⟨t, ht, hbreak⟩

theorem starves_constraint (F : ScalarField) : Starves (readConstraint F) :=
  (starves_combination F).bind

theorem severs_constraint {k : Constraint} (hm : k.CoefficientsIn F) (hw : Writable k.records) :
    Severs (readConstraint F) k.records fun tail _ => Unnoticed k.c.getLast? tail := by
  obtain ⟨⟨hma, hmb⟩, hmc⟩ := Constraint.coefficientsIn_iff.mp hm
  rw [Constraint.records, writable_append, writable_append] at hw
  obtain ⟨⟨ha, hb⟩, hc⟩ := hw
  rw [Constraint.records, List.append_assoc]
  refine (severs_combination hma ha).bind_of_starves (takes_combination hma ha) ?_
    fun _ => (starves_combination F).bind
  refine (severs_combination hmb hb).bind_of_starves (takes_combination hmb hb) ?_
    fun _ => (starves_combination F).bind
  exact (severs_combination hmc hc).finish fun tail l h => .accepted _ rfl h

theorem starves_system (F : ScalarField) : Starves (readSystem F) :=
  (starves_number _).bind

theorem severs_system {s : System} (hm : ∀ k ∈ s.constraints, k.CoefficientsIn s.field)
    (hw : Writable s.records) :
    Severs (readSystem s.field) s.records fun tail _ => Unnoticed s.lastTerm? tail := by
  rw [System.records_eq] at hw ⊢
  simp only [writable_append, writable_single, List.forall_mem_singleton, writable_flatMap] at hw
  obtain ⟨hp, ht, hn, hk⟩ := hw
  have hconstraints := Severs.times hn (fun k h => takes_constraint (hm k h) (hk k h))
    (fun k h => severs_constraint (hm k h) (hk k h)) (starves_constraint s.field)
  refine (severs_number hp _).bind_of_starves (.number hp _) ?_ fun _ => (starves_number _).bind
  refine (severs_number ht _).bind_of_starves (.number ht _) ?_ fun _ => (starves_number _).bind
  rw [← Action.bind_assoc]
  refine (hconstraints _).finish fun tail ks h => ?_
  have hlast : Unnoticed s.lastTerm? tail := by
    rcases h with hnl | ⟨k, hk, hnl | ⟨t, ht, hbreak⟩⟩
    · exact Or.inl hnl
    · exact Or.inl hnl
    · have hterm : s.lastTerm? = some t := by
        rw [System.lastTerm?, Option.mem_def.mp hk, Option.bind_some, Option.mem_def.mp ht]
      exact Or.inr ⟨t, hterm, hbreak⟩
  cases mkSystem s.field s.numPublicInputs s.numTotalVariables ks with
  | ok x => exact .accepted x rfl hlast
  | error e => exact .refused _ _ rfl rfl

end RankOne

theorem Shape.severs_read {s : Shape} (hs : s.Admissible) (hw : Writable s.records) :
    Severs Shape.read s.records fun _ _ => True := by
  obtain ⟨name, type, outgoing, localData, witness, slots, rfl⟩ := exists_naturals hs
  rw [records_of_naturals] at hw ⊢
  simp only [writable_append, writable_single, List.forall_mem_singleton, writable_flatMap] at hw
  obtain ⟨hn, ht, hm, hi, ho, hd, hx⟩ := hw
  have hnumber := starves_number
  refine (severs_number hn _).bind_of_starves (.number hn _) ?_ fun _ => (hnumber _).bind
  refine (severs_number ht _).bind_of_starves (.number ht _) ?_ fun _ => (hnumber _).bind
  refine (severs_number hm _).bind_of_starves (.number hm _) ?_ fun n =>
    .numbered_bind (fun _ => hnumber _) (fun _ => (hnumber _).bind) 0 n
  refine Severs.bind_of_starves
    (.numbered (w := fun l : Nat => [[(l : Int)]]) (fun i l h => .number (hi l h) (slotLabel i)) 0)
    (.numbered (E := fun _ _ => True) (fun i l h => .number (hi l h) (slotLabel i))
      (fun i l h => (severs_number (hi l h) _).mono fun _ _ _ => trivial) (fun _ => hnumber _) 0)
    ?_ fun _ => (hnumber _).bind
  refine (severs_number ho _).bind_of_starves (.number ho _) ?_ fun _ => (hnumber _).bind
  refine (severs_number hd _).bind_of_starves (.number hd _) ?_ fun _ => (hnumber _).bind
  exact (severs_number hx _).finish fun _ _ _ => .accepted _ rfl trivial

namespace Record

theorem text_ne_nil {r : Record} (h : r ≠ []) : spaced (r.map integerText) ≠ [] := by
  obtain ⟨n, r, rfl⟩ := List.exists_cons_of_ne_nil h
  cases r with
  | nil => simpa [spaced] using integerText_ne_nil n
  | cons m r => simp [spaced, List.intercalate_cons_cons]

theorem not_whole_of_render {rs : List Record} {kept : List Char} (hne : ∀ r ∈ rs, r ≠ [])
    (h : kept ++ ['\n'] = render rs) : ¬ Whole kept := by
  obtain rfl | ⟨init, r, rfl⟩ := List.eq_nil_or_concat' rs
  · simp [render] at h
  · have htext := text_ne_nil (hne r (by simp))
    rw [render, List.flatMap_append, List.flatMap_singleton, Record.line, ← List.append_assoc] at h
    rw [List.append_cancel_right h]
    exact fun hw => not_whole_of_not_mem htext (newline_not_mem_text r) (whole_of_append htext hw)

theorem render_concat_pair (rs : List Record) (i : Nat) (n : Int) :
    render (rs ++ [[(i : Int), n]]) =
      (render rs ++ naturalText i ++ [' ']) ++ (integerText n ++ ['\n']) := by
  simp [render, Record.line, spaced, integerText, List.intercalate]

end Record

namespace Predicate

variable {p : Predicate RankOne.System} {kept : List Char}

theorem records_ne_nil (p : Predicate RankOne.System) : ∀ r ∈ p.records, r ≠ [] := by
  intro r hr
  simp only [records, Shape.records, ConstraintSystem.records, RankOne.System.records,
    RankOne.Constraint.records, RankOne.Combination.records, List.mem_append, List.mem_cons,
    List.mem_flatMap, List.mem_map] at hr
  grind

theorem severs_read (given? : Option ScalarField) (hs : p.shape.Admissible)
    (hm : ∀ k ∈ p.system.constraints, k.CoefficientsIn p.system.field) (hw : Writable p.records) :
    Severs (read (RankOne.readSystem p.system.field) given?) p.records
      fun tail _ => RankOne.Unnoticed p.system.lastTerm? tail := by
  obtain ⟨hws, hwc⟩ := writable_append.mp hw
  refine (Shape.severs_read hs hws).bind_of_starves (Shape.takes_read hs hws) ?_
    fun _ => (RankOne.starves_system _).bind
  refine (RankOne.severs_system hm hwc).finish fun tail c h => ?_
  rw [ofShape_admissible hs]
  exact .accepted _ rfl h

theorem decode_unended (given? : Option ScalarField) (hs : p.shape.Admissible)
    (hm : ∀ k ∈ p.system.constraints, k.CoefficientsIn p.system.field) (hw : Writable p.records)
    (h : kept ++ ['\n'] = render p.records) :
    decode (RankOne.readSystem p.system.field) given? kept =
      .ok ⟨p.shape, p.system, false, given?.getD p.system.field⟩ := by
  have hkept := not_whole_of_render (records_ne_nil p) h
  have htakes := takes_read given? hs hm hw []
  rw [List.append_nil, ← h] at htakes
  rw [decode_sameLines (.of_unended hkept)]
  exact congrArg Prod.fst htakes

/-- The digits that are left make a smaller coefficient. -/
theorem decode_smaller (given? : Option ScalarField) {t : RankOne.Term} {front tail : List Char}
    (hs : p.shape.Admissible)
    (hm : ∀ k ∈ p.system.constraints, k.CoefficientsIn p.system.field) (hw : Writable p.records)
    (ht : p.system.lastTerm? = some t) (hb : RankOne.BreaksDigits t.coefficient front tail)
    (h : kept ++ tail = render p.records) :
    (p.system.field.element (digitsValue front)).value = digitsValue front ∧
      (digitsValue front : Int) < t.coefficient.value ∧
      decode (RankOne.readSystem p.system.field) given? kept =
        .ok ⟨p.shape, p.system.putLast (p.system.field.element (digitsValue front)), false,
          given?.getD p.system.field⟩ := by
  obtain ⟨back, htext, hf, hback, rfl⟩ := hb
  have hmod := RankOne.System.modulus_of_lastTerm? ht hm
  obtain ⟨h0, hlt⟩ := ScalarField.value_range hmod
  obtain ⟨n, hn⟩ := Int.eq_ofNat_of_zero_le h0
  rw [hn] at htext hlt
  obtain ⟨k, rfl, ⟨hnil, -⟩ | ⟨-, hpos, hkn⟩⟩ := exists_naturalText_of_append hf htext
  · exact absurd hnil hback
  rw [digitsValue_naturalText, hn]
  have hk : (p.system.field.element k).value = k := ScalarField.value_element_of_lt (by omega)
  refine ⟨hk, Int.ofNat_lt.mpr hkn, ?_⟩
  obtain ⟨rs, hrec, hput⟩ := RankOne.System.exists_records ht
  have hp : p.records = (p.shape.records ++ rs) ++ [[(t.index : Int), (n : Int)]] := by
    rw [List.append_assoc, ← hn, ← hrec]
    rfl
  let q : Predicate RankOne.System :=
    { p with system := p.system.putLast (p.system.field.element k) }
  have hq : q.records = (p.shape.records ++ rs) ++ [[(t.index : Int), (k : Int)]] := by
    rw [List.append_assoc, ← hk, ← hput]
    rfl
  have hwq : Writable q.records := by
    rw [hp, writable_append, writable_single] at hw
    rw [hq, writable_append, writable_single]
    have hwk := isWritable_of_le hkn.le (hw.2 n (by simp))
    refine ⟨hw.1, ?_⟩
    simpa [hwk] using hw.2 t.index (by simp)
  have hkept : kept ++ ['\n'] = render q.records := by
    have htext : integerText n = integerText k ++ back := htext
    rw [hp, render_concat_pair, htext, List.append_assoc (integerText k),
      ← List.append_assoc _ (integerText k)] at h
    rw [List.append_cancel_right h, hq, render_concat_pair, List.append_assoc]
  exact decode_unended (p := q) given? hs
    (RankOne.System.coefficientsIn_putLast ht hm (ScalarField.modulus_element _ _)) hwq hkept

/-- What becomes of a text of a predicate that breaks off. Without its last line feed it is the
predicate still. If the last record is a term and some of the digits of its coefficient are
missing, but not all, then it is the predicate with a smaller coefficient there. Everything else is
refused as badly formed, and where a line has ended just before, for want of a record. -/
theorem decode_truncated (given? : Option ScalarField) {F : ScalarField} {shape : Shape}
    {system : RankOne.System} {relies : Bool} {field? : Option ScalarField}
    {p : Predicate RankOne.System} {text kept tail : List Char}
    (hp : ofShape shape system relies field? = .ok p) (hF : p.system.field = F)
    (hm : ∀ k ∈ p.system.constraints, k.CoefficientsIn F) (he : p.encode = .ok text)
    (ht : text = kept ++ tail) (hne : tail ≠ []) :
    (tail = ['\n'] → ∃ q, decode (RankOne.readSystem F) given? kept = .ok q ∧ p.same q = true) ∧
    (∀ t front, p.system.lastTerm? = some t → RankOne.BreaksDigits t.coefficient front tail →
      ∃ q, decode (RankOne.readSystem F) given? kept = .ok q ∧ q.shape = p.shape ∧
        q.system = p.system.putLast (F.element (digitsValue front)) ∧
        (digitsValue front : Int) < t.coefficient.value ∧ p.same q = false) ∧
    (tail ≠ ['\n'] →
      (∀ t front, p.system.lastTerm? = some t → ¬ RankOne.BreaksDigits t.coefficient front tail) →
      ∃ f, decode (RankOne.readSystem F) given? kept = .error f ∧ f.told.kind = .format) ∧
    (Whole kept → ∃ label,
      decode (RankOne.readSystem F) given? kept = .error (.streamEnded label)) := by
  subst hF
  have hs := admissible_of_ofShape hp
  obtain ⟨hw, rfl⟩ := write_eq_ok he
  refine ⟨?_, ?_, ?_, ?_⟩
  · rintro rfl
    exact ⟨_, decode_unended given? hs hm hw ht.symm, by simp [same]⟩
  · intro t front hlast hb
    obtain ⟨hvalue, hlt, hq⟩ := decode_smaller given? hs hm hw hlast hb ht.symm
    refine ⟨_, hq, rfl, rfl, hlt, ?_⟩
    have hput := RankOne.System.putLast_ne hlast fun hx => by
      rw [← hx, hvalue] at hlt
      exact lt_irrefl _ hlt
    rw [same, beq_eq_false_iff_ne.mpr hput.symm, Bool.and_false]
  · intro htail hnone
    cases severs_read given? hs hm hw kept tail ht.symm hne with
    | refused f source h hk =>
      have htold : f.told.kind = .format := by rw [Fault.told_of_format hk, hk]
      exact ⟨f, congrArg Prod.fst h, htold⟩
    | accepted q h hS =>
      obtain hnl | ⟨t, hlast, front, hb⟩ := hS
      · exact absurd hnl htail
      · exact absurd hb (hnone t front hlast)
  · intro hwhole
    have hsettle := (takes_read given? hs hm hw).settles
    rw [ht] at hsettle
    have hread := recordwise_read (RankOne.recordwise_readSystem p.system.field) given?
    exact hread.framed.ended_of_settles hsettle hwhole hne

/-- A predicate with the coefficient 42 at the end of its text. -/
theorem decode_truncated_forty_two :
    ∃ (p : Predicate RankOne.System) (text : List Char), p.encode = .ok text ∧ text.length = 29 ∧
      (∃ q, decode (RankOne.readSystem ⟨97, by decide⟩) none (text.take 28) = .ok q ∧
        p.same q = true) ∧
      (∃ q, decode (RankOne.readSystem ⟨97, by decide⟩) none (text.take 27) = .ok q ∧
        q.system = p.system.putLast (ScalarField.element ⟨97, by decide⟩ 4) ∧ p.same q = false) ∧
      (∃ f, decode (RankOne.readSystem ⟨97, by decide⟩) none (text.take 26) = .error f ∧
        f.told.kind = .format) ∧
      ∃ label, decode (RankOne.readSystem ⟨97, by decide⟩) none (text.take 24) =
        .error (.streamEnded label) := by
  let p : Predicate RankOne.System := ⟨⟨0, 1, 0, 0, [], 0, 0⟩,
    ⟨⟨97, by decide⟩, 1, 2, [⟨[], [], [⟨1, .reduce 42 97 (by decide)⟩]⟩], by decide, by decide,
      by decide⟩, true, ⟨97, by decide⟩⟩
  have hp : ofShape p.shape p.system true none = .ok p := rfl
  have hm : ∀ k ∈ p.system.constraints, k.CoefficientsIn ⟨97, by decide⟩ := by
    simp [p, RankOne.Constraint.CoefficientsIn, Residue.reduce]
  obtain ⟨text, htext, he⟩ : ∃ text : List Char, text = ['0', '\n', '1', '\n', '0', '\n', '0',
      '\n', '0', '\n', '0', '\n', '1', '\n', '2', '\n', '1', '\n', '0', '\n', '0', '\n', '1',
      '\n', '1', ' ', '4', '2', '\n'] ∧ p.encode = .ok text := ⟨_, rfl, by decide +kernel⟩
  have hcut := fun n => decode_truncated none hp rfl hm he (List.take_append_drop n text).symm
  have hlast : p.system.lastTerm? = some ⟨1, .reduce 42 97 (by decide)⟩ := rfl
  refine ⟨p, text, he, by rw [htext]; rfl, ?_, ?_, ?_, ?_⟩
  · exact (hcut 28 (by simp [htext])).1 (by rw [htext]; rfl)
  · obtain ⟨q, hq, -, hsystem, -, hsame⟩ := (hcut 27 (by simp [htext])).2.1 _ ['4'] hlast
      ⟨['2'], rfl, by decide, by decide, by rw [htext]; rfl⟩
    exact ⟨q, hq, hsystem, hsame⟩
  · refine (hcut 26 (by simp [htext])).2.2.1 (by simp [htext]) ?_
    rintro t front ht ⟨back, hdigits, hf, -, htail⟩
    obtain rfl := Option.some.inj (hlast.symm.trans ht)
    have hline : ['4', '2'] ++ ['\n'] = back ++ ['\n'] := by
      rw [← htail, htext]
      rfl
    have hfront : ['4', '2'] = front ++ back := hdigits
    rw [← List.append_cancel_right hline] at hfront
    exact hf (List.self_eq_append_left.mp hfront)
  · exact (hcut 24 (by simp [htext])).2.2.2 (by simp [htext, Whole])

end Predicate

end ProofCarrying
