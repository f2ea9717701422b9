import ProofCarrying.Proofs.PredicateGrammar

/-! Writing a predicate that was read gives a normal form of its text, which consists of plain
numbers, single spaces and line feeds. It reads back as the predicate, and two texts are read as
equal predicates exactly if their normal forms are the same. -/

namespace ProofCarrying

namespace Text

theorem foldl_digits_lt (s : List Char) (n : Nat) :
    s.foldl (fun n c => 10 * n + (digitValue? c).getD 0) n < (n + 1) * Nat.pow 10 s.length := by
  induction s generalizing n with
  | nil => exact Nat.lt_of_lt_of_eq n.lt_succ_self (Nat.mul_one _).symm
  | cons c cs ih =>
    have hd : (digitValue? c).getD 0 < 10 := by
      cases h : digitValue? c with
      | none => decide
      | some d => exact digitValue?_lt h
    calc (c :: cs).foldl (fun n c => 10 * n + (digitValue? c).getD 0) n
        < (10 * n + (digitValue? c).getD 0 + 1) * Nat.pow 10 cs.length := ih _
      _ ≤ (10 * (n + 1)) * Nat.pow 10 cs.length := Nat.mul_le_mul_right _ (by omega)
      _ = (n + 1) * Nat.pow 10 (c :: cs).length := by
        rw [Nat.mul_comm 10, Nat.mul_assoc, Nat.mul_comm 10]
        rfl

theorem digitsValue_lt {s : List Char} {k : Nat} (h : s.length ≤ k) :
    digitsValue s < Nat.pow 10 k := by
  have hs : digitsValue s < Nat.pow 10 s.length := by
    simpa [digitsValue] using foldl_digits_lt s 0
  exact Nat.lt_of_lt_of_le hs (Nat.pow_le_pow_right (by decide) h)

theorem isWritable_digitsValue {s : List Char} (h : s.length ≤ digitLimit) :
    isWritable (digitsValue s) = true := by
  rw [isWritable_natCast, decide_eq_true_iff]
  exact digitsValue_lt h

theorem isWritable_neg (n : Int) : isWritable (-n) = isWritable n := by
  rw [isWritable, isWritable, Int.natAbs_neg]

theorem Literal.isWritable {s : List Char} {n : Int} (h : Literal s n) : isWritable n = true := by
  cases h with
  | plain _ hl | plus _ hl => exact isWritable_digitsValue hl
  | minus _ hl =>
    rw [isWritable_neg]
    exact isWritable_digitsValue hl

/-- ASCII digits, the first of which is no zero unless it stands alone. -/
structure IsPlain (w : List Char) : Prop where
  ne_nil : w ≠ []
  digits : ∀ c ∈ w, c.isDigit = true
  zero : ∀ t, w = '0' :: t → t = []

theorem isPlain_naturalText (n : Nat) : IsPlain (naturalText n) := by
  refine ⟨naturalText_ne_nil n, fun c => isDigit_of_mem_naturalText, fun t ht => ?_⟩
  have hfront : ['0'] ≠ [] := List.cons_ne_nil '0' []
  obtain ⟨k, hk, ⟨hnil, -⟩ | ⟨-, hpos, -⟩⟩ := exists_naturalText_of_append hfront ht
  · exact hnil
  · have hzero : digitsValue ['0'] = k := by rw [hk, digitsValue_naturalText]
    exact absurd hzero (Nat.ne_of_lt hpos)

end Text

namespace Record

/-- Lines of plain numbers, with single spaces between the numbers of a line. -/
def IsNormal (text : List Char) : Prop :=
  ∃ lines : List (List (List Char)), (∀ l ∈ lines, l ≠ [] ∧ ∀ w ∈ l, Text.IsPlain w) ∧
    text = lines.flatMap fun l => spaced l ++ ['\n']

/-- No record is empty, and its numbers are not negative and have few enough digits. -/
def Natural (rs : List Record) : Prop :=
  ∀ r ∈ rs, r ≠ [] ∧ ∀ n ∈ r, 0 ≤ n ∧ Text.isWritable n = true

theorem Natural.writable {rs : List Record} (h : Natural rs) : Writable rs :=
  fun r hr n hn => ((h r hr).2 n hn).2

theorem Natural.isNormal {rs : List Record} (h : Natural rs) : IsNormal (render rs) := by
  refine ⟨rs.map fun r => r.map Text.integerText, ?_, ?_⟩
  · intro l hl
    obtain ⟨r, hr, rfl⟩ := List.mem_map.mp hl
    obtain ⟨hne, hr⟩ := h r hr
    refine ⟨by simpa using hne, fun w hw => ?_⟩
    obtain ⟨n, hn, rfl⟩ := List.mem_map.mp hw
    obtain ⟨m, rfl⟩ := Int.eq_ofNat_of_zero_le (hr n hn).1
    exact Text.isPlain_naturalText m
  · rw [List.flatMap_map]
    rfl

theorem natural_append {rs ss : List Record} : Natural (rs ++ ss) ↔ Natural rs ∧ Natural ss :=
  List.forall_mem_append

theorem natural_flatMap {α : Type} {w : α → List Record} {l : List α}
    (h : ∀ a ∈ l, Natural (w a)) : Natural (l.flatMap w) := by
  intro r hr
  obtain ⟨a, ha, hr⟩ := List.mem_flatMap.mp hr
  exact h a ha r hr

theorem natural_number {n : Nat} (h : Text.isWritable n = true) : Natural [[(n : Int)]] := by
  simp [Natural, h]

end Record

open Record Source

theorem Row.exists_of_mem {α : Type} {G : List Char → α → List Char → Prop} {s t : List Char}
    {l : List α} (h : Row G s l t) : ∀ a ∈ l, ∃ u v, G u a v := by
  induction l generalizing s with
  | nil => simp
  | cons a l ih =>
    obtain ⟨u, ha, hl⟩ := h
    exact List.forall_mem_cons.mpr ⟨⟨s, u, ha⟩, ih hl⟩

theorem Source.Count.natural {s t : List Char} {n : Nat} (h : Count s n t) :
    Natural [[(n : Int)]] := by
  obtain ⟨d, -, hl, rfl⟩ := h
  exact natural_number (Text.isWritable_digitsValue hl)

theorem natural_of_row {α : Type} {G : List Char → α → List Char → Prop} {w : α → List Record}
    (hG : ∀ s a t, G s a t → Natural (w a)) {s t : List Char} {l : List α} (h : Row G s l t) :
    Natural (l.flatMap w) := by
  refine natural_flatMap fun a ha => ?_
  obtain ⟨u, v, hg⟩ := h.exists_of_mem a ha
  exact hG u a v hg

namespace RankOne

variable {F : ScalarField} {s t : List Char}

theorem TermText.natural {x : Term} (h : TermText F s x t) :
    Natural [[(x.index : Int), x.coefficient.value]] := by
  obtain ⟨d, ⟨_, _, w, _, n, -, -, -, -, -, hlit, h0, hn, hx, -⟩, hl, hi⟩ := h
  obtain ⟨m, rfl⟩ := Int.eq_ofNat_of_zero_le h0
  have hindex := Text.isWritable_digitsValue hl
  have hvalue : x.coefficient.value = m := by
    rw [hx, ScalarField.value_element_of_lt (by omega)]
  rw [← hi] at hindex
  simp [Natural, hvalue, hindex, hlit.isWritable]

theorem CombinationText.natural {l : Combination} (h : CombinationText F s l t) :
    Natural l.records := by
  obtain ⟨u, hn, hl⟩ := h
  rw [Combination.records_eq]
  exact natural_append.mpr ⟨hn.natural, natural_of_row (fun _ _ _ h => h.natural) hl⟩

theorem ConstraintText.natural {k : Constraint} (h : ConstraintText F s k t) :
    Natural k.records := by
  obtain ⟨u, v, ha, hb, hc⟩ := h
  exact natural_append.mpr ⟨natural_append.mpr ⟨ha.natural, hb.natural⟩, hc.natural⟩

theorem SystemText.natural {c : System}
    (h : SystemText F s c.numPublicInputs c.numTotalVariables c.constraints t) :
    Natural c.records := by
  obtain ⟨u, v, w, hp, hm, hn, hk⟩ := h
  rw [System.records_eq]
  simp only [natural_append]
  exact ⟨hp.natural, hm.natural, hn.natural, natural_of_row (fun _ _ _ h => h.natural) hk⟩

end RankOne

theorem ShapeText.natural {s t : List Char} {x : Shape} (h : ShapeText s x t) :
    Natural x.records := by
  obtain ⟨name, type, outgoing, localData, witness, slots, u, hhead, htail, rfl⟩ := h
  obtain ⟨v, hslots, htail⟩ := row_append.mp htail
  obtain ⟨_, hname, _, htype, _, hn, -⟩ := hhead
  obtain ⟨_, ho, _, hd, _, hw, -⟩ := htail
  rw [Shape.records_of_naturals]
  simp only [natural_append]
  exact ⟨hname.natural, htype.natural, hn.natural,
    natural_of_row (fun _ _ _ h => h.natural) hslots, ho.natural, hd.natural, hw.natural⟩

namespace Predicate

variable {F : ScalarField} {field? : Option ScalarField} {text : List Char}
  {p q : Predicate RankOne.System}

/-- What is known of a predicate that was read over `F`. -/
structure FromText (F : ScalarField) (field? : Option ScalarField)
    (p : Predicate RankOne.System) : Prop where
  shape : p.shape.Admissible
  relies : p.reliesOnSameType = false
  field : p.field = field?.getD F
  systemField : p.system.field = F
  coefficients : ∀ k ∈ p.system.constraints, k.CoefficientsIn F
  records : Natural p.records

theorem fromText_of_decode (h : decode (RankOne.readSystem F) field? text = .ok p) :
    FromText F field? p := by
  have hread : read (RankOne.readSystem F) field? (ofText text) = (.ok p, _) := Prod.ext h rfl
  obtain ⟨rest, -, hr, hf, t, hx, hF, hs⟩ := (parses_read F field?).accepts_iff.mp hread
  have hm := yields_read (ofText text) p _ hread
  exact ⟨hx.admissible, hr, hf, hF, hm, natural_append.mpr ⟨hx.natural, hs.natural⟩⟩

/-- The written form of such a predicate reads back as the predicate itself. -/
theorem FromText.decode_render (h : FromText F field? p) :
    decode (RankOne.readSystem F) field? (render p.records) = .ok p := by
  obtain ⟨hx, hr, hf, rfl, hm, hn⟩ := h
  have ht := takes_read field? hx hm hn.writable []
  rw [List.append_nil] at ht
  rw [decode, ht, ← hr, ← hf]

/-- A text that a predicate is read from has a normal form, which is what the predicate is written
as and which reads back as the predicate. Texts of equal predicates, and no others, have the same
normal form. -/
theorem decode_normal_form (F : ScalarField) (field? : Option ScalarField) {text : List Char}
    {p : Predicate RankOne.System} (h : decode (RankOne.readSystem F) field? text = .ok p) :
    ∃ normal, p.encode = .ok normal ∧ IsNormal normal ∧
      (∃ q, decode (RankOne.readSystem F) field? normal = .ok q ∧ p.same q = true ∧
        q.encode = .ok normal) ∧
      ∀ other q, decode (RankOne.readSystem F) field? other = .ok q →
        ∃ normal', q.encode = .ok normal' ∧ (p.same q = true ↔ normal = normal') := by
  have hp := fromText_of_decode h
  have he : p.encode = .ok (render p.records) := write_writable hp.records.writable
  refine ⟨_, he, hp.records.isNormal, ⟨p, hp.decode_render, by simp [same], he⟩, ?_⟩
  intro other q hq
  have hq := fromText_of_decode hq
  refine ⟨_, write_writable hq.records.writable, fun hsame => ?_, fun heq => ?_⟩
  · simp only [same, Bool.and_eq_true, beq_iff_eq] at hsame
    rw [records, records, hsame.1, hsame.2]
  · have hd := hp.decode_render
    rw [heq, hq.decode_render] at hd
    cases hd
    simp [same]

/-- Two spellings of one predicate over eleven elements: with carriage returns, a digit of another
script, a sign and an underscore, and with leading zeros and text that follows. -/
theorem decode_normal_form_of_two_spellings :
    ∃ (text other normal : List Char) (p q : Predicate RankOne.System),
      decode (RankOne.readSystem ⟨11, by decide⟩) none text = .ok p ∧
      decode (RankOne.readSystem ⟨11, by decide⟩) none other = .ok q ∧
      text = "7\r\n \u0661\n0\n2\n0\n0\n1\n 2\r\n1\n1\n\u0661 +1_0\t\n0\n0\n".toList ∧
      other = "07\n1\n0\n2\n0\n0\n1\n2\n1\n01\n001 10\n0\n0\n\n!".toList ∧
      p.encode = .ok normal ∧ q.encode = .ok normal ∧ IsNormal normal := by
  let p : Predicate RankOne.System := ⟨⟨7, 1, 2, 0, [], 0, 0⟩,
    ⟨⟨11, by decide⟩, 1, 2, [⟨[⟨1, .reduce 10 11 (by decide)⟩], [], []⟩], by decide, by decide,
      by decide⟩, false, ⟨11, by decide⟩⟩
  have hp : decode (RankOne.readSystem ⟨11, by decide⟩) none
      "7\r\n \u0661\n0\n2\n0\n0\n1\n 2\r\n1\n1\n\u0661 +1_0\t\n0\n0\n".toList = .ok p := by
    decide +kernel
  have hq : decode (RankOne.readSystem ⟨11, by decide⟩) none
      "07\n1\n0\n2\n0\n0\n1\n2\n1\n01\n001 10\n0\n0\n\n!".toList = .ok p := by
    decide +kernel
  obtain ⟨normal, he, hn, -, hother⟩ := decode_normal_form ⟨11, by decide⟩ none hp
  obtain ⟨normal', he', hsame⟩ := hother _ p hq
  obtain rfl := hsame.mp (by simp [same])
  exact ⟨_, _, normal, p, p, hp, hq, rfl, rfl, he, he', hn⟩

end Predicate

end ProofCarrying
