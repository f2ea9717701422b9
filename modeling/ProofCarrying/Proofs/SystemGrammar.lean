import ProofCarrying.Proofs.Coefficients
import ProofCarrying.Proofs.Parsing
import ProofCarrying.RankOne.Records

/-! The texts that rank-one systems are read from. Reading succeeds on these texts only and yields
what they say. Elsewhere it fails with a fault of the format, unless the first line that does not
fit has a number of too many digits. -/

namespace ProofCarrying

/-- Faults of the format hold no numbers in their words, so they are told as they are. -/
theorem Fault.told_of_format {f : Fault} (h : f.kind = .format) : f.told = f := by
  have hn : f.numbers = [] := by cases f <;> simp [kind, numbers] at h ⊢
  rcases told_cases (h ▸ by decide : f.kind ≠ .value) with ⟨-, ht⟩ | ⟨⟨n, hmem, -⟩, -⟩
  · exact ht
  · simp [hn] at hmem

namespace RankOne

open Text Source

/-- A line of digits and the text of an element, with blanks around and between them. -/
def PairLine (F : ScalarField) (s d : List Char) (x : Residue) (rest : List Char) : Prop :=
  ∃ pre gap w post n, Blanks pre ∧ Blanks gap ∧ gap ≠ [] ∧ Blanks post ∧ isDecimal d = true ∧
    Literal w n ∧ 0 ≤ n ∧ n < F.modulus ∧ x = F.element n ∧
    Line s (pre ++ d ++ gap ++ w ++ post) rest

def TermText (F : ScalarField) (s : List Char) (t : Term) (rest : List Char) : Prop :=
  ∃ d, PairLine F s d t.coefficient rest ∧ d.length ≤ digitLimit ∧ t.index = digitsValue d

def CombinationText (F : ScalarField) (s : List Char) (l : Combination) (rest : List Char) :
    Prop :=
  ∃ t, Count s l.length t ∧ Row (TermText F) t l rest

def ConstraintText (F : ScalarField) (s : List Char) (k : Constraint) (rest : List Char) : Prop :=
  ∃ t u, CombinationText F s k.a t ∧ CombinationText F t k.b u ∧ CombinationText F u k.c rest

/-- The two counts of variables, the number of constraints, and the constraints. -/
def SystemText (F : ScalarField) (s : List Char) (publicInputs total : Nat)
    (ks : List Constraint) (rest : List Char) : Prop :=
  ∃ t u v, Count s publicInputs t ∧ Count t total u ∧ Count u ks.length v ∧
    Row (ConstraintText F) v ks rest

def LongTerm (F : ScalarField) (s : List Char) : Prop :=
  ∃ d x rest, PairLine F s d x rest ∧ digitLimit < d.length

def LongCombination (F : ScalarField) (s : List Char) : Prop :=
  LongCount s ∨ ∃ n t, Count s n t ∧ Breaks (TermText F) (LongTerm F) n t

def LongConstraint (F : ScalarField) (s : List Char) : Prop :=
  LongCombination F s ∨ ∃ a t, CombinationText F s a t ∧
    (LongCombination F t ∨ ∃ b u, CombinationText F t b u ∧ LongCombination F u)

/-- The first line that does not fit has a number of too many digits. -/
def LongSystem (F : ScalarField) (s : List Char) : Prop :=
  LongCount s ∨ ∃ n t, Count s n t ∧ (LongCount t ∨ ∃ m u, Count t m u ∧
    (LongCount u ∨ ∃ k v, Count u k v ∧ Breaks (ConstraintText F) (LongConstraint F) k v))

variable {F : ScalarField}

theorem pairLine_iff {s d rest : List Char} {x : Residue} :
    PairLine F s d x rest ↔ isDecimal d = true ∧
      ∃ l w, Line s l rest ∧ words l = [d, w] ∧ F.parse w = .ok x := by
  constructor
  · rintro ⟨pre, gap, w, post, n, hpre, hgap, hne, hpost, hd, hw, h0, hn, rfl, hl⟩
    refine ⟨hd, _, w, hl, ?_, ?_⟩
    · exact words_eq_pair_iff.mpr ⟨pre, gap, post, hpre, hgap, hne, hpost,
        isWord_of_isDecimal hd, hw.isWord, rfl⟩
    · rw [← trim_of_isTrimmed hw.isWord.isTrimmed] at hw
      exact ScalarField.parse_eq_ok_iff.mpr ⟨n, hw, h0, hn, rfl⟩
  · rintro ⟨hd, l, w, hl, hlw, hx⟩
    obtain ⟨pre, gap, post, hpre, hgap, hne, hpost, -, hw, rfl⟩ := words_eq_pair_iff.mp hlw
    obtain ⟨n, hlit, h0, hn, rfl⟩ := ScalarField.parse_eq_ok_iff.mp hx
    rw [trim_of_isTrimmed hw.isTrimmed] at hlit
    exact ⟨pre, gap, w, post, n, hpre, hgap, hne, hpost, hd, hlit, h0, hn, rfl, hl⟩

theorem parses_term (F : ScalarField) : Parses (readTerm F) (TermText F) (LongTerm F) := by
  refine ((parses_record "term").bind
    (H := fun r s t rest => ∃ d w, words r = [d, w] ∧ isDecimal d = true ∧
      F.parse w = .ok t.coefficient ∧ d.length ≤ digitLimit ∧ t.index = digitsValue d ∧ rest = s)
    (C := fun r _ => ∃ d w x, words r = [d, w] ∧ isDecimal d = true ∧ F.parse w = .ok x ∧
      digitLimit < d.length) fun r => ?_).congr (fun s t rest => ?_) fun s => ?_
  · split
    next d w hr =>
      split
      next hd =>
        split
        next e he => exact (Parses.fail rfl).congr (by simp [hr, he]) (by simp [hr, he])
        next x hx =>
          refine (parses_digits d (Term.mk (digitsValue d) x)).congr (fun s t rest => ?_)
            fun s => ?_
          · obtain ⟨i, c⟩ := t
            simp only [hr, List.cons.injEq, and_true]
            constructor
            · rintro ⟨_, _, ⟨rfl, rfl⟩, -, hc, hlen, rfl, rfl⟩
              cases hx.symm.trans hc
              exact ⟨hlen, rfl, rfl⟩
            · rintro ⟨hlen, ⟨⟩, rfl⟩
              exact ⟨d, w, ⟨rfl, rfl⟩, hd, hx, hlen, rfl, rfl⟩
          · simp [hr, hd, hx]
      next hd => exact (Parses.fail rfl).congr (by simp [hr, hd]) (by simp [hr, hd])
    next hr =>
      have hn : ∀ d w, words r ≠ [d, w] := fun d w h => hr d w h
      exact (Parses.fail rfl).congr (by simp [hn]) (by simp [hn])
  · constructor
    · rintro ⟨d, hp, hlen, hi⟩
      obtain ⟨hd, l, w, hl, hlw, hx⟩ := pairLine_iff.mp hp
      rw [← words_trim] at hlw
      exact ⟨trim l, rest, ⟨l, hl, rfl, ne_nil_of_words hlw⟩, d, w, hlw, hd, hx, hlen, hi, rfl⟩
    · rintro ⟨r, u, ⟨l, hl, rfl, -⟩, d, w, hlw, hd, hx, hlen, hi, rfl⟩
      rw [words_trim] at hlw
      exact ⟨d, pairLine_iff.mpr ⟨hd, l, w, hl, hlw, hx⟩, hlen, hi⟩
  · rw [false_or]
    constructor
    · rintro ⟨d, x, rest, hp, hlen⟩
      obtain ⟨hd, l, w, hl, hlw, hx⟩ := pairLine_iff.mp hp
      rw [← words_trim] at hlw
      exact ⟨trim l, rest, ⟨l, hl, rfl, ne_nil_of_words hlw⟩, d, w, x, hlw, hd, hx, hlen⟩
    · rintro ⟨r, rest, ⟨l, hl, rfl, -⟩, d, w, x, hlw, hd, hx, hlen⟩
      rw [words_trim] at hlw
      exact ⟨d, x, rest, pairLine_iff.mpr ⟨hd, l, w, hl, hlw, hx⟩, hlen⟩

theorem parses_combination (F : ScalarField) :
    Parses (readCombination F) (CombinationText F) (LongCombination F) := by
  refine ((parses_number _).bind fun n => Parses.numbered (fun _ => parses_term F) 0 n).congr
    (fun s l rest => ?_) fun s => Iff.rfl
  constructor
  · rintro ⟨t, hn, hr⟩
    exact ⟨_, t, hn, rfl, hr⟩
  · rintro ⟨n, t, hn, rfl, hr⟩
    exact ⟨t, hn, hr⟩

theorem parses_constraint (F : ScalarField) :
    Parses (readConstraint F) (ConstraintText F) (LongConstraint F) := by
  have hp := parses_combination F
  refine (hp.bind fun a => hp.bind fun b => hp.bind fun c =>
    Parses.pure (Constraint.mk a b c)).congr (fun s k rest => ?_) fun s => ?_
  · constructor
    · rintro ⟨t, u, ha, hb, hc⟩
      exact ⟨k.a, t, ha, k.b, u, hb, k.c, rest, hc, rfl, rfl⟩
    · rintro ⟨a, t, ha, b, u, hb, c, v, hc, rfl, rfl⟩
      exact ⟨t, u, ha, hb, hc⟩
  · simp [LongConstraint]

theorem parses_mkSystem (publicInputs total : Nat) (ks : List Constraint) :
    Parses (match mkSystem F publicInputs total ks with
      | .ok s => pure s
      | .error e => .fail (.inconsistentSystem e))
      (fun s x t => mkSystem F publicInputs total ks = .ok x ∧ t = s) (fun _ => False) := by
  cases hm : mkSystem F publicInputs total ks with
  | ok x =>
    refine (Parses.pure x).congr (fun s y t => ?_) fun s => Iff.rfl
    rw [Except.ok.injEq, eq_comm]
  | error e => exact (Parses.fail rfl).congr (by simp) (by simp)

theorem parses_system (F : ScalarField) :
    Parses (readSystem F) (fun text s rest => s.field = F ∧
      SystemText F text s.numPublicInputs s.numTotalVariables s.constraints rest)
      (LongSystem F) := by
  refine ((parses_number _).bind fun publicInputs => (parses_number _).bind fun total =>
    (parses_number _).bind fun n => (Parses.numbered (fun _ => parses_constraint F) 0 n).bind
      fun ks => parses_mkSystem publicInputs total ks).congr (fun text s rest => ?_) fun text => ?_
  · constructor
    · rintro ⟨hF, t, u, v, hp, ht, hn, hk⟩
      exact ⟨_, t, hp, _, u, ht, _, v, hn, _, rest, ⟨rfl, hk⟩,
        mkSystem_eq_ok_iff.mpr ⟨hF, rfl, rfl, rfl⟩, rfl⟩
    · rintro ⟨p, t, hp, m, u, ht, n, v, hn, ks, w, ⟨rfl, hk⟩, hs, rfl⟩
      obtain ⟨hF, hp', hm', rfl⟩ := mkSystem_eq_ok_iff.mp hs
      obtain rfl := Int.natCast_inj.mp hp'
      obtain rfl := Int.natCast_inj.mp hm'
      exact ⟨hF, t, u, v, hp, ht, hn, hk⟩
  · simp [LongSystem]

/-- A text that a system can be read from, up to whether the numbers are consistent. -/
theorem exists_system_iff {text : List Char} :
    (∃ s source, readSystem F (.ofText text) = (.ok s, source)) ↔
      ∃ publicInputs total ks rest, SystemText F text publicInputs total ks rest ∧
        1 ≤ publicInputs ∧ publicInputs ≤ total ∧
          ∀ k ∈ ks, ∀ t ∈ k.a ++ k.b ++ k.c, t.index < total := by
  simp only [(parses_system F).accepts_iff]
  constructor
  · rintro ⟨s, -, rest, -, -, hs⟩
    exact ⟨_, _, _, rest, hs, s.one_le, s.public_le,
      fun k hk => Constraint.width_le_iff.mp (s.width_le k hk)⟩
  · rintro ⟨p, m, ks, rest, hs, h1, hpm, hw⟩
    exact ⟨⟨F, p, m, ks, h1, hpm, fun k hk => Constraint.width_le_iff.mpr (hw k hk)⟩, _, rest,
      rfl, rfl, hs⟩

/-- A system is read from a text exactly if the first lines of the text make up a system with
consistent numbers. It is then what these lines say, and what follows them is left. Every other
text is refused: as badly formed, or with a plain value fault exactly if a number of too many
digits is the first that does not fit. -/
theorem readSystem_iff_systemText (F : ScalarField) (text : List Char) :
    (∀ s source, readSystem F (.ofText text) = (.ok s, source) ↔
      s.field = F ∧ ∃ rest, source = .ofText rest ∧
        SystemText F text s.numPublicInputs s.numTotalVariables s.constraints rest) ∧
    ((∃ s source, readSystem F (.ofText text) = (.ok s, source)) ↔
      ∃ publicInputs total ks rest, SystemText F text publicInputs total ks rest ∧
        1 ≤ publicInputs ∧ publicInputs ≤ total ∧
          ∀ k ∈ ks, ∀ t ∈ k.a ++ k.b ++ k.c, t.index < total) ∧
    ((¬ ∃ s source, readSystem F (.ofText text) = (.ok s, source)) →
      ∃ f source, readSystem F (.ofText text) = (.error f, source) ∧
        (f.told.kind = .value ∧ LongSystem F text ∨
          f.told.kind = .format ∧ ¬ LongSystem F text)) := by
  have hp := parses_system F
  refine ⟨fun s source => ?_, exists_system_iff, fun hn => ?_⟩
  · rw [hp.accepts_iff]
    constructor
    · rintro ⟨rest, rfl, hF, hs⟩
      exact ⟨hF, rest, rfl, hs⟩
    · rintro ⟨hF, rest, rfl, hs⟩
      exact ⟨rest, rfl, hF, hs⟩
  · cases hp text with
    | accepted s rest h => exact absurd ⟨s, _, h⟩ hn
    | overlong digits source h _ hB => exact ⟨_, source, h, Or.inl ⟨rfl, hB⟩⟩
    | refused e source h hk _ hB =>
      refine ⟨e, source, h, Or.inr ⟨?_, hB⟩⟩
      rw [Fault.told_of_format hk, hk]

/-- Blanks around the numbers, digits of another script, a sign and an underscore. -/
example : readSystem ⟨11, by decide⟩ (.ofText "1\n 2\r\n1\n1\n١ +1_0\t\n0\n0\n\n".toList) =
    (.ok ⟨⟨11, by decide⟩, 1, 2, [⟨[⟨1, .reduce 10 11 (by decide)⟩], [], []⟩], by decide,
      by decide, by decide⟩, .ofText ['\n']) := by
  decide +kernel

end RankOne

end ProofCarrying
