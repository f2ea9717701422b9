import ProofCarrying.Proofs.Framing
import ProofCarrying.Proofs.RoundTrip
import ProofCarrying.Proofs.SystemGrammar

/-! The texts that predicates over rank-one systems are read from. Reading succeeds on these texts
only. Elsewhere it fails with a fault of the format, unless the first line that does not fit has a
number of too many digits. -/

namespace ProofCarrying

open Source Text

section Rows

variable {α : Type} {G : List Char → α → List Char → Prop} {B : List Char → Prop}

theorem row_append {s u : List Char} {l m : List α} :
    Row G s (l ++ m) u ↔ ∃ t, Row G s l t ∧ Row G t m u := by
  induction l generalizing s with
  | nil => simp [Row]
  | cons a l ih =>
    simp only [List.cons_append, Row, ih]
    constructor
    · rintro ⟨t, ha, v, hl, hm⟩
      exact ⟨v, ⟨t, ha, hl⟩, hm⟩
    · rintro ⟨v, ⟨t, ha, hl⟩, hm⟩
      exact ⟨t, ha, v, hl, hm⟩

theorem breaks_add {m n : Nat} {s : List Char} : Breaks G B (m + n) s ↔
    Breaks G B m s ∨ ∃ l t, l.length = m ∧ Row G s l t ∧ Breaks G B n t := by
  induction m generalizing s with
  | zero =>
    rw [Nat.zero_add, Breaks, false_or]
    constructor
    · intro h
      exact ⟨[], s, rfl, rfl, h⟩
    · rintro ⟨l, t, hl, hr, h⟩
      obtain rfl := List.length_eq_zero_iff.mp hl
      have hst : s = t := hr
      rwa [hst]
  | succ m ih =>
    rw [Nat.succ_add, Breaks, Breaks, or_assoc]
    refine or_congr_right ?_
    constructor
    · rintro ⟨a, t, ha, h⟩
      rcases ih.mp h with h | ⟨l, u, hl, hr, h⟩
      · exact Or.inl ⟨a, t, ha, h⟩
      · exact Or.inr ⟨a :: l, u, by rw [List.length_cons, hl], ⟨t, ha, hr⟩, h⟩
    · rintro (⟨a, t, ha, h⟩ | ⟨l, u, hl, hr, h⟩)
      · exact ⟨a, t, ha, ih.mpr (Or.inl h)⟩
      · cases l with
        | nil => simp at hl
        | cons a l =>
          obtain ⟨t, ha, hr⟩ := hr
          exact ⟨a, t, ha, ih.mpr (Or.inr ⟨l, u, by simpa using hl, hr, h⟩)⟩

end Rows

/-- Three numbers, the last of which is the number of slots, then a length for each slot and the
three other lengths. -/
def ShapeText (s : List Char) (x : Shape) (rest : List Char) : Prop :=
  ∃ (name type outgoing localData witness : Nat) (slots : List Nat) (t : List Char),
    Row Count s [name, type, slots.length] t ∧
      Row Count t (slots ++ [outgoing, localData, witness]) rest ∧
      x = ⟨name, type, outgoing, slots.length, slots.map Int.ofNat, localData, witness⟩

def LongShape (s : List Char) : Prop :=
  LongCount s ∨ ∃ name t, Count s name t ∧ (LongCount t ∨ ∃ type u, Count t type u ∧
    (LongCount u ∨ ∃ n v, Count u n v ∧ Breaks Count LongCount (n + 3) v))

theorem parses_shape : Parses Shape.read ShapeText LongShape := by
  refine ((parses_number _).bind fun name => (parses_number _).bind fun type =>
    (parses_number _).bind fun n => (Parses.numbered (fun _ => parses_number _) 0 n).bind
      fun slots => (parses_number _).bind fun outgoing => (parses_number _).bind fun localData =>
        (parses_number _).bind fun witness => Parses.pure (Shape.mk name type outgoing n
          (slots.map Int.ofNat) localData witness)).congr (fun s x rest => ?_) fun s => ?_
  · constructor
    · rintro ⟨name, type, outgoing, localData, witness, slots, t, hhead, htail, rfl⟩
      obtain ⟨u, hname, v, htype, w, hn, rfl⟩ := hhead
      obtain ⟨x, hslots, y, ho, z, hl, a, hw, rfl⟩ := row_append.mp htail
      exact ⟨name, u, hname, type, v, htype, _, w, hn, slots, x, ⟨rfl, hslots⟩, outgoing, y, ho,
        localData, z, hl, witness, _, hw, rfl, rfl⟩
    · rintro ⟨name, t, hname, type, u, htype, _, v, hn, slots, w, ⟨rfl, hslots⟩, outgoing, y, ho,
        localData, z, hl, witness, a, hw, rfl, rfl⟩
      refine ⟨name, type, outgoing, localData, witness, slots, v, ⟨t, hname, u, htype, v, hn, rfl⟩,
        ?_, rfl⟩
      exact row_append.mpr ⟨w, hslots, y, ho, z, hl, _, hw, rfl⟩
  · have htail : ∀ n v, (Breaks Count LongCount n v ∨ ∃ slots w,
        (slots.length = n ∧ Row Count v slots w) ∧ Breaks Count LongCount 3 w) ↔
          Breaks Count LongCount (n + 3) v := by
      simp only [breaks_add, and_assoc, implies_true]
    exact or_congr_right (exists_congr fun name => exists_congr fun t => and_congr_right' <|
      or_congr_right (exists_congr fun type => exists_congr fun u => and_congr_right' <|
        or_congr_right (exists_congr fun n => exists_congr fun v => and_congr_right' <|
          (htail n v).symm)))

theorem ShapeText.admissible {s rest : List Char} {x : Shape} (h : ShapeText s x rest) :
    x.Admissible := by
  obtain ⟨name, type, outgoing, localData, witness, slots, t, -, -, rfl⟩ := h
  simp [Shape.Admissible]

section Runs

/-- Somewhere in the text stand more digits in a row than a number may have. -/
def LongRun (s : List Char) : Prop :=
  ∃ d, d <:+: s ∧ isDecimal d = true ∧ digitLimit < d.length

variable {α : Type} {G : List Char → α → List Char → Prop} {B : List Char → Prop}
  {F : ScalarField} {s t : List Char}

theorem LongRun.of_suffix (h : LongRun t) (ht : t <:+ s) : LongRun s := by
  obtain ⟨d, hd, hdec, hlen⟩ := h
  exact ⟨d, hd.trans ht.isInfix, hdec, hlen⟩

theorem Parses.suffix {p : Action Source α} (hp : Parses p G B) (hr : Recordwise p) {a : α}
    (h : G s a t) : t <:+ s := by
  have ht := hp.accepts_iff.mpr ⟨t, rfl, h⟩
  obtain ⟨r, u, rest, hs, he, -, -⟩ := hr.framed s
  have hrest : t = rest := congrArg (fun x => x.2.rest) (ht.symm.trans he)
  exact ⟨u, by rw [hs, hrest]⟩

theorem infix_of_line {l rest : List Char} (h : Line s l rest) : l <:+: s := by
  cases h with
  | ended => exact (List.prefix_append l _).isInfix
  | last => exact List.infix_rfl

theorem longRun_of_count (h : LongCount s) : LongRun s := by
  obtain ⟨d, rest, ⟨pre, post, -, -, hdec, hl⟩, hlen⟩ := h
  exact ⟨d, List.IsInfix.trans ⟨pre, post, rfl⟩ (infix_of_line hl), hdec, hlen⟩

theorem longRun_of_breaks {n : Nat} (hG : ∀ {s a t}, G s a t → t <:+ s)
    (hB : ∀ {s}, B s → LongRun s) (h : Breaks G B n s) : LongRun s := by
  induction n generalizing s with
  | zero => exact h.elim
  | succ n ih =>
    rcases h with h | ⟨a, t, ha, h⟩
    · exact hB h
    · exact (ih h).of_suffix (hG ha)

theorem count_suffix {n : Nat} (h : Count s n t) : t <:+ s :=
  (parses_number "").suffix (.number "") h

open RankOne

theorem longRun_of_term (h : LongTerm F s) : LongRun s := by
  obtain ⟨d, x, rest, ⟨pre, gap, w, post, n, -, -, -, -, hdec, -, -, -, -, hl⟩, hlen⟩ := h
  have hd : d <:+: pre ++ d ++ gap ++ w ++ post := ⟨pre, gap ++ w ++ post, by simp⟩
  exact ⟨d, hd.trans (infix_of_line hl), hdec, hlen⟩

theorem longRun_of_combination (h : LongCombination F s) : LongRun s := by
  rcases h with h | ⟨n, t, hn, h⟩
  · exact longRun_of_count h
  · have hG : ∀ {s a t}, TermText F s a t → t <:+ s :=
      (parses_term F).suffix (recordwise_readTerm F)
    exact (longRun_of_breaks hG longRun_of_term h).of_suffix (count_suffix hn)

theorem combination_suffix {l : Combination} (h : CombinationText F s l t) : t <:+ s :=
  (parses_combination F).suffix (recordwise_readCombination F) h

theorem longRun_of_constraint (h : LongConstraint F s) : LongRun s := by
  rcases h with h | ⟨a, t, ha, h | ⟨b, u, hb, h⟩⟩
  · exact longRun_of_combination h
  · exact (longRun_of_combination h).of_suffix (combination_suffix ha)
  · have hu := (combination_suffix hb).trans (combination_suffix ha)
    exact (longRun_of_combination h).of_suffix hu

theorem longRun_of_system (h : LongSystem F s) : LongRun s := by
  rcases h with h | ⟨n, t, hn, h | ⟨m, u, hm, h | ⟨k, v, hk, h⟩⟩⟩
  · exact longRun_of_count h
  · exact (longRun_of_count h).of_suffix (count_suffix hn)
  · exact (longRun_of_count h).of_suffix ((count_suffix hm).trans (count_suffix hn))
  · have hG : ∀ {s a t}, ConstraintText F s a t → t <:+ s :=
      (parses_constraint F).suffix (recordwise_readConstraint F)
    have hv := (count_suffix hk).trans ((count_suffix hm).trans (count_suffix hn))
    exact (longRun_of_breaks hG longRun_of_constraint h).of_suffix hv

theorem longRun_of_shape (h : LongShape s) : LongRun s := by
  rcases h with h | ⟨n, t, hn, h | ⟨m, u, hm, h | ⟨k, v, hk, h⟩⟩⟩
  · exact longRun_of_count h
  · exact (longRun_of_count h).of_suffix (count_suffix hn)
  · exact (longRun_of_count h).of_suffix ((count_suffix hm).trans (count_suffix hn))
  · have hv := (count_suffix hk).trans ((count_suffix hm).trans (count_suffix hn))
    exact (longRun_of_breaks count_suffix longRun_of_count h).of_suffix hv

end Runs

namespace Predicate

variable {F : ScalarField}

/-- The numbers of a shape and a system with consistent numbers after them. -/
def PredicateText (F : ScalarField) (s : List Char) (x : Shape) (c : RankOne.System)
    (rest : List Char) : Prop :=
  ∃ t, ShapeText s x t ∧ c.field = F ∧
    RankOne.SystemText F t c.numPublicInputs c.numTotalVariables c.constraints rest

/-- The first line that does not fit has a number of too many digits. -/
def LongPredicate (F : ScalarField) (s : List Char) : Prop :=
  LongShape s ∨ ∃ x t, ShapeText s x t ∧ RankOne.LongSystem F t

theorem parses_read (F : ScalarField) (field? : Option ScalarField) :
    Parses (read (RankOne.readSystem F) field?)
      (fun s p rest => p.reliesOnSameType = false ∧ p.field = field?.getD F ∧
        PredicateText F s p.shape p.system rest) (LongPredicate F) := by
  have hbind : ∀ x : Shape, x.Admissible →
      Parses (RankOne.readSystem F >>= fun c => Action.ofExcept (ofShape x c false field?))
        (fun s p rest => p.shape = x ∧ p.reliesOnSameType = false ∧ p.field = field?.getD F ∧
          p.system.field = F ∧ RankOne.SystemText F s p.system.numPublicInputs
            p.system.numTotalVariables p.system.constraints rest) (RankOne.LongSystem F) := by
    intro x hx
    have hof : ∀ c : RankOne.System, (Action.ofExcept (ofShape x c false field?) :
        Action Source (Predicate RankOne.System)) = pure ⟨x, c, false, field?.getD c.field⟩ :=
      fun c => by rw [ofShape_admissible hx]; rfl
    simp only [hof]
    refine ((RankOne.parses_system F).bind fun c => Parses.pure _).congr
      (fun s p rest => ?_) fun s => by simp
    constructor
    · rintro ⟨rfl, hr, hf, hc, hs⟩
      refine ⟨p.system, rest, ⟨hc, hs⟩, ?_, rfl⟩
      obtain ⟨shape, system, relies, field⟩ := p
      simp_all
    · rintro ⟨c, u, ⟨rfl, hs⟩, rfl, rfl⟩
      exact ⟨rfl, rfl, rfl, rfl, hs⟩
  refine (parses_shape.bind_of_accepts fun s x t hx => hbind x hx.admissible t).congr
    (fun s p rest => ?_) fun s => Iff.rfl
  constructor
  · rintro ⟨hr, hf, t, hx, hc, hs⟩
    exact ⟨p.shape, t, hx, rfl, hr, hf, hc, hs⟩
  · rintro ⟨x, t, hx, rfl, hr, hf, hc, hs⟩
    exact ⟨hr, hf, t, hx, hc, hs⟩

theorem longRun_of_predicate {s : List Char} (h : LongPredicate F s) : LongRun s := by
  rcases h with h | ⟨x, t, hx, h⟩
  · exact longRun_of_shape h
  · exact (longRun_of_system h).of_suffix (parses_shape.suffix Shape.recordwise_read hx)

/-- A predicate is decoded from a text exactly if the text begins with the lines of one. Every
other text is refused: as badly formed, or with a plain value fault exactly if a number of too many
digits is the first that does not fit. For the latter there must be a run of as many digits. -/
theorem decode_outcomes (F : ScalarField) (field? : Option ScalarField) (text : List Char) :
    (∀ p, decode (RankOne.readSystem F) field? text = .ok p ↔
      p.reliesOnSameType = false ∧ p.field = field?.getD F ∧
        ∃ rest, PredicateText F text p.shape p.system rest) ∧
    ((¬ ∃ p, decode (RankOne.readSystem F) field? text = .ok p) →
      ∃ f, decode (RankOne.readSystem F) field? text = .error f ∧
        (f.told.kind = .format ∧ ¬ LongPredicate F text ∨
          f.told.kind = .value ∧ LongPredicate F text)) ∧
    (¬ LongRun text → (∃ p, decode (RankOne.readSystem F) field? text = .ok p) ∨
      ∃ f, decode (RankOne.readSystem F) field? text = .error f ∧ f.told.kind = .format) := by
  have hp := parses_read F field?
  have hfail : (¬ ∃ p, decode (RankOne.readSystem F) field? text = .ok p) →
      ∃ f, decode (RankOne.readSystem F) field? text = .error f ∧
        (f.told.kind = .format ∧ ¬ LongPredicate F text ∨
          f.told.kind = .value ∧ LongPredicate F text) := by
    intro hn
    cases hp text with
    | accepted p rest h => exact absurd ⟨p, congrArg Prod.fst h⟩ hn
    | overlong digits source h _ hB => exact ⟨_, congrArg Prod.fst h, Or.inr ⟨rfl, hB⟩⟩
    | refused e source h hk _ hB =>
      have htold : e.told.kind = .format := by rw [Fault.told_of_format hk, hk]
      exact ⟨e, congrArg Prod.fst h, Or.inl ⟨htold, hB⟩⟩
  refine ⟨fun p => ?_, hfail, fun hrun => ?_⟩
  · constructor
    · intro h
      have hread : read (RankOne.readSystem F) field? (ofText text) = (.ok p, _) := Prod.ext h rfl
      obtain ⟨rest, -, hr, hf, ht⟩ := hp.accepts_iff.mp hread
      exact ⟨hr, hf, rest, ht⟩
    · rintro ⟨hr, hf, rest, ht⟩
      exact congrArg Prod.fst (hp.accepts_iff.mpr ⟨rest, rfl, hr, hf, ht⟩)
  · by_cases hok : ∃ p, decode (RankOne.readSystem F) field? text = .ok p
    · exact Or.inl hok
    · obtain ⟨f, hf, ⟨hk, -⟩ | ⟨-, hlong⟩⟩ := hfail hok
      · exact Or.inr ⟨f, hf, hk⟩
      · exact absurd (longRun_of_predicate hlong) hrun

theorem longCount_ones {n : Nat} (h : digitLimit < n) :
    LongCount (List.replicate n '1' ++ ['\n']) := by
  have hone : isDigit '1' = true := by decide
  have hdec : isDecimal (List.replicate n '1') = true := by
    have hpos : n ≠ 0 := Nat.ne_of_gt (Nat.zero_lt_of_lt h)
    simp [isDecimal, hone, hpos]
  have hline : Line (List.replicate n '1' ++ ['\n']) ([] ++ List.replicate n '1' ++ []) [] := by
    rw [List.nil_append, List.append_nil]
    exact .ended (by simp) []
  have hblank : Blanks [] := by simp [Blanks]
  exact ⟨List.replicate n '1', [], ⟨[], [], hblank, hblank, hdec, hline⟩, by simpa using h⟩

/-- A name of 4301 digits is refused, and not as badly formed. -/
theorem not_format_of_long_name :
    ∃ f, decode (RankOne.readSystem ⟨97, by decide⟩) none (List.replicate 4301 '1' ++ ['\n']) =
      .error f ∧ f.told.kind = .value := by
  have hlong : LongPredicate ⟨97, by decide⟩ (List.replicate 4301 '1' ++ ['\n']) :=
    Or.inl (Or.inl (longCount_ones (by decide)))
  cases parses_read ⟨97, by decide⟩ none (List.replicate 4301 '1' ++ ['\n']) with
  | accepted p rest _ _ hB => exact absurd hlong hB
  | overlong digits source h => exact ⟨_, congrArg Prod.fst h, rfl⟩
  | refused e source _ _ _ hB => exact absurd hlong hB

end Predicate

end ProofCarrying
