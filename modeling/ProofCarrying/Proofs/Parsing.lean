import ProofCarrying.Proofs.Lines

/-! Readers and the texts that they accept. A reader that is put together from others accepts the
texts that are put together from theirs. It refuses a text at the first of its lines that does not
fit, and only a number of too many digits is refused other than as badly formed. -/

namespace ProofCarrying

open Text

/-- Items one after another, each of which begins where the one before it ends. -/
def Row {α : Type} (G : List Char → α → List Char → Prop) :
    List Char → List α → List Char → Prop
  | s, [], u => s = u
  | s, a :: as, u => ∃ t, G s a t ∧ Row G t as u

/-- Fewer than `n` items come before one that is broken. -/
def Breaks {α : Type} (G : List Char → α → List Char → Prop) (B : List Char → Prop) :
    Nat → List Char → Prop
  | 0, _ => False
  | n + 1, s => B s ∨ ∃ a t, G s a t ∧ Breaks G B n t

/-- A result is the only one that `G` allows, or there is none: then `B` tells whether it is a
number of too many digits that stands in the way. -/
inductive Judged {α : Type} (r : Except Fault α × Source) (G : α → List Char → Prop)
    (B : Prop) : Prop
  | accepted (a : α) (rest : List Char) (h : r = (.ok a, .ofText rest))
    (hG : ∀ b t, G b t ↔ b = a ∧ t = rest) (hB : ¬ B)
  | overlong (digits : Nat) (source : Source) (h : r = (.error (.longNumeral digits), source))
    (hG : ∀ b t, ¬ G b t) (hB : B)
  | refused (e : Fault) (source : Source) (h : r = (.error e, source)) (hk : e.kind = .format)
    (hG : ∀ b t, ¬ G b t) (hB : ¬ B)

theorem Judged.congr {α : Type} {r : Except Fault α × Source} {G G' : α → List Char → Prop}
    {B B' : Prop} (hj : Judged r G B) (hG : ∀ a t, G' a t ↔ G a t) (hB : B' ↔ B) :
    Judged r G' B' := by
  have he : G' = G := funext fun a => funext fun t => propext (hG a t)
  rwa [he, propext hB]

/-- A reader that accepts what `G` describes and refuses everything else. -/
def Parses {α : Type} (p : Action Source α) (G : List Char → α → List Char → Prop)
    (B : List Char → Prop) : Prop :=
  ∀ s, Judged (p (.ofText s)) (G s) (B s)

namespace Parses

variable {α β : Type} {p : Action Source α} {G G' : List Char → α → List Char → Prop}
  {B B' : List Char → Prop}

theorem congr (hp : Parses p G B) (hG : ∀ s a t, G' s a t ↔ G s a t) (hB : ∀ s, B' s ↔ B s) :
    Parses p G' B' :=
  fun s => (hp s).congr (hG s) (hB s)

theorem pure (a : α) : Parses (pure a) (fun s b t => b = a ∧ t = s) (fun _ => False) :=
  fun s => .accepted a s rfl (fun _ _ => Iff.rfl) id

theorem fail {e : Fault} (h : e.kind = .format) :
    Parses (Action.fail e : Action Source α) (fun _ _ _ => False) (fun _ => False) :=
  fun s => .refused e (.ofText s) rfl h (fun _ _ => id) id

/-- The second reader matters only for what the first accepts. -/
theorem bind_of_accepts {f : α → Action Source β} {H : α → List Char → β → List Char → Prop}
    {C : α → List Char → Prop} (hp : Parses p G B)
    (hf : ∀ s a t, G s a t → Judged (f a (.ofText t)) (H a t) (C a t)) :
    Parses (p >>= f) (fun s b u => ∃ a t, G s a t ∧ H a t b u)
      (fun s => B s ∨ ∃ a t, G s a t ∧ C a t) := by
  intro s
  rw [Action.bind_apply]
  cases hp s with
  | accepted a rest h hG hB =>
    rw [h]
    refine (hf s a rest ((hG a rest).mpr ⟨rfl, rfl⟩)).congr (fun b u => ?_) ?_
    · simp [hG]
    · simp [hG, hB]
  | overlong digits t h hG hB =>
    rw [h]
    exact .overlong digits t rfl (fun b u ⟨a, v, hg, _⟩ => hG a v hg) (Or.inl hB)
  | refused e t h hk hG hB =>
    rw [h]
    refine .refused e t rfl hk (fun b u ⟨a, v, hg, _⟩ => hG a v hg) ?_
    rintro (hb | ⟨a, v, hg, -⟩)
    · exact hB hb
    · exact hG a v hg

theorem bind {f : α → Action Source β} {H : α → List Char → β → List Char → Prop}
    {C : α → List Char → Prop} (hp : Parses p G B) (hf : ∀ a, Parses (f a) (H a) (C a)) :
    Parses (p >>= f) (fun s b u => ∃ a t, G s a t ∧ H a t b u)
      (fun s => B s ∨ ∃ a t, G s a t ∧ C a t) :=
  hp.bind_of_accepts fun _ a t _ => hf a t

theorem numbered {p : Nat → Action Source α} (hp : ∀ i, Parses (p i) G B) (i n : Nat) :
    Parses (Action.numbered p i n) (fun s l t => l.length = n ∧ Row G s l t) (Breaks G B n) := by
  induction n generalizing i with
  | zero =>
    refine (Parses.pure []).congr (fun s l t => ?_) fun s => Iff.rfl
    constructor
    · rintro ⟨hl, hr⟩
      obtain rfl := List.length_eq_zero_iff.mp hl
      exact ⟨rfl, hr.symm⟩
    · rintro ⟨rfl, rfl⟩
      exact ⟨rfl, rfl⟩
  | succ n ih =>
    refine ((hp i).bind fun a => (ih (i + 1)).bind fun l => Parses.pure (a :: l)).congr
      (fun s l t => ?_) fun s => ?_
    · constructor
      · rintro ⟨hl, hr⟩
        cases l with
        | nil => simp at hl
        | cons a l =>
          obtain ⟨u, hg, hr⟩ := hr
          exact ⟨a, u, hg, l, t, ⟨by simpa using hl, hr⟩, rfl, rfl⟩
      · rintro ⟨a, u, hg, l, v, ⟨rfl, hr⟩, rfl, rfl⟩
        exact ⟨rfl, u, hg, hr⟩
    · simp [Breaks]

theorem accepts_iff (hp : Parses p G B) {s : List Char} {a : α} {t : Source} :
    p (.ofText s) = (.ok a, t) ↔ ∃ rest, t = .ofText rest ∧ G s a rest := by
  cases hp s with
  | accepted b u h hG =>
    rw [h]
    constructor
    · rintro ⟨⟩
      exact ⟨u, rfl, (hG a u).mpr ⟨rfl, rfl⟩⟩
    · rintro ⟨rest, rfl, hg⟩
      obtain ⟨rfl, rfl⟩ := (hG a rest).mp hg
      rfl
  | overlong digits u h hG => simp [h, hG]
  | refused e u h hk hG => simp [h, hG]

end Parses

namespace Source

theorem trim_firstLine {s l rest : List Char} (h : Line s l rest) :
    trim (firstLine s) = trim l := by
  obtain ⟨b, hb, he⟩ := h.firstLine_eq
  rw [he, trim_append_blanks hb]

theorem Line.same {s l m t u : List Char} (h : Line s l t) (h' : Line s m u) :
    trim l = trim m ∧ t = u :=
  ⟨(trim_firstLine h).symm.trans (trim_firstLine h'),
    h.afterLine_eq.symm.trans h'.afterLine_eq⟩

theorem record_of_line {s l rest : List Char} (h : Line s l rest) (label : String) :
    record label (ofText s) =
      if trim l = [] then (.error (.emptyRecord label), ofText rest)
      else (.ok (trim l), ofText rest) := by
  have hne : (firstLine s).isEmpty = false := by
    cases s with
    | nil => exact absurd rfl h.ne_nil
    | cons c s =>
      rw [firstLine]
      split <;> rfl
  have hline : line (ofText s) = (.ok (firstLine s), ofText rest) := by
    simp [line, ofText, h.afterLine_eq]
  simp only [record, Action.bind_apply, hline, hne, trim_firstLine h, Bool.false_eq_true,
    if_false]
  by_cases ht : trim l = []
  · rw [if_pos ht, ht]
    rfl
  · have hf : (trim l).isEmpty = false := by simpa using ht
    rw [if_neg ht, hf]
    rfl

theorem parses_record (label : String) :
    Parses (record label) (fun s r rest => ∃ l, Line s l rest ∧ trim l = r ∧ r ≠ [])
      (fun _ => False) := by
  intro s
  by_cases hs : s = []
  · subst hs
    exact .refused _ _ rfl rfl (fun r t ⟨l, hl, _⟩ => hl.ne_nil rfl) id
  · obtain ⟨l, hl⟩ := exists_line hs
    rw [record_of_line hl]
    by_cases ht : trim l = []
    · rw [if_pos ht]
      refine .refused _ _ rfl rfl ?_ id
      rintro r t ⟨m, hm, rfl, hne⟩
      exact hne ((hm.same hl).1.trans ht)
    · rw [if_neg ht]
      refine .accepted _ _ rfl (fun r t => ?_) id
      constructor
      · rintro ⟨m, hm, rfl, -⟩
        exact hm.same hl
      · rintro ⟨rfl, rfl⟩
        exact ⟨l, hl, rfl, ht⟩

/-- A line of digits with blanks around them. -/
def DigitLine (s d rest : List Char) : Prop :=
  ∃ pre post, Blanks pre ∧ Blanks post ∧ isDecimal d = true ∧ Line s (pre ++ d ++ post) rest

def Count (s : List Char) (n : Nat) (rest : List Char) : Prop :=
  ∃ d, DigitLine s d rest ∧ d.length ≤ digitLimit ∧ n = digitsValue d

def LongCount (s : List Char) : Prop :=
  ∃ d rest, DigitLine s d rest ∧ digitLimit < d.length

theorem digitLine_iff {s d rest : List Char} :
    DigitLine s d rest ↔ isDecimal d = true ∧ ∃ l, Line s l rest ∧ trim l = d ∧ d ≠ [] := by
  constructor
  · rintro ⟨pre, post, hpre, hpost, hd, hl⟩
    have hw := isWord_of_isDecimal hd
    exact ⟨hd, _, hl, trim_surround hpre hw.isTrimmed hpost, hw.ne_nil⟩
  · rintro ⟨hd, l, hl, rfl, -⟩
    obtain ⟨pre, post, hpre, hpost, he⟩ := exists_trim l
    rw [he] at hl
    exact ⟨pre, post, hpre, hpost, hd, hl⟩

/-- What is read from digits that stand alone, where there may be too many of them. -/
theorem parses_digits {α : Type} (d : List Char) (a : α) :
    Parses (if d.length ≤ digitLimit then pure a else .fail (.longNumeral d.length))
      (fun s b t => d.length ≤ digitLimit ∧ b = a ∧ t = s) (fun _ => digitLimit < d.length) := by
  by_cases h : d.length ≤ digitLimit
  · rw [if_pos h]
    exact (Parses.pure a).congr (fun s b t => by simp [h]) fun s => by simpa using h
  · rw [if_neg h]
    exact fun s => .overlong _ _ rfl (fun b t hb => h hb.1) (Nat.not_le.mp h)

theorem parses_number (label : String) : Parses (number label) Count LongCount := by
  refine ((parses_record label).bind
    (H := fun r s n t => isDecimal r = true ∧ r.length ≤ digitLimit ∧ n = digitsValue r ∧ t = s)
    (C := fun r _ => isDecimal r = true ∧ digitLimit < r.length) fun r => ?_).congr
      (fun s n rest => ?_) fun s => ?_
  · by_cases h : isDecimal r = true
    · rw [if_pos h]
      exact (parses_digits r _).congr (fun s n t => by simp [h]) fun s => by simp [h]
    · rw [if_neg h]
      exact (Parses.fail rfl).congr (fun s n t => by simp [h]) fun s => by simp [h]
  · constructor
    · rintro ⟨d, hd, hlen, rfl⟩
      obtain ⟨hdec, hl⟩ := digitLine_iff.mp hd
      exact ⟨d, rest, hl, hdec, hlen, rfl, rfl⟩
    · rintro ⟨d, t, hl, hdec, hlen, rfl, rfl⟩
      exact ⟨d, digitLine_iff.mpr ⟨hdec, hl⟩, hlen, rfl⟩
  · rw [false_or]
    constructor
    · rintro ⟨d, rest, hd, hlen⟩
      obtain ⟨hdec, hl⟩ := digitLine_iff.mp hd
      exact ⟨d, rest, hl, hdec, hlen⟩
    · rintro ⟨d, rest, hl, hdec, hlen⟩
      exact ⟨d, rest, digitLine_iff.mpr ⟨hdec, hl⟩, hlen⟩

end Source

end ProofCarrying
