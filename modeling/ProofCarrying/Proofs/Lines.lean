import Mathlib.Data.List.TakeWhile
import ProofCarrying.Proofs.Literals
import ProofCarrying.Proofs.RecordReading

/-! Lines of a text and what stands on them between blanks. Trimming a line and splitting it into
words find the runs without blanks that the line is made of, and nothing else. -/

namespace ProofCarrying

namespace Text

def Blanks (s : List Char) : Prop :=
  ∀ c ∈ s, isBlank c = true

theorem blanks_cons {c : Char} {s : List Char} :
    Blanks (c :: s) ↔ isBlank c = true ∧ Blanks s :=
  List.forall_mem_cons

theorem trim_surround {pre s post : List Char} (hpre : Blanks pre) (hs : IsTrimmed s)
    (hpost : Blanks post) : trim (pre ++ s ++ post) = s := by
  have hsuffix := trim_append hs hpost
  rw [trim, trimBy] at hsuffix ⊢
  rwa [List.append_assoc, List.dropWhile_append_of_pos hpre]

theorem exists_trim (s : List Char) :
    ∃ pre post, Blanks pre ∧ Blanks post ∧ s = pre ++ trim s ++ post := by
  have hfront := List.takeWhile_append_dropWhile (p := isBlank) (l := s)
  have hback := List.takeWhile_append_dropWhile (p := isBlank)
    (l := (s.dropWhile isBlank).reverse)
  refine ⟨s.takeWhile isBlank, ((s.dropWhile isBlank).reverse.takeWhile isBlank).reverse,
    fun c => List.mem_takeWhile_imp,
    fun c hc => List.mem_takeWhile_imp (List.mem_reverse.mp hc), ?_⟩
  have hsplit : s.dropWhile isBlank =
      trim s ++ ((s.dropWhile isBlank).reverse.takeWhile isBlank).reverse := by
    rw [trim, trimBy, ← List.reverse_append, hback, List.reverse_reverse]
  rw [List.append_assoc, ← hsplit, hfront]

theorem trim_append_blanks {b : List Char} (hb : Blanks b) (s : List Char) :
    trim (s ++ b) = trim s := by
  have hrev : Blanks b.reverse := fun c hc => hb c (List.mem_reverse.mp hc)
  rw [trim, trimBy, trimBy, List.dropWhile_append]
  split
  next h =>
    have hb0 : b.dropWhile isBlank = [] := List.dropWhile_eq_nil_iff.mpr hb
    rw [hb0, List.isEmpty_iff.mp h]
  next => rw [List.reverse_append, List.dropWhile_append_of_pos hrev]

theorem words_cons_blank {c : Char} (hc : isBlank c = true) (s : List Char) :
    words (c :: s) = words s := by
  rw [words, if_pos hc]

theorem words_blanks_append {b : List Char} (hb : Blanks b) (s : List Char) :
    words (b ++ s) = words s := by
  induction b with
  | nil => rfl
  | cons c b ih =>
    obtain ⟨hc, hb⟩ := blanks_cons.mp hb
    rw [List.cons_append, words_cons_blank hc, ih hb]

theorem words_blanks {b : List Char} (hb : Blanks b) : words b = [] := by
  have h := words_blanks_append hb []
  rwa [List.append_nil] at h

theorem beginsWord_append_blanks {b : List Char} (hb : Blanks b) (s : List Char) :
    beginsWord (s ++ b) = beginsWord s := by
  cases s with
  | cons c s => rfl
  | nil =>
    cases b with
    | nil => rfl
    | cons c b => simp [beginsWord, (blanks_cons.mp hb).1]

theorem words_append_blanks {b : List Char} (hb : Blanks b) (s : List Char) :
    words (s ++ b) = words s := by
  induction s with
  | nil => exact words_blanks hb
  | cons c s ih =>
    rw [List.cons_append, words, words, ih, beginsWord_append_blanks hb]

theorem words_word {w b : List Char} (hw : IsWord w) (hb : Blanks b) : words (w ++ b) = [w] := by
  have h := words_append hw (s := []) rfl
  rw [List.append_nil] at h
  rw [words_append_blanks hb, h]
  rfl

theorem words_trim (s : List Char) : words (trim s) = words s := by
  obtain ⟨pre, post, hpre, hpost, hs⟩ := exists_trim s
  rw [hs, words_append_blanks hpost, words_blanks_append hpre, ← hs]

theorem ne_nil_of_words {s w : List Char} {ws : List (List Char)} (h : words s = w :: ws) :
    s ≠ [] := by
  rintro rfl
  simp [words] at h

theorem beginsWord_of_blanks_append {b s : List Char} (hb : Blanks b) (hne : b ≠ []) :
    beginsWord (b ++ s) = false := by
  cases b with
  | nil => exact absurd rfl hne
  | cons c b => simp [beginsWord, (blanks_cons.mp hb).1]

theorem exists_blanks (s : List Char) : ∃ b t, Blanks b ∧ s = b ++ t ∧
    (t = [] ∨ beginsWord t = true) := by
  induction s with
  | nil => exact ⟨[], [], by simp [Blanks], rfl, Or.inl rfl⟩
  | cons c s ih =>
    by_cases hc : isBlank c = true
    · obtain ⟨b, t, hb, rfl, ht⟩ := ih
      exact ⟨c :: b, t, blanks_cons.mpr ⟨hc, hb⟩, rfl, ht⟩
    · exact ⟨[], c :: s, by simp [Blanks], rfl, Or.inr (by simpa [beginsWord] using hc)⟩

theorem exists_word {s : List Char} (h : beginsWord s = true) :
    ∃ w t, IsWord w ∧ s = w ++ t ∧ beginsWord t = false := by
  induction s with
  | nil => simp [beginsWord] at h
  | cons c s ih =>
    have hc : isBlank c = false := by simpa [beginsWord] using h
    cases hb : beginsWord s with
    | false => exact ⟨[c], s, ⟨by simp, by simpa using hc⟩, rfl, hb⟩
    | true =>
      obtain ⟨w, t, hw, rfl, ht⟩ := ih hb
      exact ⟨c :: w, t, ⟨by simp, List.forall_mem_cons.mpr ⟨hc, hw.not_blank⟩⟩, rfl, ht⟩

theorem words_eq_nil_iff {s : List Char} : words s = [] ↔ Blanks s := by
  refine ⟨fun h => ?_, words_blanks⟩
  obtain ⟨b, t, hb, rfl, rfl | ht⟩ := exists_blanks s
  · rwa [List.append_nil]
  · obtain ⟨w, u, hw, rfl, hu⟩ := exists_word ht
    simp [words_blanks_append hb, words_append hw hu] at h

theorem words_eq_cons_iff {s w : List Char} {ws : List (List Char)} :
    words s = w :: ws ↔ ∃ b t, Blanks b ∧ IsWord w ∧ s = b ++ (w ++ t) ∧
      beginsWord t = false ∧ words t = ws := by
  constructor
  · intro h
    obtain ⟨b, t, hb, rfl, rfl | ht⟩ := exists_blanks s
    · simp [words_blanks hb] at h
    · obtain ⟨v, u, hv, rfl, hu⟩ := exists_word ht
      rw [words_blanks_append hb, words_append hv hu, List.cons.injEq] at h
      obtain ⟨rfl, rfl⟩ := h
      exact ⟨b, u, hb, hv, rfl, hu, rfl⟩
  · rintro ⟨b, t, hb, hw, rfl, ht, rfl⟩
    rw [words_blanks_append hb, words_append hw ht]

theorem words_eq_pair_iff {s v w : List Char} : words s = [v, w] ↔
    ∃ pre gap post, Blanks pre ∧ Blanks gap ∧ gap ≠ [] ∧ Blanks post ∧ IsWord v ∧ IsWord w ∧
      s = pre ++ v ++ gap ++ w ++ post := by
  simp only [words_eq_cons_iff, words_eq_nil_iff]
  constructor
  · rintro ⟨pre, t, hpre, hv, rfl, ht, gap, post, hgap, hw, rfl, -, hpost⟩
    refine ⟨pre, gap, post, hpre, hgap, ?_, hpost, hv, hw, by simp⟩
    rintro rfl
    obtain ⟨c, w, rfl⟩ := List.exists_cons_of_ne_nil hw.ne_nil
    simp [beginsWord, hw.not_blank c] at ht
  · rintro ⟨pre, gap, post, hpre, hgap, hne, hpost, hv, hw, rfl⟩
    refine ⟨pre, gap ++ (w ++ post), hpre, hv, by simp, beginsWord_of_blanks_append hgap hne,
      gap, post, hgap, hw, rfl, ?_, hpost⟩
    exact beginsWord_append_blanks (s := []) hpost

end Text

namespace Source

open Text

/-- The first line of a text without its line feed, and what follows the line. -/
inductive Line : List Char → List Char → List Char → Prop
  | ended {l : List Char} (h : '\n' ∉ l) (rest : List Char) : Line (l ++ '\n' :: rest) l rest
  | last {l : List Char} (h : '\n' ∉ l) (hne : l ≠ []) : Line l l []

theorem exists_line {s : List Char} (h : s ≠ []) : ∃ l, Line s l (afterLine s) := by
  induction s with
  | nil => exact absurd rfl h
  | cons c s ih =>
    by_cases hc : c = '\n'
    · rw [afterLine, if_pos hc, hc]
      exact ⟨[], .ended List.not_mem_nil s⟩
    · rw [afterLine, if_neg hc]
      by_cases hs : s = []
      · subst hs
        exact ⟨[c], .last (by simpa using Ne.symm hc) (by simp)⟩
      · obtain ⟨l, hl⟩ := ih hs
        have hmem : ∀ {l : List Char}, '\n' ∉ l → '\n' ∉ c :: l := by simp [Ne.symm hc]
        generalize afterLine s = rest at hl
        cases hl with
        | ended hn rest => exact ⟨c :: l, .ended (hmem hn) rest⟩
        | last hn => exact ⟨c :: s, .last (hmem hn) (by simp)⟩

theorem firstLine_of_not_mem {s : List Char} (h : '\n' ∉ s) : firstLine s = s := by
  induction s with
  | nil => rfl
  | cons c s ih =>
    simp only [List.mem_cons, not_or] at h
    rw [firstLine, if_neg (Ne.symm h.1), ih h.2]

theorem afterLine_of_not_mem {s : List Char} (h : '\n' ∉ s) : afterLine s = [] := by
  have hs := firstLine_append_afterLine s
  rw [firstLine_of_not_mem h] at hs
  exact List.append_right_eq_self.mp hs

theorem Line.firstLine_eq {s l rest : List Char} (h : Line s l rest) :
    ∃ b, Blanks b ∧ firstLine s = l ++ b := by
  cases h with
  | ended hn rest => exact ⟨['\n'], by simp [Blanks, isBlank], firstLine_append hn rest⟩
  | last hn => exact ⟨[], by simp [Blanks], by rw [firstLine_of_not_mem hn, List.append_nil]⟩

theorem Line.afterLine_eq {s l rest : List Char} (h : Line s l rest) : afterLine s = rest := by
  cases h with
  | ended hn rest => exact afterLine_append hn rest
  | last hn => exact afterLine_of_not_mem hn

theorem Line.ne_nil {s l rest : List Char} (h : Line s l rest) : s ≠ [] := by
  cases h with
  | ended => simp
  | last _ hne => exact hne

theorem Line.length_lt {s l rest : List Char} (h : Line s l rest) : rest.length < s.length := by
  cases h with
  | ended hn rest =>
    rw [List.length_append, List.length_cons]
    omega
  | last hn hne => exact List.length_pos_iff.mpr hne

/-- Induction on the lines of a text. -/
theorem lines_induction {P : List Char → Prop} (hnil : P [])
    (hline : ∀ s l rest, Line s l rest → P rest → P s) (s : List Char) : P s := by
  induction h : s.length using Nat.strongRecOn generalizing s with
  | ind n ih =>
    by_cases hs : s = []
    · rwa [hs]
    · obtain ⟨l, hl⟩ := exists_line hs
      have hlt := hl.length_lt
      exact hline s l _ hl (ih _ (by omega) _ rfl)

end Source

end ProofCarrying
