import ProofCarrying.Proofs.Numerals
import ProofCarrying.Record.Basic
import ProofCarrying.Record.Source

/-! Readers that take exactly the lines of some records from the beginning of a text, whatever
follows them. They compose as the records do. -/

namespace ProofCarrying

/-- Every success has a value of this kind. -/
def Action.Yields {σ α : Type} (p : Action σ α) (R : α → Prop) : Prop :=
  ∀ s a t, p s = (.ok a, t) → R a

namespace Action

variable {σ α β : Type} {p : Action σ α} {f : α → Action σ β} {R : α → Prop} {S : β → Prop}

theorem bind_eq_ok {b : β} {s u : σ} (h : (p >>= f) s = (.ok b, u)) :
    ∃ a t, p s = (.ok a, t) ∧ f a t = (.ok b, u) := by
  rw [bind_apply] at h
  cases hp : p s with
  | mk r t =>
    cases r with
    | error e => simp [hp] at h
    | ok a => exact ⟨a, t, rfl, by simpa [hp] using h⟩

theorem bind_assoc {γ : Type} (p : Action σ α) (f : α → Action σ β) (g : β → Action σ γ) :
    p >>= f >>= g = p >>= fun a => f a >>= g := by
  funext s
  cases hp : p s with
  | mk r t => cases r <;> simp only [bind_apply, hp]

theorem Yields.bind (hp : p.Yields R) (hf : ∀ a, R a → (f a).Yields S) : (p >>= f).Yields S := by
  intro s b u h
  obtain ⟨a, t, ha, hb⟩ := bind_eq_ok h
  exact hf a (hp s a t ha) t b u hb

theorem yields_true (p : Action σ α) : p.Yields fun _ => True :=
  fun _ _ _ _ => trivial

theorem yields_pure {a : α} (h : R a) : (pure a : Action σ α).Yields R := by
  intro s b t he
  cases he
  exact h

theorem yields_fail (e : Fault) : (fail e : Action σ α).Yields R := by
  intro s a t h
  cases h

theorem yields_numbered {p : Nat → Action σ α} (hp : ∀ i, (p i).Yields R) (i n : Nat) :
    (numbered p i n).Yields fun l => ∀ a ∈ l, R a := by
  induction n generalizing i with
  | zero => exact yields_pure (by simp)
  | succ n ih =>
    refine (hp i).bind fun a ha => (ih (i + 1)).bind fun l hl => yields_pure ?_
    exact List.forall_mem_cons.mpr ⟨ha, hl⟩

end Action

namespace Source

open Text

theorem firstLine_append {s : List Char} (h : '\n' ∉ s) (rest : List Char) :
    firstLine (s ++ '\n' :: rest) = s ++ ['\n'] := by
  induction s with
  | nil => rfl
  | cons c cs ih =>
    have hc : c ≠ '\n' := fun he => h (he ▸ List.mem_cons_self)
    rw [List.cons_append, firstLine, if_neg hc, ih fun hm => h (List.mem_cons_of_mem c hm)]
    rfl

theorem afterLine_append {s : List Char} (h : '\n' ∉ s) (rest : List Char) :
    afterLine (s ++ '\n' :: rest) = rest := by
  induction s with
  | nil => rfl
  | cons c cs ih =>
    have hc : c ≠ '\n' := fun he => h (he ▸ List.mem_cons_self)
    rw [List.cons_append, afterLine, if_neg hc, ih fun hm => h (List.mem_cons_of_mem c hm)]

theorem record_line {s : List Char} (hn : '\n' ∉ s) (hs : IsTrimmed s) (label : String)
    (rest : List Char) :
    record label (ofText (s ++ '\n' :: rest)) = (.ok s, ofText rest) := by
  have hl : line (ofText (s ++ '\n' :: rest)) = (.ok (s ++ ['\n']), ofText rest) := by
    simp only [line, ofText, Bool.false_and, firstLine_append hn, afterLine_append hn]
    rfl
  have he : (s ++ ['\n']).isEmpty = false := by simp
  have hr : s.isEmpty = false := by simpa using hs.ne_nil
  simp only [record, Action.bind_apply, hl, he, trim_line hs, hr]
  rfl

end Source

namespace Record

theorem mem_spaced {c : Char} {ws : List (List Char)} (h : c ∈ spaced ws) :
    c = ' ' ∨ ∃ w ∈ ws, c ∈ w := by
  induction ws with
  | nil => simp [spaced] at h
  | cons w ws ih =>
    cases ws with
    | nil =>
      have hw : c ∈ w := by simpa [spaced] using h
      exact Or.inr ⟨w, List.mem_cons_self, hw⟩
    | cons v vs =>
      rw [spaced, List.intercalate_cons_cons, List.mem_append, List.mem_append] at h
      rcases h with (h | h) | h
      · exact Or.inr ⟨w, List.mem_cons_self, h⟩
      · exact Or.inl (List.mem_singleton.mp h)
      · rcases ih h with h | ⟨u, hu, hc⟩
        · exact Or.inl h
        · exact Or.inr ⟨u, List.mem_cons_of_mem w hu, hc⟩

theorem mem_text {c : Char} {r : Record} (h : c ∈ spaced (r.map Text.integerText)) :
    c = ' ' ∨ c = '-' ∨ c.isDigit = true := by
  rcases mem_spaced h with h | ⟨w, hw, hc⟩
  · exact Or.inl h
  · obtain ⟨n, -, rfl⟩ := List.mem_map.mp hw
    exact Or.inr (Text.mem_integerText hc)

theorem newline_not_mem_text (r : Record) : '\n' ∉ spaced (r.map Text.integerText) := by
  intro h
  rcases mem_text h with hc | hc | hc <;> exact absurd hc (by decide)

theorem text_single (n : Nat) :
    spaced ([(n : Int)].map Text.integerText) = Text.naturalText n := by
  simp [spaced, Text.integerText]

theorem text_pair (m n : Nat) : spaced ([(m : Int), (n : Int)].map Text.integerText) =
    Text.naturalText m ++ ' ' :: Text.naturalText n := by
  simp [spaced, Text.integerText, List.intercalate]

end Record

/-- Takes the lines of some records and leaves what follows them. -/
def Takes {α : Type} (p : Action Source α) (rs : List Record) (a : α) : Prop :=
  ∀ rest, p (Source.ofText (Record.render rs ++ rest)) = (.ok a, Source.ofText rest)

namespace Takes

variable {α β : Type} {p : Action Source α} {rs ss : List Record} {a : α}

theorem bind {f : α → Action Source β} {b : β} (hp : Takes p rs a) (hf : Takes (f a) ss b) :
    Takes (p >>= f) (rs ++ ss) b := by
  intro rest
  have hr : Record.render (rs ++ ss) ++ rest =
      Record.render rs ++ (Record.render ss ++ rest) := by
    simp only [Record.render, List.flatMap_append, List.append_assoc]
  rw [hr, Action.bind_apply, hp]
  exact hf rest

theorem finish {f : α → Action Source β} {b : β} (hp : Takes p rs a)
    (hf : ∀ s, f a s = (.ok b, s)) : Takes (p >>= f) rs b := by
  intro rest
  rw [Action.bind_apply, hp]
  exact hf _

theorem map (hp : Takes p rs a) (g : α → β) : Takes (do let x ← p; pure (g x)) rs (g a) :=
  hp.finish fun _ => rfl

theorem numbered {q : Nat → Action Source α} {w : α → List Record} {l : List α}
    (h : ∀ i, ∀ a ∈ l, Takes (q i) (w a) a) (i : Nat) :
    Takes (Action.numbered q i l.length) (l.flatMap w) l := by
  induction l generalizing i with
  | nil => exact fun _ => rfl
  | cons a l ih =>
    have hl := ih (fun j b hb => h j b (by simp [hb])) (i + 1)
    exact (h i a (by simp)).bind (hl.map (a :: ·))

/-- A line is taken by a reader that has a value for what is left of it without the line feed. -/
theorem of_record {label : String} {f : List Char → Action Source α} {r : Record}
    (ht : Text.IsTrimmed (Record.spaced (r.map Text.integerText)))
    (hf : ∀ s, f (Record.spaced (r.map Text.integerText)) s = (.ok a, s)) :
    Takes (Source.record label >>= f) [r] a := by
  intro rest
  have hr : Record.render [r] ++ rest =
      Record.spaced (r.map Text.integerText) ++ '\n' :: rest := by
    simp [Record.render, Record.line]
  rw [hr, Action.bind_apply, Source.record_line (Record.newline_not_mem_text r) ht]
  exact hf _

theorem number {n : Nat} (h : Text.isWritable n = true) (label : String) :
    Takes (Source.number label) [[(n : Int)]] n := by
  apply of_record
  · rw [Record.text_single]
    exact (Text.isWord_naturalText n).isTrimmed
  · intro s
    rw [Record.text_single, if_pos (Text.isDecimal_naturalText n),
      if_pos (Text.length_naturalText_le_digitLimit.mpr h), Text.digitsValue_naturalText]
    rfl

end Takes

end ProofCarrying
