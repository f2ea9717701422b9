import ProofCarrying.Proofs.Parsing

/-! Readers of texts that break off. What is left of a row of records is refused as badly formed,
or it is used up with a result that its reader does not know to be wrong. A number that has lost
digits is not zero, so the records that it announces are missed. -/

namespace ProofCarrying

open Source Text Record

/-- A text is refused as badly formed, or it is used up and the result is in `S`. -/
inductive Spent {α : Type} (r : Except Fault α × Source) (S : α → Prop) : Prop
  | refused (e : Fault) (source : Source) (h : r = (.error e, source)) (hk : e.kind = .format)
  | accepted (a : α) (h : r = (.ok a, ofText [])) (hS : S a)

/-- What a reader makes of the lines of some records that break off before `tail`. -/
def Severs {α : Type} (p : Action Source α) (rs : List Record)
    (S : List Char → α → Prop) : Prop :=
  ∀ kept tail, kept ++ tail = render rs → tail ≠ [] → Spent (p (ofText kept)) (S tail)

/-- A reader that cannot do without a record. -/
def Starves {α : Type} (p : Action Source α) : Prop :=
  Spent (p (ofText [])) fun _ => False

section Composition

variable {α β : Type} {p : Action Source α} {f : α → Action Source β} {rs ss : List Record}
  {a : α}

theorem Spent.bind {S : α → Prop} {T : β → Prop} {source : Source} (hp : Spent (p source) S)
    (hf : ∀ a, S a → Spent (f a (ofText [])) T) : Spent ((p >>= f) source) T := by
  rw [Action.bind_apply]
  cases hp with
  | refused e t h hk => exact .refused e t (by rw [h]) hk
  | accepted a h hS =>
    rw [h]
    exact hf a hS

theorem Spent.mono {S T : α → Prop} {r : Except Fault α × Source} (h : Spent r S)
    (hST : ∀ a, S a → T a) : Spent r T := by
  cases h with
  | refused e source h hk => exact .refused e source h hk
  | accepted a h hS => exact .accepted a h (hST a hS)

theorem Starves.spent {S : α → Prop} (h : Starves p) : Spent (p (ofText [])) S :=
  h.mono fun _ => False.elim

theorem Starves.bind (h : Starves p) : Starves (p >>= f) :=
  Spent.bind h fun _ => False.elim

theorem starves_number (label : String) : Starves (number label) :=
  .refused (.streamEnded label) (ofText []) rfl rfl

theorem Starves.numbered {q : Nat → Action Source α} (hq : ∀ i, Starves (q i)) {n : Nat}
    (hn : n ≠ 0) (i : Nat) : Starves (Action.numbered q i n) := by
  cases n with
  | zero => exact absurd rfl hn
  | succ n => exact (hq i).bind

theorem Starves.numbered_bind {q : Nat → Action Source α} {f : List α → Action Source β}
    (hq : ∀ i, Starves (q i)) (hf : ∀ l, Starves (f l)) (i n : Nat) :
    Starves (Action.numbered q i n >>= f) := by
  by_cases hn : n = 0
  · subst hn
    exact hf []
  · exact (Starves.numbered hq hn i).bind

theorem Severs.mono {S T : List Char → α → Prop} (hs : Severs p rs S)
    (hST : ∀ tail a, S tail a → T tail a) : Severs p rs T :=
  fun kept tail h hne => (hs kept tail h hne).mono (hST tail)

theorem Severs.bind {S : List Char → α → Prop} {T : List Char → β → Prop} (hp : Takes p rs a)
    (hs : Severs p rs S) (hf : Severs (f a) ss T)
    (hshort : ∀ tail b, S tail b → Spent (f b (ofText [])) (T (tail ++ render ss))) :
    Severs (p >>= f) (rs ++ ss) T := by
  intro kept tail h hne
  rw [render, List.flatMap_append, ← render, ← render] at h
  rcases List.append_eq_append_iff.mp h with ⟨v, hv, rfl⟩ | ⟨u, rfl, hu⟩
  · by_cases hnil : v = []
    · subst hnil
      rw [List.append_nil] at hv
      have hread := hp []
      rw [List.append_nil, hv] at hread
      rw [Action.bind_apply, hread]
      exact hf [] _ rfl hne
    · exact (hs kept v hv.symm hnil).bind (hshort v)
  · rw [Action.bind_apply, hp]
    exact hf u tail hu.symm hne

theorem Severs.bind_of_starves {S : List Char → α → Prop} {T : List Char → β → Prop}
    (hp : Takes p rs a) (hs : Severs p rs S) (hf : Severs (f a) ss T) (hb : ∀ b, Starves (f b)) :
    Severs (p >>= f) (rs ++ ss) T :=
  hs.bind hp hf fun _ b _ => (hb b).spent

theorem Severs.finish {S : List Char → α → Prop} {T : List Char → β → Prop} (hs : Severs p rs S)
    (hf : ∀ tail b, S tail b → Spent (f b (ofText [])) (T tail)) : Severs (p >>= f) rs T :=
  fun kept tail h hne => (hs kept tail h hne).bind (hf tail)

theorem Severs.numbered {q : Nat → Action Source α} {w : α → List Record}
    {E : α → List Char → Prop} {l : List α} (hp : ∀ i, ∀ a ∈ l, Takes (q i) (w a) a)
    (hs : ∀ i, ∀ a ∈ l, Severs (q i) (w a) fun tail _ => E a tail) (hq : ∀ i, Starves (q i))
    (i : Nat) : Severs (Action.numbered q i l.length) (l.flatMap w)
      fun tail _ => ∃ a ∈ l.getLast?, E a tail := by
  induction l generalizing i with
  | nil =>
    intro kept tail h hne
    exact absurd (List.append_eq_nil_iff.mp h).2 hne
  | cons a l ih =>
    have hpl : ∀ j, ∀ b ∈ l, Takes (q j) (w b) b := fun j b hb => hp j b (by simp [hb])
    have hl := ih hpl (fun j b hb => hs j b (by simp [hb])) (i + 1)
    have hlast : ∀ {tail}, (∃ b ∈ l.getLast?, E b tail) → ∃ b ∈ (a :: l).getLast?, E b tail := by
      rintro tail ⟨b, hb, hE⟩
      have hlast : (a :: l).getLast? = some b := by
        rw [List.getLast?_cons, Option.mem_def.mp hb, Option.getD_some]
      exact ⟨b, hlast, hE⟩
    rw [List.flatMap_cons]
    refine (hs i a (by simp)).bind (hp i a (by simp)) ?_ fun tail b h => ?_
    · exact hl.finish fun tail m h => .accepted (a :: m) rfl (hlast h)
    · by_cases hnil : l = []
      · subst hnil
        exact .accepted [b] rfl ⟨a, rfl, by simpa [render] using h⟩
      · have hn : l.length ≠ 0 := by simpa using hnil
        exact (Starves.numbered hq hn (i + 1)).bind.spent

end Composition

theorem Severs.of_record {α : Type} {label : String} {f : List Char → Action Source α} {r : Record}
    {S : List Char → α → Prop} (hf : ∀ front back, front ≠ [] →
      spaced (r.map integerText) = front ++ back →
        Spent (f (trim front) (ofText [])) (S (back ++ ['\n']))) :
    Severs (record label >>= f) [r] S := by
  intro kept tail h hne
  have hline : kept ++ tail = spaced (r.map integerText) ++ ['\n'] := by
    rw [h]
    simp [render, Record.line]
  obtain ⟨back, c, rfl⟩ := List.eq_nil_or_concat' tail |>.resolve_left hne
  rw [← List.append_assoc] at hline
  obtain ⟨hback, hc⟩ := List.append_inj' hline rfl
  rw [hc]
  by_cases hkept : kept = []
  · subst hkept
    exact .refused (.streamEnded label) (ofText []) rfl rfl
  · have hn : '\n' ∉ kept := by
      intro hmem
      exact newline_not_mem_text r (hback ▸ List.mem_append_left back hmem)
    rw [Action.bind_apply, record_of_line (.last hn hkept)]
    by_cases ht : trim kept = []
    · rw [if_pos ht]
      exact .refused (.emptyRecord label) (ofText []) rfl rfl
    · rw [if_neg ht]
      exact hf kept back hkept hback.symm

/-- What is left of a number is zero only if the number is and has lost its line feed only. -/
theorem severs_number {n : Nat} (hw : isWritable n = true) (label : String) :
    Severs (number label) [[(n : Int)]] fun tail m =>
      n ≠ 0 ∧ m ≠ 0 ∨ n = 0 ∧ m = 0 ∧ tail = ['\n'] := by
  refine .of_record fun front back hne h => ?_
  rw [text_single] at h
  obtain ⟨k, rfl, hk⟩ := exists_naturalText_of_append hne h
  have hle : k ≤ n := by
    rcases hk with ⟨-, rfl⟩ | ⟨-, -, hlt⟩
    · exact le_rfl
    · exact hlt.le
  have hlen := length_naturalText_le_digitLimit.mpr (isWritable_of_le hle hw)
  rw [trim_of_isTrimmed (isWord_naturalText k).isTrimmed, if_pos (isDecimal_naturalText k),
    if_pos hlen, digitsValue_naturalText]
  refine .accepted k rfl ?_
  rcases hk with ⟨rfl, rfl⟩ | ⟨-, h0, hlt⟩
  · by_cases hz : k = 0
    · exact Or.inr ⟨hz, hz, rfl⟩
    · exact Or.inl ⟨hz, hz⟩
  · exact Or.inl ⟨by omega, by omega⟩

theorem Severs.times {α : Type} {p : Action Source α} {w : α → List Record}
    {E : α → List Char → Prop} {l : List α} (hw : isWritable l.length = true)
    (hp : ∀ a ∈ l, Takes p (w a) a) (hs : ∀ a ∈ l, Severs p (w a) fun tail _ => E a tail)
    (hq : Starves p) (label : String) :
    Severs (do let n ← number label; Action.times n p) ([[(l.length : Int)]] ++ l.flatMap w)
      fun tail _ => tail = ['\n'] ∨ ∃ a ∈ l.getLast?, E a tail := by
  refine (severs_number hw label).bind (.number hw label) ?_ fun tail n h => ?_
  · have hrow := Severs.numbered (fun _ => hp) (fun _ => hs) (fun _ => hq) 0
    exact hrow.mono fun tail _ => Or.inr
  · rcases h with ⟨-, hn⟩ | ⟨hl, rfl, rfl⟩
    · exact (Starves.numbered (fun _ => hq) hn 0).spent
    · obtain rfl := List.length_eq_zero_iff.mp hl
      exact .accepted [] rfl (Or.inl rfl)

end ProofCarrying
