import ProofCarrying.Predicate.Records
import ProofCarrying.Proofs.Parsing
import ProofCarrying.RankOne.Records

/-! What a reader takes from a stream. A reader that looks at its stream by records only takes
lines from the beginning, and its outcome depends on these lines alone. Predicates are read in
this way, so several of them can stand in one stream. -/

namespace ProofCarrying

/-- Readers that look at their source by records only. -/
inductive Recordwise : {α : Type} → Action Source α → Prop
  | pure {α : Type} (a : α) : Recordwise (pure a : Action Source α)
  | fail {α : Type} (e : Fault) : Recordwise (Action.fail e : Action Source α)
  | record (label : String) : Recordwise (Source.record label)
  | bind {α β : Type} {p : Action Source α} {f : α → Action Source β} (hp : Recordwise p)
    (hf : ∀ a, Recordwise (f a)) : Recordwise (p >>= f)

namespace Recordwise

variable {α : Type}

theorem ofExcept (r : Except Fault α) : Recordwise (Action.ofExcept r : Action Source α) := by
  cases r with
  | ok a => exact .pure a
  | error e => exact .fail e

theorem numbered {q : Nat → Action Source α} (hq : ∀ i, Recordwise (q i)) (i n : Nat) :
    Recordwise (Action.numbered q i n) := by
  induction n generalizing i with
  | zero => exact .pure []
  | succ n ih => exact .bind (hq i) fun a => .bind (ih (i + 1)) fun l => .pure (a :: l)

theorem number (label : String) : Recordwise (Source.number label) := by
  refine .bind (.record label) fun r => ?_
  split
  · split
    · exact .pure _
    · exact .fail _
  · exact .fail _

end Recordwise

theorem RankOne.recordwise_readTerm (F : ScalarField) : Recordwise (readTerm F) := by
  refine .bind (.record _) fun r => ?_
  split
  · split
    · split
      · exact .fail _
      · split
        · exact .pure _
        · exact .fail _
    · exact .fail _
  · exact .fail _

theorem RankOne.recordwise_readCombination (F : ScalarField) : Recordwise (readCombination F) :=
  .bind (.number _) fun n => .numbered (fun _ => recordwise_readTerm F) 0 n

theorem RankOne.recordwise_readConstraint (F : ScalarField) : Recordwise (readConstraint F) := by
  have hl := recordwise_readCombination F
  exact .bind hl fun a => .bind hl fun b => .bind hl fun c => .pure (Constraint.mk a b c)

theorem RankOne.recordwise_readSystem (F : ScalarField) : Recordwise (readSystem F) := by
  have hk := recordwise_readConstraint F
  refine .bind (.number _) fun publicInputs => .bind (.number _) fun total =>
    .bind (.number _) fun n => .bind (.numbered (fun _ => hk) 0 n) fun ks => ?_
  split
  · exact .pure _
  · exact .fail _

theorem Shape.recordwise_read : Recordwise Shape.read :=
  .bind (.number _) fun _ => .bind (.number _) fun _ => .bind (.number _) fun n =>
    .bind (.numbered (fun _ => .number _) 0 n) fun _ => .bind (.number _) fun _ =>
      .bind (.number _) fun _ => .bind (.number _) fun _ => .pure (Shape.mk ..)

theorem Predicate.recordwise_read {κ : Type} [ConstraintSystem κ] {readSystem : Action Source κ}
    (h : Recordwise readSystem) (field? : Option ScalarField) :
    Recordwise (Predicate.read readSystem field?) :=
  .bind Shape.recordwise_read fun _ => .bind h fun _ => .ofExcept _

namespace Source

/-- A row of lines, each of which is ended. -/
def Whole (u : List Char) : Prop :=
  ∀ c ∈ u.getLast?, c = '\n'

theorem whole_nil : Whole [] := by
  simp [Whole]

theorem whole_line (l : List Char) : Whole (l ++ ['\n']) := by
  simp [Whole]

theorem whole_append {u v : List Char} (hu : Whole u) (hv : Whole v) : Whole (u ++ v) := by
  by_cases h : v = []
  · rwa [h, List.append_nil]
  · rwa [Whole, List.getLast?_append_of_ne_nil u h]

theorem whole_of_append {u v : List Char} (hv : v ≠ []) (h : Whole (u ++ v)) : Whole v := by
  rwa [Whole, List.getLast?_append_of_ne_nil u hv] at h

theorem not_whole_of_not_mem {u : List Char} (hne : u ≠ []) (h : '\n' ∉ u) : ¬ Whole u := by
  intro hu
  have hlast := hu _ (List.getLast?_eq_some_getLast hne)
  exact h (hlast ▸ List.getLast_mem hne)

end Source

open Source Text

/-- The outcome is not that a record was looked for where the stream had ended. -/
def Decided {α : Type} (r : Except Fault α) : Prop :=
  ∀ label, r ≠ .error (.streamEnded label)

theorem Decided.error {α β : Type} {e : Fault} (h : Decided (.error e : Except Fault β)) :
    Decided (.error e : Except Fault α) := by
  rintro label ⟨⟩
  exact h label rfl

/-- The outcome `r` comes of the lines `u`, whatever follows them. -/
def Settles {α : Type} (p : Action Source α) (u : List Char) (r : Except Fault α) : Prop :=
  ∀ v, p (ofText (u ++ v)) = (r, ofText v)

theorem Takes.settles {α : Type} {p : Action Source α} {rs : List Record} {a : α}
    (h : Takes p rs a) : Settles p (Record.render rs) (.ok a) :=
  h

/-- A reader that takes the beginning of every text. Of the text it leaves something only behind
ended lines, and ended lines settle its outcome, unless it looked for one more. -/
def Framed {α : Type} (p : Action Source α) : Prop :=
  ∀ s, ∃ r u rest, s = u ++ rest ∧ p (ofText s) = (r, ofText rest) ∧
    (rest ≠ [] → Whole u) ∧ (Whole u → Decided r → Settles p u r)

namespace Framed

variable {α β : Type} {p : Action Source α}

theorem pure (a : α) : Framed (Pure.pure a : Action Source α) :=
  fun s => ⟨.ok a, [], s, rfl, rfl, fun _ => whole_nil, fun _ _ _ => rfl⟩

theorem fail (e : Fault) : Framed (Action.fail e : Action Source α) :=
  fun s => ⟨.error e, [], s, rfl, rfl, fun _ => whole_nil, fun _ _ _ => rfl⟩

theorem record (label : String) : Framed (Source.record label) := by
  intro s
  by_cases hs : s = []
  · subst hs
    exact ⟨.error (.streamEnded label), [], [], rfl, rfl, fun _ => whole_nil,
      fun _ h => absurd rfl (h label)⟩
  · obtain ⟨l, hl⟩ := exists_line hs
    generalize afterLine s = rest at hl
    have hrec : ∀ {t rest}, Line t l rest → Source.record label (ofText t) =
        (if trim l = [] then .error (.emptyRecord label) else .ok (trim l), ofText rest) := by
      intro t rest ht
      rw [record_of_line ht]
      split <;> rfl
    cases hl with
    | ended hn rest =>
      refine ⟨_, l ++ ['\n'], rest, by simp, hrec (.ended hn rest), fun _ => whole_line l, ?_⟩
      intro _ _ v
      rw [List.append_assoc]
      exact hrec (.ended hn v)
    | last hn hne =>
      refine ⟨_, s, [], by simp, hrec (.last hn hne), fun h => absurd rfl h, ?_⟩
      intro hw
      exact absurd hw (not_whole_of_not_mem hne hn)

theorem bind {f : α → Action Source β} (hp : Framed p) (hf : ∀ a, Framed (f a)) :
    Framed (p >>= f) := by
  intro s
  obtain ⟨r, u, rest, hs, hr, hw, hsettle⟩ := hp s
  cases r with
  | error e =>
    refine ⟨.error e, u, rest, hs, by rw [Action.bind_apply, hr], hw, ?_⟩
    intro hu hd v
    rw [Action.bind_apply, hsettle hu hd.error]
  | ok a =>
    obtain ⟨r', u', rest', hs', hr', hw', hsettle'⟩ := hf a rest
    refine ⟨r', u ++ u', rest', by rw [hs, hs', List.append_assoc], ?_, ?_, ?_⟩
    · rw [Action.bind_apply, hr]
      exact hr'
    · intro h
      exact whole_append (hw (by simp [hs', h])) (hw' h)
    · intro h hd v
      have ha : Decided (.ok a : Except Fault α) := by
        rintro label ⟨⟩
      have hparts : Whole u ∧ Whole u' := by
        by_cases hne : u' = []
        · rw [hne, List.append_nil] at h
          exact ⟨h, hne ▸ whole_nil⟩
        · exact ⟨hw (by simp [hs', hne]), whole_of_append hne h⟩
      rw [List.append_assoc, Action.bind_apply, hsettle hparts.1 ha]
      exact hsettle' hparts.2 hd v

end Framed

theorem Recordwise.framed {α : Type} {p : Action Source α} (hp : Recordwise p) : Framed p := by
  induction hp with
  | pure a => exact .pure a
  | fail e => exact .fail e
  | record label => exact .record label
  | bind _ _ ihp ihf => exact .bind ihp ihf

namespace Framed

variable {α : Type} {p : Action Source α}

theorem settles_of_whole (hp : Framed p) {u rest : List Char} {r : Except Fault α}
    (h : p (ofText (u ++ rest)) = (r, ofText rest)) (hu : Whole u) (hd : Decided r) :
    Settles p u r := by
  obtain ⟨r', u', rest', hs, hr, -, hsettle⟩ := hp (u ++ rest)
  rw [h] at hr
  cases hr
  obtain rfl := List.append_cancel_right hs
  exact hsettle hu hd

/-- Fewer lines than those that settle an outcome do not settle any. -/
theorem ended_of_settles (hp : Framed p) {u v : List Char} {r : Except Fault α}
    (h : Settles p (u ++ v) r) (hu : Whole u) (hv : v ≠ []) :
    ∃ label, (p (ofText u)).1 = .error (.streamEnded label) := by
  obtain ⟨r', u', rest, hs, hr, hw, hsettle⟩ := hp u
  by_contra hnone
  have hd : Decided r' := by
    rintro label rfl
    exact hnone ⟨label, by rw [hr]⟩
  have hu' : Whole u' := by
    by_cases hne : rest = []
    · rwa [hs, hne, List.append_nil] at hu
    · exact hw hne
  have hshort : p (ofText (u ++ v)) = (r', ofText (rest ++ v)) := by
    rw [hs, List.append_assoc]
    exact hsettle hu' hd (rest ++ v)
  have hlong : p (ofText (u ++ v)) = (r, ofText []) := by
    have := h []
    rwa [List.append_nil] at this
  have hrest : ofText (rest ++ v) = ofText [] := congrArg Prod.snd (hshort.symm.trans hlong)
  have hnil : rest ++ v = [] := congrArg Source.rest hrest
  exact hv (List.append_eq_nil_iff.mp hnil).2

end Framed

theorem Settles.numbered {α : Type} {p : Action Source α} {l : List (List Char × α)}
    (h : ∀ x ∈ l, Settles p x.1 (.ok x.2)) (i : Nat) :
    Settles (Action.numbered (fun _ => p) i l.length) (l.flatMap (·.1)) (.ok (l.map (·.2))) := by
  induction l generalizing i with
  | nil => exact fun v => rfl
  | cons x l ih =>
    have hl := ih (fun y hy => h y (List.mem_cons_of_mem x hy)) (i + 1)
    intro v
    have hx := h x List.mem_cons_self (l.flatMap (·.1) ++ v)
    rw [List.flatMap_cons, List.append_assoc, List.length_cons, Action.numbered,
      Action.bind_apply, hx]
    simp only [Action.bind_apply, hl v]
    rfl

/-- Texts with the same lines, up to the blanks around them. -/
inductive SameLines : List Char → List Char → Prop
  | nil : SameLines [] []
  | line {s t l m s' t' : List Char} (hs : Line s l s') (ht : Line t m t') (h : trim l = trim m)
    (hrest : SameLines s' t') : SameLines s t

theorem SameLines.of_unended {s : List Char} (h : ¬ Whole s) : SameLines s (s ++ ['\n']) := by
  induction s using lines_induction with
  | hnil => exact absurd whole_nil h
  | hline s l rest hl ih =>
    cases hl with
    | ended hn rest =>
      have hrest : ¬ Whole rest := by
        intro hw
        have hwhole := whole_append (whole_line l) hw
        rw [List.append_assoc] at hwhole
        exact h hwhole
      rw [List.append_assoc]
      exact .line (.ended hn rest) (.ended hn (rest ++ ['\n'])) rfl (ih hrest)
    | last hn hne => exact .line (.last hn hne) (.ended hn []) rfl .nil

theorem Recordwise.same_outcome {α : Type} {p : Action Source α} (hp : Recordwise p)
    {s t : List Char} (h : SameLines s t) : ∃ r s' t', p (ofText s) = (r, ofText s') ∧
      p (ofText t) = (r, ofText t') ∧ SameLines s' t' := by
  induction hp generalizing s t with
  | pure a => exact ⟨.ok a, s, t, rfl, rfl, h⟩
  | fail e => exact ⟨.error e, s, t, rfl, rfl, h⟩
  | record label =>
    cases h with
    | nil => exact ⟨.error (.streamEnded label), [], [], rfl, rfl, .nil⟩
    | @line _ _ l m s' t' hs ht htrim hrest =>
      rw [record_of_line hs, record_of_line ht, htrim]
      split
      · exact ⟨.error (.emptyRecord label), s', t', rfl, rfl, hrest⟩
      · exact ⟨.ok (trim m), s', t', rfl, rfl, hrest⟩
  | bind _ _ ihp ihf =>
    obtain ⟨r, s', t', hs, ht, hrest⟩ := ihp h
    simp only [Action.bind_apply, hs, ht]
    cases r with
    | error e => exact ⟨.error e, s', t', rfl, rfl, hrest⟩
    | ok a => exact ihf a hrest

namespace Predicate

theorem decode_sameLines {F : ScalarField} {field? : Option ScalarField} {s t : List Char}
    (h : SameLines s t) : decode (RankOne.readSystem F) field? s =
      decode (RankOne.readSystem F) field? t := by
  have hp := recordwise_read (RankOne.recordwise_readSystem F) field?
  obtain ⟨r, s', t', hs, ht, -⟩ := hp.same_outcome h
  rw [decode, decode, hs, ht]

/-- Reading a predicate takes the beginning of a text. Where that is ended lines, and no record
was missing, these lines settle the outcome, and no fewer lines would have done. So texts of
predicates that follow one another are read one after another. -/
theorem read_settled_by_lines (F : ScalarField) (field? : Option ScalarField) :
    (∀ text, ∃ r u rest, text = u ++ rest ∧
      read (RankOne.readSystem F) field? (ofText text) = (r, ofText rest) ∧
      (u.getLast? = some '\n' → (∀ label, r ≠ .error (.streamEnded label)) →
        (∀ v, read (RankOne.readSystem F) field? (ofText (u ++ v)) = (r, ofText v)) ∧
        ∀ w x, u = w ++ x → x ≠ [] → Whole w → ∃ label,
          (read (RankOne.readSystem F) field? (ofText w)).1 = .error (.streamEnded label))) ∧
    ∀ (l : List (List Char × Predicate RankOne.System)) (v : List Char),
      (∀ x ∈ l, x.1.getLast? = some '\n' ∧
        read (RankOne.readSystem F) field? (ofText x.1) = (.ok x.2, ofText [])) →
      Action.times l.length (read (RankOne.readSystem F) field?)
        (ofText (l.flatMap (·.1) ++ v)) = (.ok (l.map (·.2)), ofText v) := by
  have hp := (recordwise_read (RankOne.recordwise_readSystem F) field?).framed
  have hwhole : ∀ {u : List Char}, u.getLast? = some '\n' → Whole u := by
    intro u hu c hc
    rw [hu] at hc
    exact (Option.some.inj hc).symm
  refine ⟨fun text => ?_, fun l v hl => ?_⟩
  · obtain ⟨r, u, rest, hs, hr, -, hsettle⟩ := hp text
    refine ⟨r, u, rest, hs, hr, fun hu hd => ?_⟩
    have hset := hsettle (hwhole hu) hd
    refine ⟨hset, fun w x hwx hx hw => ?_⟩
    rw [hwx] at hset
    exact hp.ended_of_settles hset hw hx
  · refine Settles.numbered (fun x hx => ?_) 0 v
    obtain ⟨hlast, hread⟩ := hl x hx
    have hd : Decided (.ok x.2 : Except Fault (Predicate RankOne.System)) := by
      rintro label ⟨⟩
    rw [← List.append_nil x.1] at hread
    exact hp.settles_of_whole hread (hwhole hlast) hd

/-- A predicate twice in one stream with a digit behind it, and a type that is no number. -/
theorem read_settled_by_lines_twice :
    (∃ (text : List Char) (p : Predicate RankOne.System),
      text = ['0', '\n', '1', '\n', '0', '\n', '0', '\n', '0', '\n', '0', '\n', '1', '\n', '2',
        '\n', '0', '\n'] ∧
      Action.times 2 (read (RankOne.readSystem ⟨7, by decide⟩) none)
        (ofText (text ++ (text ++ ['5']))) = (.ok [p, p], ofText ['5'])) ∧
    ∀ v, read (RankOne.readSystem ⟨7, by decide⟩) none (ofText ('0' :: '\n' :: 'x' :: '\n' :: v)) =
      (.error (.notDecimal "type" ['x']), ofText v) := by
  obtain ⟨hone, hrow⟩ := read_settled_by_lines ⟨7, by decide⟩ none
  constructor
  · let p : Predicate RankOne.System := ⟨⟨0, 1, 0, 0, [], 0, 0⟩,
      ⟨⟨7, by decide⟩, 1, 2, [], by decide, by decide, by simp⟩, false, ⟨7, by decide⟩⟩
    obtain ⟨text, htext⟩ : ∃ text : List Char, text = ['0', '\n', '1', '\n', '0', '\n', '0', '\n',
      '0', '\n', '0', '\n', '1', '\n', '2', '\n', '0', '\n'] := ⟨_, rfl⟩
    have hp : text.getLast? = some '\n' ∧
        read (RankOne.readSystem ⟨7, by decide⟩) none (ofText text) = (.ok p, ofText []) := by
      rw [htext]
      exact ⟨rfl, rfl⟩
    have htwice := hrow [(text, p), (text, p)] ['5'] (by simpa using hp)
    rw [List.flatMap_cons, List.flatMap_singleton, List.append_assoc] at htwice
    exact ⟨text, p, htext, htwice⟩
  · obtain ⟨r, u, rest, hs, hr, hsettle⟩ := hone ['0', '\n', 'x', '\n']
    have hread : read (RankOne.readSystem ⟨7, by decide⟩) none (ofText ['0', '\n', 'x', '\n']) =
        (.error (.notDecimal "type" ['x']), ofText []) := rfl
    rw [hread, Prod.mk.injEq] at hr
    obtain ⟨rfl, hrest⟩ := hr
    have hnil : rest = [] := (congrArg Source.rest hrest).symm
    rw [hnil, List.append_nil] at hs
    subst hs
    exact (hsettle rfl (by simp)).1

end Predicate

end ProofCarrying
