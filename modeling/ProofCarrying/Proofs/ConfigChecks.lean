import ProofCarrying.Proofs.ConfigKeys

/-! A configuration is turned into a predicate exactly if it passes a list of checks. The predicate
then has the values of the configuration. Otherwise the first check that fails decides what is
told. -/

namespace ProofCarrying

namespace Shape

open Config

def value? (s : Section) (name : String) : Option Datum :=
  Datum.lookup (key name) s.entries

/-- The items of the list or the tuple of incoming lengths. -/
def slotItems? (s : Section) : Option (List Datum) :=
  (value? s "incoming_message_payload_lengths").bind fun d =>
    match d.resolve s.store with
    | .list items => some items
    | .tuple items => some items
    | _ => none

def slotItems (s : Section) : List Datum :=
  (slotItems? s).getD []

inductive Check
  | known
  | present
  | listed
  | slot (i : Nat)
  | hint
  | whole (name : String)
  | arity
  | field

/-- All checks of a configuration in their order. -/
def checks (s : Section) : List Check :=
  [.known, .present, .listed] ++ (List.range (slotItems s).length).map .slot ++
    [.hint, .whole "name", .whole "type", .whole "outgoing_message_payload_length",
      .whole "max_arity", .whole "local_data_length", .whole "witness_length", .arity, .field]

/-- When a configuration passes a check. What is not there passes the checks on values. -/
def Passes (s : Section) (given? : Option ScalarField) : Check → Prop
  | .known => Known (requiredKeys ++ optionalKeys) s.entries
  | .present => Present requiredKeys s.entries
  | .listed => (slotItems? s).isSome
  | .slot i => ∀ d, (slotItems s)[i]? = some d → IsWhole d
  | .hint => ∀ d, value? s "relies_on_same_type_inputs" = some d → ∃ b, d = .boolean b
  | .whole name => ∀ d, value? s name = some d → IsWhole d
  | .arity => ∀ d, value? s "max_arity" = some d → d = .integer (slotItems s).length
  | .field => given?.isSome

/-- What is told of a check that fails. -/
inductive Tells (s : Section) : Check → Fault → Prop
  | known {f : Fault} (h : TellsUnknown "predicate" (requiredKeys ++ optionalKeys) s.entries f) :
    Tells s .known f
  | present {f : Fault} (h : TellsMissing "predicate" requiredKeys s.entries f) :
    Tells s .present f
  | listed : Tells s .listed .lengthsNotList
  | slot {i : Nat} {d : Datum} {f : Fault} (hd : (slotItems s)[i]? = some d)
    (h : TellsNotWhole s.store s!"predicate.incoming_message_payload_lengths[{i}]" d f) :
    Tells s (.slot i) f
  | hint : Tells s .hint .reliesNotBoolean
  | whole {name : String} {d : Datum} {f : Fault} (hd : value? s name = some d)
    (h : TellsNotWhole s.store s!"predicate.{name}" d f) : Tells s (.whole name) f
  | arity {n : Nat} (hn : value? s "max_arity" = some (.integer n)) :
    Tells s .arity (.slotCount (slotItems s).length n)
  | field : Tells s .field .fieldRequired

variable {s : Section} {given? : Option ScalarField}

theorem Tells.kind_of_ne {c : Check} {f : Fault} (h : Tells s c f) (hc : c ≠ .arity) :
    f.kind = .value := by
  cases h with
  | known h => cases h <;> rfl
  | present h => cases h; rfl
  | slot _ h => cases h <;> rfl
  | whole _ h => cases h <;> rfl
  | listed | hint | field => rfl
  | arity => exact absurd rfl hc

/-- The outcome of a part of the construction: all its checks are passed, or one fails of which
those before it are passed. -/
inductive Runs (s : Section) (given? : Option ScalarField) {α : Type} (cs : List Check)
    (P : α → Prop) : Except Fault α → Prop
  | passed {a : α} (h : P a) (hp : ∀ c ∈ cs, Passes s given? c) : Runs s given? cs P (.ok a)
  | failed {f : Fault} (before : List Check) (c : Check) (after : List Check)
    (hcs : cs = before ++ c :: after) (hb : ∀ b ∈ before, Passes s given? b)
    (hc : ¬ Passes s given? c) (ht : Tells s c f) : Runs s given? cs P (.error f)

namespace Runs

variable {α β : Type} {cs ds : List Check} {P : α → Prop} {Q : β → Prop} {r : Except Fault α}

theorem bind {g : α → Except Fault β} (hr : Runs s given? cs P r)
    (hg : ∀ a, P a → Runs s given? ds Q (g a)) : Runs s given? (cs ++ ds) Q (r >>= g) := by
  cases hr with
  | failed before c after hcs hb hc ht =>
    exact .failed before c (after ++ ds) (by simp [hcs]) hb hc ht
  | @passed a h hp =>
    have ha := hg a h
    have he : Except.ok a >>= g = g a := rfl
    rw [he]
    generalize g a = r at ha
    cases ha with
    | passed h hq => exact .passed h (List.forall_mem_append.mpr ⟨hp, hq⟩)
    | failed before c after hcs hb hc ht =>
      exact .failed (cs ++ before) c after (by simp [hcs]) (List.forall_mem_append.mpr ⟨hp, hb⟩)
        hc ht

/-- The last of several parts, after which only a value is put together. -/
theorem map {g : α → β} (hr : Runs s given? cs P r) (hg : ∀ a, P a → Q (g a)) :
    Runs s given? cs Q (do let a ← r; return g a) := by
  cases hr with
  | passed h hp => exact .passed (hg _ h) hp
  | failed before c after hcs hb hc ht => exact .failed before c after hcs hb hc ht

theorem mono {R : α → Prop} (hr : Runs s given? cs P r) (h : ∀ a, P a → R a) :
    Runs s given? cs R r := by
  cases hr with
  | passed ha hp => exact .passed (h _ ha) hp
  | failed before c after hcs hb hc ht => exact .failed before c after hcs hb hc ht

theorem ok_iff (hr : Runs s given? cs P r) :
    (∃ a, r = .ok a) ↔ ∀ c ∈ cs, Passes s given? c := by
  cases hr with
  | passed h hp => exact ⟨fun _ => hp, fun _ => ⟨_, rfl⟩⟩
  | failed before c after hcs hb hc ht =>
    refine ⟨fun ⟨_, h⟩ => (nomatch h), fun h => absurd (h c ?_) hc⟩
    rw [hcs]
    exact List.mem_append_cons_self

theorem of_ok {a : α} (hr : Runs s given? cs P (.ok a)) : P a ∧ ∀ c ∈ cs, Passes s given? c := by
  cases hr with
  | passed h hp => exact ⟨h, hp⟩

theorem first_failure (hr : Runs s given? cs P r) (h : ¬ ∃ a, r = .ok a) :
    ∃ before c after f, cs = before ++ c :: after ∧ (∀ b ∈ before, Passes s given? b) ∧
      ¬ Passes s given? c ∧ r = .error f ∧ Tells s c f := by
  cases hr with
  | passed => exact absurd ⟨_, rfl⟩ h
  | failed before c after hcs hb hc ht => exact ⟨before, c, after, _, hcs, hb, hc, rfl, ht⟩

theorem one {c : Check} (h : Passes s given? c ∧ (∃ a, r = .ok a ∧ P a) ∨
    ¬ Passes s given? c ∧ ∃ f, Tells s c f ∧ r = .error f) : Runs s given? [c] P r := by
  rcases h with ⟨hc, a, rfl, ha⟩ | ⟨hc, f, ht, rfl⟩
  · exact .passed ha (by simpa using hc)
  · exact .failed [] c [] rfl (by simp) hc ht

end Runs

theorem runs_known : Runs s given? [.known] (fun _ => True)
    (checkAllowed "predicate" (requiredKeys ++ optionalKeys) s.entries) := by
  have hkeys : ∀ k ∈ requiredKeys ++ optionalKeys, k.plain.isSome := by decide
  apply Runs.one
  rcases checkAllowed_cases (m := s.entries) "predicate" hkeys with ⟨h, he⟩ | ⟨h, f, hf, he⟩
  · exact Or.inl ⟨h, (), he, trivial⟩
  · exact Or.inr ⟨h, f, .known hf, he⟩

theorem runs_present : Runs s given? [.present] (fun _ => Present requiredKeys s.entries)
    (checkRequired "predicate" requiredKeys s.entries) := by
  have hkeys : ∀ k ∈ requiredKeys, k.isKey = true ∧ k.plain.isSome := by decide
  apply Runs.one
  rcases checkRequired_cases (m := s.entries) "predicate" hkeys with ⟨h, he⟩ | ⟨h, f, hf, he⟩
  · exact Or.inl ⟨h, (), he, h⟩
  · exact Or.inr ⟨h, f, .present hf, he⟩

theorem runs_wholeNumber {c : Check} {place : String} {d : Datum}
    (hp : Passes s given? c ↔ IsWhole d) (ht : ∀ f, TellsNotWhole s.store place d f → Tells s c f) :
    Runs s given? [c] (fun n => d = .integer n ∧ 0 ≤ n) (wholeNumber s.store place d) := by
  apply Runs.one
  rw [hp]
  rcases wholeNumber_cases s.store place d with ⟨n, rfl, he⟩ | ⟨hn, f, hf, he⟩
  · exact Or.inl ⟨⟨n, rfl⟩, n, he, rfl, Int.natCast_nonneg n⟩
  · exact Or.inr ⟨hn, f, ht f hf, he⟩

theorem runs_whole {name : String} {d : Datum} (hd : value? s name = some d) :
    Runs s given? [.whole name] (fun n => value? s name = some (.integer n) ∧ 0 ≤ n)
      (wholeNumber s.store s!"predicate.{name}" d) := by
  have hp : Passes s given? (.whole name) ↔ IsWhole d := by simp [Passes, hd]
  refine (runs_wholeNumber hp fun f hf => .whole hd hf).mono fun n hn => ?_
  rw [hd, hn.1]
  exact ⟨rfl, hn.2⟩

theorem runs_number {name : String} (h : (value? s name).isSome) :
    Runs s given? [.whole name] (fun n => value? s name = some (.integer n) ∧ 0 ≤ n)
      (number s name) := by
  obtain ⟨d, hd⟩ := Option.isSome_iff_exists.mp h
  have he : entry s name = d := by rw [entry, ← value?, hd, Option.getD_some]
  rw [number, he]
  exact runs_whole hd

theorem runs_maxArity (slots : Nat) :
    Runs s given? [.whole "max_arity"] (fun n => 0 ≤ n ∧
      (value? s "max_arity" = some (.integer n) ∨ value? s "max_arity" = none ∧ n = slots))
      (maxArityOf s slots) := by
  rw [maxArityOf, ← value?]
  cases hv : value? s "max_arity" with
  | none =>
    have hn := Int.natCast_nonneg slots
    refine Runs.one (Or.inl ⟨by simp [Passes, hv], slots, ?_, hn, Or.inr ⟨rfl, rfl⟩⟩)
    rw [Option.getD_none, wholeNumber, if_pos hn]
  | some d => exact (runs_whole hv).mono fun n h => ⟨h.2, Or.inl (hv.symm.trans h.1)⟩

theorem runs_hint : Runs s given? [.hint] (fun b =>
    value? s "relies_on_same_type_inputs" = some (.boolean b) ∨
      value? s "relies_on_same_type_inputs" = none ∧ b = false)
    (reliesOf (value? s "relies_on_same_type_inputs")) := by
  apply Runs.one
  generalize hv : value? s "relies_on_same_type_inputs" = v
  fun_cases reliesOf v with
  | case1 => exact Or.inl ⟨by simp [Passes, hv], false, rfl, Or.inr ⟨rfl, rfl⟩⟩
  | case2 b => exact Or.inl ⟨by simp [Passes, hv], b, rfl, Or.inl rfl⟩
  | case3 d hne =>
    refine Or.inr ⟨fun hp => ?_, _, .hint, rfl⟩
    obtain ⟨b, rfl⟩ := hp d hv
    exact hne b rfl

/-- The items from one slot on, each with a check of its own. -/
theorem runs_slots {items : List Datum} {start : Nat}
    (h : ∀ i, (slotItems s)[start + i]? = items[i]?) :
    Runs s given? ((List.range' start items.length).map .slot)
      (fun ls => items = ls.map .integer ∧ ∀ l ∈ ls, 0 ≤ l) (slotLengths s.store start items) := by
  induction items generalizing start with
  | nil => exact .passed (by simp) (by simp)
  | cons d ds ih =>
    have hd : (slotItems s)[start]? = some d := h 0
    have hds : ∀ i, (slotItems s)[start + 1 + i]? = ds[i]? := by
      intro i
      rw [Nat.add_assoc, Nat.add_comm 1]
      exact h (i + 1)
    have hp : Passes s given? (.slot start) ↔ IsWhole d := by simp [Passes, hd]
    have hslot : Runs s given? [.slot start] (fun n => d = .integer n ∧ 0 ≤ n)
        (wholeNumber s.store s!"predicate.incoming_message_payload_lengths[{start}]" d) :=
      runs_wholeNumber hp fun f hf => .slot hd hf
    refine hslot.bind fun n hn => (ih hds).map fun ns hns => ?_
    rw [List.map_cons, ← hn.1, ← hns.1]
    exact ⟨rfl, List.forall_mem_cons.mpr ⟨hn.2, hns.2⟩⟩

theorem incomingOf_cases {d : Datum}
    (hd : value? s "incoming_message_payload_lengths" = some d) :
    (∃ items, slotItems? s = some items ∧
      incomingOf s.store d = slotLengths s.store 0 items) ∨
    slotItems? s = none ∧ incomingOf s.store d = .error .lengthsNotList := by
  rw [slotItems?, hd, Option.bind_some]
  fun_cases incomingOf s.store d with
  | case1 items hr => exact Or.inl ⟨items, by rw [hr], rfl⟩
  | case2 items hr => exact Or.inl ⟨items, by rw [hr], rfl⟩
  | case3 hlist htuple =>
    refine Or.inr ⟨?_, rfl⟩
    split
    next items hr => exact absurd hr (hlist items)
    next items hr => exact absurd hr (htuple items)
    next => rfl

theorem runs_incoming (h : (value? s "incoming_message_payload_lengths").isSome) :
    Runs s given? ([.listed] ++ (List.range (slotItems s).length).map .slot)
      (fun ls => slotItems? s = some (ls.map .integer) ∧ ∀ l ∈ ls, 0 ≤ l)
      (incomingOf s.store (entry s "incoming_message_payload_lengths")) := by
  obtain ⟨d, hd⟩ := Option.isSome_iff_exists.mp h
  have he : entry s "incoming_message_payload_lengths" = d := by
    rw [entry, ← value?, hd, Option.getD_some]
  rw [he]
  rcases incomingOf_cases hd with ⟨items, hi, hrun⟩ | ⟨hn, hrun⟩
  · have hitems : slotItems s = items := by rw [slotItems, hi, Option.getD_some]
    have hlisted : Runs s given? [.listed] (fun _ => True) (.ok ()) :=
      .passed trivial (by simp [Passes, hi])
    have hslots : ∀ i, (slotItems s)[0 + i]? = items[i]? := by simp [hitems]
    rw [hrun, hi, hitems, List.range_eq_range']
    refine hlisted.bind fun _ _ => (runs_slots hslots).mono fun ls hls => ?_
    exact ⟨congrArg some hls.1, hls.2⟩
  · rw [hrun]
    exact .failed [] .listed _ rfl (by simp) (by simp [Passes, hn]) .listed

/-- A shape and a hint on types that have the values of a configuration. -/
structure Describes (s : Section) (x : Shape) (relies : Bool) : Prop where
  name : value? s "name" = some (.integer x.name)
  type : value? s "type" = some (.integer x.type)
  outgoing : value? s "outgoing_message_payload_length" = some (.integer x.outgoing)
  maxArity : value? s "max_arity" = some (.integer x.maxArity) ∨
    value? s "max_arity" = none ∧ x.maxArity = x.incoming.length
  incoming : slotItems? s = some (x.incoming.map .integer)
  localData : value? s "local_data_length" = some (.integer x.localData)
  witness : value? s "witness_length" = some (.integer x.witness)
  relies : value? s "relies_on_same_type_inputs" = some (.boolean relies) ∨
    value? s "relies_on_same_type_inputs" = none ∧ relies = false

theorem Describes.present {x : Shape} {relies : Bool} (h : Describes s x relies) :
    Present requiredKeys s.entries := by
  have hsome : ∀ {name : String} {d : Datum}, value? s name = some d →
      (Datum.lookup (key name) s.entries).isSome := by
    intro name d hv
    rw [← value?, hv]
    rfl
  obtain ⟨d, hslots, -⟩ := Option.bind_eq_some_iff.mp h.incoming
  intro k hk
  simp only [requiredKeys, List.mem_cons, List.not_mem_nil, or_false] at hk
  rcases hk with rfl | rfl | rfl | rfl | rfl | rfl
  · exact hsome h.name
  · exact hsome h.type
  · exact hsome h.outgoing
  · exact hsome hslots
  · exact hsome h.localData
  · exact hsome h.witness

theorem isWhole_integer {n : Int} (h : 0 ≤ n) : IsWhole (.integer n) := by
  obtain ⟨k, rfl⟩ := Int.eq_ofNat_of_zero_le h
  exact ⟨k, rfl⟩

theorem passes_whole {name : String} {n : Int} (hv : value? s name = some (.integer n))
    (hn : 0 ≤ n) : Passes s given? (.whole name) := by
  intro d hd
  rw [← Option.some.inj (hv.symm.trans hd)]
  exact isWhole_integer hn

/-- Nothing of the shape is negative, but there may be too few or too many incoming lengths. -/
structure Drafted (s : Section) (x : Shape) (relies : Bool) : Prop where
  describes : Describes s x relies
  maxArity_nonneg : 0 ≤ x.maxArity
  admissible : { x with maxArity := x.incoming.length }.Admissible

namespace Drafted

variable {x : Shape} {relies : Bool}

theorem of_admissible (hd : Describes s x relies) (h : x.Admissible) : Drafted s x relies := by
  obtain ⟨hl, h⟩ := h
  exact ⟨hd, hl ▸ Int.natCast_nonneg _, rfl, h⟩

theorem admissible_of_length (h : Drafted s x relies)
    (hl : (x.incoming.length : Int) = x.maxArity) : x.Admissible :=
  ⟨hl, h.admissible.2⟩

theorem length_slotItems (h : Drafted s x relies) : (slotItems s).length = x.incoming.length := by
  rw [slotItems, h.describes.incoming, Option.getD_some, List.length_map]

theorem passes_arity_iff (h : Drafted s x relies) :
    Passes s given? .arity ↔ (x.incoming.length : Int) = x.maxArity := by
  rw [Passes, h.length_slotItems]
  rcases h.describes.maxArity with h | ⟨h, he⟩
  · simp [h, eq_comm]
  · simp [h, he]

theorem passes (h : Drafted s x relies) (hk : Known (requiredKeys ++ optionalKeys) s.entries)
    (hg : given?.isSome) : ∀ c ∈ checks s, c ≠ .arity → Passes s given? c := by
  obtain ⟨hd, hm, -, hn, ht, ho, hl, hw, hs⟩ := h
  have hitems : slotItems s = x.incoming.map .integer := by
    rw [slotItems, hd.incoming, Option.getD_some]
  intro c hc hne
  cases c with
  | known => exact hk
  | present => exact hd.present
  | listed => simp [Passes, hd.incoming]
  | slot i =>
    intro d hi
    rw [hitems, List.getElem?_map] at hi
    obtain ⟨l, hl, rfl⟩ := Option.map_eq_some_iff.mp hi
    exact isWhole_integer (hs l (List.mem_of_getElem? hl))
  | hint =>
    intro d hv
    rcases hd.relies with h | ⟨h, -⟩
    · exact ⟨relies, Option.some.inj (hv.symm.trans h)⟩
    · cases hv.symm.trans h
  | whole name =>
    simp only [checks, List.mem_append, List.mem_cons, List.mem_map, reduceCtorEq, and_false,
      exists_false, Check.whole.injEq, List.not_mem_nil, or_false, false_or] at hc
    rcases hc with rfl | rfl | rfl | rfl | rfl | rfl
    · exact passes_whole hd.name hn
    · exact passes_whole hd.type ht
    · exact passes_whole hd.outgoing ho
    · rcases hd.maxArity with h | ⟨h, -⟩
      · exact passes_whole h hm
      · simp [Passes, h]
    · exact passes_whole hd.localData hl
    · exact passes_whole hd.witness hw
  | arity => exact absurd rfl hne
  | field => exact hg

end Drafted

theorem runs_shape : Runs s given? ([.known, .present, .listed] ++
    (List.range (slotItems s).length).map .slot ++
      [.hint, .whole "name", .whole "type", .whole "outgoing_message_payload_length",
        .whole "max_arity", .whole "local_data_length", .whole "witness_length"])
    (fun r => Drafted s r.1 r.2) (ofConfig s) := by
  have h : Runs s given? ([.known] ++ ([.present] ++ (([.listed] ++
      (List.range (slotItems s).length).map .slot) ++ ([.hint] ++ ([.whole "name"] ++
        ([.whole "type"] ++ ([.whole "outgoing_message_payload_length"] ++ ([.whole "max_arity"] ++
          ([.whole "local_data_length"] ++ [.whole "witness_length"])))))))))
      (fun r => Drafted s r.1 r.2) (ofConfig s) := by
    refine runs_known.bind fun _ _ => runs_present.bind fun _ hp => ?_
    have hkey : ∀ name, key name ∈ requiredKeys → (value? s name).isSome :=
      fun name hk => hp (key name) hk
    refine (runs_incoming (hkey _ (by simp [requiredKeys]))).bind fun ls hls =>
      runs_hint.bind fun relies hr => ?_
    refine (runs_number (hkey _ (by simp [requiredKeys]))).bind fun name hn =>
      (runs_number (hkey _ (by simp [requiredKeys]))).bind fun type ht =>
        (runs_number (hkey _ (by simp [requiredKeys]))).bind fun outgoing ho =>
          (runs_maxArity ls.length).bind fun maxArity hm =>
            (runs_number (hkey _ (by simp [requiredKeys]))).bind fun localData hd =>
              (runs_number (hkey _ (by simp [requiredKeys]))).map fun witness hw => ?_
    exact ⟨⟨hn.1, ht.1, ho.1, hm.2, hls.1, hd.1, hw.1, hr⟩, hm.1, rfl, hn.2, ht.2, ho.2, hd.2,
      hw.2, hls.2⟩
  simpa using h

end Shape

namespace Predicate

open Config Shape

variable {κ : Type} [ConstraintSystem κ] {s : Section}

/-- A predicate that has all values of a configuration. -/
structure Carries (s : Section) (system : κ) (given? : Option ScalarField) (p : Predicate κ) :
    Prop where
  describes : Describes s p.shape p.reliesOnSameType
  admissible : p.shape.Admissible
  system : p.system = system
  field : given? = some p.field

theorem runs_ofShape {x : Shape} {relies : Bool} (hx : Drafted s x relies) (system : κ)
    (field? : Option ScalarField) :
    Runs s (field?.or (ConstraintSystem.field? system)) [.arity, .field]
      (Carries s system (field?.or (ConstraintSystem.field? system)))
      (ofShape x system relies field?) := by
  have hp : Passes s (field?.or (ConstraintSystem.field? system)) .arity ↔
      (x.incoming.length : Int) = x.maxArity := hx.passes_arity_iff
  by_cases ha : (x.incoming.length : Int) = x.maxArity
  · have hadm := hx.admissible_of_length ha
    generalize hg : field?.or (ConstraintSystem.field? system) = given? at hp ⊢
    have harity := hp.mpr ha
    cases given? with
    | some field =>
      have hok : ofShape x system relies field? = .ok ⟨x, system, relies, field⟩ :=
        ofShape_eq_ok_iff.mpr ⟨hadm, rfl, rfl, rfl, hg⟩
      have hfield : Passes s (some field) .field := rfl
      rw [hok]
      exact .passed ⟨hx.describes, hadm, rfl, rfl⟩ (by simp [harity, hfield])
    | none =>
      rw [ofShape, fault?_eq_none_iff.mpr hadm, hg]
      exact .failed [.arity] .field [] rfl (by simpa using harity) (by simp [Passes]) .field
  · obtain ⟨n, hn⟩ := Int.eq_ofNat_of_zero_le hx.maxArity_nonneg
    have hm : value? s "max_arity" = some (.integer n) := by
      rcases hx.describes.maxArity with h | ⟨-, he⟩
      · rw [h, hn]
      · exact absurd he.symm ha
    have hf : x.fault? = some (.slotCount (slotItems s).length n) := by
      rw [fault?, if_pos ha, hx.length_slotItems, hn]
    rw [ofShape, hf]
    exact .failed [] .arity [.field] rfl (by simp) (fun h => ha (hp.mp h)) (.arity hm)

theorem runs_ofConfig (s : Section) (system : κ) (field? : Option ScalarField) :
    Runs s (field?.or (ConstraintSystem.field? system)) (checks s)
      (Carries s system (field?.or (ConstraintSystem.field? system)))
      (ofConfig s system field?) := by
  have h : Runs s (field?.or (ConstraintSystem.field? system)) _ _ (ofConfig s system field?) :=
    runs_shape.bind fun _ hx => runs_ofShape hx system field?
  simpa [checks] using h

/-- A configuration gives a predicate exactly if it passes all checks, and the predicate then has
its values. Otherwise the first check that fails decides what is told: a mismatch of shapes if it is
that of the number of slots, unless the given number has too many digits. -/
theorem ofConfig_checks (s : Section) (system : κ) (field? : Option ScalarField) :
    ((∃ p, ofConfig s system field? = .ok p) ↔
      ∀ c ∈ checks s, Passes s (field?.or (ConstraintSystem.field? system)) c) ∧
    (∀ p, ofConfig s system field? = .ok p →
      Carries s system (field?.or (ConstraintSystem.field? system)) p) ∧
    ((¬ ∃ p, ofConfig s system field? = .ok p) →
      ∃ before c after f, checks s = before ++ c :: after ∧
        (∀ b ∈ before, Passes s (field?.or (ConstraintSystem.field? system)) b) ∧
        ¬ Passes s (field?.or (ConstraintSystem.field? system)) c ∧
        ofConfig s system field? = .error f ∧ Tells s c f ∧
        (f.told.kind = .shape ∧
            (∃ n : Nat, c = .arity ∧ value? s "max_arity" = some (.integer n) ∧
              Text.isWritable n = true) ∨
          f.told.kind = .value ∧
            (c = .arity → ∃ n : Nat, value? s "max_arity" = some (.integer n) ∧
              Text.isWritable n = false))) := by
  have hr := runs_ofConfig s system field?
  refine ⟨hr.ok_iff, fun p hp => ?_, fun hn => ?_⟩
  · rw [hp] at hr
    exact hr.of_ok.1
  · obtain ⟨before, c, after, f, hcs, hb, hc, he, ht⟩ := hr.first_failure hn
    refine ⟨before, c, after, f, hcs, hb, hc, he, ht, ?_⟩
    by_cases ha : c = .arity
    · subst ha
      cases ht with
      | @arity n hm =>
        have hkind : (Fault.slotCount (slotItems s).length n).kind ≠ .value := by simp [Fault.kind]
        rcases Fault.told_cases hkind with ⟨hw, ht⟩ | ⟨hw, ht⟩
        · have hn : Text.isWritable n = true := hw n (by simp [Fault.numbers])
          exact Or.inl ⟨by rw [ht]; rfl, n, rfl, hm, hn⟩
        · have hn : Text.isWritable n = false := by simpa [Fault.numbers] using hw
          exact Or.inr ⟨by rw [ht]; rfl, fun _ => ⟨n, hm, hn⟩⟩
    · exact Or.inr ⟨Fault.kind_told_of_value (ht.kind_of_ne ha), fun h => absurd h ha⟩

/-- A number of slots that is null is not one left out. -/
example : ofConfig (.ofEntries [(key "name", .integer 1), (key "type", .integer 1),
    (key "outgoing_message_payload_length", .integer 0),
    (key "incoming_message_payload_lengths", .list []), (key "local_data_length", .integer 0),
    (key "witness_length", .integer 0), (key "max_arity", .null)])
      (⟨1, 1, true, none⟩ : Declared) (some ⟨97, by decide⟩) =
    .error (.notWholeNumber "predicate.max_arity" "None".toList) := by
  rfl

/-- Only the number of slots is wrong, and it has 4301 digits: no mismatch of shapes is told. -/
theorem not_told_of_long_maxArity :
    ∃ (s : Section) (system : Declared),
      (∀ c ∈ checks s, c ≠ .arity → Passes s (some ⟨97, by decide⟩) c) ∧
      value? s "max_arity" = some (.integer (Nat.pow 10 Text.digitLimit : Nat)) ∧
      slotItems? s = some [] ∧
      ∃ f, ofConfig s system (some ⟨97, by decide⟩) = .error f ∧ f.told.kind = .value := by
  obtain ⟨n, hn, hpos, hw⟩ := Text.exists_pow_digitLimit
  rw [hn]
  let s : Section := .ofEntries [(key "name", .integer 1), (key "type", .integer 1),
    (key "outgoing_message_payload_length", .integer 0),
    (key "incoming_message_payload_lengths", .list []), (key "local_data_length", .integer 0),
    (key "witness_length", .integer 0), (key "max_arity", .integer n)]
  have hmax : value? s "max_arity" = some (.integer n) := rfl
  have hslots : slotItems? s = some [] := rfl
  have hdraft : Drafted s ⟨1, 1, 0, n, [], 0, 0⟩ false :=
    ⟨⟨rfl, rfl, rfl, Or.inl rfl, rfl, rfl, rfl, Or.inr ⟨rfl, rfl⟩⟩, Int.natCast_nonneg n,
      by simp [Shape.Admissible]⟩
  have hknown : Known (requiredKeys ++ optionalKeys) s.entries :=
    known_of_mem (by simp [s, Section.ofEntries, requiredKeys, optionalKeys])
  have hothers : ∀ c ∈ checks s, c ≠ .arity → Passes s (some ⟨97, by decide⟩) c :=
    hdraft.passes hknown rfl
  refine ⟨s, ⟨1, 1, true, none⟩, hothers, hmax, hslots, ?_⟩
  have hr := runs_ofConfig s (⟨1, 1, true, none⟩ : Declared) (some ⟨97, by decide⟩)
  have hall : ¬ ∃ p, ofConfig s (⟨1, 1, true, none⟩ : Declared) (some ⟨97, by decide⟩) = .ok p := by
    rw [hr.ok_iff]
    intro h
    have ha := hdraft.passes_arity_iff.mp (h .arity (by simp [checks]))
    exact Nat.ne_of_lt hpos (Int.natCast_inj.mp ha)
  obtain ⟨before, c, after, f, hcs, -, hc, he, ht⟩ := hr.first_failure hall
  have hca : c = .arity := by
    by_contra hne
    exact hc (hothers c (by rw [hcs]; exact List.mem_append_cons_self) hne)
  subst hca
  refine ⟨f, he, ?_⟩
  cases ht with
  | @arity k hk =>
    obtain rfl : n = k := Int.natCast_inj.mp (by simpa [hmax] using hk)
    simp [Fault.told, Fault.numbers, hw, Fault.kind]

end Predicate

end ProofCarrying
