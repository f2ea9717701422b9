import ProofCarrying.Proofs.ConfigChecks

/-! The configuration of a predicate gives the predicate back. A configuration that gives a
predicate is that of the predicate, once what it leaves out is filled in. -/

namespace ProofCarrying

namespace Datum

theorem sameKey_text_left {t : Text.CodePoints} {d : Datum} :
    sameKey (text t) d = true ↔ d = text t := by
  cases d with
  | text s => rw [sameKey, beq_iff_eq, text.injEq, eq_comm]
  | _ => simp [sameKey]

theorem sameKey_text_right {t : Text.CodePoints} {d : Datum} :
    sameKey d (text t) = true ↔ d = text t := by
  cases d <;> simp [sameKey]

theorem lookup_cons_of_eq {k d v : Datum} {m : List (Datum × Datum)} (h : sameKey k d = true) :
    lookup d ((k, v) :: m) = some v :=
  if_pos h

theorem lookup_cons_of_ne {k d v : Datum} {m : List (Datum × Datum)} (h : ¬ sameKey k d = true) :
    lookup d ((k, v) :: m) = lookup d m :=
  if_neg h

theorem lookup_insertBy_self (t : Text.CodePoints) (value : Datum) (m : List (Datum × Datum)) :
    lookup (text t) (insertBy sameKey (text t) value m) = some value := by
  induction m with
  | nil => exact lookup_cons_of_eq (sameKey_text_left.mpr rfl)
  | cons e m ih =>
    rw [insertBy]
    split
    next h => exact lookup_cons_of_eq h
    next h => rw [lookup_cons_of_ne h, ih]

/-- Entering a value under a text changes nothing under other keys. -/
theorem lookup_insertBy_of_ne {t : Text.CodePoints} {d : Datum} (hd : d ≠ text t) (value : Datum)
    (m : List (Datum × Datum)) :
    lookup d (insertBy sameKey (text t) value m) = lookup d m := by
  have ht : ¬ sameKey (text t) d = true := fun h => hd (sameKey_text_left.mp h)
  induction m with
  | nil => exact lookup_cons_of_ne ht
  | cons e m ih =>
    obtain ⟨k, v⟩ := e
    rw [insertBy]
    split
    next h =>
      obtain rfl := sameKey_text_right.mp h
      rw [lookup_cons_of_ne ht, lookup_cons_of_ne ht]
    next h =>
      by_cases he : sameKey k d = true
      · rw [lookup_cons_of_eq he, lookup_cons_of_eq he]
      · rw [lookup_cons_of_ne he, lookup_cons_of_ne he, ih]

theorem lookup_eq_none {d : Datum} {m : List (Datum × Datum)}
    (h : ∀ e ∈ m, ¬ sameKey e.1 d = true) : lookup d m = none := by
  induction m with
  | nil => rfl
  | cons e m ih =>
    rw [lookup_cons_of_ne (h e List.mem_cons_self), ih fun e he => h e (List.mem_cons_of_mem _ he)]

end Datum

namespace Shape

open Config

theorem key_injective {a b : String} (h : key a = key b) : a = b := by
  have hc := congrArg Text.CodePoints.toChars? (Datum.text.inj h)
  rw [Text.CodePoints.toChars?_ofChars, Text.CodePoints.toChars?_ofChars, Option.some.injEq] at hc
  exact String.toList_inj.mp hc

/-- A configuration with known keys has nothing under a key that is none of a shape. -/
theorem lookup_unknown {m : Entries} (hm : Known (requiredKeys ++ optionalKeys) m) {k : Datum}
    (hk : ∀ name ∈ keyNames, k ≠ key name) : Datum.lookup k m = none := by
  refine Datum.lookup_eq_none fun e he hsame => ?_
  obtain ⟨l, hl, hplain⟩ := hm e he
  have hel := eq_key_of_plain hl hplain
  rw [keys_eq] at hl
  obtain ⟨name, hname, rfl⟩ := List.mem_map.mp hl
  rw [hel] at hsame
  exact hk name hname (Datum.sameKey_text_left.mp hsame)

def put (name : String) (value : Datum) : Entries → Entries :=
  Datum.insertBy Datum.sameKey (key name) value

theorem lookup_put (name other : String) (value : Datum) (m : Entries) :
    Datum.lookup (key other) (put name value m) =
      if other = name then some value else Datum.lookup (key other) m := by
  split
  next h => rw [h, put, key, Datum.lookup_insertBy_self]
  next h => exact Datum.lookup_insertBy_of_ne (fun he => h (key_injective he)) value m

/-- A configuration with the number of slots and the hint filled in, and its lengths as a list. -/
def completed (s : Section) : Entries :=
  put "max_arity" (.integer (slotItems s).length)
    (put "relies_on_same_type_inputs"
      ((value? s "relies_on_same_type_inputs").getD (.boolean false))
      (put "incoming_message_payload_lengths" (.list (slotItems s)) s.entries))

theorem lookup_completed_unknown {s : Section}
    (hs : Known (requiredKeys ++ optionalKeys) s.entries) {k : Datum}
    (hk : ∀ name ∈ keyNames, k ≠ key name) : Datum.lookup k (completed s) = none := by
  rw [completed, put, key, Datum.lookup_insertBy_of_ne (hk _ (by simp [keyNames])), put, key,
    Datum.lookup_insertBy_of_ne (hk _ (by simp [keyNames])), put, key,
    Datum.lookup_insertBy_of_ne (hk _ (by simp [keyNames])), lookup_unknown hs hk]

/-- A configuration describes one shape at most. -/
theorem Describes.unique {s : Section} {x y : Shape} {b c : Bool} (hx : Describes s x b)
    (hy : Describes s y c) : x = y ∧ b = c := by
  have hinteger : ∀ {name : String} {m n : Int}, value? s name = some (.integer m) →
      value? s name = some (.integer n) → m = n :=
    fun hm hn => Datum.integer.inj (Option.some.inj (hm.symm.trans hn))
  have hincoming : x.incoming = y.incoming :=
    (List.map_inj_right fun _ _ => Datum.integer.inj).mp
      (Option.some.inj (hx.incoming.symm.trans hy.incoming))
  have hmax : x.maxArity = y.maxArity := by
    rcases hx.maxArity with h | ⟨h, hl⟩ <;> rcases hy.maxArity with h' | ⟨h', hl'⟩
    · exact hinteger h h'
    · cases h.symm.trans h'
    · cases h.symm.trans h'
    · rw [hl, hl', hincoming]
  have hrelies : b = c := by
    rcases hx.relies with h | ⟨h, hb⟩ <;> rcases hy.relies with h' | ⟨h', hc⟩
    · exact Datum.boolean.inj (Option.some.inj (h.symm.trans h'))
    · cases h.symm.trans h'
    · cases h.symm.trans h'
    · rw [hb, hc]
  obtain ⟨name, type, outgoing, maxArity, incoming, localData, witness⟩ := x
  obtain rfl : name = y.name := hinteger hx.name hy.name
  obtain rfl : type = y.type := hinteger hx.type hy.type
  obtain rfl : outgoing = y.outgoing := hinteger hx.outgoing hy.outgoing
  obtain rfl : localData = y.localData := hinteger hx.localData hy.localData
  obtain rfl : witness = y.witness := hinteger hx.witness hy.witness
  obtain rfl : maxArity = y.maxArity := hmax
  obtain rfl : incoming = y.incoming := hincoming
  exact ⟨rfl, hrelies⟩

end Shape

namespace Predicate

open Config Shape

variable {κ : Type}

theorem known_config (p : Predicate κ) : Known (requiredKeys ++ optionalKeys) p.config :=
  known_of_mem (by simp [config, requiredKeys, optionalKeys])

theorem describes_config (p : Predicate κ) (store : Datum.Store) :
    Describes ⟨p.config, store⟩ p.shape p.reliesOnSameType :=
  ⟨rfl, rfl, rfl, Or.inl rfl, rfl, rfl, rfl, Or.inl rfl⟩

theorem lookup_config {s : Section} {p : Predicate κ} (hd : Describes s p.shape p.reliesOnSameType)
    (hl : (p.shape.incoming.length : Int) = p.shape.maxArity)
    (hs : Known (requiredKeys ++ optionalKeys) s.entries) (k : Datum) :
    Datum.lookup k p.config = Datum.lookup k (completed s) := by
  by_cases hk : ∀ name ∈ keyNames, k ≠ key name
  · rw [lookup_unknown p.known_config hk, lookup_completed_unknown hs hk]
  · obtain ⟨name, hname, rfl⟩ : ∃ name ∈ keyNames, k = key name := by simpa using hk
    have hitems : slotItems s = p.shape.incoming.map .integer := by
      rw [slotItems, hd.incoming, Option.getD_some]
    have hrelies : (value? s "relies_on_same_type_inputs").getD (.boolean false) =
        .boolean p.reliesOnSameType := by
      rcases hd.relies with h | ⟨h, hr⟩
      · rw [h, Option.getD_some]
      · rw [h, hr, Option.getD_none]
    simp only [keyNames, List.mem_cons, List.not_mem_nil, or_false] at hname
    rcases hname with rfl | rfl | rfl | rfl | rfl | rfl | rfl | rfl <;>
      simp only [completed, lookup_put, String.reduceEq, if_true, if_false]
    · exact hd.name.symm
    · exact hd.type.symm
    · exact hd.outgoing.symm
    · rw [hitems]
      rfl
    · exact hd.localData.symm
    · exact hd.witness.symm
    · rw [hitems, List.length_map, hl]
      rfl
    · rw [hrelies]
      rfl

variable [ConstraintSystem κ]

/-- What is accepted can be exported and imported again with nothing lost, and what is imported
is exported as it was, with what it left out filled in. -/
theorem config_round_trip :
    (∀ (x : Shape) (system : κ) (relies : Bool) (field? : Option ScalarField) (p : Predicate κ),
      ofShape x system relies field? = .ok p →
        ofConfig (.ofEntries p.config) p.system (some p.field) = .ok p) ∧
    (∀ (s : Section) (system : κ) (field? : Option ScalarField) (p : Predicate κ),
      ofConfig s system field? = .ok p →
        ∀ k, Datum.lookup k p.config = Datum.lookup k (completed s)) := by
  refine ⟨fun x system relies field? p hp => ?_, fun s system field? p hp k => ?_⟩
  · have hadm := admissible_of_ofShape hp
    have hd := p.describes_config #[]
    have hdraft := Drafted.of_admissible hd hadm
    have hr := runs_ofConfig (.ofEntries p.config) p.system (some p.field)
    have hall : ∀ c ∈ checks (.ofEntries p.config), Passes (.ofEntries p.config)
        ((some p.field).or (ConstraintSystem.field? p.system)) c := by
      intro c hc
      by_cases ha : c = .arity
      · subst ha
        exact hdraft.passes_arity_iff.mpr hadm.1
      · exact hdraft.passes p.known_config rfl c hc ha
    obtain ⟨q, hq⟩ := hr.ok_iff.mpr hall
    rw [hq] at hr ⊢
    obtain ⟨⟨hdq, -, hsystem, hfield⟩, -⟩ := hr.of_ok
    obtain ⟨hshape, hrelies⟩ := hd.unique hdq
    obtain ⟨xp, cp, rp, fp⟩ := p
    obtain ⟨xq, cq, rq, fq⟩ := q
    cases hshape
    cases hrelies
    cases hsystem
    cases hfield
    rfl
  · have hr := runs_ofConfig s system field?
    rw [hp] at hr
    obtain ⟨hc, hpassed⟩ := hr.of_ok
    exact lookup_config hc.describes hc.admissible.1 (hpassed .known (by simp [checks])) k

/-- Two lengths in a tuple, whose number and the hint are left out. -/
theorem config_round_trip_of_tuple :
    ∃ (s : Section) (p : Predicate Declared),
      value? s "max_arity" = none ∧
      value? s "incoming_message_payload_lengths" = some (.tuple [.integer 2, .integer 0]) ∧
      ofConfig s p.system none = .ok p ∧
      (∀ k, Datum.lookup k p.config = Datum.lookup k (completed s)) ∧
      Datum.lookup (key "incoming_message_payload_lengths") p.config =
        some (.list [.integer 2, .integer 0]) ∧
      ofConfig (.ofEntries p.config) p.system (some p.field) = .ok p := by
  let s : Section := .ofEntries [(key "witness_length", .integer 0), (key "name", .integer 1),
    (key "incoming_message_payload_lengths", .tuple [.integer 2, .integer 0]),
    (key "type", .integer 7), (key "outgoing_message_payload_length", .integer 2),
    (key "local_data_length", .integer 1)]
  let x : Shape := ⟨1, 7, 2, 2, [2, 0], 1, 0⟩
  let c : Declared := ⟨1, 1, true, some ⟨97, by decide⟩⟩
  let p : Predicate Declared := ⟨x, c, false, ⟨97, by decide⟩⟩
  have hs : ofConfig s c none = .ok p := rfl
  have hx : ofShape x c false none = .ok p := rfl
  exact ⟨s, p, rfl, rfl, hs, config_round_trip.2 s c none p hs, rfl,
    config_round_trip.1 x c false none p hx⟩

end Predicate

end ProofCarrying
