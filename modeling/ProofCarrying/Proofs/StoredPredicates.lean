import ProofCarrying.Predicate.Files
import ProofCarrying.Proofs.Framing
import ProofCarrying.Proofs.LineEnds
import ProofCarrying.Proofs.RoundTrip

/-! Predicates in files. A file of text reads like the text with line feeds for its pairs of a
carriage return and a line feed and for its other carriage returns, and where carriage returns stand
before line feeds only, like the text itself. What is saved can be loaded. -/

namespace ProofCarrying

open Source Text

/-- Every carriage return has a line feed behind it. -/
def PairedReturns (s : List Char) : Prop :=
  ∀ i < s.length, s[i]? = some '\r' → s[i + 1]? = some '\n'

instance (s : List Char) : Decidable (PairedReturns s) :=
  inferInstanceAs (Decidable (∀ i < s.length, s[i]? = some '\r' → s[i + 1]? = some '\n'))

namespace PairedReturns

theorem of_append {u s : List Char} (h : PairedReturns (u ++ s)) : PairedReturns s := by
  intro i hi hr
  have hshift : ∀ j, (u ++ s)[u.length + j]? = s[j]? := by
    intro j
    rw [List.getElem?_append_right (Nat.le_add_right _ j), Nat.add_sub_cancel_left]
  have hlen : u.length + i < (u ++ s).length := by
    rw [List.length_append]
    omega
  have hfeed := h (u.length + i) hlen (by rw [hshift, hr])
  rwa [Nat.add_assoc, hshift] at hfeed

theorem feed {pre post : List Char} (h : PairedReturns (pre ++ '\r' :: post)) :
    post.head? = some '\n' := by
  have hfeed := of_append h 0 (by simp) rfl
  rwa [List.getElem?_cons_succ, ← List.head?_eq_getElem?] at hfeed

theorem exists_line {s l rest : List Char} (hs : PairedReturns s) (h : Line s l rest) :
    ∃ m, Line (Utf8.unifyNewlines s) m (Utf8.unifyNewlines rest) ∧ trim l = trim m ∧
      PairedReturns rest := by
  cases h with
  | ended hn rest =>
    have hrest : PairedReturns rest := by
      have hsplit : l ++ '\n' :: rest = (l ++ ['\n']) ++ rest := by simp
      exact of_append (hsplit ▸ hs)
    by_cases hr : '\r' ∈ l
    · obtain ⟨m, post, hl, hm⟩ := List.eq_append_cons_of_mem hr
      subst hl
      have hpaired : PairedReturns (m ++ '\r' :: (post ++ '\n' :: rest)) := by simpa using hs
      have hfeed := hpaired.feed
      have hpost : post = [] := by
        cases post with
        | nil => rfl
        | cons c post =>
          have hc : c = '\n' := by simpa using hfeed
          exact absurd (by simp [hc]) hn
      subst hpost
      have hm' : '\n' ∉ m := fun hmem => hn (List.mem_append_left _ hmem)
      have hunify : Utf8.unifyNewlines (m ++ ['\r'] ++ '\n' :: rest) =
          m ++ '\n' :: Utf8.unifyNewlines rest := by
        rw [List.append_assoc, Utf8.unifyNewlines_append hm]
        rfl
      have htrim : trim (m ++ ['\r']) = trim m := trim_append_blanks (by simp [Blanks, isBlank]) m
      rw [hunify]
      exact ⟨m, .ended hm' _, htrim, hrest⟩
    · have hunify : Utf8.unifyNewlines (l ++ '\n' :: rest) =
          l ++ '\n' :: Utf8.unifyNewlines rest := by
        rw [Utf8.unifyNewlines_append hr]
        rfl
      rw [hunify]
      exact ⟨l, .ended hn _, rfl, hrest⟩
  | last hn hne =>
    have hr : '\r' ∉ s := by
      intro hmem
      obtain ⟨m, post, rfl, -⟩ := List.eq_append_cons_of_mem hmem
      have hpost : '\n' ∈ post := List.mem_of_mem_head? hs.feed
      exact hn (by simp [hpost])
    rw [Utf8.unifyNewlines_of_not_mem hr]
    exact ⟨s, .last hn hne, rfl, by simp [PairedReturns]⟩

theorem sameLines {s : List Char} (h : PairedReturns s) : SameLines s (Utf8.unifyNewlines s) := by
  induction s using lines_induction with
  | hnil => exact .nil
  | hline s l rest hl ih =>
    obtain ⟨m, hm, htrim, hrest⟩ := h.exists_line hl
    exact .line hl hm htrim (ih hrest)

end PairedReturns

namespace FileTree

theorem locate_congr {t t' : FileTree}
    (h : ∀ here, t.entry? here = some .directory ↔ t'.entry? here = some .directory)
    (here parts : List (List Char)) : t.locate here parts = t'.locate here parts := by
  induction parts generalizing here with
  | nil => rfl
  | cons p ps ih =>
    have hiff : t.entry? here == some .directory ↔ t'.entry? here == some .directory := by
      rw [beq_iff_eq, beq_iff_eq]
      exact h here
    rw [locate, locate, ih, ih, Bool.eq_iff_iff.mpr hiff]

theorem entry?_put {t : FileTree} {parts here : List (List Char)} {e : Entry} (hp : parts ≠ []) :
    entry? (t.put parts e) here = if here = parts then some e else t.entry? here := by
  by_cases h : here = parts
  · have hne : here.isEmpty = false := by simpa [h] using hp
    rw [if_pos h, entry?, hne, put, h]
    simp
  · have hb : (here == parts) = false := beq_eq_false_iff_ne.mpr h
    simp only [if_neg h, entry?, put, List.lookup_cons, hb]

theorem write_eq_ok {t t' : FileTree} {p : Path} {bytes : List UInt8}
    (h : t.write p bytes = .ok t') : ∃ parts, t.locate [] p.parts = .ok parts ∧
      t.entry? parts ≠ some .directory ∧ t' = t.put parts (.file bytes) := by
  cases hl : t.locate [] p.parts with
  | error e => simp [write, hl, bind, Except.bind] at h
  | ok parts =>
    simp only [write, hl, bind, Except.bind] at h
    split at h
    · cases h
    next hne =>
      cases h
      exact ⟨parts, rfl, fun hd => hne hd, rfl⟩
    · cases h

/-- A file that was written is read back, whatever stood there before. -/
theorem read_of_write {t t' : FileTree} {p : Path} {bytes : List UInt8}
    (h : t.write p bytes = .ok t') : t'.read p = .ok bytes := by
  obtain ⟨parts, hl, hd, rfl⟩ := write_eq_ok h
  have hp : parts ≠ [] := by
    rintro rfl
    exact hd rfl
  have hdirs : ∀ here, entry? (t.put parts (.file bytes)) here = some .directory ↔
      t.entry? here = some .directory := by
    intro here
    rw [entry?_put hp]
    by_cases hh : here = parts
    · simp [hh, hd]
    · rw [if_neg hh]
  have hentry : entry? (t.put parts (.file bytes)) parts = some (.file bytes) := by
    rw [entry?_put hp, if_pos rfl]
  have hlocate := (locate_congr hdirs [] p.parts).trans hl
  simp only [read, hlocate, bind, Except.bind, hentry]

end FileTree

theorem Source.ofBytes_encode (s : List Char) :
    ofBytes (Utf8.encode s) = ofText (Utf8.unifyNewlines s) := by
  obtain ⟨hending, hchars⟩ := Utf8.decodeFrom_encode 0 s
  simp only [ofBytes, Utf8.decode, hending, hchars]
  rfl

namespace Record

theorem return_not_mem_render (rs : List Record) : '\r' ∉ render rs := by
  intro h
  obtain ⟨r, -, hr⟩ := List.mem_flatMap.mp h
  rcases List.mem_append.mp hr with hr | hr
  · rcases mem_text hr with hc | hc | hc <;> exact absurd hc (by decide)
  · exact absurd (List.mem_singleton.mp hr) (by decide)

end Record

namespace Predicate

theorem load_of_read {F : ScalarField} {tree : FileTree} {path : Path} {text : List Char}
    (h : tree.read path = .ok (Utf8.encode text)) :
    load tree path (some F) none RankOne.readSystem =
      decode (RankOne.readSystem F) (some F) (Utf8.unifyNewlines text) := by
  simp only [load, reader?, h, bind, Except.bind, ofBytes_encode]
  rfl

theorem save_eq_ok {κ : Type} [ConstraintSystem κ] {p : Predicate κ} {path : Path}
    {tree tree' : FileTree} (h : p.save path tree = (.ok (), tree')) :
    Record.Writable p.records ∧ tree'.read path = .ok (Utf8.encode (Record.render p.records)) := by
  rw [save] at h
  split at h
  · cases h
  next made _ =>
    split at h
    · cases h
    next written hwritten =>
      obtain ⟨hencode, rfl⟩ := Prod.mk.inj h
      cases he : p.encode with
      | error e =>
        rw [he] at hencode
        cases hencode
      | ok text =>
        obtain ⟨hw, -⟩ := Record.write_eq_ok he
        have hall : p.records.takeWhile Record.isWritable = p.records :=
          List.takeWhile_eq_self_iff.mpr fun r hr => List.all_eq_true.mpr (hw r hr)
        rw [Record.renderWritable, hall] at hwritten
        exact ⟨hw, FileTree.read_of_write hwritten⟩

/-- A predicate is loaded from a file of text as it is decoded from the text in which pairs of a
carriage return and a line feed, and then the other carriage returns, are replaced by line feeds;
from the text itself, if its carriage returns stand before line feeds only. A predicate that was
saved is loaded again, up to the hint on types. -/
theorem load_eq_decode (F : ScalarField) :
    (∀ (tree : FileTree) (path : Path) (text : List Char),
      tree.read path = .ok (Utf8.encode text) →
      load tree path (some F) none RankOne.readSystem =
        decode (RankOne.readSystem F) (some F)
          (replace ['\r'] ['\n'] (replace ['\r', '\n'] ['\n'] text)) ∧
      (PairedReturns text → load tree path (some F) none RankOne.readSystem =
        decode (RankOne.readSystem F) (some F) text)) ∧
    ∀ {shape : Shape} {system : RankOne.System} {relies : Bool} {field? : Option ScalarField}
      {p : Predicate RankOne.System} {path : Path} {tree tree' : FileTree},
      ofShape shape system relies field? = .ok p → p.system.field = F →
      (∀ k ∈ p.system.constraints, k.CoefficientsIn F) → p.save path tree = (.ok (), tree') →
      ∃ q, load tree' path (some F) none RankOne.readSystem = .ok q ∧ p.same q = true ∧
        q.field = F := by
  refine ⟨fun tree path text h => ⟨?_, fun hpaired => ?_⟩, ?_⟩
  · rw [load_of_read h, Utf8.unifyNewlines_eq_replace]
  · rw [load_of_read h]
    exact (decode_sameLines hpaired.sameLines).symm
  · rintro shape system relies field? p path tree tree' hp rfl hm hsave
    obtain ⟨hw, hread⟩ := save_eq_ok hsave
    have htakes := takes_read (some p.system.field) (admissible_of_ofShape hp) hm hw []
    rw [List.append_nil] at htakes
    refine ⟨⟨p.shape, p.system, false, p.system.field⟩, ?_, by simp [same], rfl⟩
    rw [load_of_read hread, Utf8.unifyNewlines_of_not_mem (Record.return_not_mem_render _)]
    exact congrArg Prod.fst htakes

/-- A file with a carriage return before each line feed, and a predicate saved over it. Where
carriage returns alone end the lines the predicate is loaded as well, but it is not decoded from
such a text. -/
theorem load_eq_decode_after_returns :
    ∃ (tree tree' lone : FileTree) (path : Path) (text returns : List Char)
      (p q r : Predicate RankOne.System) (f : Fault),
      '\r' ∈ text ∧ tree.read path = .ok (Utf8.encode text) ∧
      load tree path (some ⟨7, by decide⟩) none RankOne.readSystem =
        decode (RankOne.readSystem ⟨7, by decide⟩) (some ⟨7, by decide⟩) text ∧
      p.save path tree = (.ok (), tree') ∧
      load tree' path (some ⟨7, by decide⟩) none RankOne.readSystem = .ok q ∧
      p.same q = true ∧
      '\n' ∉ returns ∧ lone.read path = .ok (Utf8.encode returns) ∧
      load lone path (some ⟨7, by decide⟩) none RankOne.readSystem = .ok r ∧
      p.same r = true ∧
      decode (RankOne.readSystem ⟨7, by decide⟩) (some ⟨7, by decide⟩) returns = .error f := by
  obtain ⟨hfile, hsaved⟩ := load_eq_decode ⟨7, by decide⟩
  let text := ['0', '\r', '\n', '1', '\r', '\n', 'x', '\r', '\n']
  let returns := "0\r1\r0\r0\r0\r0\r1\r2\r1\r0\r0\r1\r1 5\r".toList
  let path : Path := ⟨[['d'], ['p']]⟩
  let tree : FileTree := ⟨[([['d']], .directory), ([['d'], ['p']], .file (Utf8.encode text))]⟩
  let lone : FileTree := ⟨[([['d']], .directory), ([['d'], ['p']], .file (Utf8.encode returns))]⟩
  let system : RankOne.System := ⟨⟨7, by decide⟩, 1, 2, [⟨[], [], [⟨1, .reduce 5 7 (by decide)⟩]⟩],
    by decide, by decide, by decide⟩
  let p : Predicate RankOne.System := ⟨⟨0, 1, 0, 0, [], 0, 0⟩, system, true, ⟨7, by decide⟩⟩
  have hread : tree.read path = .ok (Utf8.encode text) := rfl
  have hlone : lone.read path = .ok (Utf8.encode returns) := rfl
  have hsave : p.save path tree = (.ok (), (p.save path tree).2) :=
    Prod.ext (show (p.save path tree).1 = .ok () by decide +kernel) rfl
  have hp : ofShape p.shape p.system true none = .ok p := rfl
  obtain ⟨q, hload, hsame, -⟩ := hsaved hp rfl
    (by simp [p, system, RankOne.Constraint.CoefficientsIn, Residue.reduce]) hsave
  have hdecode : decode (RankOne.readSystem ⟨7, by decide⟩) (some ⟨7, by decide⟩)
      (replace ['\r'] ['\n'] (replace ['\r', '\n'] ['\n'] returns)) =
      .ok ⟨p.shape, system, false, ⟨7, by decide⟩⟩ := by
    decide +kernel
  have hrefused : decode (RankOne.readSystem ⟨7, by decide⟩) (some ⟨7, by decide⟩) returns =
      .error (.notDecimal "name" (trim returns)) := by
    decide +kernel
  exact ⟨tree, _, lone, path, text, returns, p, q, _, _, by decide, hread,
    (hfile tree path text hread).2 (by decide), hsave, hload, hsame, by decide, hlone,
    (hfile lone path returns hlone).1.trans hdecode, by simp [same, p], hrefused⟩

end Predicate

end ProofCarrying
