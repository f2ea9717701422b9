import ProofCarrying.Proofs.TallyVerdict

/-! Tallies over whole computations. Where every node of a tree is accepted, the message of the
root tells the sum of all summands and the number of nodes. -/

namespace ProofCarrying

inductive Tree (α : Type) where
  | node (label : α) (children : List (Tree α))

namespace Tree

variable {α : Type}

def label : Tree α → α
  | node a _ => a

def labels : Tree α → List α
  | node a ts => a :: all ts
where
  all : List (Tree α) → List α
    | [] => []
    | t :: ts => labels t ++ all ts

inductive Everywhere (R : α → List α → Prop) : Tree α → Prop
  | node {a : α} {ts : List (Tree α)} (root : R a (ts.map label))
    (children : ∀ t ∈ ts, Everywhere R t) : Everywhere R (node a ts)

theorem mem_labels_all {a : α} {t : Tree α} {ts : List (Tree α)} (ht : t ∈ ts)
    (ha : a ∈ t.labels) : a ∈ labels.all ts := by
  induction ts with
  | nil => simp at ht
  | cons u us ih =>
    rw [labels.all, List.mem_append]
    rcases List.mem_cons.mp ht with rfl | hu
    · exact Or.inl ha
    · exact Or.inr (ih hu)

theorem mem_labels_child {a b : α} {t : Tree α} {ts : List (Tree α)} (ht : t ∈ ts)
    (hb : b ∈ t.labels) : b ∈ (node a ts).labels :=
  List.mem_cons_of_mem a (mem_labels_all ht hb)

theorem label_mem_labels (t : Tree α) : t.label ∈ t.labels := by
  cases t with
  | node a ts => exact List.mem_cons_self

def total (f : α → Int) (t : Tree α) : Int :=
  (t.labels.map f).sum

theorem sum_labels_all (f : α → Int) (ts : List (Tree α)) :
    ((labels.all ts).map f).sum = (ts.map (total f)).sum := by
  induction ts with
  | nil => rfl
  | cons t ts ih =>
    rw [labels.all, List.map_append, List.sum_append, ih]
    rfl

theorem total_node (f : α → Int) (a : α) (ts : List (Tree α)) :
    total f (node a ts) = f a + (ts.map (total f)).sum := by
  rw [← sum_labels_all]
  rfl

theorem total_one (t : Tree α) : total (fun _ => 1) t = t.labels.length := by
  simp [total]

end Tree

namespace Tally

open RankOne

structure Node where
  summand : Residue
  outgoing : Message

structure Node.Over (F : ScalarField) (n : Node) : Prop where
  summand : n.summand.modulus = F.modulus
  outgoing : ∀ x ∈ n.outgoing.payload, x.modulus = F.modulus

/-- The predicate accepts the message of a node with those of its children, in their order. -/
def Node.Accepted (P : Predicate System) (n : Node) (children : List Node) : Prop :=
  (P.isSatisfied n.outgoing ⟨children.map Node.outgoing, [n.summand], []⟩).outcome = .ok true

/-- The messages of a computation by honest nodes, from the leaves up. -/
def emit (F : ScalarField) (type : Int) : Tree Int → Except Fault (Tree Node)
  | .node n ts => do
    let us ← all ts
    let m ← outgoing F (us.map fun u => u.label.outgoing) n type
    return .node ⟨F.element n, m⟩ us
where
  all : List (Tree Int) → Except Fault (List (Tree Node))
    | [] => .ok []
    | t :: ts => do
      let u ← emit F type t
      let us ← all ts
      return u :: us

variable {F : ScalarField} {k : Nat} {type name : Int} {s : System}

theorem accepted_spec (hm : SystemMeans F k type s) (ht : 0 ≤ type) (hn : 0 ≤ name) {n : Node}
    {children : List Node} (ho : n.Over F) (hc : ∀ c ∈ children, c.Over F)
    (h : n.Accepted ⟨shape k type name, s, true, F⟩ children) :
    Fitting F n.outgoing ∧
      Balanced F type n.outgoing (children.map Node.outgoing) n.summand := by
  have hacc : (shape k type name).Accepts n.outgoing
      ⟨children.map Node.outgoing, [n.summand], []⟩ := by
    by_contra hr
    obtain ⟨f, -, hf⟩ := Predicate.isSatisfied_refused
      (p := ⟨shape k type name, s, true, F⟩) (shape_admissible k ht hn) hr
    rw [Node.Accepted, hf] at h
    cases h
  obtain ⟨hl, ha, hi⟩ := accepts_shape_iff.mp hacc
  have hfit : ∀ m ∈ children.map Node.outgoing, Fitting F m := by
    intro m hmem
    obtain ⟨c, hcm, rfl⟩ := List.mem_map.mp hmem
    exact ⟨hi _ hmem, (hc c hcm).outgoing⟩
  have hout : Fitting F n.outgoing := ⟨hl, ho.outgoing⟩
  obtain ⟨b, hb, hiff⟩ := outcome_spec hm ht hn hout hfit ha ho.summand
  exact ⟨hout, hiff.mp (Except.ok.inj (hb.symm.trans h))⟩

theorem total_node_modEq {f g : Node → Int} {n : Node} {ts : List (Tree Node)} {a b : Int}
    (hts : ∀ t ∈ ts, g t.label ≡ t.total f [ZMOD F.modulus]) (hn : f n = a)
    (hb : a + ((ts.map Tree.label).map g).sum ≡ b [ZMOD F.modulus]) :
    b ≡ (Tree.node n ts).total f [ZMOD F.modulus] := by
  rw [Tree.total_node, hn]
  refine hb.symm.trans (Int.ModEq.add_left a ?_)
  rw [List.map_map]
  exact Int.ModEq.listSum_map hts

theorem root_totals (hm : SystemMeans F k type s) (ht : 0 ≤ type) (hn : 0 ≤ name)
    {t : Tree Node} (h : t.Everywhere (Node.Accepted ⟨shape k type name, s, true, F⟩))
    (ho : ∀ n ∈ t.labels, n.Over F) :
    Fitting F t.label.outgoing ∧
      sumOf t.label.outgoing ≡ t.total (fun n => n.summand.value) [ZMOD F.modulus] ∧
      countOf t.label.outgoing ≡ t.total (fun _ => 1) [ZMOD F.modulus] := by
  induction h with
  | @node n ts hr _ ih =>
    have hts : ∀ t ∈ ts, ∀ c ∈ t.labels, c.Over F := fun t htm c hcm =>
      ho c (Tree.mem_labels_child htm hcm)
    have hcs : ∀ c ∈ ts.map Tree.label, c.Over F :=
      List.forall_mem_map.mpr fun t htm => hts t htm _ t.label_mem_labels
    obtain ⟨hfit, hbal⟩ := accepted_spec hm ht hn (ho n List.mem_cons_self) hcs hr
    have hsum := hbal.sum
    have hcount := hbal.count
    rw [List.map_map] at hsum hcount
    refine ⟨hfit, ?_, ?_⟩
    · exact total_node_modEq (fun t htm => (ih t htm (hts t htm)).2.1) rfl hsum
    · exact total_node_modEq (fun t htm => (ih t htm (hts t htm)).2.2) rfl hcount

structure Honest (F : ScalarField) (type : Int) (m : Message) : Prop where
  fitting : Fitting F m
  type : (m.type : Int) = type

theorem outgoing_honest {incoming : List Message} (ht : 0 ≤ type)
    (hi : ∀ m ∈ incoming, Honest F type m) (n : Int) :
    ∃ m, outgoing F incoming n type = .ok m ∧ Honest F type m ∧
      Balanced F type m incoming (F.element n) := by
  have htype : ((type.toNat : Nat) : Int) = type := Int.toNat_of_nonneg ht
  have hsum : (incoming.map fun m => (m.type : Int)).sum = type * incoming.length := by
    have hmap : (incoming.map fun m => (m.type : Int)) = List.replicate incoming.length type :=
      List.map_eq_replicate_iff.mpr fun m hm => (hi m hm).type
    rw [hmap, List.sum_replicate, nsmul_eq_mul, mul_comm]
  refine ⟨_, outgoing_spec (fun m hm => (hi m hm).fitting) ht n, ⟨⟨rfl, by simp⟩, htype⟩, ?_⟩
  refine ⟨?_, ?_, fun m hm => ?_, ?_⟩
  · exact ((F.value_element_modEq n).add_right _).trans (F.value_element_modEq _).symm
  · exact (F.value_element_modEq _).symm
  · rw [(hi m hm).type, sub_self, mul_zero]
  · rw [hsum]

theorem accepted_honest (hm : SystemMeans F k type s) (ht : 0 ≤ type) (hn : 0 ≤ name) {n : Int}
    {m : Message} {children : List Node} (hl : children.length ≤ k) (ho : Honest F type m)
    (hi : ∀ c ∈ children, Honest F type c.outgoing)
    (hb : Balanced F type m (children.map Node.outgoing) (F.element n)) :
    Node.Accepted ⟨shape k type name, s, true, F⟩ ⟨F.element n, m⟩ children := by
  have hfit : ∀ c ∈ children.map Node.outgoing, Fitting F c :=
    List.forall_mem_map.mpr fun c hc => (hi c hc).fitting
  have hlen : (children.map Node.outgoing).length ≤ k := by rwa [List.length_map]
  have hx : (F.element n).modulus = F.modulus := rfl
  obtain ⟨b, hv, hiff⟩ := outcome_spec hm ht hn ho.fitting hfit hlen hx
  rw [hiff.mpr hb] at hv
  exact hv

theorem emit_all_spec {Q : Tree Node → Prop} {ts : List (Tree Int)}
    (h : ∀ t ∈ ts, ∃ u, emit F type t = .ok u ∧ Q u) :
    ∃ us, emit.all F type ts = .ok us ∧ us.length = ts.length ∧ ∀ u ∈ us, Q u := by
  induction ts with
  | nil => exact ⟨[], rfl, rfl, by simp⟩
  | cons t ts ih =>
    obtain ⟨u, hu, hq⟩ := h t (by simp)
    obtain ⟨us, hus, hl, hqs⟩ := ih fun v hv => h v (by simp [hv])
    refine ⟨u :: us, ?_, by simp [hl], List.forall_mem_cons.mpr ⟨hq, hqs⟩⟩
    simp only [emit.all, hu, hus, bind, Except.bind]
    rfl

theorem emit_spec (hm : SystemMeans F k type s) (ht : 0 ≤ type) (hn : 0 ≤ name) {t : Tree Int}
    (h : t.Everywhere fun _ children => children.length ≤ k) :
    ∃ u, emit F type t = .ok u ∧
      u.Everywhere (Node.Accepted ⟨shape k type name, s, true, F⟩) ∧
      Honest F type u.label.outgoing := by
  induction h with
  | @node n ts hr _ ih =>
    obtain ⟨us, hus, hl, hall⟩ := emit_all_spec ih
    have hi : ∀ m ∈ us.map fun u => u.label.outgoing, Honest F type m :=
      List.forall_mem_map.mpr fun u hu => (hall u hu).2
    obtain ⟨m, ho, hh, hb⟩ := outgoing_honest ht hi n
    refine ⟨.node ⟨F.element n, m⟩ us, ?_, ⟨?_, fun u hu => (hall u hu).1⟩, hh⟩
    · simp only [emit, hus, ho, bind, Except.bind]
      rfl
    · apply accepted_honest hm ht hn _ hh
      · exact List.forall_mem_map.mpr fun u hu => (hall u hu).2
      · rwa [List.map_map]
      · simpa [hl] using hr

/-- In a tree whose nodes are all accepted, the root has the sum of all summands and the number
of nodes. The messages that honest nodes emit are accepted, whatever the modulus is to the
number of children. -/
theorem tree_totals {F : ScalarField} {k : Nat} {type name : Int} (ht : 1 ≤ type)
    (hpt : ¬ (F.modulus : Int) ∣ type) (hn : 0 ≤ name) :
    ∃ P, predicate F k type name = .ok P ∧
      (∀ t : Tree Node, (∀ n ∈ t.labels, n.Over F) → t.Everywhere (Node.Accepted P) →
        t.label.outgoing.payload =
          [F.element (t.labels.map fun n => n.summand.value).sum, F.element t.labels.length]) ∧
      (∀ t : Tree Int, t.Everywhere (fun _ children => children.length ≤ k) →
        ∃ u, emit F type t = .ok u ∧ u.Everywhere (Node.Accepted P)) := by
  obtain ⟨s, hs, hm⟩ := predicate_spec k ht hpt hn
  have h0 : 0 ≤ type := by omega
  refine ⟨_, hs, fun t ho h => ?_, fun t h => ?_⟩
  · obtain ⟨hfit, hsum, hcount⟩ := root_totals hm h0 hn h ho
    rw [Tree.total_one] at hcount
    rw [hfit.payload_eq, ScalarField.element_eq_iff.mpr hsum, ScalarField.element_eq_iff.mpr hcount]
    rfl
  · obtain ⟨u, hu, hacc, -⟩ := emit_spec hm h0 hn h
    exact ⟨u, hu, hacc⟩

/-- A root with three leaves modulo two. -/
theorem tree_totals_modulo_two :
    ∃ (P : Predicate System) (u : Tree Node), predicate ⟨2, by decide⟩ 3 1 0 = .ok P ∧
      emit ⟨2, by decide⟩ 1 (.node 5 [.node 1 [], .node 2 [], .node 4 []]) = .ok u ∧
      u.Everywhere (Node.Accepted P) ∧
      u.label.outgoing.payload =
        [ScalarField.element ⟨2, by decide⟩ 12, ScalarField.element ⟨2, by decide⟩ 4] := by
  obtain ⟨P, hP, hsound, hcomplete⟩ :=
    @tree_totals ⟨2, by decide⟩ 3 1 0 (by decide) (by decide) (by decide)
  have hleaf : ∀ n : Int, Tree.Everywhere (fun _ children => children.length ≤ 3) (.node n []) :=
    fun n => .node (by simp) (by simp)
  obtain ⟨u, hu, hacc⟩ := hcomplete (.node 5 [.node 1 [], .node 2 [], .node 4 []])
    (.node (by simp) (by simp [hleaf]))
  refine ⟨P, u, hP, hu, hacc, ?_⟩
  cases hu
  refine (hsound _ ?_ hacc).trans rfl
  simp only [Tree.labels, Tree.labels.all, List.append_nil, List.cons_append, List.nil_append,
    List.forall_mem_cons]
  exact ⟨⟨rfl, by decide⟩, ⟨rfl, by decide⟩, ⟨rfl, by decide⟩, ⟨rfl, by decide⟩, by simp⟩

end Tally

end ProofCarrying
