import ProofCarrying.Fault

/-! Computations that change a state and may fail. A failure keeps the state it was reached
in. -/

namespace ProofCarrying

theorem bind_eq_error_iff {α β : Type} {x : Except Fault α} {f : α → Except Fault β}
    {e : Fault} : x >>= f = .error e ↔ x = .error e ∨ ∃ a, x = .ok a ∧ f a = .error e := by
  cases x <;> simp [bind, Except.bind]

def Action (σ α : Type) : Type :=
  σ → Except Fault α × σ

namespace Action

variable {σ α β : Type}

protected def pure (a : α) : Action σ α :=
  fun s => (.ok a, s)

protected def bind (p : Action σ α) (f : α → Action σ β) : Action σ β :=
  fun s =>
    match p s with
    | (.ok a, t) => f a t
    | (.error e, t) => (.error e, t)

instance : Monad (Action σ) where
  pure := Action.pure
  bind := Action.bind

def fail (f : Fault) : Action σ α :=
  fun s => (.error f, s)

def ofExcept (r : Except Fault α) : Action σ α :=
  fun s => (r, s)

/-- Runs an action once for each of a row of consecutive numbers, up to its first failure. -/
def numbered (p : Nat → Action σ α) : Nat → Nat → Action σ (List α)
  | _, 0 => pure []
  | i, n + 1 => do
    let a ← p i
    let rest ← numbered p (i + 1) n
    pure (a :: rest)

/-- Runs an action a number of times, up to its first failure. -/
def times (n : Nat) (p : Action σ α) : Action σ (List α) :=
  numbered (fun _ => p) 0 n

/-- Runs an action for each item of a list, up to the first failure. -/
def each (p : β → Action σ α) : List β → Action σ (List α)
  | [] => pure []
  | b :: bs => do
    let a ← p b
    let rest ← each p bs
    pure (a :: rest)

theorem pure_apply (a : α) (s : σ) : (pure a : Action σ α) s = (.ok a, s) := rfl

theorem bind_apply (p : Action σ α) (f : α → Action σ β) (s : σ) :
    (p >>= f) s =
      match p s with
      | (.ok a, t) => f a t
      | (.error e, t) => (.error e, t) := rfl

end Action

end ProofCarrying
