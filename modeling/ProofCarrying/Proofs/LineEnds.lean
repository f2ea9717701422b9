import ProofCarrying.Proofs.Encoding

/-! The ends of lines. A text with unified line ends is the text in which each pair of a carriage
return and a line feed, and then each carriage return that is left, is replaced by a line feed. -/

namespace ProofCarrying.Text

/-- Puts `new` in the place of every `old`, from the left. The first `skip` characters belong to
what has been replaced. -/
def replaceFrom (old new : List Char) : Nat → List Char → List Char
  | _, [] => []
  | skip + 1, _ :: cs => replaceFrom old new skip cs
  | 0, c :: cs =>
    if old.isPrefixOf (c :: cs) then new ++ replaceFrom old new (old.length - 1) cs
    else c :: replaceFrom old new 0 cs

def replace (old new : List Char) : List Char → List Char :=
  replaceFrom old new 0

variable {old new : List Char}

theorem replaceFrom_append (new u s : List Char) :
    replaceFrom old new u.length (u ++ s) = replaceFrom old new 0 s := by
  induction u with
  | nil => rfl
  | cons c u ih => exact ih

theorem replace_nil : replace old new [] = [] := by
  rw [replace, replaceFrom]

theorem replace_append (h : old ≠ []) (s : List Char) :
    replace old new (old ++ s) = new ++ replace old new s := by
  cases old with
  | nil => exact absurd rfl h
  | cons c old =>
    have hp : (c :: old).isPrefixOf (c :: (old ++ s)) = true := by
      rw [List.isPrefixOf_iff_prefix, ← List.cons_append]
      exact List.prefix_append _ s
    rw [List.cons_append, replace, replaceFrom, if_pos hp]
    exact congrArg (new ++ ·) (replaceFrom_append new old s)

theorem replace_cons {c : Char} {s : List Char} (h : ¬ old <+: c :: s) :
    replace old new (c :: s) = c :: replace old new s := by
  have hp : ¬ old.isPrefixOf (c :: s) = true := fun hp => h (List.isPrefixOf_iff_prefix.mp hp)
  rw [replace, replaceFrom, if_neg hp]

namespace Utf8

theorem unifyNewlines_eq_replace (s : List Char) :
    unifyNewlines s = replace ['\r'] ['\n'] (replace ['\r', '\n'] ['\n'] s) := by
  fun_induction unifyNewlines s with
  | case1 => rw [replace_nil, replace_nil]
  | case2 s ih =>
    have hpair : replace ['\r', '\n'] ['\n'] ('\r' :: '\n' :: s) =
        '\n' :: replace ['\r', '\n'] ['\n'] s := replace_append (by simp) s
    rw [hpair, replace_cons (by simp), ih]
  | case3 s hs ih =>
    have hlone : ¬ ['\r', '\n'] <+: '\r' :: s := by
      rintro ⟨t, ht⟩
      exact hs t (List.cons.inj ht).2.symm
    have hfeed : replace ['\r'] ['\n'] ('\r' :: replace ['\r', '\n'] ['\n'] s) =
        '\n' :: replace ['\r'] ['\n'] (replace ['\r', '\n'] ['\n'] s) :=
      replace_append (by simp) _
    rw [replace_cons hlone, hfeed, ih]
  | case4 c s _ hc ih =>
    have hne : c ≠ '\r' := hc
    rw [replace_cons (by simp [hne.symm]), replace_cons (by simp [hne.symm]), ih]

example : unifyNewlines ['a', '\r', 'b', '\r', '\n', '\r', '\r'] =
    ['a', '\n', 'b', '\n', '\n', '\n'] := by
  decide

end Utf8

end ProofCarrying.Text
