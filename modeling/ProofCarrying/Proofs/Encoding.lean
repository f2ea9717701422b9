import Mathlib.Data.List.Basic
import ProofCarrying.Text.Utf8

/-! Text as bytes and back. Every text comes back from its bytes as a whole. Line ends are unified
after that, which changes a text only at its carriage returns. -/

namespace ProofCarrying.Text

namespace Utf8

theorem toNat_range (c : Char) : c.toNat < 0xD800 ∨ 0xE000 ≤ c.toNat ∧ c.toNat < 0x110000 := by
  rcases c.valid with h | ⟨h, h'⟩
  · exact Or.inl h
  · exact Or.inr ⟨h, h'⟩

theorem first_one {n : Nat} (h : n < 0x80) : first n = .character (Char.ofNat n) := by
  rw [first, if_pos h]

theorem first_two {k : Nat} (h : 2 ≤ k) (h' : k < 32) :
    first (0xC0 + k) = .more ⟨k, 1, 0x80, 0xBF⟩ := by
  rw [first, if_neg (by omega), if_neg (by omega), if_pos (by omega), Nat.add_sub_cancel_left]

theorem first_three {k : Nat} (h : k < 16) :
    first (0xE0 + k) = .more ⟨k, 2, if k = 0 then 0xA0 else 0x80, 0xBF⟩ := by
  rw [first, if_neg (by omega), if_neg (by omega), if_neg (by omega)]
  by_cases hk : k = 0
  · subst hk
    rfl
  · rw [if_neg (by omega), if_pos (by omega), Nat.add_sub_cancel_left, if_neg hk]

theorem first_four {k : Nat} (h : k ≤ 4) : first (0xF0 + k) =
    .more ⟨k, 3, if k = 0 then 0x90 else 0x80, if k = 4 then 0x8F else 0xBF⟩ := by
  rw [first, if_neg (by omega), if_neg (by omega), if_neg (by omega), if_neg (by omega),
    if_neg (by omega)]
  by_cases h0 : k = 0
  · subst h0
    rfl
  by_cases h4 : k = 4
  · subst h4
    rfl
  · rw [if_neg (by omega), if_pos (by omega), Nat.add_sub_cancel_left, if_neg h0, if_neg h4]

theorem decodeFrom_first {offset n : Nat} {p : Pending} (hn : n < 256) (h : first n = .more p)
    (bs : List UInt8) :
    decodeFrom offset none (UInt8.ofNat n :: bs) = decodeFrom (offset + 1) (some p) bs := by
  have hb : (UInt8.ofNat n).toNat = n := UInt8.toNat_ofNat_of_lt' hn
  simp only [decodeFrom, hb, h]

/-- The six bits of a byte are put behind those that have come. -/
theorem decodeFrom_middle {offset n following low high : Nat} (hf : 1 < following)
    (hl : low ≤ 0x80 + n % 64) (hh : 0x80 + n % 64 ≤ high) (bs : List UInt8) :
    decodeFrom offset (some ⟨n / 64, following, low, high⟩) (UInt8.ofNat (0x80 + n % 64) :: bs) =
      decodeFrom (offset + 1) (some ⟨n, following - 1, 0x80, 0xBF⟩) bs := by
  have hb : (UInt8.ofNat (0x80 + n % 64)).toNat = 0x80 + n % 64 :=
    UInt8.toNat_ofNat_of_lt' (show 0x80 + n % 64 < 256 by omega)
  have hr : ¬ (0x80 + n % 64 < low ∨ high < 0x80 + n % 64) := by omega
  have hbits : n / 64 * 64 + n % 64 = n := Nat.div_add_mod' n 64
  have hnext : next ⟨n / 64, following, low, high⟩ (0x80 + n % 64) =
      .more ⟨n, following - 1, 0x80, 0xBF⟩ := by
    simp only [next, if_neg hr, if_pos hf, Nat.add_sub_cancel_left, hbits]
  simp only [decodeFrom, hb, hnext]

theorem decodeFrom_last {offset n low high : Nat} (hs : n < 0xD800 ∨ 0xE000 ≤ n)
    (hl : low ≤ 0x80 + n % 64) (hh : 0x80 + n % 64 ≤ high) (bs : List UInt8) :
    decodeFrom offset (some ⟨n / 64, 1, low, high⟩) (UInt8.ofNat (0x80 + n % 64) :: bs) =
      ⟨(Char.ofNat n, offset + 1) :: (decodeFrom (offset + 1) none bs).characters,
        (decodeFrom (offset + 1) none bs).ending⟩ := by
  have hb : (UInt8.ofNat (0x80 + n % 64)).toNat = 0x80 + n % 64 :=
    UInt8.toNat_ofNat_of_lt' (show 0x80 + n % 64 < 256 by omega)
  have hr : ¬ (0x80 + n % 64 < low ∨ high < 0x80 + n % 64) := by omega
  have hs' : ¬ (0xD800 ≤ n ∧ n < 0xE000) := by omega
  have hbits : n / 64 * 64 + n % 64 = n := Nat.div_add_mod' n 64
  have hnext : next ⟨n / 64, 1, low, high⟩ (0x80 + n % 64) = .character (Char.ofNat n) := by
    simp only [next, if_neg hr, Nat.lt_irrefl, if_false, Nat.add_sub_cancel_left, hbits, if_neg hs']
  simp only [decodeFrom, hb, hnext]

theorem decodeFrom_encodeChar (offset : Nat) (c : Char) (bs : List UInt8) : ∃ offset',
    decodeFrom offset none (encodeChar c ++ bs) =
      ⟨(c, offset') :: (decodeFrom offset' none bs).characters,
        (decodeFrom offset' none bs).ending⟩ := by
  obtain ⟨n, hn⟩ : ∃ n, n = c.toNat := ⟨_, rfl⟩
  have hrange := toNat_range c
  have hc : c = Char.ofNat n := by rw [hn, Char.ofNat_toNat]
  have h64 : n / 4096 = n / 64 / 64 := by omega
  have h64' : n / 262144 = n / 64 / 64 / 64 := by omega
  rw [encodeChar, ← hn]
  rw [← hn] at hrange
  by_cases h1 : n < 0x80
  · have hb : (UInt8.ofNat n).toNat = n := UInt8.toNat_ofNat_of_lt' (show n < 256 by omega)
    refine ⟨offset + 1, ?_⟩
    simp only [if_pos h1, List.cons_append, List.nil_append, decodeFrom, hb, first_one h1, hc]
  by_cases h2 : n < 0x800
  · have hfirst := first_two (k := n / 64) (by omega) (by omega)
    simp only [if_neg h1, if_pos h2, List.cons_append, List.nil_append]
    rw [decodeFrom_first (by omega) hfirst, decodeFrom_last (by omega) (by omega) (by omega), hc]
    exact ⟨_, rfl⟩
  by_cases h3 : n < 0x10000
  · have hfirst := first_three (k := n / 64 / 64) (by omega)
    simp only [if_neg h1, if_neg h2, if_pos h3, List.cons_append, List.nil_append, h64]
    rw [decodeFrom_first (by omega) hfirst,
      decodeFrom_middle (by decide) (by split <;> omega) (by omega),
      decodeFrom_last (by omega) (by omega) (by omega), hc]
    exact ⟨_, rfl⟩
  · have hfirst := first_four (k := n / 64 / 64 / 64) (by omega)
    simp only [if_neg h1, if_neg h2, if_neg h3, List.cons_append, List.nil_append, h64, h64']
    rw [decodeFrom_first (by omega) hfirst,
      decodeFrom_middle (by decide) (by split <;> omega) (by split <;> omega),
      decodeFrom_middle (by decide) (by omega) (by omega),
      decodeFrom_last (by omega) (by omega) (by omega), hc]
    exact ⟨_, rfl⟩

theorem decodeFrom_encode (offset : Nat) (s : List Char) :
    (decodeFrom offset none (encode s)).ending = .complete ∧
      (decodeFrom offset none (encode s)).characters.map (·.1) = s := by
  induction s generalizing offset with
  | nil => exact ⟨rfl, rfl⟩
  | cons c cs ih =>
    obtain ⟨offset', h⟩ := decodeFrom_encodeChar offset c (encode cs)
    have hcons : encode (c :: cs) = encodeChar c ++ encode cs := rfl
    obtain ⟨hending, hchars⟩ := ih offset'
    rw [hcons, h]
    exact ⟨hending, by rw [List.map_cons, hchars]⟩

theorem unifyNewlines_append {s : List Char} (h : '\r' ∉ s) (t : List Char) :
    unifyNewlines (s ++ t) = s ++ unifyNewlines t := by
  induction s with
  | nil => rfl
  | cons c s ih =>
    have hc : c ≠ '\r' := fun he => h (he ▸ List.mem_cons_self)
    have hs := ih fun hm => h (List.mem_cons_of_mem c hm)
    rw [List.cons_append, unifyNewlines, hs, List.cons_append]
    · exact fun _ he _ => hc he
    · exact hc

theorem unifyNewlines_of_not_mem {s : List Char} (h : '\r' ∉ s) : unifyNewlines s = s := by
  have hs := unifyNewlines_append h []
  rwa [List.append_nil, unifyNewlines, List.append_nil] at hs

end Utf8

end ProofCarrying.Text
