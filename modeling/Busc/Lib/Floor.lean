import Mathlib.Algebra.Order.BigOperators.Group.List
import Mathlib.Algebra.Order.Group.Nat
import Mathlib.Algebra.Order.Ring.Nat
import Mathlib.Tactic.Linarith
import Mathlib.Tactic.Ring

/-!
# Rounding down

`rate n m x` is `x` converted at the rate `n / m` and rounded down; there and back it loses less than
one unit on either side, and never gains. `Splits f k` says the same of a sum: cutting the argument of
`f` in two never gains, and loses at most `k`, so cutting it into a list of parts loses at most `k`
for each cut. The last section compares two quotients by their floors.
-/

namespace Floor

def rate (n m x : Nat) : Nat := x * n / m

section rate
variable (n m x : Nat)

theorem rate_mul_le : rate n m x * m ≤ x * n := Nat.div_mul_le_self _ _

theorem rate_rate_le : rate m n (rate n m x) ≤ x := by
  rcases Nat.eq_zero_or_pos n with rfl | hn
  · simp [rate]
  · exact Nat.le_of_mul_le_mul_right ((rate_mul_le m n _).trans (rate_mul_le n m x)) hn

variable {n m}

theorem lt_rate_succ_mul (hm : 0 < m) : x * n < (rate n m x + 1) * m := by
  rw [Nat.mul_comm (_ + 1)]
  exact Nat.lt_mul_div_succ _ hm

theorem sub_rate_rate_mul_lt (hn : 0 < n) (hm : 0 < m) :
    (x - rate m n (rate n m x)) * n < n + m := by
  have h1 := lt_rate_succ_mul (n := n) x hm
  have h2 := lt_rate_succ_mul (n := m) (rate n m x) hn
  rw [Nat.add_mul] at h1 h2
  rw [Nat.sub_mul]
  omega

end rate

/-! ### Cutting a sum -/

section splits
variable {α β : Type} [AddMonoid α] [AddCommMonoid β] [PartialOrder β] [IsOrderedAddMonoid β]

/-- The values at two arguments add up to at most the value at their sum, and to at most `k` less. -/
structure Splits (f : α → β) (k : β) : Prop where
  add_le : ∀ x y, f x + f y ≤ f (x + y)
  le_add : ∀ x y, f (x + y) ≤ f x + f y + k

variable {f : α → β} {k : β} {l : List α}

theorem Splits.sum_le (h : Splits f k) (h0 : 0 ≤ f 0) : (l.map f).sum ≤ f l.sum := by
  induction l with
  | nil => simpa using h0
  | cons x l ih =>
    simp only [List.map_cons, List.sum_cons]
    exact (add_le_add_right ih (f x)).trans (h.add_le x l.sum)

theorem Splits.le_sum (h : Splits f k) (hl : l ≠ []) :
    f l.sum ≤ (l.map f).sum + (l.length - 1) • k := by
  induction l with
  | nil => exact absurd rfl hl
  | cons x l ih =>
    rcases eq_or_ne l [] with rfl | hne
    · simp
    · obtain ⟨n, hn⟩ := Nat.exists_eq_succ_of_ne_zero (List.length_pos_iff.2 hne).ne'
      have hrest := ih hne
      rw [hn, Nat.succ_sub_one] at hrest
      simp only [List.map_cons, List.sum_cons, List.length_cons, Nat.add_sub_cancel, hn,
        Nat.succ_eq_add_one, succ_nsmul]
      calc f (x + l.sum) ≤ f x + f l.sum + k := h.le_add x l.sum
        _ ≤ f x + ((l.map f).sum + n • k) + k := by gcongr
        _ = f x + (l.map f).sum + (n • k + k) := by simp only [add_assoc]

end splits

theorem rate_splits {n m : Nat} : Splits (rate n m) 1 where
  add_le x y := by
    unfold rate
    rw [Nat.add_mul]
    exact Nat.div_add_div_le_add_div
  le_add x y := by
    unfold rate
    rcases Nat.eq_zero_or_pos m with rfl | hm
    · simp
    · rw [Nat.add_mul, Nat.add_div hm]
      split <;> omega

/-! ### Comparing quotients -/

section quotients
variable {a b c d k : Nat}

theorem mul_lt_mul_of_div_lt (hb : 0 < b) (h : a * k / b < c * k / d) : a * d < c * b := by
  by_contra hle
  refine absurd h (Nat.not_lt.2 ((Nat.le_div_iff_mul_le hb).2 ?_))
  rcases Nat.eq_zero_or_pos d with rfl | hd
  · simp
  · refine Nat.le_of_mul_le_mul_right (c := d) ?_ hd
    calc c * k / d * b * d = c * k / d * d * b := by ring
      _ ≤ c * k * b := Nat.mul_le_mul_right b (Nat.div_mul_le_self _ _)
      _ = c * b * k := by ring
      _ ≤ a * d * k := Nat.mul_le_mul_right k (Nat.not_lt.1 hle)
      _ = a * k * d := by ring

/-- Quotients that differ by one or more have different floors. -/
theorem div_lt_div_of_gap (hb : 0 < b) (hd : 0 < d) (h : a * d * k + b * d ≤ c * b * k) :
    a * k / b < c * k / d := by
  refine Nat.lt_of_succ_le ((Nat.le_div_iff_mul_le hd).2 ?_)
  refine Nat.le_of_mul_le_mul_right (c := b) ?_ hb
  calc (a * k / b + 1) * d * b = a * k / b * b * d + b * d := by ring
    _ ≤ a * k * d + b * d := by
      have := Nat.mul_le_mul_right d (Nat.div_mul_le_self (a * k) b)
      omega
    _ = a * d * k + b * d := by ring
    _ ≤ c * b * k := h
    _ = c * k * b := by ring

end quotients

end Floor
