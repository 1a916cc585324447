import Mathlib.Algebra.BigOperators.Group.Finset.Basic
import Mathlib.Algebra.BigOperators.Ring.Finset
import Mathlib.Algebra.Order.BigOperators.Group.Finset

/-!
# Collateralized debt positions

What a lender against collateral is for, over any accounts `υ` and any kinds of collateral `κ`. A
market says what amounts are worth; values may be rounded, as long as rounding never favours the
split amount. An account is safe at ratio `r` when it owes nothing or holds `r` times what it owes.
A step gives every account one of three fates, and none of them makes a safe account unsafe; when all
accounts are safe, the pooled collateral is worth `r` times the debt.
-/

namespace Cdp
variable {υ κ : Type}

structure Market (κ : Type) where
  listed : List κ
  value : κ → Nat → Nat
  value_add : ∀ t a b, value t a + value t b ≤ value t (a + b)

structure Book (υ κ : Type) where
  deposit : υ → κ → Nat
  debt : υ → Nat

namespace Market
variable (m : Market κ)

theorem value_mono (t : κ) {a b : Nat} (h : a ≤ b) : m.value t a ≤ m.value t b := by
  obtain ⟨c, rfl⟩ := Nat.exists_eq_add_of_le h
  exact (Nat.le_add_right _ _).trans (m.value_add t a c)

theorem value_zero (t : κ) : m.value t 0 = 0 := by
  have := m.value_add t 0 0
  rw [Nat.add_zero] at this
  omega

/-- The price of `t` falls, but to no less than one `r`th, up to the rounding of values; no other
price falls. -/
structure Fall (m m' : Market κ) (r : Nat) (t : κ) : Prop where
  listed : m.listed = m'.listed
  fall : ∀ a, m.value t a < r * (m'.value t a + 1)
  others : ∀ t', t' ≠ t → ∀ a, m.value t' a ≤ m'.value t' a

theorem sum_value_le (t : κ) (s : Finset υ) (f : υ → Nat) :
    ∑ u ∈ s, m.value t (f u) ≤ m.value t (∑ u ∈ s, f u) := by
  classical
  induction s using Finset.induction_on with
  | empty => simp
  | insert u s hu ih =>
    rw [Finset.sum_insert hu, Finset.sum_insert hu]
    exact (Nat.add_le_add_left ih _).trans (m.value_add t _ _)

end Market

namespace Book
variable (b b' : Book υ κ) (m m' : Market κ) (r : Nat) (u : υ)

def collateral : Nat := (m.listed.map fun t => m.value t (b.deposit u t)).sum

/-- The account owes nothing, or holds `r` times what it owes. -/
def Safe : Prop := b.debt u = 0 ∨ r * b.debt u ≤ b.collateral m u

/-- What the collateral lacks of the debt. -/
def shortfall : Nat := b.debt u - b.collateral m u

/-- What a step does to one account. -/
inductive Fate : Prop
  /-- Collateral was added or debt paid back, and nothing taken. -/
  | raised (deposit : ∀ t ∈ m.listed, b.deposit u t ≤ b'.deposit u t) (debt : b'.debt u ≤ b.debt u)
  /-- Anything was done to the account, and it was checked afterwards. -/
  | checked (after : b'.Safe m r u)
  /-- Anything was done to the account, which was not safe before. -/
  | exposed (before : ¬ b.Safe m r u)

def Step : Prop := ∀ u, Fate b b' m r u

variable {b b' m m' r u}

theorem collateral_le (hl : m.listed = m'.listed)
    (h : ∀ t ∈ m.listed, m.value t (b.deposit u t) ≤ m'.value t (b'.deposit u t)) :
    b.collateral m u ≤ b'.collateral m' u := by
  unfold collateral
  rw [← hl]
  exact List.sum_le_sum h

theorem collateral_mono (h : ∀ t ∈ m.listed, b.deposit u t ≤ b'.deposit u t) :
    b.collateral m u ≤ b'.collateral m u :=
  collateral_le rfl fun t ht => m.value_mono t (h t ht)

theorem Safe.of_le (h : b.Safe m r u) (hc : b.collateral m u ≤ b'.collateral m' u)
    (hd : b'.debt u ≤ b.debt u) : b'.Safe m' r u := by
  rcases h with h0 | hr
  · exact .inl (by omega)
  · exact .inr ((Nat.mul_le_mul_left r hd).trans (hr.trans hc))

theorem Fate.safe (h : Fate b b' m r u) (hs : b.Safe m r u) : b'.Safe m r u := by
  cases h with
  | raised deposit debt => exact hs.of_le (collateral_mono deposit) debt
  | checked after => exact after
  | exposed before => exact absurd hs before

theorem Safe.reprice (h : b.Safe m r u) (hl : m.listed = m'.listed)
    (hv : ∀ t ∈ m.listed, m.value t (b.deposit u t) ≤ m'.value t (b.deposit u t)) :
    b.Safe m' r u :=
  h.of_le (collateral_le hl hv) le_rfl

/-- One price may fall to one `r`th, and the collateral loses no more than its share and what one
rounding hides. -/
theorem collateral_lt_of_fall {t : κ} (hf : m.Fall m' r t) (hr : 0 < r) (hnd : m.listed.Nodup) :
    b.collateral m u < r * (b.collateral m' u + 1) := by
  have hothers (l : List κ) (ht : t ∉ l) : (l.map fun t => m.value t (b.deposit u t)).sum ≤
      r * (l.map fun t => m'.value t (b.deposit u t)).sum :=
    (List.sum_le_sum fun t' ht' => hf.others t' (fun e => ht (e ▸ ht')) _).trans
      (Nat.le_mul_of_pos_left _ hr)
  unfold collateral
  rw [← hf.listed]
  by_cases ht : t ∈ m.listed
  swap
  · have := hothers _ ht
    rw [Nat.mul_succ]
    omega
  obtain ⟨l₁, l₂, hl⟩ := List.append_of_mem ht
  rw [hl] at hnd
  obtain ⟨-, h2, hdisj⟩ := List.nodup_append.1 hnd
  have h1 := hothers l₁ fun hm => hdisj t hm t List.mem_cons_self rfl
  have h2 := hothers l₂ (List.nodup_cons.1 h2).1
  have hfall := hf.fall (b.deposit u t)
  simp only [hl, List.map_append, List.map_cons, List.sum_append, List.sum_cons, Nat.mul_add,
    Nat.mul_one] at h1 h2 hfall ⊢
  omega

/-- What is safe at ratio `r * k` is safe at ratio `k` after one price has fallen to one `r`th. -/
theorem Safe.fall {t : κ} {k : Nat} (h : b.Safe m (r * k) u) (hf : m.Fall m' r t) (hr : 0 < r)
    (hnd : m.listed.Nodup) : b.Safe m' k u := by
  refine h.imp id fun h => ?_
  have hlt := h.trans_lt (collateral_lt_of_fall hf hr hnd)
  rw [Nat.mul_assoc] at hlt
  exact Nat.le_of_lt_succ (Nat.lt_of_mul_lt_mul_left hlt)

/-- Safe at a ratio is safe at any lower one. -/
theorem Safe.lower {k : Nat} (h : b.Safe m r u) (hk : k ≤ r) : b.Safe m k u :=
  h.imp id (Nat.mul_le_mul_right _ hk).trans

/-- Safe at a ratio of one or more, the debt is covered. -/
theorem Safe.shortfall (h : b.Safe m r u) (hr : 1 ≤ r) : b.shortfall m u = 0 := by
  refine Nat.sub_eq_zero_of_le ?_
  rcases h.lower hr with h0 | hle
  · rw [h0]
    exact Nat.zero_le _
  · rwa [Nat.one_mul] at hle

/-- More collateral and less debt leave no more uncovered. -/
theorem shortfall_mono (hc : b.collateral m u ≤ b'.collateral m' u) (hd : b'.debt u ≤ b.debt u) :
    b'.shortfall m' u ≤ b.shortfall m u := by
  unfold shortfall
  omega

/-! ### Paying off debt for collateral -/

/-- `x` of the debt of `u` is paid off, and `s` of its collateral of kind `t` taken. -/
structure Swap (b b' : Book υ κ) (u : υ) (t : κ) (s x : Nat) : Prop where
  deposit : b'.deposit u t + s = b.deposit u t
  others : ∀ t', t' ≠ t → b'.deposit u t' = b.deposit u t'
  debt : b'.debt u + x = b.debt u

variable (b b' m u) in
/-- The ratio of half the collateral to the debt is higher in `b'`. -/
def Improves : Prop := b.collateral m u / 2 * b'.debt u < b'.collateral m u / 2 * b.debt u

namespace Swap
variable {t : κ} {s x : Nat} (h : Swap b b' u t s x)
include h

theorem deposit_le (t' : κ) : b'.deposit u t' ≤ b.deposit u t' := by
  classical
  rcases eq_or_ne t' t with rfl | ht
  · exact h.deposit ▸ Nat.le_add_right _ _
  · exact (h.others t' ht).le

/-- What is taken lowers the collateral by at least what it is worth. -/
theorem collateral_add_le (ht : t ∈ m.listed) :
    b'.collateral m u + m.value t s ≤ b.collateral m u := by
  obtain ⟨l₁, l₂, hl⟩ := List.append_of_mem ht
  have hle (l : List κ) : (l.map fun t => m.value t (b'.deposit u t)).sum ≤
      (l.map fun t => m.value t (b.deposit u t)).sum :=
    List.sum_le_sum fun t' _ => m.value_mono t' (h.deposit_le t')
  have h1 := hle l₁
  have h2 := hle l₂
  have hv := m.value_add t (b'.deposit u t) s
  rw [h.deposit] at hv
  unfold collateral
  simp only [hl, List.map_append, List.map_cons, List.sum_append, List.sum_cons]
  omega

theorem collateral_add (hnd : m.listed.Nodup) (ht : t ∈ m.listed) :
    b'.collateral m u + m.value t (b.deposit u t) =
      b.collateral m u + m.value t (b'.deposit u t) := by
  obtain ⟨l₁, l₂, hl⟩ := List.append_of_mem ht
  rw [hl] at hnd
  obtain ⟨-, h2, hdisj⟩ := List.nodup_append.1 hnd
  have heq (l : List κ) (hl : t ∉ l) : l.map (fun t => m.value t (b'.deposit u t)) =
      l.map fun t => m.value t (b.deposit u t) :=
    List.map_congr_left fun t' ht' => by rw [h.others t' fun e => hl (e ▸ ht')]
  unfold collateral
  simp only [hl, List.map_append, List.map_cons, List.sum_append, List.sum_cons,
    heq l₁ fun hm => hdisj t hm t List.mem_cons_self rfl, heq l₂ (List.nodup_cons.1 h2).1]
  omega

/-- Half of an odd amount loses half a unit, but never enough to lose the debt's cover. -/
theorem covers (hi : Improves b b' m u) (hc : b.debt u ≤ b.collateral m u) :
    b'.debt u ≤ b'.collateral m u := by
  have hx := h.debt
  unfold Improves at hi
  generalize b.collateral m u = C at *
  generalize b'.collateral m u = C' at *
  generalize b.debt u = D at *
  generalize b'.debt u = D' at *
  by_contra hlt
  have h1 : (D - 1) * D' ≤ 2 * (C / 2 * D') := by
    rw [← Nat.mul_assoc]
    exact Nat.mul_le_mul_right _ (by omega)
  have h2 : 2 * (C' / 2 * D) ≤ (D' - 1) * D := by
    rw [← Nat.mul_assoc]
    exact Nat.mul_le_mul_right _ (by omega)
  have h3 : (D' - 1) * D ≤ (D - 1) * D' := by
    rw [Nat.sub_mul, Nat.sub_mul, Nat.mul_comm D']
    omega
  omega

/-- A swap that improves the position leaves no more uncovered than before. -/
theorem shortfall_le (hi : Improves b b' m u) : b'.shortfall m u ≤ b.shortfall m u := by
  rcases Nat.le_total (b.debt u) (b.collateral m u) with hc | hc
  · have hle := h.covers hi hc
    unfold shortfall
    omega
  have hx := h.debt
  unfold Improves at hi
  unfold shortfall
  generalize b.collateral m u = C at *
  generalize b'.collateral m u = C' at *
  generalize b.debt u = D at *
  generalize b'.debt u = D' at *
  by_contra hlt
  -- what is uncovered is what two halves of the collateral leave uncovered, up to the odd unit
  obtain ⟨e, he⟩ := Nat.exists_eq_add_of_le (show 2 * (C / 2) ≤ D by omega)
  have h1 : (2 * (C' / 2) + e) * D ≤ D' * D := Nat.mul_le_mul_right _ (by omega)
  have h2 : D * D' = 2 * (C / 2 * D') + e * D' := by rw [he, Nat.add_mul, Nat.mul_assoc]
  have h3 : e * D' ≤ e * D := Nat.mul_le_mul_left _ (by omega)
  rw [Nat.add_mul, Nat.mul_assoc, Nat.mul_comm D'] at h1
  omega

/-- Taking more of the collateral than the share of the debt that is paid off, and a rounding, does
not improve the position, and cannot clear it. -/
theorem not_improves (ht : t ∈ m.listed) (hd : 0 < b.debt u)
    (hs : b.collateral m u * x + b.debt u ≤ m.value t s * b.debt u) :
    ¬ (b'.debt u = 0 ∨ Improves b b' m u) := by
  have hx := h.debt
  have hle := h.collateral_add_le ht
  unfold Improves
  generalize b.collateral m u = C at *
  generalize b'.collateral m u = C' at *
  generalize b'.debt u = D' at *
  generalize m.value t s = v at *
  rintro (rfl | hlt)
  · rw [Nat.zero_add] at hx
    rw [hx, ← Nat.succ_mul] at hs
    have := Nat.le_of_mul_le_mul_right hs hd
    omega
  · have h1 := Nat.mul_le_mul_right (b.debt u) (show 2 * (C' / 2) + v ≤ C by omega)
    have h2 := Nat.mul_le_mul_right D' (show C ≤ 2 * (C / 2) + 1 by omega)
    have h3 : C * b.debt u = C * D' + C * x := by rw [← hx, Nat.mul_add]
    rw [Nat.add_mul, Nat.mul_assoc] at h1 h2
    omega

end Swap

/-! ### All accounts -/

/-- The debt that nothing covers. -/
def badDebt [Fintype υ] (b : Book υ κ) (m : Market κ) : Nat := ∑ u, b.shortfall m u

theorem sum_collateral_le [Fintype υ] : ∑ u, b.collateral m u ≤
    (m.listed.map fun t => m.value t (∑ u, b.deposit u t)).sum := by
  unfold collateral
  generalize m.listed = l
  induction l with
  | nil => simp
  | cons t l ih =>
    simp only [List.map_cons, List.sum_cons, Finset.sum_add_distrib]
    exact Nat.add_le_add (m.sum_value_le t _ _) ih

/-- What the pooled collateral does not cover is bad debt. -/
theorem sum_debt_le [Fintype υ] (held : κ → Nat) (hh : ∀ t ∈ m.listed, ∑ u, b.deposit u t ≤ held t) :
    ∑ u, b.debt u ≤ (m.listed.map fun t => m.value t (held t)).sum + b.badDebt m := by
  have hacc : ∀ u, b.debt u ≤ b.collateral m u + b.shortfall m u := fun u => by
    unfold shortfall
    omega
  calc ∑ u, b.debt u ≤ ∑ u, (b.collateral m u + b.shortfall m u) :=
        Finset.sum_le_sum fun u _ => hacc u
    _ = ∑ u, b.collateral m u + b.badDebt m := Finset.sum_add_distrib
    _ ≤ (m.listed.map fun t => m.value t (∑ u, b.deposit u t)).sum + b.badDebt m :=
        Nat.add_le_add_right sum_collateral_le _
    _ ≤ _ := Nat.add_le_add_right
        (List.sum_le_sum fun t ht => m.value_mono t (hh t ht)) _

/-- The pooled collateral covers all debt at the ratio the accounts keep. -/
theorem solvent [Fintype υ] (hs : ∀ u, b.Safe m r u) (held : κ → Nat)
    (hh : ∀ t ∈ m.listed, ∑ u, b.deposit u t ≤ held t) :
    r * ∑ u, b.debt u ≤ (m.listed.map fun t => m.value t (held t)).sum := by
  have hacc : ∀ u, r * b.debt u ≤ b.collateral m u := fun u => by
    rcases hs u with h0 | hr
    · rw [h0, Nat.mul_zero]; exact Nat.zero_le _
    · exact hr
  calc r * ∑ u, b.debt u = ∑ u, r * b.debt u := Finset.mul_sum ..
    _ ≤ ∑ u, b.collateral m u := Finset.sum_le_sum fun u _ => hacc u
    _ ≤ (m.listed.map fun t => m.value t (∑ u, b.deposit u t)).sum := sum_collateral_le
    _ ≤ _ := List.sum_le_sum fun t ht => m.value_mono t (hh t ht)

end Book

end Cdp
