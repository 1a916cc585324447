import Mathlib.Algebra.BigOperators.Group.Finset.Basic
import Mathlib.Algebra.Order.BigOperators.Group.Finset
import Mathlib.Data.Fintype.Basic

/-!
# Totals of a map of words

The sum, as a natural number, of a map from a finite index type to `n`-bit words, and what point
updates and moves between two entries do to it. No entry of a map whose total fits in a word can
overflow by receiving what another entry gives.
-/

namespace WordMap
variable {ι : Type} {n : Nat}

/-- The sum of all entries, without wrap-around. -/
@[irreducible] def total [Fintype ι] (f : ι → BitVec n) : Nat := ∑ i, (f i).toNat

/-- Moving `a` from entry `i` to entry `j`: subtract first, then add to what is there by then. -/
def moved [DecidableEq ι] (f : ι → BitVec n) (i j : ι) (a : BitVec n) : ι → BitVec n :=
  let g := Function.update f i (f i - a)
  Function.update g j (g j + a)

section total
variable [Fintype ι] (f : ι → BitVec n)

theorem total_eq_sum : total f = ∑ i, (f i).toNat := by unfold total; rfl

theorem total_zero : total (fun _ : ι => (0 : BitVec n)) = 0 := by
  unfold total; simp

theorem apply_le_total (i : ι) : (f i).toNat ≤ total f := by
  unfold total
  exact Finset.single_le_sum (f := fun i => (f i).toNat) (fun _ _ => Nat.zero_le _)
    (Finset.mem_univ i)

variable [DecidableEq ι]

theorem total_update (i : ι) (x : BitVec n) :
    total (Function.update f i x) + (f i).toNat = total f + x.toNat := by
  have hf := Finset.add_sum_erase Finset.univ (fun k => (f k).toNat) (Finset.mem_univ i)
  have hg := Finset.add_sum_erase Finset.univ (fun k => (Function.update f i x k).toNat)
    (Finset.mem_univ i)
  have hrest : ∑ k ∈ Finset.univ.erase i, (Function.update f i x k).toNat =
      ∑ k ∈ Finset.univ.erase i, (f k).toNat :=
    Finset.sum_congr rfl fun k hk => by rw [Function.update_of_ne (Finset.ne_of_mem_erase hk)]
  simp only [Function.update_self] at hg
  unfold total
  omega

theorem add_le_total {i j : ι} (h : i ≠ j) : (f i).toNat + (f j).toNat ≤ total f := by
  have h0 : total (Function.update f i 0) + (f i).toNat = total f := by
    simpa using total_update f i 0
  have hj := apply_le_total (Function.update f i 0) j
  rw [Function.update_of_ne h.symm] at hj
  omega

end total

section moved
variable [DecidableEq ι] {f : ι → BitVec n} {i j k : ι} {a : BitVec n}

theorem moved_apply : moved f i j a k =
    (if k = j then (if j = i then f i - a else f j) + a else if k = i then f i - a else f k) := by
  simp only [moved, Function.update_apply]

theorem moved_self : moved f i i a = f := by
  funext k
  rw [moved_apply]
  rcases eq_or_ne k i with rfl | h
  · rw [if_pos rfl, if_pos rfl, BitVec.sub_add_cancel]
  · rw [if_neg h, if_neg h]

theorem moved_src (h : i ≠ j) : moved f i j a i = f i - a := by
  simp [moved_apply, h]

theorem moved_dst (h : i ≠ j) : moved f i j a j = f j + a := by
  simp [moved_apply, h.symm]

theorem moved_of_ne (hi : k ≠ i) (hj : k ≠ j) : moved f i j a k = f k := by
  simp [moved_apply, hi, hj]

variable [Fintype ι]

/-- The receiving entry cannot overflow while the total fits in a word. -/
theorem toNat_moved_dst (h : i ≠ j) (ha : a ≤ f i) (hf : total f < 2 ^ n) :
    (moved f i j a j).toNat = (f j).toNat + a.toNat := by
  have hle := add_le_total f h
  have ha' := BitVec.le_def.1 ha
  rw [moved_dst h]
  exact BitVec.toNat_add_of_lt (by omega)

omit [Fintype ι] in
theorem toNat_moved_src (h : i ≠ j) (ha : a ≤ f i) :
    (moved f i j a i).toNat = (f i).toNat - a.toNat := by
  rw [moved_src h]; exact BitVec.toNat_sub_of_le ha

theorem total_moved (ha : a ≤ f i) (hf : total f < 2 ^ n) : total (moved f i j a) = total f := by
  rcases eq_or_ne i j with rfl | h
  · rw [moved_self]
  · have h1 := total_update f i (f i - a)
    have h2 := total_update (Function.update f i (f i - a)) j
      (Function.update f i (f i - a) j + a)
    have hd := toNat_moved_dst h ha hf
    have hs := BitVec.toNat_sub_of_le ha
    have ha' := BitVec.le_def.1 ha
    rw [moved_dst h] at hd
    simp only [Function.update_of_ne (Ne.symm h)] at h2
    unfold moved
    simp only [Function.update_of_ne (Ne.symm h)]
    omega

end moved

end WordMap
