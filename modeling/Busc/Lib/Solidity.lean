import Mathlib.Algebra.Ring.Nat
import Mathlib.Tactic.Common

/-!
# Words, reverts and checked arithmetic

The part of Solidity the contracts are written in: 256-bit words, the ways a call reverts,
and the compiler's checked arithmetic. Every operation comes with the equation that says when it
returns `ok` and with what, so that a function built from them is inverted by `simp`.
-/

namespace Solidity

/-- `uint256`. -/
abbrev UInt256 := BitVec 256

/-- `int256`: the same bits as `uint256`, read in two's complement by `BitVec.toInt`; the cast
`uint256(x)` is the identity. -/
abbrev Int256 := BitVec 256

/-- Why a call reverts; `ε` is the type of the custom errors. -/
inductive Revert (ε : Type)
  /-- `Panic(0x11)`: checked arithmetic under- or overflowed. -/
  | arithmetic
  /-- `Panic(0x12)`: division by zero. -/
  | divisionByZero
  /-- A call to an address where no contract is. -/
  | noCode
  | require (reason : String)
  | error (e : ε)
deriving DecidableEq, Repr

variable {ε α β : Type}

/-- `require(c, e)`. -/
def require (c : Prop) [Decidable c] (e : Revert ε) : Except (Revert ε) Unit :=
  if c then .ok () else .error e

/-- `if (c) revert e`. -/
def revertIf (c : Prop) [Decidable c] (e : Revert ε) : Except (Revert ε) Unit :=
  if c then .error e else .ok ()

def checkedAdd (a b : UInt256) : Except (Revert ε) UInt256 :=
  if a.toNat + b.toNat < 2 ^ 256 then .ok (a + b) else .error .arithmetic

def checkedSub (a b : UInt256) : Except (Revert ε) UInt256 :=
  if b ≤ a then .ok (a - b) else .error .arithmetic

def checkedMul (a b : UInt256) : Except (Revert ε) UInt256 :=
  if a.toNat * b.toNat < 2 ^ 256 then .ok (a * b) else .error .arithmetic

def checkedDiv (a b : UInt256) : Except (Revert ε) UInt256 :=
  if b = 0 then .error .divisionByZero else .ok (a / b)

def checkedPow (a b : UInt256) : Except (Revert ε) UInt256 :=
  if a.toNat ^ b.toNat < 2 ^ 256 then .ok (BitVec.ofNat 256 (a.toNat ^ b.toNat))
  else .error .arithmetic

/-! ### When the operations return -/

theorem bind_eq_ok {x : Except (Revert ε) α} {f : α → Except (Revert ε) β} {b : β} :
    (x >>= f) = .ok b ↔ ∃ a, x = .ok a ∧ f a = .ok b := by
  cases x <;> simp [bind, Except.bind]

theorem pure_eq_ok {a b : α} : (pure a : Except (Revert ε) α) = .ok b ↔ b = a := by
  simp only [pure, Except.pure, Except.ok.injEq, eq_comm]

theorem ite_eq_ok {c : Prop} [Decidable c] {a b : α} {e : Revert ε} :
    (if c then .ok a else .error e) = (.ok b : Except (Revert ε) α) ↔ c ∧ b = a := by
  split
  · exact ⟨fun h => ⟨‹c›, (Except.ok.inj h).symm⟩, fun h => by rw [h.2]⟩
  · exact ⟨nofun, fun h => absurd h.1 ‹¬ c›⟩

theorem dite_eq_ok {c : Prop} [Decidable c] {f : c → α} {b : α} {e : Revert ε} :
    (if h : c then .ok (f h) else .error e) = (.ok b : Except (Revert ε) α) ↔ ∃ h, b = f h := by
  split
  · exact ⟨fun h => ⟨‹c›, (Except.ok.inj h).symm⟩, fun ⟨_, h⟩ => by rw [h]⟩
  · exact ⟨nofun, fun ⟨h, _⟩ => absurd h ‹¬ c›⟩

theorem require_eq_ok {c : Prop} [Decidable c] {e : Revert ε} {u : Unit} :
    require c e = .ok u ↔ c :=
  ite_eq_ok.trans (and_iff_left rfl)

theorem revertIf_eq_ok {c : Prop} [Decidable c] {e : Revert ε} {u : Unit} :
    revertIf c e = .ok u ↔ ¬ c := by
  unfold revertIf; split <;> simp [*]

theorem checkedAdd_eq_ok {a b c : UInt256} :
    (checkedAdd a b : Except (Revert ε) UInt256) = .ok c ↔
      a.toNat + b.toNat < 2 ^ 256 ∧ c = a + b := ite_eq_ok

theorem checkedSub_eq_ok {a b c : UInt256} :
    (checkedSub a b : Except (Revert ε) UInt256) = .ok c ↔ b ≤ a ∧ c = a - b := ite_eq_ok

theorem checkedMul_eq_ok {a b c : UInt256} :
    (checkedMul a b : Except (Revert ε) UInt256) = .ok c ↔
      a.toNat * b.toNat < 2 ^ 256 ∧ c = a * b := ite_eq_ok

theorem checkedDiv_eq_ok {a b c : UInt256} :
    (checkedDiv a b : Except (Revert ε) UInt256) = .ok c ↔ b ≠ 0 ∧ c = a / b := by
  unfold checkedDiv; rw [← ite_not]; exact ite_eq_ok

theorem checkedPow_eq_ok {a b c : UInt256} :
    (checkedPow a b : Except (Revert ε) UInt256) = .ok c ↔
      a.toNat ^ b.toNat < 2 ^ 256 ∧ c = BitVec.ofNat 256 (a.toNat ^ b.toNat) := ite_eq_ok

theorem exists_toNat {n : Nat} (h : n < 2 ^ 256) : ∃ x : UInt256, x.toNat = n :=
  ⟨BitVec.ofNat 256 n, (BitVec.toNat_ofNat _ _).trans (Nat.mod_eq_of_lt h)⟩

/-- A loop that adds up what `f` returns for the entries of a list, in checked arithmetic. -/
theorem foldlM_checkedAdd_eq_ok {ι : Type} {f : ι → Except (Revert ε) UInt256} {P : ι → Prop}
    {g : ι → Nat} (hf : ∀ i v, f i = .ok v ↔ P i ∧ v.toNat = g i) {l : List ι} {a c : UInt256} :
    l.foldlM (fun acc i => do checkedAdd acc (← f i)) a = .ok c ↔
      (∀ i ∈ l, P i) ∧ c.toNat = a.toNat + (l.map g).sum := by
  induction l generalizing a with
  | nil => simp [pure_eq_ok, BitVec.toNat_inj]
  | cons i l ih =>
    simp only [List.foldlM_cons, bind_eq_ok, checkedAdd_eq_ok, hf, ih, List.mem_cons,
      forall_eq_or_imp, List.map_cons, List.sum_cons]
    constructor
    · rintro ⟨_, ⟨v, ⟨hi, hv⟩, hlt, rfl⟩, hl, hc⟩
      rw [BitVec.toNat_add_of_lt hlt] at hc
      exact ⟨⟨hi, hl⟩, by omega⟩
    · rintro ⟨⟨hi, hl⟩, hc⟩
      have hc' := c.isLt
      obtain ⟨v, hv⟩ := exists_toNat (n := g i) (by omega)
      have hlt : a.toNat + v.toNat < 2 ^ 256 := by omega
      refine ⟨_, ⟨v, ⟨hi, hv⟩, hlt, rfl⟩, hl, ?_⟩
      rw [BitVec.toNat_add_of_lt hlt]
      omega

/-! ### Words as naturals -/

theorem toNat_sub_of_le {a b : UInt256} (h : b ≤ a) : (a - b).toNat = a.toNat - b.toNat :=
  BitVec.toNat_sub_of_le h

theorem sub_eq_zero_of_le {a b : UInt256} (ha : a = 0) (h : b ≤ a) : a - b = 0 := by
  subst ha
  rw [BitVec.le_zero_iff.1 h]; rfl

theorem not_le_zero {a : UInt256} : ¬ a ≤ 0 ↔ a ≠ 0 := not_congr BitVec.le_zero_iff

theorem toNat_pos_of_ne {a : UInt256} (h : a ≠ 0) : 0 < a.toNat := by
  rw [Nat.pos_iff_ne_zero]
  exact fun h0 => h (BitVec.eq_of_toNat_eq (by simpa using h0))

theorem ne_zero_of_toNat_pos {a : UInt256} (h : 0 < a.toNat) : a ≠ 0 := by
  rintro rfl; simp at h

/-- A negative `int256` is cast to a word in the upper half. -/
theorem le_toNat_of_toInt_neg {x : Int256} (h : x.toInt < 0) : 2 ^ 255 ≤ x.toNat := by
  rw [BitVec.toInt_eq_toNat_cond] at h
  split at h <;> omega

/-- On a non-negative `int256` the cast to `uint256` keeps the number. -/
theorem toNat_eq_toInt {x : Int256} (h : 0 ≤ x.toInt) : (x.toNat : Int) = x.toInt := by
  rw [BitVec.toInt_eq_toNat_cond] at h ⊢
  split at h
  · rw [if_pos ‹_›]
  · have := x.isLt; omega

end Solidity
