import Busc.Entry
import Busc.Lib.Diamond
import Mathlib.Algebra.Group.Pi.Lemmas
import Mathlib.Algebra.Group.Prod
import Mathlib.Data.BitVec
import Mathlib.Tactic.Abel

/-!
# The state as words

All the words an operation can change, read as one element of a commutative group: deposits, debts,
and of every token the balances, allowances and supply. Each leg adds to them an amount that depends
on its arguments and on whether the allowance it spends is infinite, and on nothing else.
-/

namespace Busc
open Solidity WordMap BUSCmotor Diamond

namespace ERC20

abbrev Words := (Address → UInt256) × (Address → Address → UInt256) × UInt256

def words (t : ERC20) : Words := (t.balances, t.allowances, t.totalSupply)

variable (t : ERC20) {owner spender src dst account : Address} {amount : UInt256}

theorem words_move (h : amount ≤ t.balances src) : (t.move src dst amount h).words =
    t.words + (Pi.single dst amount - Pi.single src amount, 0, 0) := by
  refine Prod.ext ?_ (Prod.ext (add_zero _).symm (add_zero _).symm)
  show moved t.balances src dst amount = t.balances + (Pi.single dst amount - Pi.single src amount)
  simp only [moved]
  rw [update_eq_add_single, update_eq_add_single t.balances, add_sub_cancel_left, sub_sub_cancel_left,
    Pi.single_neg]
  abel

theorem words_issue (h : t.totalSupply.toNat + amount.toNat < 2 ^ 256) :
    (t.issue account amount h).words = t.words + (Pi.single account amount, 0, amount) := by
  refine Prod.ext ?_ (Prod.ext (add_zero _).symm rfl)
  exact (update_eq_add_single ..).trans (by rw [add_sub_cancel_left]; rfl)

theorem words_destroy (h : amount ≤ t.balances account) :
    (t.destroy account amount h).words = t.words + (Pi.single account (-amount), 0, -amount) := by
  refine Prod.ext ?_ (Prod.ext (add_zero _).symm (sub_eq_add_neg _ _))
  exact (update_eq_add_single ..).trans (by rw [sub_sub_cancel_left]; rfl)

theorem words_spend : (t.spend owner spender amount).words = t.words +
    (0, if t.allowances owner spender = uintMax then 0
      else Pi.single owner (Pi.single spender (-amount)), 0) := by
  refine Prod.ext (add_zero _).symm (Prod.ext ?_ (add_zero _).symm)
  show (if t.allowances owner spender = uintMax then t.allowances else _) = t.allowances + _
  split
  · exact (add_zero _).symm
  · rw [update_eq_add_single, update_eq_add_single (t.allowances owner), add_sub_cancel_left,
      sub_sub_cancel_left]

end ERC20

namespace World

/-- All words an operation can change. -/
abbrev Words := (Address → Address → UInt256) × (Address → UInt256) × (Address → ERC20.Words)

def words (w : World) : Words := (w.deposit, w.debt, fun a => (w.erc20 a).words)

/-- The words, the frame and the flag are the whole state. -/
theorem eq_of_words {w w' : World} (hf : w.Frame w') (hs : w'.motor.status = w.motor.status)
    (hw : w'.words = w.words) : w' = w := by
  obtain ⟨_, _, _, erc20, _, _, _, _, deposits, debts, _, _⟩ := w
  obtain ⟨_, _, _, erc20', _, _, _, _, deposits', debts', _, _⟩ := w'
  obtain ⟨rfl, rfl, rfl, rfl, rfl, rfl, rfl, rfl⟩ := hf
  cases hs
  simp only [words, Prod.mk.injEq] at hw
  obtain ⟨hd, hD, ht⟩ := hw
  have herc : erc20' = erc20 := funext fun a => by
    have h := congrFun ht a
    simp only [ERC20.words, Prod.mk.injEq] at h
    exact ERC20.ext h.1 h.2.1 h.2.2
  cases (show deposits' = deposits from hd)
  cases (show debts' = debts from hD)
  rw [herc]

/-- Where the same is added to the words, the same is added to each part. -/
theorem parts_of_words {w w₁ w' w₁' : World} (h : w₁'.words - w'.words = w₁.words - w.words) :
    w₁'.deposit - w'.deposit = w₁.deposit - w.deposit ∧ w₁'.debt - w'.debt = w₁.debt - w.debt ∧
      ∀ t, (w₁'.erc20 t).balances - (w'.erc20 t).balances =
          (w₁.erc20 t).balances - (w.erc20 t).balances ∧
        (w₁'.erc20 t).allowances - (w'.erc20 t).allowances =
          (w₁.erc20 t).allowances - (w.erc20 t).allowances := by
  simp only [words, ERC20.words, Prod.mk_sub_mk, Prod.mk.injEq] at h
  obtain ⟨hd, hD, ht⟩ := h
  refine ⟨hd, hD, fun t => ?_⟩
  have h := congrFun ht t
  simp only [Pi.sub_apply, Prod.mk_sub_mk, Prod.mk.injEq] at h
  exact ⟨h.1, h.2.1⟩

variable {w : World} {user token : Address} {amount : UInt256} {t : ERC20}

theorem words_setDeposit : (w.setDeposit user token amount).words = w.words +
    (Pi.single user (Pi.single token (amount - w.deposit user token)), 0, 0) := by
  refine Prod.ext ?_ (Prod.ext (add_zero _).symm (add_zero _).symm)
  refine (update_eq_add_single w.deposit user _).trans ?_
  rw [show w.motor.userCollateralDeposits user = w.deposit user from rfl,
    update_eq_add_single (w.deposit user), add_sub_cancel_left]
  rfl

theorem words_setDebt : (w.setDebt user amount).words = w.words +
    (0, Pi.single user (amount - w.debt user), 0) :=
  Prod.ext (add_zero _).symm (Prod.ext (update_eq_add_single w.debt user amount) (add_zero _).symm)

theorem words_setToken : (w.setToken token t).words = w.words +
    (0, 0, Pi.single token (t.words - (w.erc20 token).words)) := by
  refine Prod.ext (add_zero _).symm (Prod.ext (add_zero _).symm ?_)
  have h := update_eq_add_single (fun a => (w.erc20 a).words) token t.words
  refine Eq.trans (funext fun a => ?_) h
  show (Function.update w.erc20 token t a).words = _
  rw [Function.update_apply, Function.update_apply]
  split <;> rfl

/-! ### What a leg adds -/

section effect
variable {src dst whose payer : Address}

theorem words_deposited (h : w.CanDeposit user token amount) : (w.deposited h).words - w.words =
    (Pi.single user (Pi.single token amount), 0, 0) +
      (0, 0, Pi.single token ((0, if (w.erc20 token).allowances user w.self = uintMax then 0
        else Pi.single user (Pi.single w.self (-amount)), 0) +
          (Pi.single w.self amount - Pi.single user amount, 0, 0))) := by
  rw [deposited, words_setToken, words_setDeposit, ERC20.words_move, ERC20.words_spend,
    setDeposit_erc20, add_sub_cancel_left, add_assoc, add_assoc, add_sub_cancel_left,
    add_sub_cancel_left]

theorem words_pulled (h : w.CanPull src dst token amount) : (w.pulled h).words - w.words =
    (Pi.single src (Pi.single token (-amount)), 0, 0) +
      (0, 0, Pi.single token (Pi.single dst amount - Pi.single w.self amount, 0, 0)) := by
  rw [pulled, words_setToken, words_setDeposit, ERC20.words_move, setDeposit_erc20,
    sub_sub_cancel_left, add_assoc, add_sub_cancel_left, add_sub_cancel_left]

theorem words_minted (h : w.CanMint user amount) : (w.minted h).words - w.words =
    (0, Pi.single user amount, 0) +
      (0, 0, Pi.single w.motor.iBUSC (Pi.single user amount, 0, amount)) := by
  rw [minted, words_setToken, words_setDebt, ERC20.words_issue, setDebt_erc20,
    add_sub_cancel_left, add_assoc, add_sub_cancel_left, add_sub_cancel_left]

theorem words_burned (h : w.CanBurn whose payer amount) : (w.burned h).words - w.words =
    (0, Pi.single whose (-amount), 0) +
      (0, 0, Pi.single w.motor.iBUSC ((0, if (w.erc20 w.motor.iBUSC).allowances payer w.self = uintMax
        then 0 else Pi.single payer (Pi.single w.self (-amount)), 0) +
          (Pi.single payer (-amount), 0, -amount))) := by
  rw [burned, words_setToken, words_setDebt, ERC20.words_destroy, ERC20.words_spend, setDebt_erc20,
    sub_sub_cancel_left, add_assoc, add_assoc, add_sub_cancel_left, add_sub_cancel_left]

end effect

end World

end Busc
