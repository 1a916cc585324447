import Busc.Invariant
import Busc.Isolation

/-!
# What accounts own

What an account owns of a token: its balance and its deposit, less its debt in the case of `BUSC`. No
operation of the motor changes that for anyone, but a liquidation, which moves the seized collateral
from one account to another and the debt paid the other way. So over any run what an account owns is
what it owned, and what liquidations and token calls brought and took: there are no fees, and nothing is
lost on the way in and out.
-/

namespace Busc
open Solidity WordMap Machine BUSCmotor

section balances
variable {t : ERC20} {src dst : Address} {amount : UInt256}

theorem ERC20.move_balance (h : amount ≤ t.balances src) (dst account : Address) :
    ((t.move src dst amount h).balances account).toNat + (if account = src then amount.toNat else 0) =
      (t.balances account).toNat + if account = dst then amount.toNat else 0 := by
  have hle := BitVec.le_def.1 h
  rcases eq_or_ne src dst with rfl | hne
  · rw [ERC20.move_balances, moved_self]
  · rcases eq_or_ne account src with rfl | hs
    · rw [ERC20.toNat_move_src hne, if_pos rfl, if_neg hne]
      omega
    · rcases eq_or_ne account dst with rfl | hd
      · rw [ERC20.toNat_move_dst hne, if_neg hs, if_pos rfl, Nat.add_zero]
      · rw [ERC20.move_balances_of_ne hs hd, if_neg hs, if_neg hd]

theorem ERC20.issue_balance (h : t.totalSupply.toNat + amount.toNat < 2 ^ 256) (account : Address) :
    ((t.issue dst amount h).balances account).toNat =
      (t.balances account).toNat + if account = dst then amount.toNat else 0 := by
  rw [ERC20.toNat_issue_balances]
  simp only [eq_comm]

theorem ERC20.destroy_balance (h : amount ≤ t.balances src) (account : Address) :
    ((t.destroy src amount h).balances account).toNat + (if account = src then amount.toNat else 0) =
      (t.balances account).toNat := by
  have hle := BitVec.le_def.1 h
  rw [ERC20.destroy_balances, Function.update_apply]
  split
  · next e =>
    rw [e, toNat_sub_of_le h]
    omega
  · exact Nat.add_zero _

end balances

namespace World

/-- What `user` owns of `token`, net of its debt. -/
def worth (w : World) (user token : Address) : Int :=
  ((w.erc20 token).balances user).toNat + (w.deposit user token).toNat -
    if token = w.motor.iBUSC then ((w.debt user).toNat : Int) else 0

variable {w : World} {user token src dst whose payer u t : Address} {amount x : UInt256} {l : ERC20}

theorem worth_setDeposit : (w.setDeposit user token x).worth u t = w.worth u t +
    if u = user ∧ t = token then (x.toNat - (w.deposit user token).toNat : Int) else 0 := by
  unfold worth
  simp only [deposit_setDeposit, setDeposit_erc20, debt_setDeposit, setDeposit_motor_iBUSC]
  split
  · next e =>
    obtain ⟨rfl, rfl⟩ := e
    omega
  · omega

theorem worth_setDebt : (w.setDebt user x).worth u t = w.worth u t +
    if u = user ∧ t = w.motor.iBUSC then ((w.debt user).toNat - x.toNat : Int) else 0 := by
  unfold worth
  simp only [deposit_setDebt, setDebt_erc20, debt_setDebt, setDebt_motor_iBUSC]
  by_cases hu : u = user
  · subst hu
    by_cases ht : t = w.motor.iBUSC
    · simp only [if_true, ht, and_self]
      omega
    · simp only [ht, and_false, if_false, Int.add_zero]
  · simp only [hu, false_and, if_false, Int.add_zero]

theorem worth_setToken : (w.setToken token l).worth u t = w.worth u t +
    if t = token then ((l.balances u).toNat - ((w.erc20 token).balances u).toNat : Int) else 0 := by
  unfold worth
  simp only [deposit_setToken, debt_setToken, setToken_erc20, setToken_motor, Function.update_apply]
  split
  · next e =>
    subst e
    omega
  · omega

/-! ### Legs -/

theorem worth_deposited (h : w.CanDeposit user token amount) (hu : u ≠ w.self) :
    (w.deposited h).worth u t = w.worth u t := by
  have hdep := BitVec.toNat_add_of_lt h.room
  have hfunds : amount ≤ ((w.erc20 token).spend user w.self amount).balances user :=
    ERC20.le_spend h.funds
  have hmove := ERC20.move_balance hfunds w.self u
  rw [if_neg hu, ERC20.spend_balances] at hmove
  unfold deposited
  rw [worth_setToken, worth_setDeposit, setDeposit_erc20]
  by_cases ht : t = token
  · by_cases hu' : u = user
    · simp only [ht, hu', if_true, and_self] at hmove ⊢
      omega
    · simp only [ht, hu', if_true, false_and, if_false] at hmove ⊢
      omega
  · simp only [ht, and_false, if_false, Int.add_zero]

theorem worth_pulled (h : w.CanPull src dst token amount) (hu : u ≠ w.self) :
    (w.pulled h).worth u t + (if u = src ∧ t = token then (amount.toNat : Int) else 0) =
      w.worth u t + if u = dst ∧ t = token then (amount.toNat : Int) else 0 := by
  have hle := BitVec.le_def.1 h.deposit
  have hdep := toNat_sub_of_le h.deposit
  have hmove := ERC20.move_balance h.funds dst u
  rw [if_neg hu, Nat.add_zero] at hmove
  unfold pulled
  rw [worth_setToken, worth_setDeposit, setDeposit_erc20, hmove]
  by_cases ht : t = token
  · simp only [ht, and_true, if_true]
    split <;> split <;> omega
  · simp only [ht, and_false, if_false, Int.add_zero]

theorem worth_minted (h : w.CanMint user amount) : (w.minted h).worth u t = w.worth u t := by
  have hdebt := BitVec.toNat_add_of_lt h.room
  have hissue : (((w.erc20 w.motor.iBUSC).issue user amount h.supply).balances u).toNat = _ :=
    ERC20.issue_balance h.supply u
  unfold minted
  rw [worth_setToken, worth_setDebt, setDebt_erc20, hissue]
  by_cases ht : t = w.motor.iBUSC
  · simp only [ht, and_true, if_true]
    split
    · next hu =>
      subst hu
      omega
    · omega
  · simp only [ht, and_false, if_false, Int.add_zero]

theorem worth_burned (h : w.CanBurn whose payer amount) :
    (w.burned h).worth u t + (if u = payer ∧ t = w.motor.iBUSC then (amount.toNat : Int) else 0) =
      w.worth u t + if u = whose ∧ t = w.motor.iBUSC then (amount.toNat : Int) else 0 := by
  have hle := BitVec.le_def.1 h.debt
  have hdebt := toNat_sub_of_le h.debt
  have hfunds : amount ≤ ((w.erc20 w.motor.iBUSC).spend payer w.self amount).balances payer :=
    ERC20.le_spend h.funds
  have hdestroy := ERC20.destroy_balance hfunds u
  rw [ERC20.spend_balances] at hdestroy
  unfold burned
  rw [worth_setToken, worth_setDebt, setDebt_erc20]
  by_cases ht : t = w.motor.iBUSC
  · simp only [ht, and_true, if_true]
    by_cases hp : u = payer
    · by_cases hw : u = whose
      · simp only [if_pos hp, if_pos hw] at hdestroy ⊢
        omega
      · simp only [if_pos hp, if_neg hw] at hdestroy ⊢
        omega
    · by_cases hw : u = whose
      · simp only [if_neg hp, if_pos hw] at hdestroy ⊢
        omega
      · simp only [if_neg hp, if_neg hw] at hdestroy ⊢
        omega
  · simp only [ht, and_false, if_false, Int.add_zero]

end World

/-! ### What comes in and what goes out -/

/-- What an operation that goes through brings the account `u` of the token `t`. -/
def MotorOp.credit (w : World) (sender u t : Address) : MotorOp → Nat
  | .liquidate token user x => (if u = sender ∧ t = token then w.seized token x.toNat else 0) +
      if u = user ∧ t = w.motor.iBUSC then x.toNat else 0
  | _ => 0

/-- What it takes from the account. -/
def MotorOp.debit (w : World) (sender u t : Address) : MotorOp → Nat
  | .liquidate token user x => (if u = user ∧ t = token then w.seized token x.toNat else 0) +
      if u = sender ∧ t = w.motor.iBUSC then x.toNat else 0
  | _ => 0

def TokenCall.takenFrom (sender account : Address) : TokenCall → Nat
  | .transfer _ amount => if account = sender then amount.toNat else 0
  | .transferFrom src _ amount => if account = src then amount.toNat else 0
  | .burn amount => if account = sender then amount.toNat else 0
  | .burnFrom src amount => if account = src then amount.toNat else 0
  | _ => 0

def Action.credit (u t : Address) (w : World) : Action → Nat
  | .motor sender op => if (op.call .exact sender w).isOk then op.credit w sender u t else 0
  | .token sender tok call =>
    if t = tok ∧ (call.call sender tok w).isOk then call.sentTo u else 0
  | _ => 0

def Action.debit (u t : Address) (w : World) : Action → Nat
  | .motor sender op => if (op.call .exact sender w).isOk then op.debit w sender u t else 0
  | .token sender tok call =>
    if t = tok ∧ (call.call sender tok w).isOk then call.takenFrom sender u else 0
  | _ => 0

section calls
variable {w w' : World} {sender u t : Address}

theorem MotorOp.call_worth {op : MotorOp} (h : op.call .exact sender w = .ok w') (hu : u ≠ w.self) :
    w'.worth u t + op.debit w sender u t = w.worth u t + op.credit w sender u t := by
  cases op with
  | depositCollateralAndMintBUSC token a m =>
    obtain ⟨-, -, -, -, hd, -, hm, -, rfl⟩ := depositCollateralAndMintBUSC_eq_ok.1 h
    exact congrArg (· + _) ((World.worth_minted hm).trans (World.worth_deposited hd hu))
  | depositCollateral token a =>
    obtain ⟨-, -, -, hd, rfl⟩ := depositCollateral_eq_ok.1 h
    exact congrArg (· + _) (World.worth_deposited hd hu)
  | mintBUSC m =>
    obtain ⟨-, -, -, hm, -, rfl⟩ := mintBUSC_eq_ok.1 h
    exact congrArg (· + _) (World.worth_minted hm)
  | pullCollateralAndBurnBUSC token a b =>
    obtain ⟨-, -, hb, hp, -, rfl⟩ := pullCollateralAndBurnBUSC_eq_ok.1 h
    have h₁ := World.worth_burned (u := u) (t := t) hb
    have h₂ := World.worth_pulled (u := u) (t := t) hp hu
    exact congrArg (· + _) ((add_right_cancel h₂).trans (add_right_cancel h₁))
  | pullCollateral token a =>
    obtain ⟨-, -, hp, -, rfl⟩ := pullCollateral_eq_ok.1 h
    exact congrArg (· + _) (add_right_cancel (World.worth_pulled hp hu))
  | burnBUSC b =>
    obtain ⟨hb, -, rfl⟩ := burnBUSC_eq_ok.1 h
    exact congrArg (· + _) (add_right_cancel (World.worth_burned hb))
  | liquidate token user x =>
    obtain ⟨-, -, -, -, -, -, s, hs, hp, hb, -, -, -, rfl⟩ := liquidate_eq_ok.1 h
    have h₁ := World.worth_pulled (u := u) (t := t) hp hu
    have h₂ := World.worth_burned (u := u) (t := t) hb
    rw [hs] at h₁
    have hbusc : (w.pulled hp).motor.iBUSC = w.motor.iBUSC := rfl
    rw [hbusc] at h₂
    simp only [debit, credit, Nat.cast_add, Nat.cast_ite, Nat.cast_zero]
    omega

theorem TokenCall.ledger_balance {call : TokenCall} {l l' : ERC20} (h : call.ledger sender l = .ok l') :
    (l'.balances u).toNat + call.takenFrom sender u = (l.balances u).toNat + call.sentTo u := by
  cases TokenCall.ledger_step h with
  | transfer hs hd hle =>
    simp only [takenFrom, sentTo, eq_comm (b := u)]
    exact ERC20.move_balance hle _ u
  | transferFrom hc hs hd hle =>
    simp only [takenFrom, sentTo, eq_comm (b := u)]
    exact ERC20.move_balance hle _ u
  | approve => rfl
  | increaseAllowance => rfl
  | decreaseAllowance => rfl
  | mint ha hlt => exact ERC20.toNat_issue_balances
  | burn ha hle => exact ERC20.destroy_balance hle u
  | burnFrom hc ha hle => exact ERC20.destroy_balance hle u

end calls

namespace Inv
variable {w : World} {a : Action} {u t : Address}

theorem worth_exec (hi : Inv w) (ha : Legal w a) (hu : u ≠ w.self) :
    (Busc.exec w a).worth u t + a.debit u t w = w.worth u t + a.credit u t w := by
  cases a with
  | motor sender op =>
    show (outcome w (op.call .exact sender w)).worth u t +
        ((if (op.call .exact sender w).isOk then op.debit w sender u t else 0 : Nat) : Int) =
      w.worth u t + ((if (op.call .exact sender w).isOk then op.credit w sender u t else 0 : Nat) : Int)
    cases h : op.call .exact sender w with
    | error e => rfl
    | ok w' => exact MotorOp.call_worth h hu
  | token sender token call =>
    show (outcome w (call.call sender token w)).worth u t +
        ((if t = token ∧ (call.call sender token w).isOk then call.takenFrom sender u else 0 : Nat) : Int) =
      w.worth u t +
        ((if t = token ∧ (call.call sender token w).isOk then call.sentTo u else 0 : Nat) : Int)
    cases h : call.call sender token w with
    | error e => simp only [outcome, Except.isOk, Except.toBool, Bool.false_eq_true, and_false, if_false]
    | ok w' =>
      obtain ⟨-, l, hl, rfl⟩ := (TokenCall.call_eq_ok (hi.owner ▸ ha.symm)).1 h
      have hbal := TokenCall.ledger_balance (u := u) hl
      simp only [outcome, Except.isOk, Except.toBool, and_true]
      rw [World.worth_setToken]
      by_cases ht : t = token
      · simp only [ht, if_true]
        omega
      · simp only [ht, if_false, Int.add_zero]
  | owner sender call =>
    cases h : call.call sender w with
    | error e => rw [Busc.exec, outcome_error h]; rfl
    | ok w' => exact absurd h (OwnerCall.call_ne_ok (hi.owner ▸ ha.symm))
  | passTime => rfl
  | updateFeed => rfl

end Inv

/-- Over any run, what an account owns of a token changes by what liquidations and token calls bring
and take, and by nothing else. -/
theorem wealth {w : World} {as : List Action} {u : Address} (hr : Reachable w) (hu : u ≠ w.self)
    (h : Along exec Legal w as) (t : Address) :
    (run exec w as).worth u t + tally exec (Action.debit u t) w as =
      w.worth u t + tally exec (Action.credit u t) w as := by
  have hrun : Along exec (fun v a => (Inv v ∧ v.self = w.self) ∧ Legal v a) w as :=
    (h.inv (I := fun v => Inv v ∧ v.self = w.self) ⟨hr.inv, rfl⟩ fun v a hv ha =>
      ⟨hv.1.exec ha, (hv.1.exec_change ha).sameSetup.self.trans hv.2⟩).2
  exact hrun.add_tally_eq (m := fun v => v.worth u t)
    fun v a hv => hv.1.1.worth_exec hv.2 (hv.1.2 ▸ hu)

/-- Account 8 pays 1000 BUSC for the debt of account 7 and gets 0.275 WETH. -/
theorem wealth_liquidation :
    (run exec Anvil.lent Anvil.liquidation).worth 8 1 = 275000000000000000 ∧
      (run exec Anvil.lent Anvil.liquidation).worth 8 5 = 0 := by
  have hr : Reachable Anvil.lent := Anvil.reachable (by decide +kernel)
  have hl : Along exec Legal Anvil.lent Anvil.liquidation := ⟨trivial, trivial, trivial⟩
  have hweth := wealth (u := 8) hr (by decide) hl 1
  have hbusc := wealth (u := 8) hr (by decide) hl 5
  have h1 : Anvil.lent.worth 8 1 = 0 ∧ tally exec (Action.debit 8 1) Anvil.lent Anvil.liquidation = 0 ∧
      tally exec (Action.credit 8 1) Anvil.lent Anvil.liquidation = 275000000000000000 := by
    decide +kernel
  have h5 : Anvil.lent.worth 8 5 = 1000000000000000000000 ∧
      tally exec (Action.debit 8 5) Anvil.lent Anvil.liquidation = 1000000000000000000000 ∧
      tally exec (Action.credit 8 5) Anvil.lent Anvil.liquidation = 0 := by
    decide +kernel
  omega

end Busc
