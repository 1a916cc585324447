import Busc.System

/-!
# What the legs conserve

Two differences tie the motor's storage to the ledgers: `slack`, by how much the motor's balance of a
token exceeds the deposits recorded in it, and `drift`, by how much the recorded debt exceeds the
supply of `BUSC`. No leg of an operation changes either. A successful operation is a sequence of
legs with the caller as the wallet on the other side (`call_legs`), so what every leg keeps every
operation keeps.
-/

namespace Busc
open Solidity WordMap BUSCmotor

namespace World
variable (w : World) {user token src dst whose payer token' : Address} {amount x : UInt256}
  {t : ERC20}

/-- `s_userCollateralDeposits` summed over all users, for one token. -/
def totalDeposits (token : Address) : Nat := total fun user => w.deposit user token

/-- `s_BuscAmountMintedByUser` summed over all users. -/
def totalDebt : Nat := total w.debt

/-- The motor's balance of the token in excess of the deposits. -/
def slack (token : Address) : Int :=
  ((w.erc20 token).balances w.self).toNat - w.totalDeposits token

/-- The recorded debt in excess of the supply. -/
def drift : Int := w.totalDebt - (w.erc20 w.motor.iBUSC).totalSupply.toNat

variable {w}

theorem totalDeposits_setDeposit : (w.setDeposit user token x).totalDeposits token' =
    if token' = token then w.totalDeposits token + x.toNat - (w.deposit user token).toNat
    else w.totalDeposits token' := by
  unfold totalDeposits
  rcases eq_or_ne token' token with rfl | ht
  · rw [if_pos rfl]
    have hcol : (fun u => (w.setDeposit user token' x).deposit u token') =
        Function.update (fun u => w.deposit u token') user x := by
      funext u; simp only [deposit_setDeposit, and_true, Function.update_apply]
    have hu := total_update (fun u => w.deposit u token') user x
    rw [hcol]
    omega
  · rw [if_neg ht]
    simp only [deposit_setDeposit, ht, and_false, if_false]

theorem deposit_le_totalDeposits (w : World) (user token : Address) :
    (w.deposit user token).toNat ≤ w.totalDeposits token :=
  apply_le_total (fun u => w.deposit u token) user

theorem totalDebt_setDebt :
    (w.setDebt user x).totalDebt = w.totalDebt + x.toNat - (w.debt user).toNat := by
  have hfun : (w.setDebt user x).debt = Function.update w.debt user x := by
    funext u; simp only [debt_setDebt, Function.update_apply]
  have hu := total_update w.debt user x
  unfold totalDebt
  rw [hfun]
  omega

theorem debt_le_totalDebt (w : World) (user : Address) : (w.debt user).toNat ≤ w.totalDebt :=
  apply_le_total w.debt user

theorem slack_setStatus {s : Status} : (w.setStatus s).slack token = w.slack token := rfl

theorem slack_setDebt : (w.setDebt user x).slack token = w.slack token := rfl

theorem slack_setDeposit : (w.setDeposit user token x).slack token' =
    if token' = token then w.slack token + (w.deposit user token).toNat - x.toNat
    else w.slack token' := by
  have hle := w.deposit_le_totalDeposits user token
  unfold slack
  rw [totalDeposits_setDeposit]
  rcases eq_or_ne token' token with rfl | ht
  · simp only [if_true, setDeposit_erc20, setDeposit_self]
    omega
  · simp only [if_neg ht, setDeposit_erc20, setDeposit_self]

theorem slack_setToken : (w.setToken token t).slack token' =
    if token' = token then
      w.slack token + ((t.balances w.self).toNat - ((w.erc20 token).balances w.self).toNat : Int)
    else w.slack token' := by
  have hd : (w.setToken token t).totalDeposits token' = w.totalDeposits token' := rfl
  unfold slack
  rw [hd]
  rcases eq_or_ne token' token with rfl | ht
  · simp only [if_true, setToken_erc20, setToken_self, Function.update_self]
    omega
  · simp only [if_neg ht, setToken_erc20, setToken_self, Function.update_of_ne ht]

theorem drift_setDebt :
    (w.setDebt user x).drift = w.drift + (x.toNat - (w.debt user).toNat : Int) := by
  have hle := w.debt_le_totalDebt user
  unfold drift
  rw [totalDebt_setDebt]
  simp only [setDebt_erc20, setDebt_motor_iBUSC]
  omega

theorem drift_setToken : (w.setToken token t).drift =
    if token = w.motor.iBUSC then
      w.drift + ((w.erc20 token).totalSupply.toNat - t.totalSupply.toNat : Int)
    else w.drift := by
  have hd : (w.setToken token t).totalDebt = w.totalDebt := rfl
  unfold drift
  rw [hd]
  by_cases ht : token = w.motor.iBUSC
  · simp only [ht, if_true, setToken_erc20, setToken_motor, Function.update_self]
    omega
  · simp only [if_neg ht, setToken_erc20, setToken_motor, Function.update_of_ne (Ne.symm ht)]

/-! ### Legs -/

theorem slack_deposited (h : w.CanDeposit user token amount) (hne : user ≠ w.self) :
    (w.deposited h).slack token' = w.slack token' := by
  have hdep := BitVec.toNat_add_of_lt h.room
  unfold deposited
  rw [slack_setToken]
  rcases eq_or_ne token' token with rfl | ht
  · rw [if_pos rfl, slack_setDeposit, if_pos rfl]
    simp only [ERC20.toNat_move_dst hne, ERC20.spend_balances, setDeposit_self, setDeposit_erc20]
    omega
  · rw [if_neg ht, slack_setDeposit, if_neg ht]

theorem slack_pulled (h : w.CanPull src dst token amount) (hne : dst ≠ w.self) :
    (w.pulled h).slack token' = w.slack token' := by
  have hfun := BitVec.le_def.1 h.funds
  have hdep := BitVec.toNat_sub_of_le h.deposit
  have hle := BitVec.le_def.1 h.deposit
  unfold pulled
  rw [slack_setToken]
  rcases eq_or_ne token' token with rfl | ht
  · rw [if_pos rfl, slack_setDeposit, if_pos rfl]
    simp only [ERC20.toNat_move_src hne.symm, setDeposit_self, setDeposit_erc20]
    omega
  · rw [if_neg ht, slack_setDeposit, if_neg ht]

theorem slack_minted (h : w.CanMint user amount) (hne : user ≠ w.self) :
    (w.minted h).slack token = w.slack token := by
  unfold minted
  rw [slack_setToken]
  split
  · subst token
    simp only [ERC20.issue_balances, setDebt_self, setDebt_erc20, Function.update_of_ne hne.symm,
      slack_setDebt]
    omega
  · rfl

theorem slack_burned (h : w.CanBurn whose payer amount) (hne : payer ≠ w.self) :
    (w.burned h).slack token = w.slack token := by
  unfold burned
  rw [slack_setToken]
  split
  · subst token
    simp only [ERC20.destroy_balances, ERC20.spend_balances, setDebt_self, setDebt_erc20,
      Function.update_of_ne hne.symm, slack_setDebt]
    omega
  · rfl

theorem drift_deposited (h : w.CanDeposit user token amount) : (w.deposited h).drift = w.drift := by
  unfold deposited
  rw [drift_setToken]
  split
  · simp only [ERC20.move_totalSupply, ERC20.spend_totalSupply, setDeposit_erc20]
    rw [Int.sub_self, Int.add_zero]
    rfl
  · rfl

theorem drift_pulled (h : w.CanPull src dst token amount) : (w.pulled h).drift = w.drift := by
  unfold pulled
  rw [drift_setToken]
  split
  · simp only [ERC20.move_totalSupply, setDeposit_erc20, sub_self, add_zero]
    rfl
  · rfl

theorem drift_minted (h : w.CanMint user amount) : (w.minted h).drift = w.drift := by
  have hsup := BitVec.toNat_add_of_lt h.supply
  have hdebt := BitVec.toNat_add_of_lt h.room
  unfold minted
  rw [drift_setToken, drift_setDebt]
  simp only [setDebt_motor_iBUSC, if_true, ERC20.issue_totalSupply, setDebt_erc20]
  omega

theorem drift_burned (h : w.CanBurn whose payer amount) : (w.burned h).drift = w.drift := by
  have hfun := BitVec.le_def.1 h.funds
  have hle := (w.erc20 w.motor.iBUSC).balance_le_supply payer
  have hsup : ((w.erc20 w.motor.iBUSC).totalSupply - amount).toNat =
      (w.erc20 w.motor.iBUSC).totalSupply.toNat - amount.toNat :=
    BitVec.toNat_sub_of_le (BitVec.le_def.2 (by omega))
  have hdebt := BitVec.toNat_sub_of_le h.debt
  have hd := BitVec.le_def.1 h.debt
  unfold burned
  rw [drift_setToken, drift_setDebt]
  simp only [setDebt_motor_iBUSC, if_true, ERC20.destroy_totalSupply, ERC20.spend_totalSupply,
    setDebt_erc20]
  omega

end World

/-! ### Operations are made of legs -/

/-- One leg of an operation of `sender`. -/
inductive Leg (sender : Address) (w : World) : World → Prop
  | deposited {token : Address} {amount : UInt256} (listed : w.Listed token) (ne : amount ≠ 0)
      (h : w.CanDeposit sender token amount) : Leg sender w (w.deposited h)
  | pulled {src token : Address} {amount : UInt256} (h : w.CanPull src sender token amount) :
      Leg sender w (w.pulled h)
  | minted {amount : UInt256} (h : w.CanMint sender amount) : Leg sender w (w.minted h)
  | burned {whose : Address} {amount : UInt256} (h : w.CanBurn whose sender amount) :
      Leg sender w (w.burned h)

/-- What every leg keeps, every operation keeps. -/
theorem MotorOp.call_legs {sender : Address} {op : MotorOp} {w w' : World} {P : World → Prop}
    (h : op.call .exact sender w = .ok w') (hw : P w)
    (leg : ∀ w₁ w₂, Leg sender w₁ w₂ → P w₁ → P w₂) : P w' := by
  cases op with
  | depositCollateralAndMintBUSC t a m =>
    obtain ⟨ha, hl, -, -, hd, -, hm, -, rfl⟩ := depositCollateralAndMintBUSC_eq_ok.1 h
    exact leg _ _ (.minted hm) (leg _ _ (.deposited hl ha hd) hw)
  | depositCollateral t a =>
    obtain ⟨ha, hl, -, hd, rfl⟩ := depositCollateral_eq_ok.1 h
    exact leg _ _ (.deposited hl ha hd) hw
  | mintBUSC m =>
    obtain ⟨-, -, -, hm, -, rfl⟩ := mintBUSC_eq_ok.1 h
    exact leg _ _ (.minted hm) hw
  | pullCollateralAndBurnBUSC t a b =>
    obtain ⟨-, -, hb, hp, -, rfl⟩ := pullCollateralAndBurnBUSC_eq_ok.1 h
    exact leg _ _ (.pulled hp) (leg _ _ (.burned hb) hw)
  | pullCollateral t a =>
    obtain ⟨-, -, hp, -, rfl⟩ := pullCollateral_eq_ok.1 h
    exact leg _ _ (.pulled hp) hw
  | burnBUSC b =>
    obtain ⟨hb, -, rfl⟩ := burnBUSC_eq_ok.1 h
    exact leg _ _ (.burned hb) hw
  | liquidate t u x =>
    obtain ⟨-, -, -, -, -, -, s, -, hp, hb, -, -, -, rfl⟩ := liquidate_eq_ok.1 h
    exact leg _ _ (.burned hb) (leg _ _ (.pulled hp) hw)

namespace Leg
variable {sender token : Address} {w w' : World}

theorem frame (h : Leg sender w w') : w.Frame w' := by
  cases h with
  | deposited _ _ h => exact w.frame_deposited h
  | pulled h => exact w.frame_pulled h
  | minted h => exact w.frame_minted h
  | burned h => exact w.frame_burned h

theorem slack (h : Leg sender w w') (hne : sender ≠ w.self) : w'.slack token = w.slack token := by
  cases h with
  | deposited _ _ h => exact World.slack_deposited h hne
  | pulled h => exact World.slack_pulled h hne
  | minted h => exact World.slack_minted h hne
  | burned h => exact World.slack_burned h hne

theorem drift (h : Leg sender w w') : w'.drift = w.drift := by
  cases h with
  | deposited _ _ h => exact World.drift_deposited h
  | pulled h => exact World.drift_pulled h
  | minted h => exact World.drift_minted h
  | burned h => exact World.drift_burned h

theorem status (h : Leg sender w w') : w'.motor.status = w.motor.status := by cases h <;> rfl

end Leg

namespace MotorOp
variable {sender token : Address} {op : MotorOp} {w w' : World}

theorem call_frame (h : op.call .exact sender w = .ok w') : w.Frame w' :=
  call_legs h (.refl w) fun _ _ hleg hf => hf.trans hleg.frame

theorem call_slack (h : op.call .exact sender w = .ok w') (hne : sender ≠ w.self) :
    w'.slack token = w.slack token := by
  refine (call_legs (P := fun v => v.self = w.self ∧ v.slack token = w.slack token) h ⟨rfl, rfl⟩
    fun v _ hleg ⟨hself, hs⟩ => ?_).2
  exact ⟨hleg.frame.self.trans hself, (hleg.slack (hself ▸ hne)).trans hs⟩

theorem call_drift (h : op.call .exact sender w = .ok w') : w'.drift = w.drift :=
  call_legs (P := fun v => v.drift = w.drift) h rfl fun _ _ hleg hd => hleg.drift.trans hd

theorem call_status (h : op.call .exact sender w = .ok w') : w'.motor.status = w.motor.status :=
  call_legs (P := fun v => v.motor.status = w.motor.status) h rfl fun _ _ hleg hs =>
    hleg.status.trans hs

end MotorOp

end Busc
