import Busc.Valuation

/-!
# The legs of an operation

Every state-changing entry point of the motor is made of at most two of four legs: a deposit enters,
a deposit leaves, debt is minted, debt is burned. For each leg a structure lists what it needs, and a
definition gives the state it leaves; one equation for each function that performs it says that the
function returns exactly when the needs are met, and then returns that state.

The collateral legs are stated for the exact token. For any other `erc` the function is inverted up
to the call into the token.
-/

namespace Busc
open Solidity WordMap BUSCmotor

namespace World

def Idle (w : World) : Prop := w.motor.status = .notEntered

/-- `protocolAllowedToken` accepts the token. -/
def Listed (w : World) (token : Address) : Prop := w.motor.tokenToPriceFeed token ≠ 0

/-- `_revertOnBrokenHealthFactor` returns. -/
def Checked (w : World) (user : Address) : Prop := w.Valued user ∧ w.Healthy user

instance (w : World) (user : Address) : Decidable (w.Checked user) :=
  inferInstanceAs (Decidable (_ ∧ _))

variable (w : World) {user token src dst whose payer : Address} {amount : UInt256}

structure CanDeposit (user token : Address) (amount : UInt256) : Prop where
  room : (w.deposit user token).toNat + amount.toNat < 2 ^ 256
  allowed : (w.erc20 token).CanSpend user w.self amount
  user_ne : user ≠ 0
  self_ne : w.self ≠ 0
  funds : amount ≤ (w.erc20 token).balances user

def deposited (h : w.CanDeposit user token amount) : World :=
  (w.setDeposit user token (w.deposit user token + amount)).setToken token
    (((w.erc20 token).spend user w.self amount).move user w.self amount (ERC20.le_spend h.funds))

/-- `amount` can go from the deposit of `src` to the wallet of `dst`. -/
structure CanPull (src dst token : Address) (amount : UInt256) : Prop where
  deposit : amount ≤ w.deposit src token
  self_ne : w.self ≠ 0
  dst_ne : dst ≠ 0
  funds : amount ≤ (w.erc20 token).balances w.self

def pulled (h : w.CanPull src dst token amount) : World :=
  (w.setDeposit src token (w.deposit src token - amount)).setToken token
    ((w.erc20 token).move w.self dst amount h.funds)

structure CanMint (user : Address) (amount : UInt256) : Prop where
  room : (w.debt user).toNat + amount.toNat < 2 ^ 256
  owner : w.owner = w.self
  user_ne : user ≠ 0
  supply : (w.erc20 w.motor.iBUSC).totalSupply.toNat + amount.toNat < 2 ^ 256

def minted (h : w.CanMint user amount) : World :=
  (w.setDebt user (w.debt user + amount)).setToken w.motor.iBUSC
    ((w.erc20 w.motor.iBUSC).issue user amount h.supply)

/-- `amount` of the debt of `whose` can be paid back in BUSC from the wallet of `payer`. -/
structure CanBurn (whose payer : Address) (amount : UInt256) : Prop where
  debt : amount ≤ w.debt whose
  allowed : (w.erc20 w.motor.iBUSC).CanSpend payer w.self amount
  payer_ne : payer ≠ 0
  self_ne : w.self ≠ 0
  funds : amount ≤ (w.erc20 w.motor.iBUSC).balances payer
  owner : w.owner = w.self
  amount_ne : amount ≠ 0

def burned (h : w.CanBurn whose payer amount) : World :=
  (w.setDebt whose (w.debt whose - amount)).setToken w.motor.iBUSC
    (((w.erc20 w.motor.iBUSC).spend payer w.self amount).destroy payer amount
      (ERC20.le_spend h.funds))

/-! ### Reading after a leg -/

section read
variable {w} (t : Address)

@[simp] theorem debt_deposited (h : w.CanDeposit user token amount) : (w.deposited h).debt = w.debt :=
  rfl

@[simp] theorem debt_pulled (h : w.CanPull src dst token amount) : (w.pulled h).debt = w.debt := rfl

@[simp] theorem deposit_minted (h : w.CanMint user amount) : (w.minted h).deposit = w.deposit := rfl

@[simp] theorem deposit_burned (h : w.CanBurn whose payer amount) :
    (w.burned h).deposit = w.deposit := rfl

theorem deposit_deposited (h : w.CanDeposit user token amount) (u : Address) :
    (w.deposited h).deposit u t =
      if u = user ∧ t = token then w.deposit user token + amount else w.deposit u t :=
  deposit_setDeposit ..

theorem deposit_pulled (h : w.CanPull src dst token amount) (u : Address) :
    (w.pulled h).deposit u t =
      if u = src ∧ t = token then w.deposit src token - amount else w.deposit u t :=
  deposit_setDeposit ..

theorem debt_minted (h : w.CanMint user amount) (u : Address) :
    (w.minted h).debt u = if u = user then w.debt user + amount else w.debt u :=
  debt_setDebt ..

theorem debt_burned (h : w.CanBurn whose payer amount) (u : Address) :
    (w.burned h).debt u = if u = whose then w.debt whose - amount else w.debt u :=
  debt_setDebt ..

theorem erc20_deposited (h : w.CanDeposit user token amount) : (w.deposited h).erc20 t =
    if t = token then ((w.erc20 token).spend user w.self amount).move user w.self amount
      (ERC20.le_spend h.funds) else w.erc20 t :=
  Function.update_apply ..

theorem erc20_pulled (h : w.CanPull src dst token amount) : (w.pulled h).erc20 t =
    if t = token then (w.erc20 token).move w.self dst amount h.funds else w.erc20 t :=
  Function.update_apply ..

theorem erc20_minted (h : w.CanMint user amount) : (w.minted h).erc20 t =
    if t = w.motor.iBUSC then (w.erc20 w.motor.iBUSC).issue user amount h.supply else w.erc20 t :=
  Function.update_apply ..

theorem erc20_burned (h : w.CanBurn whose payer amount) : (w.burned h).erc20 t =
    if t = w.motor.iBUSC then ((w.erc20 w.motor.iBUSC).spend payer w.self amount).destroy payer amount
      (ERC20.le_spend h.funds) else w.erc20 t :=
  Function.update_apply ..

theorem totalSupply_deposited (h : w.CanDeposit user token amount) :
    ((w.deposited h).erc20 t).totalSupply = (w.erc20 t).totalSupply := by
  rw [erc20_deposited]
  split
  · next e => rw [e]; rfl
  · rfl

theorem totalSupply_pulled (h : w.CanPull src dst token amount) :
    ((w.pulled h).erc20 t).totalSupply = (w.erc20 t).totalSupply := by
  rw [erc20_pulled]
  split
  · next e => rw [e]; rfl
  · rfl

theorem allowances_pulled (h : w.CanPull src dst token amount) :
    ((w.pulled h).erc20 t).allowances = (w.erc20 t).allowances := by
  rw [erc20_pulled]
  split
  · next ht => rw [ht]; rfl
  · rfl

end read

/-! ### The accounts a leg leaves alone -/

structure SameAccount (w w' : World) (v : Address) : Prop where
  deposit : w'.deposit v = w.deposit v
  debt : w'.debt v = w.debt v

theorem SameAccount.trans {w w₁ w₂ : World} {v : Address} (h₁ : w.SameAccount w₁ v)
    (h₂ : w₁.SameAccount w₂ v) : w.SameAccount w₂ v :=
  ⟨h₂.deposit.trans h₁.deposit, h₂.debt.trans h₁.debt⟩

section same
variable {w} {v : Address}

theorem sameAccount_setDeposit {x : UInt256} (hv : v ≠ user) :
    w.SameAccount (w.setDeposit user token x) v :=
  ⟨funext fun t => by rw [deposit_setDeposit, if_neg fun e => hv e.1], rfl⟩

theorem sameAccount_setDebt {x : UInt256} (hv : v ≠ user) : w.SameAccount (w.setDebt user x) v :=
  ⟨rfl, by rw [debt_setDebt, if_neg hv]⟩

theorem sameAccount_deposited (h : w.CanDeposit user token amount) (hv : v ≠ user) :
    w.SameAccount (w.deposited h) v :=
  ⟨(sameAccount_setDeposit hv).deposit, rfl⟩

theorem sameAccount_pulled (h : w.CanPull src dst token amount) (hv : v ≠ src) :
    w.SameAccount (w.pulled h) v :=
  ⟨(sameAccount_setDeposit hv).deposit, rfl⟩

theorem sameAccount_minted (h : w.CanMint user amount) (hv : v ≠ user) :
    w.SameAccount (w.minted h) v :=
  ⟨rfl, (sameAccount_setDebt hv).debt⟩

theorem sameAccount_burned (h : w.CanBurn whose payer amount) (hv : v ≠ whose) :
    w.SameAccount (w.burned h) v :=
  ⟨rfl, (sameAccount_setDebt hv).debt⟩

end same

/-! ### The reentrancy flag plays no part in a leg -/

variable {w} {s : Status}

theorem canPull_setStatus :
    (w.setStatus s).CanPull src dst token amount ↔ w.CanPull src dst token amount :=
  ⟨fun h => ⟨h.deposit, h.self_ne, h.dst_ne, h.funds⟩,
    fun h => ⟨h.deposit, h.self_ne, h.dst_ne, h.funds⟩⟩

theorem canBurn_setStatus : (w.setStatus s).CanBurn whose payer amount ↔ w.CanBurn whose payer amount :=
  ⟨fun h => ⟨h.debt, h.allowed, h.payer_ne, h.self_ne, h.funds, h.owner, h.amount_ne⟩,
    fun h => ⟨h.debt, h.allowed, h.payer_ne, h.self_ne, h.funds, h.owner, h.amount_ne⟩⟩

end World

section spec
variable {erc : IERC20} {w w' : World} {sender user token src dst whose payer : Address}
  {amount : UInt256} {b : Bool} {u : Unit}

theorem greaterThanZero_eq_ok : greaterThanZero amount = .ok u ↔ amount ≠ 0 := by
  rw [greaterThanZero, revertIf_eq_ok, not_le_zero]

theorem protocolAllowedToken_eq_ok : protocolAllowedToken token w = .ok u ↔ w.Listed token := by
  rw [protocolAllowedToken, revertIf_eq_ok]; rfl

theorem nonReentrant_eq_ok {body : World → Tx World} : nonReentrant body w = .ok w' ↔
    w.Idle ∧ ∃ w₁, body (w.setStatus .entered) = .ok w₁ ∧ w' = w₁.setStatus .notEntered := by
  simp only [nonReentrant, bind_eq_ok, require_eq_ok, exists_const, pure_eq_ok]
  refine and_congr_left fun _ => ?_
  unfold World.Idle
  cases w.motor.status <;> decide

theorem callToken_eq_ok {f : ERC20 → Tx (Bool × ERC20)} : w.callToken token f = .ok (b, w') ↔
    ∃ t, f (w.erc20 token) = .ok (b, t) ∧ w' = w.setToken token t := by
  simp only [World.callToken, bind_eq_ok, pure_eq_ok, Prod.exists, Prod.mk.injEq]
  constructor
  · rintro ⟨_, t, h, rfl, rfl⟩; exact ⟨t, h, rfl⟩
  · rintro ⟨t, h, rfl⟩; exact ⟨_, t, h, rfl, rfl⟩

theorem exact_transfer_eq_ok : IERC20.exact.transfer token sender dst amount w = .ok (b, w') ↔
    b = true ∧ sender ≠ 0 ∧ dst ≠ 0 ∧
      ∃ h, w' = w.setToken token ((w.erc20 token).move sender dst amount h) := by
  rw [show IERC20.exact.transfer token sender dst amount w =
    w.callToken token (ERC20.transfer sender dst amount) from rfl, callToken_eq_ok]
  simp only [ERC20.transfer_eq_ok]
  constructor
  · rintro ⟨_, ⟨hb, hs, hd, h, rfl⟩, rfl⟩; exact ⟨hb, hs, hd, h, rfl⟩
  · rintro ⟨hb, hs, hd, h, rfl⟩; exact ⟨_, ⟨hb, hs, hd, h, rfl⟩, rfl⟩

theorem callToken_transferFrom_eq_ok :
    w.callToken token (ERC20.transferFrom sender src dst amount) = .ok (b, w') ↔
      b = true ∧ (w.erc20 token).CanSpend src sender amount ∧ src ≠ 0 ∧ dst ≠ 0 ∧
        ∃ h, w' = w.setToken token (((w.erc20 token).spend src sender amount).move src dst amount h) := by
  rw [callToken_eq_ok]
  simp only [ERC20.transferFrom_eq_ok]
  constructor
  · rintro ⟨_, ⟨hb, hc, hs, hd, h, rfl⟩, rfl⟩; exact ⟨hb, hc, hs, hd, h, rfl⟩
  · rintro ⟨hb, hc, hs, hd, h, rfl⟩; exact ⟨_, ⟨hb, hc, hs, hd, h, rfl⟩, rfl⟩

theorem revertIf_not_eq_ok {e : Revert Error} : (revertIf (!b) e : Tx Unit) = .ok u ↔ b = true := by
  rw [revertIf_eq_ok]; cases b <;> decide

/-! ### Collateral -/

theorem pull_ext_eq_ok : _pullCollateral erc src dst token amount w = .ok w' ↔
    amount ≤ w.deposit src token ∧ erc.transfer token w.self dst amount
      (w.setDeposit src token (w.deposit src token - amount)) = .ok (true, w') := by
  simp only [_pullCollateral, bind_eq_ok, checkedSub_eq_ok, revertIf_not_eq_ok, pure_eq_ok,
    Prod.exists, exists_const, and_assoc, exists_and_left, exists_eq_left]
  refine and_congr_right fun _ => ?_
  constructor
  · rintro ⟨_, _, h, rfl, rfl⟩; exact h
  · intro h; exact ⟨_, _, h, rfl, rfl⟩

theorem pull_eq_ok : _pullCollateral .exact src dst token amount w = .ok w' ↔
    ∃ h : w.CanPull src dst token amount, w' = w.pulled h := by
  rw [pull_ext_eq_ok, exact_transfer_eq_ok]
  constructor
  · rintro ⟨hd, -, hs, hdst, h, rfl⟩; exact ⟨⟨hd, hs, hdst, h⟩, rfl⟩
  · rintro ⟨h, rfl⟩; exact ⟨h.deposit, rfl, h.self_ne, h.dst_ne, h.funds, rfl⟩

theorem depositCollateral_ext_eq_ok : depositCollateral erc sender token amount w = .ok w' ↔
    amount ≠ 0 ∧ w.Listed token ∧ w.Idle ∧ (w.deposit sender token).toNat + amount.toNat < 2 ^ 256 ∧
      ∃ w₁, erc.transferFrom token w.self sender w.self amount
        ((w.setStatus .entered).setDeposit sender token (w.deposit sender token + amount)) =
          .ok (true, w₁) ∧ w' = w₁.setStatus .notEntered := by
  simp only [depositCollateral, bind_eq_ok, greaterThanZero_eq_ok, protocolAllowedToken_eq_ok,
    exists_const, nonReentrant_eq_ok, checkedAdd_eq_ok, revertIf_not_eq_ok, pure_eq_ok, Prod.exists,
    and_assoc, exists_and_left, exists_eq_left, World.deposit_setStatus]
  refine and_congr_right fun _ => and_congr_right fun _ => and_congr_right fun _ => ?_
  constructor
  · rintro ⟨hroom, _, ⟨_, _, h, rfl, rfl⟩, rfl⟩; exact ⟨hroom, _, h, rfl⟩
  · rintro ⟨hroom, _, h, rfl⟩; exact ⟨hroom, _, ⟨_, _, h, rfl, rfl⟩, rfl⟩

theorem depositCollateral_eq_ok : depositCollateral .exact sender token amount w = .ok w' ↔
    amount ≠ 0 ∧ w.Listed token ∧ w.Idle ∧
      ∃ h : w.CanDeposit sender token amount, w' = w.deposited h := by
  rw [depositCollateral_ext_eq_ok]
  refine and_congr_right fun _ => and_congr_right fun _ => and_congr_right fun hidle => ?_
  have hset (h : w.CanDeposit sender token amount) :
      (w.deposited h).setStatus .notEntered = w.deposited h := World.setStatus_of_eq _ _ hidle
  constructor
  · rintro ⟨hroom, w₁, h, rfl⟩
    obtain ⟨-, hc, hs, hm, hle, rfl⟩ := callToken_transferFrom_eq_ok.1 h
    exact ⟨⟨hroom, hc, hs, hm, hle⟩, hset _⟩
  · rintro ⟨h, rfl⟩
    exact ⟨h.room, (w.deposited h).setStatus .entered, callToken_transferFrom_eq_ok.2
      ⟨rfl, h.allowed, h.user_ne, h.self_ne, h.funds, rfl⟩, (hset h).symm⟩

/-! ### Debt -/

/-- What the motor burns it received before, so the BUSC is in effect burned where it was. -/
theorem burn_eq_ok : _burnBUSC whose payer amount w = .ok w' ↔
    ∃ h : w.CanBurn whose payer amount, w' = w.burned h := by
  simp only [_burnBUSC, bind_eq_ok, checkedSub_eq_ok, revertIf_not_eq_ok, pure_eq_ok, Prod.exists,
    exists_const, and_assoc, exists_and_left, exists_eq_left, callToken_transferFrom_eq_ok]
  set v := w.setDebt whose (w.debt whose - amount) with hv
  have hburn (h : amount ≤ (w.erc20 w.motor.iBUSC).balances payer) {w' : World} :
      let x := v.setToken v.motor.iBUSC
        (((v.erc20 v.motor.iBUSC).spend payer v.self amount).move payer v.self amount h)
      (∃ b, x.busc.burn x.self amount = .ok b ∧ w' = x.setBusc b) ↔
        w.owner = w.self ∧ amount ≠ 0 ∧ w.self ≠ 0 ∧ w' = v.setToken v.motor.iBUSC
          (((w.erc20 w.motor.iBUSC).spend payer w.self amount).destroy payer amount h) := by
    intro x
    rw [World.busc_setToken_iBUSC]
    simp only [BUSC.burn_eq_ok]
    constructor
    · rintro ⟨_, ⟨ho, ha, hs, h', rfl⟩, rfl⟩
      refine ⟨ho, ha, hs, ?_⟩
      rw [World.setBusc_setToken_iBUSC]
      exact congrArg _ (ERC20.destroy_move ((w.erc20 w.motor.iBUSC).spend payer w.self amount) h)
    · rintro ⟨ho, ha, hs, rfl⟩
      refine ⟨_, ⟨ho, ha, hs, ERC20.le_move_dst _ h, rfl⟩, ?_⟩
      rw [World.setBusc_setToken_iBUSC]
      exact congrArg _ (ERC20.destroy_move ((w.erc20 w.motor.iBUSC).spend payer w.self amount) h).symm
  constructor
  · rintro ⟨hd, hc, hp, hs, _, ⟨h, rfl⟩, -, hb⟩
    obtain ⟨ho, ha, -, rfl⟩ := (hburn h).1 hb
    exact ⟨⟨hd, hc, hp, hs, h, ho, ha⟩, rfl⟩
  · rintro ⟨h, rfl⟩
    exact ⟨h.debt, h.allowed, h.payer_ne, h.self_ne, _, ⟨h.funds, rfl⟩, trivial,
      (hburn h.funds).2 ⟨h.owner, h.amount_ne, h.self_ne, rfl⟩⟩

end spec

end Busc
