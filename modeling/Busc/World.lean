import Busc.ERC20

/-!
# The contracts' state

The state the contracts run in: the block's timestamp, the price feeds, the ERC20 ledgers by
address, the owner of `BUSC`, and the storage of `BUSCmotor`. One map holds every ledger, that of
`BUSC` too, so a call through `IERC20(a)` reaches the same storage as a call through `I_BUSC` when
the addresses agree. The tokens' `decimals()` are immutable and kept beside the ledgers.
-/

namespace Busc
open Solidity

structure RoundData where
  roundId : BitVec 80
  answer : Int256
  startedAt : UInt256
  updatedAt : UInt256
  answeredInRound : BitVec 80

/-- `_status` of `ReentrancyGuard`. -/
inductive Status
  | notEntered
  | entered
deriving DecidableEq, Repr

structure BUSCmotor where
  iBUSC : Address
  tokenToPriceFeed : Address → Address
  userCollateralDeposits : Address → Address → UInt256
  buscAmountMintedByUser : Address → UInt256
  collateralTokens : List Address
  status : Status

structure BUSC extends ERC20 where
  owner : Address

structure World where
  /-- `block.timestamp`. -/
  timestamp : UInt256
  feeds : Address → RoundData
  decimals : Address → BitVec 8
  erc20 : Address → ERC20
  /-- `_owner` of the `BUSC` contract at `motor.iBUSC`. -/
  owner : Address
  /-- `address(this)` of the motor. -/
  self : Address
  motor : BUSCmotor

namespace World

/-- `s_userCollateralDeposits[user][token]`. -/
def deposit (w : World) (user token : Address) : UInt256 :=
  w.motor.userCollateralDeposits user token

/-- `s_BuscAmountMintedByUser[user]`. -/
def debt (w : World) (user : Address) : UInt256 := w.motor.buscAmountMintedByUser user

def busc (w : World) : BUSC := { w.erc20 w.motor.iBUSC with owner := w.owner }

/-- The round the feed of `token` answers with, if it has a feed. -/
def round (w : World) (token : Address) : RoundData := w.feeds (w.motor.tokenToPriceFeed token)

@[simps] def setDeposit (w : World) (user token : Address) (amount : UInt256) : World :=
  { w with motor := { w.motor with
      userCollateralDeposits := Function.update w.motor.userCollateralDeposits user
        (Function.update (w.motor.userCollateralDeposits user) token amount) } }

@[simps] def setDebt (w : World) (user : Address) (amount : UInt256) : World :=
  { w with motor := { w.motor with
      buscAmountMintedByUser := Function.update w.motor.buscAmountMintedByUser user amount } }

@[simps] def setStatus (w : World) (status : Status) : World :=
  { w with motor := { w.motor with status } }

@[simps] def setToken (w : World) (token : Address) (t : ERC20) : World :=
  { w with erc20 := Function.update w.erc20 token t }

@[simps] def setBusc (w : World) (b : BUSC) : World :=
  { w with erc20 := Function.update w.erc20 w.motor.iBUSC b.toERC20, owner := b.owner }

/-! ### Reading after writing -/

section read
variable (w : World) (user token user' token' : Address) (amount : UInt256) (s s' : Status)
  (t : ERC20) (b : BUSC)

@[simp] theorem deposit_setDeposit : (w.setDeposit user token amount).deposit user' token' =
    if user' = user ∧ token' = token then amount else w.deposit user' token' := by
  simp only [deposit, setDeposit, Function.update_apply]
  rcases eq_or_ne user' user with rfl | hu
  · by_cases ht : token' = token <;> simp [ht]
  · simp [hu]

@[simp] theorem deposit_setDebt : (w.setDebt user amount).deposit = w.deposit := rfl
@[simp] theorem deposit_setStatus : (w.setStatus s).deposit = w.deposit := rfl
@[simp] theorem deposit_setToken : (w.setToken token t).deposit = w.deposit := rfl

@[simp] theorem debt_setDebt : (w.setDebt user amount).debt user' =
    if user' = user then amount else w.debt user' := by
  simp only [debt, setDebt, Function.update_apply]

@[simp] theorem debt_setDeposit : (w.setDeposit user token amount).debt = w.debt := rfl
@[simp] theorem debt_setStatus : (w.setStatus s).debt = w.debt := rfl
@[simp] theorem debt_setToken : (w.setToken token t).debt = w.debt := rfl

theorem setToken_setToken (t' : ERC20) :
    (w.setToken token t).setToken token t' = w.setToken token t' := by
  simp only [setToken, Function.update_idem]

theorem busc_setToken_iBUSC : (w.setToken w.motor.iBUSC t).busc = { t with owner := w.owner } := by
  simp only [busc, setToken, Function.update_self]

theorem setBusc_setToken_iBUSC (t' : ERC20) :
    (w.setToken w.motor.iBUSC t).setBusc { t' with owner := w.owner } =
      w.setToken w.motor.iBUSC t' := by
  simp only [setBusc, setToken, Function.update_idem]

theorem setStatus_of_eq (h : w.motor.status = s) : w.setStatus s = w := by
  subst h; rfl

end read

/-! ### What the motor never writes -/

/-- Nothing but the ledgers, the deposits, the debts and the reentrancy flag differs. -/
structure Frame (w w' : World) : Prop where
  timestamp : w'.timestamp = w.timestamp
  feeds : w'.feeds = w.feeds
  decimals : w'.decimals = w.decimals
  owner : w'.owner = w.owner
  self : w'.self = w.self
  iBUSC : w'.motor.iBUSC = w.motor.iBUSC
  tokenToPriceFeed : w'.motor.tokenToPriceFeed = w.motor.tokenToPriceFeed
  collateralTokens : w'.motor.collateralTokens = w.motor.collateralTokens

namespace Frame
variable {w w₁ w₂ : World}

theorem refl (w : World) : w.Frame w := ⟨rfl, rfl, rfl, rfl, rfl, rfl, rfl, rfl⟩

theorem symm (h : w.Frame w₁) : w₁.Frame w :=
  ⟨h.timestamp.symm, h.feeds.symm, h.decimals.symm, h.owner.symm, h.self.symm, h.iBUSC.symm,
    h.tokenToPriceFeed.symm, h.collateralTokens.symm⟩

theorem trans (h₁ : w.Frame w₁) (h₂ : w₁.Frame w₂) : w.Frame w₂ where
  timestamp := h₂.timestamp.trans h₁.timestamp
  feeds := h₂.feeds.trans h₁.feeds
  decimals := h₂.decimals.trans h₁.decimals
  owner := h₂.owner.trans h₁.owner
  self := h₂.self.trans h₁.self
  iBUSC := h₂.iBUSC.trans h₁.iBUSC
  tokenToPriceFeed := h₂.tokenToPriceFeed.trans h₁.tokenToPriceFeed
  collateralTokens := h₂.collateralTokens.trans h₁.collateralTokens

theorem setStatus (w : World) (s : Status) : w.Frame (w.setStatus s) :=
  ⟨rfl, rfl, rfl, rfl, rfl, rfl, rfl, rfl⟩

theorem setToken (w : World) (token : Address) (t : ERC20) : w.Frame (w.setToken token t) :=
  ⟨rfl, rfl, rfl, rfl, rfl, rfl, rfl, rfl⟩

theorem setDeposit (w : World) (user token : Address) (amount : UInt256) :
    w.Frame (w.setDeposit user token amount) :=
  ⟨rfl, rfl, rfl, rfl, rfl, rfl, rfl, rfl⟩

theorem setDebt (w : World) (user : Address) (amount : UInt256) : w.Frame (w.setDebt user amount) :=
  ⟨rfl, rfl, rfl, rfl, rfl, rfl, rfl, rfl⟩

theorem round (h : w.Frame w₁) : w₁.round = w.round := by
  unfold World.round; rw [h.feeds, h.tokenToPriceFeed]

end Frame

/-- What is the same in all states of a deployment. -/
structure SameSetup (w w' : World) : Prop where
  decimals : w'.decimals = w.decimals
  self : w'.self = w.self
  iBUSC : w'.motor.iBUSC = w.motor.iBUSC
  tokenToPriceFeed : w'.motor.tokenToPriceFeed = w.motor.tokenToPriceFeed
  collateralTokens : w'.motor.collateralTokens = w.motor.collateralTokens

theorem SameSetup.refl (w : World) : w.SameSetup w := ⟨rfl, rfl, rfl, rfl, rfl⟩

theorem SameSetup.trans {w w₁ w₂ : World} (h₁ : w.SameSetup w₁) (h₂ : w₁.SameSetup w₂) :
    w.SameSetup w₂ where
  decimals := h₂.decimals.trans h₁.decimals
  self := h₂.self.trans h₁.self
  iBUSC := h₂.iBUSC.trans h₁.iBUSC
  tokenToPriceFeed := h₂.tokenToPriceFeed.trans h₁.tokenToPriceFeed
  collateralTokens := h₂.collateralTokens.trans h₁.collateralTokens

theorem Frame.sameSetup {w w' : World} (h : w.Frame w') : w.SameSetup w' :=
  ⟨h.decimals, h.self, h.iBUSC, h.tokenToPriceFeed, h.collateralTokens⟩

end World

end Busc
