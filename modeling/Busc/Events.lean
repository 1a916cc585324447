import Busc.Lib.Emit
import Busc.System

/-!
# Events

The contracts once more, with the events they emit, each where the source emits it. A function of `Logged`
is the function of the same name with `emit` added; `lift` marks what emits nothing. For each there is
a lemma that says so, and lists what it emits when it returns. The feeds are no part of the contracts,
and their events are left out.
-/

namespace Busc
open Solidity Emit

inductive Event
  -- IERC20
  | transfer (src dst : Address) (value : UInt256)
  | approval (owner spender : Address) (value : UInt256)
  -- Ownable
  | ownershipTransferred (previousOwner newOwner : Address)
  -- BUSCmotor
  | collateralDeposited (user tokenAddress : Address) (tokenAmount : UInt256)
  | collateralRedeemed (pulledFrom pulledTo tokenAddress : Address) (tokenAmount : UInt256)
  | liquidation (liquidator user collateralToken : Address) (debtCovered collateralSeized : UInt256)
deriving DecidableEq

/-- An event and the contract it comes from. -/
structure Log where
  emitter : Address
  event : Event
deriving DecidableEq

abbrev LoggedTx := Emit Log (Revert Error)

namespace Logged

/-! ### The ERC20 at address `self` -/

namespace ERC20
variable (self : Address)

def _transfer (src dst : Address) (amount : UInt256) (t : ERC20) : LoggedTx ERC20 := do
  let t ← lift (t._transfer src dst amount)
  emit ⟨self, .transfer src dst amount⟩
  return t

def _mint (account : Address) (amount : UInt256) (t : ERC20) : LoggedTx ERC20 := do
  let t ← lift (t._mint account amount)
  emit ⟨self, .transfer 0 account amount⟩
  return t

def _burn (account : Address) (amount : UInt256) (t : ERC20) : LoggedTx ERC20 := do
  let t ← lift (t._burn account amount)
  emit ⟨self, .transfer account 0 amount⟩
  return t

def _approve (owner spender : Address) (amount : UInt256) (t : ERC20) : LoggedTx ERC20 := do
  let t ← lift (t._approve owner spender amount)
  emit ⟨self, .approval owner spender amount⟩
  return t

def _spendAllowance (owner spender : Address) (amount : UInt256) (t : ERC20) : LoggedTx ERC20 :=
  let currentAllowance := t.allowances owner spender
  if currentAllowance ≠ uintMax then do
    lift (require (amount ≤ currentAllowance) (.require "ERC20: insufficient allowance"))
    _approve self owner spender (currentAllowance - amount) t
  else return t

def transfer (sender dst : Address) (amount : UInt256) (t : ERC20) : LoggedTx (Bool × ERC20) := do
  let t ← _transfer self sender dst amount t
  return (true, t)

def approve (sender spender : Address) (amount : UInt256) (t : ERC20) : LoggedTx (Bool × ERC20) := do
  let t ← _approve self sender spender amount t
  return (true, t)

def transferFrom (sender src dst : Address) (amount : UInt256) (t : ERC20) :
    LoggedTx (Bool × ERC20) := do
  let t ← _spendAllowance self src sender amount t
  let t ← _transfer self src dst amount t
  return (true, t)

def increaseAllowance (sender spender : Address) (addedValue : UInt256) (t : ERC20) :
    LoggedTx (Bool × ERC20) := do
  let allowance ← lift (checkedAdd (t.allowances sender spender) addedValue)
  let t ← _approve self sender spender allowance t
  return (true, t)

def decreaseAllowance (sender spender : Address) (subtractedValue : UInt256) (t : ERC20) :
    LoggedTx (Bool × ERC20) := do
  let currentAllowance := t.allowances sender spender
  lift (require (subtractedValue ≤ currentAllowance)
    (.require "ERC20: decreased allowance below zero"))
  let t ← _approve self sender spender (currentAllowance - subtractedValue) t
  return (true, t)

def burn (sender : Address) (amount : UInt256) (t : ERC20) : LoggedTx ERC20 :=
  _burn self sender amount t

def burnFrom (sender account : Address) (amount : UInt256) (t : ERC20) : LoggedTx ERC20 := do
  let t ← _spendAllowance self account sender amount t
  _burn self account amount t

end ERC20

/-! ### BUSC -/

namespace BUSC
variable (self : Address)

def mint (sender dst : Address) (mintAmount : UInt256) (b : BUSC) : LoggedTx (Bool × BUSC) := do
  lift (b.onlyOwner sender)
  lift (revertIf (mintAmount ≤ 0) (.error .mintMintAmountMustBeAboveZero))
  lift (revertIf (dst = 0) (.error .mintCannotMintToInavlidOrZeroAddress))
  let t ← ERC20._mint self dst mintAmount b.toERC20
  return (true, { b with toERC20 := t })

def burn (sender : Address) (burnAmount : UInt256) (b : BUSC) : LoggedTx BUSC := do
  lift (b.onlyOwner sender)
  let balance := b.balances sender
  lift (revertIf (burnAmount > balance) (.error .burnBurnRequestExceedsAvailableBalance))
  lift (revertIf (burnAmount ≤ 0) (.error .burnBurnAmountMustBeMoreThan0ToBurn))
  let t ← ERC20.burn self sender burnAmount b.toERC20
  return { b with toERC20 := t }

def _transferOwnership (newOwner : Address) (b : BUSC) : LoggedTx BUSC := do
  emit ⟨self, .ownershipTransferred b.owner newOwner⟩
  return { b with owner := newOwner }

def transferOwnership (sender newOwner : Address) (b : BUSC) : LoggedTx BUSC := do
  lift (b.onlyOwner sender)
  lift (require (newOwner ≠ 0) (.require "Ownable: new owner is the zero address"))
  _transferOwnership self newOwner b

def renounceOwnership (sender : Address) (b : BUSC) : LoggedTx BUSC := do
  lift (b.onlyOwner sender)
  _transferOwnership self 0 b

end BUSC

/-! ### BUSCmotor, over exact tokens -/

def callToken (w : World) (token : Address) (f : ERC20 → LoggedTx (Bool × ERC20)) :
    LoggedTx (Bool × World) := do
  let (success, t) ← f (w.erc20 token)
  return (success, w.setToken token t)

namespace BUSCmotor
open Busc.BUSCmotor (greaterThanZero protocolAllowedToken _healthFactor _revertOnBrokenHealthFactor
  getTokenAmountFromUSDwei minimumHealthFactor liquidationBonus liquidationPrecision)

def nonReentrant (body : World → LoggedTx World) (w : World) : LoggedTx World := do
  lift (require (w.motor.status ≠ .entered) (.require "ReentrancyGuard: reentrant call"))
  let w ← body (w.setStatus .entered)
  return w.setStatus .notEntered

def _pullCollateral (src dst collateralTokenAddress : Address) (amountCollateralToRedeem : UInt256)
    (w : World) : LoggedTx World := do
  let amount ← lift (checkedSub (w.deposit src collateralTokenAddress) amountCollateralToRedeem)
  let w := w.setDeposit src collateralTokenAddress amount
  emit ⟨w.self, .collateralRedeemed src dst collateralTokenAddress amountCollateralToRedeem⟩
  let (success, w) ← callToken w collateralTokenAddress
    (ERC20.transfer collateralTokenAddress w.self dst amountCollateralToRedeem)
  lift (revertIf (!success) (.error .pullCollateralTransferFailed))
  return w

def _burnBUSC (whoseBUSCtoBurn sentHereByWhomToBurn : Address) (buscAmountToBurn : UInt256)
    (w : World) : LoggedTx World := do
  let amount ← lift (checkedSub (w.debt whoseBUSCtoBurn) buscAmountToBurn)
  let w := w.setDebt whoseBUSCtoBurn amount
  let (success, w) ← callToken w w.motor.iBUSC
    (ERC20.transferFrom w.motor.iBUSC w.self sentHereByWhomToBurn w.self buscAmountToBurn)
  lift (revertIf (!success) (.error .burnBUSCBurnTransferFalied))
  let b ← BUSC.burn w.motor.iBUSC w.self buscAmountToBurn w.busc
  return w.setBusc b

def depositCollateral (sender collateralTokenAddress : Address) (depositCollateralAmount : UInt256)
    (w : World) : LoggedTx World := do
  lift (greaterThanZero depositCollateralAmount)
  lift (protocolAllowedToken collateralTokenAddress w)
  w |> nonReentrant fun w => do
    let amount ←
      lift (checkedAdd (w.deposit sender collateralTokenAddress) depositCollateralAmount)
    let w := w.setDeposit sender collateralTokenAddress amount
    emit ⟨w.self, .collateralDeposited sender collateralTokenAddress depositCollateralAmount⟩
    let (success, w) ← callToken w collateralTokenAddress
      (ERC20.transferFrom collateralTokenAddress w.self sender w.self depositCollateralAmount)
    lift (revertIf (!success) (.error .depositCollateralTransactionForCollateralDepositFailded))
    return w

def mintBUSC (sender : Address) (buscAmountToMint : UInt256) (w : World) : LoggedTx World := do
  lift (greaterThanZero buscAmountToMint)
  w |> nonReentrant fun w => do
    lift (_revertOnBrokenHealthFactor sender w)
    let amount ← lift (checkedAdd (w.debt sender) buscAmountToMint)
    let w := w.setDebt sender amount
    lift (_revertOnBrokenHealthFactor sender w)
    let (mintSuccess, b) ← BUSC.mint w.motor.iBUSC w.self sender buscAmountToMint w.busc
    lift (revertIf (!mintSuccess) (.error .mintBUSCMintingBUSCfailed))
    return w.setBusc b

def depositCollateralAndMintBUSC (sender tokenForCollateralAddress : Address)
    (collateralTokenAmount buscAmountToMint : UInt256) (w : World) : LoggedTx World := do
  let w ← depositCollateral sender tokenForCollateralAddress collateralTokenAmount w
  mintBUSC sender buscAmountToMint w

def pullCollateralAndBurnBUSC (sender tokenCollateralAddress : Address)
    (amountCollateralToRedeem buscAmountToBrun : UInt256) (w : World) : LoggedTx World := do
  lift (greaterThanZero buscAmountToBrun)
  lift (greaterThanZero amountCollateralToRedeem)
  lift (protocolAllowedToken tokenCollateralAddress w)
  let w ← _burnBUSC sender sender buscAmountToBrun w
  let w ← _pullCollateral sender sender tokenCollateralAddress amountCollateralToRedeem w
  lift (_revertOnBrokenHealthFactor sender w)
  return w

def pullCollateral (sender collateralTokenAddress : Address) (amountCollateralToRedeem : UInt256)
    (w : World) : LoggedTx World := do
  lift (greaterThanZero amountCollateralToRedeem)
  w |> nonReentrant fun w => do
    let w ← _pullCollateral sender sender collateralTokenAddress amountCollateralToRedeem w
    lift (_revertOnBrokenHealthFactor sender w)
    return w

def burnBUSC (sender : Address) (buscAmountToBurn : UInt256) (w : World) : LoggedTx World := do
  lift (greaterThanZero buscAmountToBurn)
  let w ← _burnBUSC sender sender buscAmountToBurn w
  lift (_revertOnBrokenHealthFactor sender w)
  return w

def liquidate (sender chooseTokenCollateralAddress chooseUserToLiquidate : Address)
    (debtAmountToCover : UInt256) (w : World) : LoggedTx World := do
  lift (greaterThanZero debtAmountToCover)
  lift (protocolAllowedToken chooseTokenCollateralAddress w)
  w |> nonReentrant fun w => do
    let startingUserHealthFactor ← lift (_healthFactor chooseUserToLiquidate w)
    lift (revertIf (startingUserHealthFactor ≥ minimumHealthFactor)
      (.error .liquidateNoLiquidationForThisUserSafeHealthFactor))
    let tokenAmountFromCoveredDebt ←
      lift (getTokenAmountFromUSDwei chooseTokenCollateralAddress debtAmountToCover w)
    let collteralBonusForDebtPayment ← lift (checkedDiv
      (← lift (checkedMul tokenAmountFromCoveredDebt liquidationBonus)) liquidationPrecision)
    let totalCollateralAfterDebtPayment ←
      lift (checkedAdd tokenAmountFromCoveredDebt collteralBonusForDebtPayment)
    let w ← _pullCollateral chooseUserToLiquidate sender chooseTokenCollateralAddress
      totalCollateralAfterDebtPayment w
    let w ← _burnBUSC chooseUserToLiquidate sender debtAmountToCover w
    emit ⟨w.self, .liquidation sender chooseUserToLiquidate chooseTokenCollateralAddress
      debtAmountToCover totalCollateralAfterDebtPayment⟩
    let endingUserHealthFactor ← lift (_healthFactor chooseUserToLiquidate w)
    lift (revertIf (endingUserHealthFactor ≤ startingUserHealthFactor)
      (.error .liquidateWellHealthFactorDidNotImprove))
    lift (_revertOnBrokenHealthFactor sender w)
    return w

end BUSCmotor

/-! ### Calls and runs -/

def MotorOp.call (sender : Address) : MotorOp → World → LoggedTx World
  | .depositCollateralAndMintBUSC t a m => BUSCmotor.depositCollateralAndMintBUSC sender t a m
  | .depositCollateral t a => BUSCmotor.depositCollateral sender t a
  | .mintBUSC m => BUSCmotor.mintBUSC sender m
  | .pullCollateralAndBurnBUSC t a b => BUSCmotor.pullCollateralAndBurnBUSC sender t a b
  | .pullCollateral t a => BUSCmotor.pullCollateral sender t a
  | .burnBUSC b => BUSCmotor.burnBUSC sender b
  | .liquidate t u x => BUSCmotor.liquidate sender t u x

def TokenCall.ledger (self sender : Address) (t : ERC20) : TokenCall → LoggedTx ERC20
  | .transfer dst amount => do
    let (_, t) ← ERC20.transfer self sender dst amount t; return t
  | .transferFrom src dst amount => do
    let (_, t) ← ERC20.transferFrom self sender src dst amount t; return t
  | .approve spender amount => do
    let (_, t) ← ERC20.approve self sender spender amount t; return t
  | .increaseAllowance spender added => do
    let (_, t) ← ERC20.increaseAllowance self sender spender added t; return t
  | .decreaseAllowance spender sub => do
    let (_, t) ← ERC20.decreaseAllowance self sender spender sub t; return t
  | .mint account amount => ERC20._mint self account amount t
  | .burn amount => ERC20.burn self sender amount t
  | .burnFrom account amount => ERC20.burnFrom self sender account amount t

def TokenCall.busc (self sender : Address) (b : BUSC) : TokenCall → LoggedTx BUSC
  | .mint account amount => do let (_, b) ← BUSC.mint self sender account amount b; return b
  | .burn amount => BUSC.burn self sender amount b
  | call => do let t ← TokenCall.ledger self sender b.toERC20 call; return { b with toERC20 := t }

def TokenCall.call (sender token : Address) (call : TokenCall) (w : World) : LoggedTx World :=
  if token = w.motor.iBUSC then do
    let b ← TokenCall.busc token sender w.busc call
    return w.setBusc b
  else do
    let t ← TokenCall.ledger token sender (w.erc20 token) call
    return w.setToken token t

def OwnerCall.call (sender : Address) (w : World) : OwnerCall → LoggedTx World
  | .transferOwnership newOwner => do
    return w.setBusc (← BUSC.transferOwnership w.motor.iBUSC sender newOwner w.busc)
  | .renounceOwnership => do
    return w.setBusc (← BUSC.renounceOwnership w.motor.iBUSC sender w.busc)

/-- The state with the log of everything emitted so far. -/
def exec (s : World × List Log) : Action → World × List Log
  | .motor sender op => commit s (MotorOp.call sender op s.1)
  | .token sender token call => commit s (TokenCall.call sender token call s.1)
  | .owner sender call => commit s (OwnerCall.call sender s.1 call)
  | a => (Busc.exec s.1 a, s.2)

/-! ### What they emit -/

namespace ERC20
variable {self sender src dst owner spender account : Address} {amount : UInt256} {t : ERC20}

/-- An allowance that is not infinite is written, and announced, when it is spent. -/
def spendLogs (self owner spender : Address) (amount : UInt256) (t : ERC20) : List Log :=
  if t.allowances owner spender ≠ uintMax then
    [⟨self, .approval owner spender (t.allowances owner spender - amount)⟩]
  else []

theorem transfer_internal_emits : Emits (_transfer self src dst amount t) (t._transfer src dst amount)
    [⟨self, .transfer src dst amount⟩] := .lift_emit _

theorem mint_internal_emits : Emits (_mint self account amount t) (t._mint account amount)
    [⟨self, .transfer 0 account amount⟩] := .lift_emit _

theorem burn_internal_emits : Emits (_burn self account amount t) (t._burn account amount)
    [⟨self, .transfer account 0 amount⟩] := .lift_emit _

theorem approve_internal_emits : Emits (_approve self owner spender amount t)
    (t._approve owner spender amount) [⟨self, .approval owner spender amount⟩] := .lift_emit _

theorem spendAllowance_emits : Emits (_spendAllowance self owner spender amount t)
    (t._spendAllowance owner spender amount) (spendLogs self owner spender amount t) :=
  .ite (fun _ => .lift_bind fun _ _ => approve_internal_emits) fun _ => .pure t

theorem transfer_emits : Emits (transfer self sender dst amount t) (t.transfer sender dst amount)
    [⟨self, .transfer sender dst amount⟩] :=
  transfer_internal_emits.bind_nil fun _ _ => .pure _

theorem approve_emits : Emits (approve self sender spender amount t) (t.approve sender spender amount)
    [⟨self, .approval sender spender amount⟩] :=
  approve_internal_emits.bind_nil fun _ _ => .pure _

theorem transferFrom_emits : Emits (transferFrom self sender src dst amount t)
    (t.transferFrom sender src dst amount)
    (spendLogs self src sender amount t ++ [⟨self, .transfer src dst amount⟩]) :=
  spendAllowance_emits.bind fun _ _ => transfer_internal_emits.bind_nil fun _ _ => .pure _

theorem increaseAllowance_emits : Emits (increaseAllowance self sender spender amount t)
    (t.increaseAllowance sender spender amount)
    [⟨self, .approval sender spender (t.allowances sender spender + amount)⟩] := by
  refine .lift_bind fun a ha => ?_
  obtain ⟨-, rfl⟩ := checkedAdd_eq_ok.1 ha
  exact approve_internal_emits.bind_nil fun _ _ => .pure _

theorem decreaseAllowance_emits : Emits (decreaseAllowance self sender spender amount t)
    (t.decreaseAllowance sender spender amount)
    [⟨self, .approval sender spender (t.allowances sender spender - amount)⟩] :=
  .lift_bind fun _ _ => approve_internal_emits.bind_nil fun _ _ => .pure _

theorem burnFrom_emits : Emits (burnFrom self sender account amount t)
    (t.burnFrom sender account amount)
    (spendLogs self account sender amount t ++ [⟨self, .transfer account 0 amount⟩]) :=
  spendAllowance_emits.bind fun _ _ => burn_internal_emits

end ERC20

namespace BUSC
variable {self sender dst newOwner : Address} {amount : UInt256} {b : BUSC}

theorem mint_emits : Emits (mint self sender dst amount b) (b.mint sender dst amount)
    [⟨self, .transfer 0 dst amount⟩] :=
  .lift_bind fun _ _ => .lift_bind fun _ _ => .lift_bind fun _ _ =>
    ERC20.mint_internal_emits.bind_nil fun _ _ => .pure _

theorem burn_emits : Emits (burn self sender amount b) (b.burn sender amount)
    [⟨self, .transfer sender 0 amount⟩] :=
  .lift_bind fun _ _ => .lift_bind fun _ _ => .lift_bind fun _ _ =>
    ERC20.burn_internal_emits.bind_nil fun _ _ => .pure _

theorem transferOwnership_emits : Emits (transferOwnership self sender newOwner b)
    (b.transferOwnership sender newOwner) [⟨self, .ownershipTransferred b.owner newOwner⟩] :=
  .lift_bind fun _ _ => .lift_bind fun _ _ => .emit_bind (.pure _)

theorem renounceOwnership_emits : Emits (renounceOwnership self sender b) (b.renounceOwnership sender)
    [⟨self, .ownershipTransferred b.owner 0⟩] :=
  .lift_bind fun _ _ => .emit_bind (.pure _)

end BUSC

end Logged

namespace World
variable (w : World)

def depositLogs (user token : Address) (amount : UInt256) : List Log :=
  ⟨w.self, .collateralDeposited user token amount⟩ ::
    (Logged.ERC20.spendLogs token user w.self amount (w.erc20 token) ++
      [⟨token, .transfer user w.self amount⟩])

def pullLogs (src dst token : Address) (amount : UInt256) : List Log :=
  [⟨w.self, .collateralRedeemed src dst token amount⟩, ⟨token, .transfer w.self dst amount⟩]

def mintLogs (user : Address) (amount : UInt256) : List Log :=
  [⟨w.motor.iBUSC, .transfer 0 user amount⟩]

def burnLogs (payer : Address) (amount : UInt256) : List Log :=
  Logged.ERC20.spendLogs w.motor.iBUSC payer w.self amount (w.erc20 w.motor.iBUSC) ++
    [⟨w.motor.iBUSC, .transfer payer w.self amount⟩, ⟨w.motor.iBUSC, .transfer w.self 0 amount⟩]

def liquidationLogs (liquidator user token : Address) (covered seized : UInt256) : List Log :=
  w.pullLogs user liquidator token seized ++
    (w.burnLogs liquidator covered ++ [⟨w.self, .liquidation liquidator user token covered seized⟩])

theorem burnLogs_congr {w w' : World} {payer : Address} {amount : UInt256} (hf : w.Frame w')
    (ha : (w'.erc20 w.motor.iBUSC).allowances = (w.erc20 w.motor.iBUSC).allowances) :
    w'.burnLogs payer amount = w.burnLogs payer amount := by
  unfold burnLogs Logged.ERC20.spendLogs
  rw [hf.iBUSC, hf.self, ha]

end World

def MotorOp.logs (sender : Address) (w : World) : MotorOp → List Log
  | .depositCollateralAndMintBUSC t a m => w.depositLogs sender t a ++ w.mintLogs sender m
  | .depositCollateral t a => w.depositLogs sender t a
  | .mintBUSC m => w.mintLogs sender m
  | .pullCollateralAndBurnBUSC t a b => w.burnLogs sender b ++ w.pullLogs sender sender t a
  | .pullCollateral t a => w.pullLogs sender sender t a
  | .burnBUSC b => w.burnLogs sender b
  | .liquidate t u x => w.liquidationLogs sender u t x (BitVec.ofNat 256 (w.seized t x.toNat))

def TokenCall.logs (token sender : Address) (t : ERC20) : TokenCall → List Log
  | .transfer dst amount => [⟨token, .transfer sender dst amount⟩]
  | .transferFrom src dst amount => Logged.ERC20.spendLogs token src sender amount t ++
      [⟨token, .transfer src dst amount⟩]
  | .approve spender amount => [⟨token, .approval sender spender amount⟩]
  | .increaseAllowance spender added =>
    [⟨token, .approval sender spender (t.allowances sender spender + added)⟩]
  | .decreaseAllowance spender sub =>
    [⟨token, .approval sender spender (t.allowances sender spender - sub)⟩]
  | .mint account amount => [⟨token, .transfer 0 account amount⟩]
  | .burn amount => [⟨token, .transfer sender 0 amount⟩]
  | .burnFrom account amount => Logged.ERC20.spendLogs token account sender amount t ++
      [⟨token, .transfer account 0 amount⟩]

def OwnerCall.logs (w : World) : OwnerCall → List Log
  | .transferOwnership newOwner => [⟨w.motor.iBUSC, .ownershipTransferred w.owner newOwner⟩]
  | .renounceOwnership => [⟨w.motor.iBUSC, .ownershipTransferred w.owner 0⟩]

namespace Logged
variable {w : World} {sender user token src dst whose payer : Address} {amount x m b : UInt256}
  {es es' : List Log}

theorem callToken_emits {f : ERC20 → LoggedTx (Bool × ERC20)} {g : ERC20 → Tx (Bool × ERC20)}
    (h : Emits (f (w.erc20 token)) (g (w.erc20 token)) es) :
    Emits (callToken w token f) (w.callToken token g) es :=
  h.bind_nil fun _ _ => .pure _

namespace BUSCmotor

theorem nonReentrant_emits {body : World → LoggedTx World} {body' : World → Tx World}
    (h : Emits (body (w.setStatus .entered)) (body' (w.setStatus .entered)) es) :
    Emits (nonReentrant body w) (Busc.BUSCmotor.nonReentrant body' w) es :=
  .lift_bind fun _ _ => h.bind_nil fun _ _ => .pure _

theorem pull_emits : Emits (_pullCollateral src dst token amount w)
    (Busc.BUSCmotor._pullCollateral .exact src dst token amount w) (w.pullLogs src dst token amount) :=
  .lift_bind fun _ _ => .emit_bind <| (callToken_emits ERC20.transfer_emits).bind_nil fun _ _ =>
    .lift_bind fun _ _ => .pure _

theorem burn_emits : Emits (_burnBUSC whose payer amount w)
    (Busc.BUSCmotor._burnBUSC whose payer amount w) (w.burnLogs payer amount) := by
  have hlogs : w.burnLogs payer amount =
      (ERC20.spendLogs w.motor.iBUSC payer w.self amount (w.erc20 w.motor.iBUSC) ++
        [⟨w.motor.iBUSC, .transfer payer w.self amount⟩]) ++
          [⟨w.motor.iBUSC, .transfer w.self 0 amount⟩] := by
    rw [List.append_assoc]; rfl
  rw [hlogs]
  refine .lift_bind fun D _ => (callToken_emits ERC20.transferFrom_emits).bind ?_
  rintro ⟨success, w₁⟩ h
  obtain ⟨t, -, rfl⟩ := callToken_eq_ok.1 h
  exact .lift_bind fun _ _ => BUSC.burn_emits.bind_nil fun _ _ => .pure _

theorem depositCollateral_emits : Emits (depositCollateral sender token amount w)
    (Busc.BUSCmotor.depositCollateral .exact sender token amount w)
    (w.depositLogs sender token amount) :=
  .lift_bind fun _ _ => .lift_bind fun _ _ => nonReentrant_emits <| .lift_bind fun _ _ => .emit_bind <|
    (callToken_emits ERC20.transferFrom_emits).bind_nil fun _ _ => .lift_bind fun _ _ => .pure _

theorem mintBUSC_emits : Emits (mintBUSC sender m w) (Busc.BUSCmotor.mintBUSC sender m w)
    (w.mintLogs sender m) :=
  .lift_bind fun _ _ => nonReentrant_emits <| .lift_bind fun _ _ => .lift_bind fun _ _ =>
    .lift_bind fun _ _ => BUSC.mint_emits.bind_nil fun _ _ => .lift_bind fun _ _ => .pure _

theorem liquidate_emits : Emits (liquidate sender token user x w)
    (Busc.BUSCmotor.liquidate .exact sender token user x w)
    ((MotorOp.liquidate token user x).logs sender w) := by
  refine .lift_bind fun _ _ => .lift_bind fun _ _ => nonReentrant_emits <| .lift_bind fun _ _ =>
    .lift_bind fun _ _ => .lift_bind fun q hq => .lift_bind fun p hp => .lift_bind fun b hb =>
      .lift_bind fun s hs => ?_
  obtain ⟨-, s', hs', rfl⟩ :=
    (exists_seized_iff (R := (s = ·))).1 ⟨q, hq, p, hp, b, hb, s, hs, rfl⟩
  have hs' : s.toNat = w.seized token x.toNat := hs'
  rw [MotorOp.logs, ← hs', BitVec.ofNat_toNat, BitVec.setWidth_eq]
  refine pull_emits.bind fun w₁ h₁ => ?_
  obtain ⟨h, rfl⟩ := pull_eq_ok.1 h₁
  have hf := (World.Frame.setStatus w .entered).trans (World.frame_pulled h)
  rw [← World.burnLogs_congr hf (World.allowances_pulled w.motor.iBUSC h), ← hf.self]
  refine burn_emits.bind fun w₂ h₂ => ?_
  obtain ⟨h', rfl⟩ := burn_eq_ok.1 h₂
  exact .emit_bind <| .lift_bind fun _ _ => .lift_bind fun _ _ => .lift_bind fun _ _ => .pure _

end BUSCmotor

theorem MotorOp.call_emits (op : MotorOp) :
    Emits (MotorOp.call sender op w) (op.call .exact sender w) (op.logs sender w) := by
  cases op with
  | depositCollateralAndMintBUSC t a m =>
    refine BUSCmotor.depositCollateral_emits.bind fun w₁ h₁ => ?_
    obtain ⟨-, -, -, h, rfl⟩ := depositCollateral_eq_ok.1 h₁
    exact BUSCmotor.mintBUSC_emits
  | depositCollateral t a => exact BUSCmotor.depositCollateral_emits
  | mintBUSC m => exact BUSCmotor.mintBUSC_emits
  | pullCollateralAndBurnBUSC t a b =>
    refine .lift_bind fun _ _ => .lift_bind fun _ _ => .lift_bind fun _ _ =>
      BUSCmotor.burn_emits.bind fun w₁ h₁ => ?_
    obtain ⟨h, rfl⟩ := burn_eq_ok.1 h₁
    exact BUSCmotor.pull_emits.bind_nil fun _ _ => .lift_bind fun _ _ => .pure _
  | pullCollateral t a =>
    exact .lift_bind fun _ _ => BUSCmotor.nonReentrant_emits <|
      BUSCmotor.pull_emits.bind_nil fun _ _ => .lift_bind fun _ _ => .pure _
  | burnBUSC b =>
    exact .lift_bind fun _ _ =>
      BUSCmotor.burn_emits.bind_nil fun _ _ => .lift_bind fun _ _ => .pure _
  | liquidate t u x => exact BUSCmotor.liquidate_emits

theorem TokenCall.ledger_emits (call : TokenCall) (t : ERC20) :
    Emits (TokenCall.ledger token sender t call) (call.ledger sender t) (call.logs token sender t) := by
  cases call with
  | transfer dst amount => exact ERC20.transfer_emits.bind_nil fun _ _ => .pure _
  | transferFrom src dst amount => exact ERC20.transferFrom_emits.bind_nil fun _ _ => .pure _
  | approve spender amount => exact ERC20.approve_emits.bind_nil fun _ _ => .pure _
  | increaseAllowance spender added => exact ERC20.increaseAllowance_emits.bind_nil fun _ _ => .pure _
  | decreaseAllowance spender sub => exact ERC20.decreaseAllowance_emits.bind_nil fun _ _ => .pure _
  | mint account amount => exact ERC20.mint_internal_emits
  | burn amount => exact ERC20.burn_internal_emits
  | burnFrom account amount => exact ERC20.burnFrom_emits

theorem TokenCall.call_emits (call : TokenCall) : Emits (TokenCall.call sender token call w)
    (call.call sender token w) (call.logs token sender (w.erc20 token)) := by
  unfold TokenCall.call Busc.TokenCall.call
  by_cases ht : token = w.motor.iBUSC
  · rw [if_pos ht, if_pos ht]
    refine Emits.bind_nil ?_ fun _ _ => .pure _
    subst ht
    cases call with
    | mint account amount => exact BUSC.mint_emits.bind_nil fun _ _ => .pure _
    | burn amount => exact BUSC.burn_emits
    | _ => exact (TokenCall.ledger_emits _ _).bind_nil fun _ _ => .pure _
  · rw [if_neg ht, if_neg ht]
    exact (TokenCall.ledger_emits call _).bind_nil fun _ _ => .pure _

theorem OwnerCall.call_emits (call : OwnerCall) :
    Emits (OwnerCall.call sender w call) (call.call sender w) (call.logs w) := by
  cases call with
  | transferOwnership newOwner => exact BUSC.transferOwnership_emits.bind_nil fun _ _ => .pure _
  | renounceOwnership => exact BUSC.renounceOwnership_emits.bind_nil fun _ _ => .pure _

end Logged

end Busc
