import Busc.Stablecoin

/-!
# The motor

`OracleLib.sol` and `BUSCmotor.sol`, function by function, in the order of the source. A function
takes the caller `sender` where the source reads `msg.sender`, and the state last; a public function
returns the state it leaves. The events, which no function reads, are added in `Events`.

A call into a collateral token is the only one into code the motor does not know. The functions
that make one take its meaning as `erc : IERC20`; `IERC20.exact` is the plain ERC20.
-/

namespace Busc
open Solidity

/-! ### OracleLib -/

/-- `priceFeed.latestRoundData()`. A token that is not listed has the feed `address(0)`, and the call
reverts. -/
def latestRoundData (priceFeed : Address) (w : World) : Tx RoundData := do
  revertIf (priceFeed = 0) .noCode
  return w.feeds priceFeed

namespace OracleLib

/-- `PRICEFEED_TIMEOUT`: 2 hours. -/
def pricefeedTimeout : UInt256 := 7200

def stalePriceCheckLatestRoundData (priceFeed : Address) (w : World) : Tx RoundData := do
  let round ← latestRoundData priceFeed w
  let secondsSince ← checkedSub w.timestamp round.updatedAt
  revertIf (secondsSince > pricefeedTimeout)
    (.error .stalePriceCheckLatestRoundDataStalePrice)
  return round

end OracleLib

/-- What the two calls the motor makes into a collateral token do: `transfer token sender dst amount`
and `transferFrom token sender src dst amount`. -/
structure IERC20 where
  transfer : Address → Address → Address → UInt256 → World → Tx (Bool × World)
  transferFrom : Address → Address → Address → Address → UInt256 → World → Tx (Bool × World)

def World.callToken (w : World) (token : Address) (f : ERC20 → Tx (Bool × ERC20)) :
    Tx (Bool × World) := do
  let (success, t) ← f (w.erc20 token)
  return (success, w.setToken token t)

/-- A token that moves exactly the amount it is asked to, or reverts. -/
def IERC20.exact : IERC20 where
  transfer token sender dst amount w := w.callToken token (ERC20.transfer sender dst amount)
  transferFrom token sender src dst amount w :=
    w.callToken token (ERC20.transferFrom sender src dst amount)

namespace BUSCmotor

def pricefeedPrecisionFactor : UInt256 := 10000000000
def solidityPrecisionFactor : UInt256 := 1000000000000000000
def liquidationThresholdPercent : UInt256 := 50
def liquidationPrecision : UInt256 := 100
def minimumHealthFactor : UInt256 := 1000000000000000000
def liquidationBonus : UInt256 := 10

/-! ### Modifiers -/

def greaterThanZero (amount : UInt256) : Tx Unit :=
  revertIf (amount ≤ 0) (.error .graterThanZeroAmountMustBeMoreThanZero)

def protocolAllowedToken (allowedTokenAddress : Address) (w : World) : Tx Unit :=
  revertIf (w.motor.tokenToPriceFeed allowedTokenAddress = 0)
    (.error .protocolAllowedTokenTokenNotAllowed)

/-- `nonReentrant` around a function's body. -/
def nonReentrant (body : World → Tx World) (w : World) : Tx World := do
  require (w.motor.status ≠ .entered) (.require "ReentrancyGuard: reentrant call")
  let w ← body (w.setStatus .entered)
  return w.setStatus .notEntered

/-! ### Constructor -/

/-- One turn of the constructor's loop. -/
def addToken (m : BUSCmotor) (tokenAddress priceFeedAddress : Address) : Tx BUSCmotor := do
  revertIf (tokenAddress = 0 ∨ priceFeedAddress = 0)
    (.error .constructorZeroAddressNotAllowedForTokenAddressesAndTokenPriceFeedAddreses)
  revertIf (m.tokenToPriceFeed tokenAddress ≠ 0)
    (.error .constructorCannotIncludeDuplicateTokenAddress)
  return { m with
    tokenToPriceFeed := Function.update m.tokenToPriceFeed tokenAddress priceFeedAddress
    collateralTokens := m.collateralTokens ++ [tokenAddress] }

def constructor (tokenAddresses tokenPriceFeedAddresses : List Address)
    (buscContractAddress : Address) : Tx BUSCmotor := do
  revertIf (tokenAddresses.length ≠ tokenPriceFeedAddresses.length)
    (.error .constructorArrayLengthOftokenAddressAndPriceFeedAddressesMustBeSame)
  let m ← (tokenAddresses.zip tokenPriceFeedAddresses).foldlM (fun m p => addToken m p.1 p.2)
    { iBUSC := 0, tokenToPriceFeed := fun _ => 0, userCollateralDeposits := fun _ _ => 0,
      buscAmountMintedByUser := fun _ => 0, collateralTokens := [], status := .notEntered }
  revertIf (buscContractAddress = 0) (.error .constructorZeroAddressNotAllowed)
  return { m with iBUSC := buscContractAddress }

/-! ### Valuation -/

def _getValueInUSD (tokenAddress : Address) (amount : UInt256) (w : World) : Tx UInt256 := do
  let priceFeed := w.motor.tokenToPriceFeed tokenAddress
  let { answer := price, .. } ← OracleLib.stalePriceCheckLatestRoundData priceFeed w
  let tokenDecimal := (w.decimals tokenAddress).setWidth 256
  let scale ← checkedPow 10 (← checkedSub 18 tokenDecimal)
  let adjustTokenAmountDecimal ← checkedMul amount scale
  let scaledPrice ← checkedMul price pricefeedPrecisionFactor
  let usdValue ← checkedMul scaledPrice adjustTokenAmountDecimal
  checkedDiv usdValue solidityPrecisionFactor

def getValueInUSD (tokenAddress : Address) (amount : UInt256) (w : World) : Tx UInt256 :=
  _getValueInUSD tokenAddress amount w

/-- The loop over `s_collateralTokens`. -/
def getCollateralValueOfTheAccountInUSD (user : Address) (w : World) : Tx UInt256 :=
  w.motor.collateralTokens.foldlM (fun total tokenAddress => do
    let amount := w.deposit user tokenAddress
    checkedAdd total (← _getValueInUSD tokenAddress amount w)) 0

def _getAccountInformation (user : Address) (w : World) : Tx (UInt256 × UInt256) := do
  let totalBUSCminted := w.debt user
  let collateralValueInUSD ← getCollateralValueOfTheAccountInUSD user w
  return (totalBUSCminted, collateralValueInUSD)

def _calculateHealthFactor (totalBUSCminted collateralValueInUSD : UInt256) : Tx UInt256 :=
  if totalBUSCminted = 0 then .ok uintMax
  else do
    let adjustedCollateralThreshold ← checkedDiv
      (← checkedMul collateralValueInUSD liquidationThresholdPercent) liquidationPrecision
    checkedDiv (← checkedMul adjustedCollateralThreshold solidityPrecisionFactor) totalBUSCminted

def _healthFactor (user : Address) (w : World) : Tx UInt256 := do
  let (totalBUSCminted, collateralValueInUSD) ← _getAccountInformation user w
  _calculateHealthFactor totalBUSCminted collateralValueInUSD

def _revertOnBrokenHealthFactor (user : Address) (w : World) : Tx Unit := do
  let userHealthFactor ← _healthFactor user w
  revertIf (userHealthFactor < minimumHealthFactor)
    (.error (.breaksTheHealthFactorThreshold userHealthFactor))

def getTokenAmountFromUSDwei (tokenAddress : Address) (tokenValueInUSDwei : UInt256) (w : World) :
    Tx UInt256 := do
  let priceFeed := w.motor.tokenToPriceFeed tokenAddress
  let { answer := price, .. } ← OracleLib.stalePriceCheckLatestRoundData priceFeed w
  checkedDiv (← checkedMul tokenValueInUSDwei solidityPrecisionFactor)
    (← checkedMul price pricefeedPrecisionFactor)

/-! ### Private functions -/

def _pullCollateral (erc : IERC20) (src dst collateralTokenAddress : Address)
    (amountCollateralToRedeem : UInt256) (w : World) : Tx World := do
  let amount ← checkedSub (w.deposit src collateralTokenAddress) amountCollateralToRedeem
  let w := w.setDeposit src collateralTokenAddress amount
  let (success, w) ← erc.transfer collateralTokenAddress w.self dst amountCollateralToRedeem w
  revertIf (!success) (.error .pullCollateralTransferFailed)
  return w

def _burnBUSC (whoseBUSCtoBurn sentHereByWhomToBurn : Address) (buscAmountToBurn : UInt256)
    (w : World) : Tx World := do
  let amount ← checkedSub (w.debt whoseBUSCtoBurn) buscAmountToBurn
  let w := w.setDebt whoseBUSCtoBurn amount
  let (success, w) ← w.callToken w.motor.iBUSC
    (ERC20.transferFrom w.self sentHereByWhomToBurn w.self buscAmountToBurn)
  revertIf (!success) (.error .burnBUSCBurnTransferFalied)
  let b ← w.busc.burn w.self buscAmountToBurn
  return w.setBusc b

/-! ### External and public functions -/

def depositCollateral (erc : IERC20) (sender collateralTokenAddress : Address)
    (depositCollateralAmount : UInt256) (w : World) : Tx World := do
  greaterThanZero depositCollateralAmount
  protocolAllowedToken collateralTokenAddress w
  w |> nonReentrant fun w => do
    let amount ← checkedAdd (w.deposit sender collateralTokenAddress) depositCollateralAmount
    let w := w.setDeposit sender collateralTokenAddress amount
    let (success, w) ←
      erc.transferFrom collateralTokenAddress w.self sender w.self depositCollateralAmount w
    revertIf (!success) (.error .depositCollateralTransactionForCollateralDepositFailded)
    return w

def mintBUSC (sender : Address) (buscAmountToMint : UInt256) (w : World) : Tx World := do
  greaterThanZero buscAmountToMint
  w |> nonReentrant fun w => do
    _revertOnBrokenHealthFactor sender w
    let amount ← checkedAdd (w.debt sender) buscAmountToMint
    let w := w.setDebt sender amount
    _revertOnBrokenHealthFactor sender w
    let (mintSuccess, b) ← w.busc.mint w.self sender buscAmountToMint
    revertIf (!mintSuccess) (.error .mintBUSCMintingBUSCfailed)
    return w.setBusc b

def depositCollateralAndMintBUSC (erc : IERC20) (sender tokenForCollateralAddress : Address)
    (collateralTokenAmount buscAmountToMint : UInt256) (w : World) : Tx World := do
  let w ← depositCollateral erc sender tokenForCollateralAddress collateralTokenAmount w
  mintBUSC sender buscAmountToMint w

def pullCollateralAndBurnBUSC (erc : IERC20) (sender tokenCollateralAddress : Address)
    (amountCollateralToRedeem buscAmountToBrun : UInt256) (w : World) : Tx World := do
  greaterThanZero buscAmountToBrun
  greaterThanZero amountCollateralToRedeem
  protocolAllowedToken tokenCollateralAddress w
  let w ← _burnBUSC sender sender buscAmountToBrun w
  let w ← _pullCollateral erc sender sender tokenCollateralAddress amountCollateralToRedeem w
  _revertOnBrokenHealthFactor sender w
  return w

def pullCollateral (erc : IERC20) (sender collateralTokenAddress : Address)
    (amountCollateralToRedeem : UInt256) (w : World) : Tx World := do
  greaterThanZero amountCollateralToRedeem
  w |> nonReentrant fun w => do
    let w ← _pullCollateral erc sender sender collateralTokenAddress amountCollateralToRedeem w
    _revertOnBrokenHealthFactor sender w
    return w

def burnBUSC (sender : Address) (buscAmountToBurn : UInt256) (w : World) : Tx World := do
  greaterThanZero buscAmountToBurn
  let w ← _burnBUSC sender sender buscAmountToBurn w
  _revertOnBrokenHealthFactor sender w
  return w

def liquidate (erc : IERC20) (sender chooseTokenCollateralAddress chooseUserToLiquidate : Address)
    (debtAmountToCover : UInt256) (w : World) : Tx World := do
  greaterThanZero debtAmountToCover
  protocolAllowedToken chooseTokenCollateralAddress w
  w |> nonReentrant fun w => do
    let startingUserHealthFactor ← _healthFactor chooseUserToLiquidate w
    revertIf (startingUserHealthFactor ≥ minimumHealthFactor)
      (.error .liquidateNoLiquidationForThisUserSafeHealthFactor)
    let tokenAmountFromCoveredDebt ←
      getTokenAmountFromUSDwei chooseTokenCollateralAddress debtAmountToCover w
    let collteralBonusForDebtPayment ← checkedDiv
      (← checkedMul tokenAmountFromCoveredDebt liquidationBonus) liquidationPrecision
    let totalCollateralAfterDebtPayment ←
      checkedAdd tokenAmountFromCoveredDebt collteralBonusForDebtPayment
    let w ← _pullCollateral erc chooseUserToLiquidate sender chooseTokenCollateralAddress
      totalCollateralAfterDebtPayment w
    let w ← _burnBUSC chooseUserToLiquidate sender debtAmountToCover w
    let endingUserHealthFactor ← _healthFactor chooseUserToLiquidate w
    revertIf (endingUserHealthFactor ≤ startingUserHealthFactor)
      (.error .liquidateWellHealthFactorDidNotImprove)
    _revertOnBrokenHealthFactor sender w
    return w

end BUSCmotor

inductive MotorOp
  | depositCollateralAndMintBUSC (token : Address) (collateralTokenAmount buscAmountToMint : UInt256)
  | depositCollateral (token : Address) (amount : UInt256)
  | mintBUSC (amount : UInt256)
  | pullCollateralAndBurnBUSC (token : Address) (amountCollateralToRedeem buscAmountToBurn : UInt256)
  | pullCollateral (token : Address) (amount : UInt256)
  | burnBUSC (amount : UInt256)
  | liquidate (token user : Address) (debtAmountToCover : UInt256)
deriving DecidableEq

def MotorOp.call (erc : IERC20) (sender : Address) : MotorOp → World → Tx World
  | .depositCollateralAndMintBUSC t a m => BUSCmotor.depositCollateralAndMintBUSC erc sender t a m
  | .depositCollateral t a => BUSCmotor.depositCollateral erc sender t a
  | .mintBUSC m => BUSCmotor.mintBUSC sender m
  | .pullCollateralAndBurnBUSC t a b => BUSCmotor.pullCollateralAndBurnBUSC erc sender t a b
  | .pullCollateral t a => BUSCmotor.pullCollateral erc sender t a
  | .burnBUSC b => BUSCmotor.burnBUSC sender b
  | .liquidate t u x => BUSCmotor.liquidate erc sender t u x

end Busc
