import Busc.Entry
import Busc.Lib.Machine

/-!
# The system

The motor among the contracts around it: the deployment, the actions accounts take and the
environment takes, and the runs and reachable states they make. A reverting call leaves the state as
it was. The motor's own account sends only the calls the motor makes, which are part of its
operations: token and ownership calls come from other accounts.
-/

namespace Busc
open Solidity Machine

inductive TokenCall
  | transfer (dst : Address) (amount : UInt256)
  | transferFrom (src dst : Address) (amount : UInt256)
  | approve (spender : Address) (amount : UInt256)
  | increaseAllowance (spender : Address) (addedValue : UInt256)
  | decreaseAllowance (spender : Address) (subtractedValue : UInt256)
  | mint (account : Address) (amount : UInt256)
  | burn (amount : UInt256)
  | burnFrom (account : Address) (amount : UInt256)

/-- The call on the ledger of a plain ERC20; who may mint is up to the token. -/
def TokenCall.ledger (sender : Address) (t : ERC20) : TokenCall → Tx ERC20
  | .transfer dst amount => do let (_, t) ← t.transfer sender dst amount; return t
  | .transferFrom src dst amount => do let (_, t) ← t.transferFrom sender src dst amount; return t
  | .approve spender amount => do let (_, t) ← t.approve sender spender amount; return t
  | .increaseAllowance spender added => do let (_, t) ← t.increaseAllowance sender spender added; return t
  | .decreaseAllowance spender sub => do let (_, t) ← t.decreaseAllowance sender spender sub; return t
  | .mint account amount => t._mint account amount
  | .burn amount => t.burn sender amount
  | .burnFrom account amount => t.burnFrom sender account amount

/-- The call on the ledger of `BUSC`, which overrides `mint` and `burn`. -/
def TokenCall.busc (sender : Address) (b : BUSC) : TokenCall → Tx BUSC
  | .mint account amount => do let (_, b) ← b.mint sender account amount; return b
  | .burn amount => b.burn sender amount
  | call => do let t ← call.ledger sender b.toERC20; return { b with toERC20 := t }

def TokenCall.call (sender token : Address) (call : TokenCall) (w : World) : Tx World :=
  if token = w.motor.iBUSC then do
    let b ← call.busc sender w.busc
    return w.setBusc b
  else do
    let t ← call.ledger sender (w.erc20 token)
    return w.setToken token t

inductive OwnerCall
  | transferOwnership (newOwner : Address)
  | renounceOwnership

def OwnerCall.call (sender : Address) (w : World) : OwnerCall → Tx World
  | .transferOwnership newOwner => do return w.setBusc (← w.busc.transferOwnership sender newOwner)
  | .renounceOwnership => do return w.setBusc (← w.busc.renounceOwnership sender)

inductive Action
  | motor (sender : Address) (op : MotorOp)
  | token (sender token : Address) (call : TokenCall)
  | owner (sender : Address) (call : OwnerCall)
  | passTime (seconds : UInt256)
  | updateFeed (feed : Address) (round : RoundData)

def Action.IsMotor : Action → Prop
  | .motor .. => True
  | _ => False

/-- What a call leaves; a call that reverts leaves the state it found. -/
def outcome (w : World) (t : Tx World) : World :=
  match t with
  | .ok w' => w'
  | .error _ => w

def exec (w : World) : Action → World
  | .motor sender op => outcome w (op.call .exact sender w)
  | .token sender token call => outcome w (call.call sender token w)
  | .owner sender call => outcome w (call.call sender w)
  | .passTime seconds => { w with timestamp := w.timestamp + seconds }
  | .updateFeed feed round => { w with feeds := Function.update w.feeds feed round }

/-- The motor sends no token or ownership call of its own. -/
def Legal (w : World) : Action → Prop
  | .token sender _ _ => sender ≠ w.self
  | .owner sender _ => sender ≠ w.self
  | _ => True

instance (w : World) : ∀ a, Decidable (Legal w a)
  | .token sender _ _ => inferInstanceAs (Decidable (sender ≠ w.self))
  | .owner sender _ => inferInstanceAs (Decidable (sender ≠ w.self))
  | .motor .. | .passTime .. | .updateFeed .. => inferInstanceAs (Decidable True)

/-! ### Deployment -/

/-- The chain before the deployment, with the addresses the two contracts will get. -/
structure Chain where
  timestamp : UInt256
  feeds : Address → RoundData
  decimals : Address → BitVec 8
  erc20 : Address → ERC20
  deployer : Address
  busc : Address
  motor : Address

/-- `BUSC`, the motor over the given tokens, and the ownership of `BUSC` handed to the motor. -/
def deploy (c : Chain) (tokenAddresses priceFeedAddresses : List Address) : Tx World := do
  let busc := BUSC.constructor c.deployer
  let buscMotor ← BUSCmotor.constructor tokenAddresses priceFeedAddresses c.busc
  let busc ← busc.transferOwnership c.deployer c.motor
  return {
    timestamp := c.timestamp
    feeds := c.feeds
    decimals := c.decimals
    erc20 := Function.update c.erc20 c.busc busc.toERC20
    owner := busc.owner
    self := c.motor
    motor := buscMotor }

/-- The addresses `HelperConfig` chooses by network. -/
structure NetworkConfiguration where
  wethTokenAddress : Address
  wbtcTokenAddress : Address
  wethTokenPriceFeedAddress : Address
  wbtcTokenPriceFeedAddress : Address

namespace HelperConfig

def ethUsdPrice : Int256 := 400000000000
def btcUsdPrice : Int256 := 11200000000000

/-- The round a `MockV3Aggregator` answers with after its construction. -/
def mockRound (timestamp : UInt256) (initialAnswer : Int256) : RoundData where
  roundId := 1
  answer := initialAnswer
  startedAt := timestamp
  updatedAt := timestamp
  answeredInRound := 1

/-- The local network: a mock feed and a mock token for each collateral, the tokens' whole supply
with `sender`, at the addresses of `config`. -/
def createOrgetAnvilNetworkConfig (timestamp : UInt256) (sender deployer busc motor : Address)
    (config : NetworkConfiguration) : Chain where
  timestamp := timestamp
  feeds feed := mockRound timestamp
    (if feed = config.wethTokenPriceFeedAddress then ethUsdPrice else btcUsdPrice)
  decimals token := if token = config.wethTokenAddress then 18 else 8
  erc20 token :=
    if token = config.wethTokenAddress then .initial sender 10000000000000000000000
    else if token = config.wbtcTokenAddress then .initial sender 900000000000
    else .empty
  deployer := deployer
  busc := busc
  motor := motor

end HelperConfig

def DeployBUSC.run (c : Chain) (config : NetworkConfiguration) : Tx World :=
  deploy c [config.wethTokenAddress, config.wbtcTokenAddress]
    [config.wethTokenPriceFeedAddress, config.wbtcTokenPriceFeedAddress]

/-- `BUSC` is not among the collateral tokens, and the account the motor will have has approved
nobody to any token yet. -/
structure Chain.Apt (c : Chain) (tokenAddresses : List Address) : Prop where
  busc : c.busc ∉ tokenAddresses
  allowances : ∀ token spender, (c.erc20 token).allowances c.motor spender = 0

def Deployed (w : World) : Prop :=
  ∃ c tokens feeds, c.Apt tokens ∧ deploy c tokens feeds = .ok w

def Reachable (w : World) : Prop :=
  ∃ w₀ as, Deployed w₀ ∧ Along exec Legal w₀ as ∧ w = run exec w₀ as

section outcome
variable {w w' : World} {t : Tx World}

theorem outcome_ok (h : t = .ok w') : outcome w t = w' := by rw [h]; rfl

theorem outcome_error {e : Revert Error} (h : t = .error e) : outcome w t = w := by rw [h]; rfl

theorem exec_of_call {sender : Address} {op : MotorOp} (h : op.call .exact sender w = .ok w') :
    exec w (.motor sender op) = w' := outcome_ok h

theorem exists_ok (h : t.isOk = true) : ∃ w', t = .ok w' := by
  cases ht : t with
  | error e => simp [ht, Except.isOk, Except.toBool] at h
  | ok w' => exact ⟨w', rfl⟩

theorem outcome_cases {P : World → Prop} (h : P w) (hok : ∀ w', t = .ok w' → P w') :
    P (outcome w t) := by
  cases ht : t with
  | error e => exact h
  | ok w' => exact hok w' ht

end outcome

section storage
variable {w w' : World} {sender token : Address}

theorem TokenCall.call_motor {call : TokenCall} (h : call.call sender token w = .ok w') :
    w'.motor = w.motor := by
  unfold TokenCall.call at h
  split at h
  · obtain ⟨b, -, hw⟩ := bind_eq_ok.1 h
    rw [pure_eq_ok.1 hw]; rfl
  · obtain ⟨t, -, hw⟩ := bind_eq_ok.1 h
    rw [pure_eq_ok.1 hw]; rfl

theorem OwnerCall.call_motor {call : OwnerCall} (h : call.call sender w = .ok w') :
    w'.motor = w.motor := by
  cases call <;> obtain ⟨b, -, hw⟩ := bind_eq_ok.1 h <;> rw [pure_eq_ok.1 hw] <;> rfl

end storage

end Busc
