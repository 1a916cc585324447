import Busc.Lib.Solidity
import Busc.Lib.Total
import Mathlib.Data.FinEnum

/-!
# The ERC20 ledger

The OpenZeppelin 4.8 `ERC20` with its `ERC20Burnable` extension, as `BUSC` inherits it and the
collateral tokens implement it. A ledger carries the fact that its balances add up to its total
supply, so the `unchecked` blocks of the source, kept here as wrapping `+` and `-`, never wrap. The
hooks `_beforeTokenTransfer` and `_afterTokenTransfer` are empty in the source and are left out. The
events are added in `Events`.
-/

namespace Busc
open Solidity WordMap

abbrev Address := BitVec 160

/-- The custom errors of `BUSCmotor`, `BUSC` and `OracleLib`. -/
inductive Error
  -- BUSCmotor
  | graterThanZeroAmountMustBeMoreThanZero
  | protocolAllowedTokenTokenNotAllowed
  | constructorZeroAddressNotAllowed
  | constructorArrayLengthOftokenAddressAndPriceFeedAddressesMustBeSame
  | constructorZeroAddressNotAllowedForTokenAddressesAndTokenPriceFeedAddreses
  | constructorCannotIncludeDuplicateTokenAddress
  | depositCollateralTransactionForCollateralDepositFailded
  | breaksTheHealthFactorThreshold (healthFactor : UInt256)
  | mintBUSCMintingBUSCfailed
  | pullCollateralTransferFailed
  | burnBUSCBurnTransferFalied
  | liquidateNoLiquidationForThisUserSafeHealthFactor
  | liquidateWellHealthFactorDidNotImprove
  -- BUSC
  | burnBurnRequestExceedsAvailableBalance
  | burnBurnAmountMustBeMoreThan0ToBurn
  | mintMintAmountMustBeAboveZero
  | mintCannotMintToInavlidOrZeroAddress
  -- OracleLib
  | stalePriceCheckLatestRoundDataStalePrice
deriving DecidableEq, Repr

/-- The outcome of a call: a value, or the revert that undoes it. -/
abbrev Tx := Except (Revert Error)

/-- `type(uint256).max`, which as an allowance is never spent. -/
def uintMax : UInt256 := BitVec.allOnes 256

@[ext] structure ERC20 where
  balances : Address → UInt256
  allowances : Address → Address → UInt256
  totalSupply : UInt256
  /-- No token is created or lost but by `_mint` and `_burn`. -/
  total_balances : total balances = totalSupply.toNat

namespace ERC20

/-- `constructor()`: no supply, no balances, no allowances. -/
def empty : ERC20 where
  balances _ := 0
  allowances _ _ := 0
  totalSupply := 0
  total_balances := by rw [total_zero]; rfl

/-- The constructor of `ERC20MockDecimal`: the whole supply is given to one account. -/
def initial (initialAccount : Address) (initialBalance : UInt256) : ERC20 where
  balances := Function.update (fun _ => 0) initialAccount initialBalance
  allowances _ _ := 0
  totalSupply := initialBalance
  total_balances := by
    have h := total_update (fun _ : Address => (0 : UInt256)) initialAccount initialBalance
    rw [total_zero] at h
    simpa using h

theorem total_lt (t : ERC20) : total t.balances < 2 ^ 256 := by
  rw [t.total_balances]; exact t.totalSupply.isLt

theorem balance_le_supply (t : ERC20) (account : Address) :
    (t.balances account).toNat ≤ t.totalSupply.toNat :=
  t.total_balances ▸ apply_le_total t.balances account

/-! ### The ways the storage changes -/

/-- `amount` goes from `src` to `dst`, which may be the same account. -/
@[simps] def move (t : ERC20) (src dst : Address) (amount : UInt256)
    (h : amount ≤ t.balances src) : ERC20 where
  balances := moved t.balances src dst amount
  allowances := t.allowances
  totalSupply := t.totalSupply
  total_balances := by rw [total_moved h t.total_lt, t.total_balances]

@[simps] def issue (t : ERC20) (account : Address) (amount : UInt256)
    (h : t.totalSupply.toNat + amount.toNat < 2 ^ 256) : ERC20 where
  balances := Function.update t.balances account (t.balances account + amount)
  allowances := t.allowances
  totalSupply := t.totalSupply + amount
  total_balances := by
    have ht := t.total_balances
    have hu := total_update t.balances account (t.balances account + amount)
    have hle := apply_le_total t.balances account
    rw [BitVec.toNat_add_of_lt (by omega)] at hu
    rw [BitVec.toNat_add_of_lt h]
    omega

@[simps] def destroy (t : ERC20) (account : Address) (amount : UInt256)
    (h : amount ≤ t.balances account) : ERC20 where
  balances := Function.update t.balances account (t.balances account - amount)
  allowances := t.allowances
  totalSupply := t.totalSupply - amount
  total_balances := by
    have ht := t.total_balances
    have hu := total_update t.balances account (t.balances account - amount)
    have hle := apply_le_total t.balances account
    have h' := BitVec.le_def.1 h
    have hs : amount ≤ t.totalSupply := BitVec.le_def.2 (by omega)
    rw [BitVec.toNat_sub_of_le h] at hu
    rw [BitVec.toNat_sub_of_le hs]
    omega

@[simps] def setAllowance (t : ERC20) (owner spender : Address) (amount : UInt256) : ERC20 where
  balances := t.balances
  allowances := Function.update t.allowances owner
    (Function.update (t.allowances owner) spender amount)
  totalSupply := t.totalSupply
  total_balances := t.total_balances

/-- What `_spendAllowance` leaves: the allowance lowered by `amount`, unless it is infinite. -/
@[simps] def spend (t : ERC20) (owner spender : Address) (amount : UInt256) : ERC20 where
  balances := t.balances
  allowances := if t.allowances owner spender = uintMax then t.allowances else
    Function.update t.allowances owner
      (Function.update (t.allowances owner) spender (t.allowances owner spender - amount))
  totalSupply := t.totalSupply
  total_balances := t.total_balances

theorem le_spend {t : ERC20} {account owner spender : Address} {amount a : UInt256}
    (h : amount ≤ t.balances account) : amount ≤ (t.spend owner spender a).balances account := h

theorem spend_allowances_of_ne {t : ERC20} {account owner spender : Address} {amount : UInt256}
    (h : account ≠ owner) : (t.spend owner spender amount).allowances account = t.allowances account := by
  funext s
  rw [spend_allowances]
  split
  · rfl
  · rw [Function.update_of_ne h]

theorem le_move_dst (t : ERC20) {src dst : Address} {amount : UInt256}
    (h : amount ≤ t.balances src) : amount ≤ (t.move src dst amount h).balances dst := by
  show amount ≤ moved t.balances src dst amount dst
  rcases eq_or_ne src dst with rfl | hne
  · rwa [moved_self]
  · rw [BitVec.le_def, toNat_moved_dst hne h t.total_lt]; omega

section move
variable {t : ERC20} {src dst account : Address} {amount : UInt256} {h : amount ≤ t.balances src}

theorem toNat_move_dst (hne : src ≠ dst) : ((t.move src dst amount h).balances dst).toNat =
    (t.balances dst).toNat + amount.toNat :=
  toNat_moved_dst hne h t.total_lt

theorem toNat_move_src (hne : src ≠ dst) : ((t.move src dst amount h).balances src).toNat =
    (t.balances src).toNat - amount.toNat :=
  toNat_moved_src hne h

theorem move_balances_of_ne (hs : account ≠ src) (hd : account ≠ dst) :
    (t.move src dst amount h).balances account = t.balances account :=
  moved_of_ne hs hd

end move

/-- Moving tokens to an account that then destroys them destroys them where they were. -/
theorem destroy_move (t : ERC20) {src dst : Address} {amount : UInt256}
    (h : amount ≤ t.balances src) :
    (t.move src dst amount h).destroy dst amount (t.le_move_dst h) = t.destroy src amount h := by
  refine ERC20.ext ?_ rfl rfl
  show Function.update (moved t.balances src dst amount) dst
    (moved t.balances src dst amount dst - amount) = Function.update t.balances src _
  rcases eq_or_ne src dst with rfl | hne
  · rw [moved_self]
  funext k
  simp only [Function.update_apply, moved_apply, if_neg (Ne.symm hne), if_true, BitVec.add_sub_cancel]
  rcases eq_or_ne k dst with rfl | hk
  · rw [if_pos rfl, if_neg (Ne.symm hne)]
  · rw [if_neg hk, if_neg hk]

/-! ### Internal functions -/

def _transfer (src dst : Address) (amount : UInt256) (t : ERC20) : Tx ERC20 := do
  require (src ≠ 0) (.require "ERC20: transfer from the zero address")
  require (dst ≠ 0) (.require "ERC20: transfer to the zero address")
  if h : amount ≤ t.balances src then .ok (t.move src dst amount h)
  else .error (.require "ERC20: transfer amount exceeds balance")

def _mint (account : Address) (amount : UInt256) (t : ERC20) : Tx ERC20 := do
  require (account ≠ 0) (.require "ERC20: mint to the zero address")
  if h : t.totalSupply.toNat + amount.toNat < 2 ^ 256 then .ok (t.issue account amount h)
  else .error .arithmetic

def _burn (account : Address) (amount : UInt256) (t : ERC20) : Tx ERC20 := do
  require (account ≠ 0) (.require "ERC20: burn from the zero address")
  if h : amount ≤ t.balances account then .ok (t.destroy account amount h)
  else .error (.require "ERC20: burn amount exceeds balance")

def _approve (owner spender : Address) (amount : UInt256) (t : ERC20) : Tx ERC20 := do
  require (owner ≠ 0) (.require "ERC20: approve from the zero address")
  require (spender ≠ 0) (.require "ERC20: approve to the zero address")
  return t.setAllowance owner spender amount

def _spendAllowance (owner spender : Address) (amount : UInt256) (t : ERC20) : Tx ERC20 :=
  let currentAllowance := t.allowances owner spender
  if currentAllowance ≠ uintMax then do
    require (amount ≤ currentAllowance) (.require "ERC20: insufficient allowance")
    _approve owner spender (currentAllowance - amount) t
  else .ok t

/-! ### Public functions, called by `sender` -/

def transfer (sender dst : Address) (amount : UInt256) (t : ERC20) : Tx (Bool × ERC20) := do
  let t ← _transfer sender dst amount t
  return (true, t)

def approve (sender spender : Address) (amount : UInt256) (t : ERC20) : Tx (Bool × ERC20) := do
  let t ← _approve sender spender amount t
  return (true, t)

def transferFrom (sender src dst : Address) (amount : UInt256) (t : ERC20) : Tx (Bool × ERC20) := do
  let t ← _spendAllowance src sender amount t
  let t ← _transfer src dst amount t
  return (true, t)

def increaseAllowance (sender spender : Address) (addedValue : UInt256) (t : ERC20) :
    Tx (Bool × ERC20) := do
  let allowance ← checkedAdd (t.allowances sender spender) addedValue
  let t ← _approve sender spender allowance t
  return (true, t)

def decreaseAllowance (sender spender : Address) (subtractedValue : UInt256) (t : ERC20) :
    Tx (Bool × ERC20) := do
  let currentAllowance := t.allowances sender spender
  require (subtractedValue ≤ currentAllowance) (.require "ERC20: decreased allowance below zero")
  let t ← _approve sender spender (currentAllowance - subtractedValue) t
  return (true, t)

def burn (sender : Address) (amount : UInt256) (t : ERC20) : Tx ERC20 :=
  _burn sender amount t

def burnFrom (sender account : Address) (amount : UInt256) (t : ERC20) : Tx ERC20 := do
  let t ← _spendAllowance account sender amount t
  _burn account amount t

/-! ### When the functions return, and with what -/

section spec
variable {t t' : ERC20} {sender src dst owner spender account : Address} {amount : UInt256} {b : Bool}

/-- `spender` may take `amount` from `owner`: by an infinite allowance, or by one that is lowered. -/
def CanSpend (t : ERC20) (owner spender : Address) (amount : UInt256) : Prop :=
  t.allowances owner spender = uintMax ∨
    amount ≤ t.allowances owner spender ∧ owner ≠ 0 ∧ spender ≠ 0

instance : Decidable (t.CanSpend owner spender amount) := inferInstanceAs (Decidable (_ ∨ _))

theorem _transfer_eq_ok : _transfer src dst amount t = .ok t' ↔
    src ≠ 0 ∧ dst ≠ 0 ∧ ∃ h, t' = t.move src dst amount h := by
  simp only [_transfer, bind_eq_ok, require_eq_ok, exists_const, dite_eq_ok]

theorem _mint_eq_ok : _mint account amount t = .ok t' ↔
    account ≠ 0 ∧ ∃ h, t' = t.issue account amount h := by
  simp only [_mint, bind_eq_ok, require_eq_ok, exists_const, dite_eq_ok]

theorem _burn_eq_ok : _burn account amount t = .ok t' ↔
    account ≠ 0 ∧ ∃ h, t' = t.destroy account amount h := by
  simp only [_burn, bind_eq_ok, require_eq_ok, exists_const, dite_eq_ok]

theorem _approve_eq_ok : _approve owner spender amount t = .ok t' ↔
    owner ≠ 0 ∧ spender ≠ 0 ∧ t' = t.setAllowance owner spender amount := by
  simp only [_approve, bind_eq_ok, require_eq_ok, exists_const, pure_eq_ok]

theorem _spendAllowance_eq_ok : _spendAllowance owner spender amount t = .ok t' ↔
    t.CanSpend owner spender amount ∧ t' = t.spend owner spender amount := by
  unfold _spendAllowance CanSpend
  by_cases h : t.allowances owner spender = uintMax
  · have hs : t.spend owner spender amount = t := by
      unfold spend; simp only [h, if_true]
    simp only [h, ne_eq, not_true_eq_false, if_false, true_or, true_and, hs, Except.ok.injEq,
      eq_comm]
  · have hs : t.setAllowance owner spender (t.allowances owner spender - amount) =
        t.spend owner spender amount := by
      unfold spend setAllowance; simp only [h, if_false]
    simp only [h, ne_eq, not_false_eq_true, if_true, bind_eq_ok, require_eq_ok, exists_const,
      _approve_eq_ok, hs, false_or, and_assoc]

theorem return_true_eq_ok {x : Tx ERC20} :
    (do let t ← x; return (true, t)) = (.ok (b, t') : Tx (Bool × ERC20)) ↔
      b = true ∧ x = .ok t' := by
  simp only [bind_eq_ok, pure_eq_ok, Prod.mk.injEq]
  constructor
  · rintro ⟨_, hx, rfl, rfl⟩; exact ⟨rfl, hx⟩
  · rintro ⟨rfl, hx⟩; exact ⟨_, hx, rfl, rfl⟩

theorem transfer_eq_ok : transfer sender dst amount t = .ok (b, t') ↔
    b = true ∧ sender ≠ 0 ∧ dst ≠ 0 ∧ ∃ h, t' = t.move sender dst amount h := by
  rw [transfer, return_true_eq_ok, _transfer_eq_ok]

theorem transferFrom_eq_ok : transferFrom sender src dst amount t = .ok (b, t') ↔
    b = true ∧ t.CanSpend src sender amount ∧ src ≠ 0 ∧ dst ≠ 0 ∧
      ∃ h, t' = (t.spend src sender amount).move src dst amount h := by
  rw [transferFrom, bind_eq_ok]
  simp only [return_true_eq_ok, _transfer_eq_ok, _spendAllowance_eq_ok]
  constructor
  · rintro ⟨_, ⟨hc, rfl⟩, hb, h⟩; exact ⟨hb, hc, h⟩
  · rintro ⟨hb, hc, h⟩; exact ⟨_, ⟨hc, rfl⟩, hb, h⟩

theorem approve_eq_ok : approve sender spender amount t = .ok (b, t') ↔
    b = true ∧ sender ≠ 0 ∧ spender ≠ 0 ∧ t' = t.setAllowance sender spender amount := by
  rw [approve, return_true_eq_ok, _approve_eq_ok]

theorem increaseAllowance_eq_ok : increaseAllowance sender spender amount t = .ok (b, t') ↔
    (t.allowances sender spender).toNat + amount.toNat < 2 ^ 256 ∧ b = true ∧ sender ≠ 0 ∧
      spender ≠ 0 ∧ t' = t.setAllowance sender spender (t.allowances sender spender + amount) := by
  rw [increaseAllowance, bind_eq_ok]
  simp only [return_true_eq_ok, _approve_eq_ok, checkedAdd_eq_ok, and_assoc, exists_and_left,
    exists_eq_left]

theorem decreaseAllowance_eq_ok : decreaseAllowance sender spender amount t = .ok (b, t') ↔
    amount ≤ t.allowances sender spender ∧ b = true ∧ sender ≠ 0 ∧
      spender ≠ 0 ∧ t' = t.setAllowance sender spender (t.allowances sender spender - amount) := by
  rw [decreaseAllowance, bind_eq_ok]
  simp only [return_true_eq_ok, _approve_eq_ok, require_eq_ok, exists_const]

theorem burnFrom_eq_ok : burnFrom sender account amount t = .ok t' ↔
    t.CanSpend account sender amount ∧ account ≠ 0 ∧
      ∃ h, t' = (t.spend account sender amount).destroy account amount h := by
  simp only [burnFrom, bind_eq_ok, _burn_eq_ok, _spendAllowance_eq_ok]
  constructor
  · rintro ⟨_, ⟨hc, rfl⟩, h⟩; exact ⟨hc, h⟩
  · rintro ⟨hc, h⟩; exact ⟨_, ⟨hc, rfl⟩, h⟩

end spec

end ERC20

end Busc
