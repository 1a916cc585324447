import Busc.Lib.Lender
import Busc.Partial
import Busc.Worth

/-!
# The lender on paper

What the motor is for is the lender of `Lib.Lender`: no words, no flag, no checks but its own.
`World.lender` reads that lender off the contracts' state, `World.terms` its rules. Each leg of an
operation is a leg on paper, and what the valuation computes is what paper says, to the last digit of its
own roundings.
-/

namespace Busc
open Solidity WordMap BUSCmotor Cdp

/-! ### What is read off the contracts -/

def ERC20.purse (t : ERC20) : Purse Address where
  balance v := (t.balances v).toNat
  allowance owner spender := (t.allowances owner spender).toNat
  supply := t.totalSupply.toNat

namespace World

/-- The prices have 8 decimals, the values 18, and a tenth is paid on top for liquidating. -/
def terms (w : World) : Terms Address Address Address where
  listed := w.motor.collateralTokens
  feed := w.motor.tokenToPriceFeed
  value t p a := p * (a * 10 ^ (18 - (w.decimals t).toNat)) / 10 ^ 8
  value_add t p a b := by
    rw [Nat.add_mul, Nat.mul_add]
    exact Nat.div_add_div_le_add_div
  seized _ p x := x * 10 ^ 8 / p + x * 10 ^ 8 / p / 10
  ratio := 2
  unit := 10 ^ 18
  coin := w.motor.iBUSC
  desk := w.self
  nobody := 0
  unlimited := 2 ^ 256 - 1

def lender (w : World) : Lender Address Address Address where
  price feed := (w.feeds feed).answer.toNat
  book := w.book
  purse t := (w.erc20 t).purse

end World

def TokenCall.payment : TokenCall → Payment Address
  | .transfer dst amount => .transfer dst amount.toNat
  | .transferFrom src dst amount => .transferFrom src dst amount.toNat
  | .approve spender amount => .approve spender amount.toNat
  | .increaseAllowance spender added => .increase spender added.toNat
  | .decreaseAllowance spender sub => .decrease spender sub.toNat
  | .mint account amount => .issue account amount.toNat
  | .burn amount => .destroy amount.toNat
  | .burnFrom account amount => .destroyFrom account amount.toNat

def MotorOp.request : MotorOp → Request Address Address
  | .depositCollateralAndMintBUSC t a m => .depositAndDraw t a.toNat m.toNat
  | .depositCollateral t a => .deposit t a.toNat
  | .mintBUSC m => .draw m.toNat
  | .pullCollateralAndBurnBUSC t a b => .repayAndWithdraw t a.toNat b.toNat
  | .pullCollateral t a => .withdraw t a.toNat
  | .burnBUSC b => .repay b.toNat
  | .liquidate t user x => .liquidate t user x.toNat

/-- What the lender sees of an action: neither the clock nor who asks for the ownership of `BUSC`. -/
def Action.event : Action → Option (Cdp.Event Address Address Address)
  | .motor sender op => some (.request sender op.request)
  | .token sender t call => some (.pay sender t call.payment)
  | .updateFeed feed round => some (.quote feed round.answer.toNat)
  | .owner .. | .passTime _ => none

/-! ### Purses -/

section purses
variable {w : World} {t : ERC20} {sender src dst owner spender : Address} {amount : UInt256}
  {call : TokenCall} {p : Purse Address}

theorem purse_move (h : amount ≤ t.balances src) :
    (t.move src dst amount h).purse = t.purse.move src dst amount.toNat := by
  refine Purse.ext (funext fun v => ?_) rfl rfl
  have hm := ERC20.move_balance h dst v
  have hle := BitVec.le_def.1 h
  show ((t.move src dst amount h).balances v).toNat =
    (t.balances v).toNat - (if v = src then amount.toNat else 0) + if v = dst then amount.toNat else 0
  by_cases hs : v = src
  · subst hs
    rw [if_pos rfl] at hm ⊢
    omega
  · rw [if_neg hs] at hm ⊢
    exact hm

theorem purse_issue (h : t.totalSupply.toNat + amount.toNat < 2 ^ 256) :
    (t.issue dst amount h).purse = t.purse.issue dst amount.toNat :=
  Purse.ext (funext fun v => ERC20.issue_balance h v) rfl (BitVec.toNat_add_of_lt h)

theorem purse_destroy (h : amount ≤ t.balances src) :
    (t.destroy src amount h).purse = t.purse.destroy src amount.toNat := by
  have hsup := (BitVec.le_def.1 h).trans (t.balance_le_supply src)
  refine Purse.ext (funext fun v => ?_) rfl (toNat_sub_of_le (BitVec.le_def.2 hsup))
  have hd := ERC20.destroy_balance h v
  show ((t.destroy src amount h).balances v).toNat =
    (t.balances v).toNat - if v = src then amount.toNat else 0
  omega

theorem purse_setAllowance :
    (t.setAllowance owner spender amount).purse = t.purse.allow owner spender amount.toNat := by
  refine Purse.ext rfl (funext₂ fun o s => ?_) rfl
  show (Function.update t.allowances owner
    (Function.update (t.allowances owner) spender amount) o s).toNat =
      if o = owner ∧ s = spender then amount.toNat else (t.allowances o s).toNat
  rcases eq_or_ne o owner with rfl | ho
  · rw [Function.update_self, Function.update_apply]
    by_cases hs : s = spender <;> simp only [hs, if_true, if_false, and_self, and_false]
  · rw [Function.update_of_ne ho, if_neg fun e => ho e.1]

theorem unlimited_iff : t.purse.allowance owner spender = w.terms.unlimited ↔
    t.allowances owner spender = uintMax :=
  BitVec.toNat_inj (y := uintMax)

theorem maySpend_iff : w.terms.MaySpend t.purse owner spender amount.toNat ↔
    t.CanSpend owner spender amount :=
  or_congr unlimited_iff (and_congr_left fun _ => BitVec.le_def.symm)

theorem purse_spend (h : t.CanSpend owner spender amount) :
    w.terms.spend t.purse owner spender amount.toNat = (t.spend owner spender amount).purse := by
  unfold Terms.spend
  by_cases hmax : t.allowances owner spender = uintMax
  · rw [if_pos (unlimited_iff.2 hmax)]
    refine Purse.ext rfl (funext₂ fun o s => congrArg BitVec.toNat ?_) rfl
    rw [ERC20.spend_allowances, if_pos hmax]
  · obtain ⟨hle, -⟩ := h.resolve_left hmax
    have hset : (t.spend owner spender amount).purse =
        (t.setAllowance owner spender (t.allowances owner spender - amount)).purse := by
      refine Purse.ext rfl (funext₂ fun o s => congrArg BitVec.toNat ?_) rfl
      rw [ERC20.spend_allowances, if_neg hmax, ERC20.setAllowance_allowances]
    rw [if_neg (unlimited_iff.not.2 hmax), hset, purse_setAllowance, toNat_sub_of_le hle]
    rfl

/-- A call on a plain ERC20 is a payment out of a purse. -/
theorem pay_iff : w.terms.pay sender t.purse call.payment = some p ↔
    ∃ t', call.ledger sender t = .ok t' ∧ t'.purse = p := by
  have hmax : w.terms.unlimited = 2 ^ 256 - 1 := rfl
  cases call <;> simp only [TokenCall.payment, Terms.pay, Option.bind_eq_bind,
    Option.bind_eq_some_iff, Option.guard_eq_some', exists_const, Option.pure_def, Option.some.injEq,
    TokenCall.ledger, bind_eq_ok, Prod.exists, pure_eq_ok, maySpend_iff]
  case transfer dst a =>
    simp only [ERC20.transfer_eq_ok]
    constructor
    · rintro ⟨⟨hs, hd, hle⟩, rfl⟩
      exact ⟨_, ⟨_, _, ⟨rfl, hs, hd, BitVec.le_def.2 hle, rfl⟩, rfl⟩, purse_move _⟩
    · rintro ⟨_, ⟨_, _, ⟨-, hs, hd, hle, rfl⟩, rfl⟩, rfl⟩
      exact ⟨⟨hs, hd, BitVec.le_def.1 hle⟩, (purse_move hle).symm⟩
  case transferFrom src dst a =>
    simp only [ERC20.transferFrom_eq_ok]
    constructor
    · rintro ⟨⟨hc, hs, hd, hle⟩, rfl⟩
      have hle : a ≤ (t.spend src sender a).balances src := BitVec.le_def.2 hle
      exact ⟨_, ⟨_, _, ⟨rfl, hc, hs, hd, hle, rfl⟩, rfl⟩, by rw [purse_move, purse_spend hc]⟩
    · rintro ⟨_, ⟨_, _, ⟨-, hc, hs, hd, hle, rfl⟩, rfl⟩, rfl⟩
      exact ⟨⟨hc, hs, hd, BitVec.le_def.1 hle⟩, by rw [purse_move, purse_spend hc]⟩
  case approve spender a =>
    simp only [ERC20.approve_eq_ok]
    constructor
    · rintro ⟨⟨hs, hd⟩, rfl⟩
      exact ⟨_, ⟨_, _, ⟨rfl, hs, hd, rfl⟩, rfl⟩, purse_setAllowance⟩
    · rintro ⟨_, ⟨_, _, ⟨-, hs, hd, rfl⟩, rfl⟩, rfl⟩
      exact ⟨⟨hs, hd⟩, purse_setAllowance.symm⟩
  case increaseAllowance spender a =>
    simp only [ERC20.increaseAllowance_eq_ok]
    have hroom : t.purse.allowance sender spender + a.toNat ≤ w.terms.unlimited ↔
        (t.allowances sender spender).toNat + a.toNat < 2 ^ 256 := by
      rw [hmax]
      show (t.allowances sender spender).toNat + a.toNat ≤ 2 ^ 256 - 1 ↔ _
      omega
    rw [hroom]
    constructor
    · rintro ⟨⟨hlt, hs, hd⟩, rfl⟩
      exact ⟨_, ⟨_, _, ⟨hlt, rfl, hs, hd, rfl⟩, rfl⟩, by
        rw [purse_setAllowance, BitVec.toNat_add_of_lt hlt]; rfl⟩
    · rintro ⟨_, ⟨_, _, ⟨hlt, -, hs, hd, rfl⟩, rfl⟩, rfl⟩
      exact ⟨⟨hlt, hs, hd⟩, by rw [purse_setAllowance, BitVec.toNat_add_of_lt hlt]; rfl⟩
  case decreaseAllowance spender a =>
    simp only [ERC20.decreaseAllowance_eq_ok]
    constructor
    · rintro ⟨⟨hle, hs, hd⟩, rfl⟩
      have hle : a ≤ t.allowances sender spender := BitVec.le_def.2 hle
      exact ⟨_, ⟨_, _, ⟨hle, rfl, hs, hd, rfl⟩, rfl⟩, by
        rw [purse_setAllowance, toNat_sub_of_le hle]; rfl⟩
    · rintro ⟨_, ⟨_, _, ⟨hle, -, hs, hd, rfl⟩, rfl⟩, rfl⟩
      exact ⟨⟨BitVec.le_def.1 hle, hs, hd⟩, by rw [purse_setAllowance, toNat_sub_of_le hle]; rfl⟩
  case mint account a =>
    simp only [ERC20._mint_eq_ok]
    have hroom : t.purse.supply + a.toNat ≤ w.terms.unlimited ↔
        t.totalSupply.toNat + a.toNat < 2 ^ 256 := by
      rw [hmax]
      show t.totalSupply.toNat + a.toNat ≤ 2 ^ 256 - 1 ↔ _
      omega
    rw [hroom]
    constructor
    · rintro ⟨⟨hd, hlt⟩, rfl⟩
      exact ⟨_, ⟨hd, hlt, rfl⟩, purse_issue hlt⟩
    · rintro ⟨_, ⟨hd, hlt, rfl⟩, rfl⟩
      exact ⟨⟨hd, hlt⟩, (purse_issue hlt).symm⟩
  case burn a =>
    simp only [ERC20.burn, ERC20._burn_eq_ok]
    constructor
    · rintro ⟨⟨hs, hle⟩, rfl⟩
      exact ⟨_, ⟨hs, BitVec.le_def.2 hle, rfl⟩, purse_destroy _⟩
    · rintro ⟨_, ⟨hs, hle, rfl⟩, rfl⟩
      exact ⟨⟨hs, BitVec.le_def.1 hle⟩, (purse_destroy hle).symm⟩
  case burnFrom account a =>
    simp only [ERC20.burnFrom_eq_ok]
    constructor
    · rintro ⟨⟨hc, hs, hle⟩, rfl⟩
      have hle : a ≤ (t.spend account sender a).balances account := BitVec.le_def.2 hle
      exact ⟨_, ⟨hc, hs, hle, rfl⟩, by rw [purse_destroy, purse_spend hc]⟩
    · rintro ⟨_, ⟨hc, hs, hle, rfl⟩, rfl⟩
      exact ⟨⟨hc, hs, BitVec.le_def.1 hle⟩, by rw [purse_destroy, purse_spend hc]⟩

end purses

/-! ### Legs -/

namespace World
variable {w : World} {user token src dst whose payer : Address} {amount : UInt256} {t : ERC20}
  {l : Lender Address Address Address}

theorem purse_setToken : (w.setToken token t).lender.purse =
    Function.update w.lender.purse token t.purse := by
  funext t'
  show (Function.update w.erc20 token t t').purse = _
  rw [Function.update_apply, Function.update_apply]
  split <;> rfl

theorem book_putIn {x : UInt256} (hx : x.toNat = (w.deposit user token).toNat + amount.toNat) :
    (w.setDeposit user token x).book = w.book.putIn user token amount.toNat := by
  refine congrArg₂ Book.mk (funext₂ fun v s => ?_) rfl
  show ((w.setDeposit user token x).deposit v s).toNat = (w.deposit v s).toNat + _
  rw [deposit_setDeposit]
  split
  · next e => rw [hx, e.1, e.2]
  · rfl

theorem book_takeOut {x : UInt256} (hx : x.toNat = (w.deposit user token).toNat - amount.toNat) :
    (w.setDeposit user token x).book = w.book.takeOut user token amount.toNat := by
  refine congrArg₂ Book.mk (funext₂ fun v s => ?_) rfl
  show ((w.setDeposit user token x).deposit v s).toNat = (w.deposit v s).toNat - _
  rw [deposit_setDeposit]
  split
  · next e => rw [hx, e.1, e.2]
  · rfl

theorem book_charge {x : UInt256} (hx : x.toNat = (w.debt user).toNat + amount.toNat) :
    (w.setDebt user x).book = w.book.charge user amount.toNat := by
  refine congrArg₂ Book.mk rfl (funext fun v => ?_)
  show ((w.setDebt user x).debt v).toNat = (w.debt v).toNat + _
  rw [debt_setDebt]
  split
  · next e => rw [hx, e]
  · rfl

theorem book_credit {x : UInt256} (hx : x.toNat = (w.debt user).toNat - amount.toNat) :
    (w.setDebt user x).book = w.book.credit user amount.toNat := by
  refine congrArg₂ Book.mk rfl (funext fun v => ?_)
  show ((w.setDebt user x).debt v).toNat = (w.debt v).toNat - _
  rw [debt_setDebt]
  split
  · next e => rw [hx, e]
  · rfl

/-- What the motor holds for an account and what the account holds are both part of one supply. -/
theorem deposit_room (hi : Inv w) (hu : user ≠ w.self)
    (hle : amount ≤ (w.erc20 token).balances user) :
    (w.deposit user token).toNat + amount.toNat < 2 ^ 256 := by
  have hcus := hi.custody token
  have hdep := w.deposit_le_totalDeposits user token
  have hsum := add_le_total (f := (w.erc20 token).balances) hu
  have hlt := (w.erc20 token).total_lt
  have hle := BitVec.le_def.1 hle
  unfold slack at hcus
  omega

theorem enter_iff (hi : Inv w) : w.terms.enter user token amount.toNat w.lender = some l ↔
    amount ≠ 0 ∧ w.Listed token ∧ ∃ h : w.CanDeposit user token amount, (w.deposited h).lender = l := by
  have hlender (h : w.CanDeposit user token amount) : (w.deposited h).lender = { w.lender with
      book := w.lender.book.putIn user token amount.toNat
      purse := Function.update w.lender.purse token
        ((w.terms.spend (w.erc20 token).purse user w.self amount.toNat).move user w.self amount.toNat) } := by
    refine Lender.ext rfl (book_putIn (BitVec.toNat_add_of_lt h.room)) ?_
    rw [deposited, purse_setToken, purse_move, purse_spend h.allowed]
    rfl
  rw [Terms.enter_eq_some]
  constructor
  · rintro ⟨⟨ha, ht, hu, hc, hle⟩, rfl⟩
    have hc := maySpend_iff.1 hc
    have hle' : amount ≤ (w.erc20 token).balances user := BitVec.le_def.2 hle
    have hne : user ≠ w.self := by
      rintro rfl
      exact ne_zero_of_toNat_pos ha ((hi.closed token).canSpend hc)
    exact ⟨ne_zero_of_toNat_pos ha, (hi.listed token).2 ht,
      ⟨deposit_room hi hne hle', hc, hu, hi.self_ne, hle'⟩, hlender _⟩
  · rintro ⟨ha, ht, h, rfl⟩
    exact ⟨⟨toNat_pos_of_ne ha, (hi.listed token).1 ht, h.user_ne, maySpend_iff.2 h.allowed,
      BitVec.le_def.1 h.funds⟩, hlender h⟩

/-- What is taken may be more than a word only if it is refused. -/
theorem leave_iff (hi : Inv w) {n : Nat} : w.terms.leave src dst token n w.lender = some l ↔
    ∃ s : UInt256, s.toNat = n ∧ ∃ h : w.CanPull src dst token s, (w.pulled h).lender = l := by
  have hlender {s : UInt256} (h : w.CanPull src dst token s) : (w.pulled h).lender = { w.lender with
      book := w.lender.book.takeOut src token s.toNat
      purse := Function.update w.lender.purse token
        ((w.erc20 token).purse.move w.self dst s.toNat) } := by
    refine Lender.ext rfl (book_takeOut (toNat_sub_of_le h.deposit)) ?_
    rw [pulled, purse_setToken, purse_move]
    rfl
  rw [Terms.leave_eq_some]
  constructor
  · rintro ⟨⟨hle, hd⟩, rfl⟩
    obtain ⟨s, rfl⟩ := exists_toNat (hle.trans_lt (w.deposit src token).isLt)
    exact ⟨s, rfl, hi.canPull hd (BitVec.le_def.2 hle), hlender _⟩
  · rintro ⟨s, rfl, h, rfl⟩
    exact ⟨⟨BitVec.le_def.1 h.deposit, h.dst_ne⟩, hlender h⟩

theorem lend_iff (howner : w.owner = w.self) (hroom : (w.debt user).toNat + amount.toNat < 2 ^ 256)
    (hsup : (w.erc20 w.motor.iBUSC).totalSupply.toNat + amount.toNat < 2 ^ 256) :
    w.terms.lend user amount.toNat w.lender = some l ↔
      amount ≠ 0 ∧ ∃ h : w.CanMint user amount, (w.minted h).lender = l := by
  have hlender (h : w.CanMint user amount) : (w.minted h).lender = { w.lender with
      book := w.lender.book.charge user amount.toNat
      purse := Function.update w.lender.purse w.motor.iBUSC
        ((w.erc20 w.motor.iBUSC).purse.issue user amount.toNat) } := by
    refine Lender.ext rfl (book_charge (BitVec.toNat_add_of_lt h.room)) ?_
    rw [minted, purse_setToken, purse_issue]
    rfl
  rw [Terms.lend_eq_some]
  constructor
  · rintro ⟨⟨ha, hu⟩, rfl⟩
    exact ⟨ne_zero_of_toNat_pos ha, ⟨hroom, howner, hu, hsup⟩, hlender _⟩
  · rintro ⟨ha, h, rfl⟩
    exact ⟨⟨toNat_pos_of_ne ha, h.user_ne⟩, hlender h⟩

theorem payBack_iff (howner : w.owner = w.self) (hself : w.self ≠ 0) :
    w.terms.repaid whose payer amount.toNat w.lender = some l ↔
      ∃ h : w.CanBurn whose payer amount, (w.burned h).lender = l := by
  have hlender (h : w.CanBurn whose payer amount) : (w.burned h).lender = { w.lender with
      book := w.lender.book.credit whose amount.toNat
      purse := Function.update w.lender.purse w.motor.iBUSC
        ((w.terms.spend (w.erc20 w.motor.iBUSC).purse payer w.self amount.toNat).destroy payer
          amount.toNat) } := by
    refine Lender.ext rfl (book_credit (toNat_sub_of_le h.debt)) ?_
    rw [burned, purse_setToken, purse_destroy, purse_spend h.allowed]
    rfl
  rw [Terms.repaid_eq_some]
  constructor
  · rintro ⟨⟨ha, hle, hp, hc, hfunds⟩, rfl⟩
    exact ⟨⟨BitVec.le_def.2 hle, maySpend_iff.1 hc, hp, hself, BitVec.le_def.2 hfunds, howner,
      ne_zero_of_toNat_pos ha⟩, hlender _⟩
  · rintro ⟨h, rfl⟩
    exact ⟨⟨toNat_pos_of_ne h.amount_ne, BitVec.le_def.1 h.debt, h.payer_ne, maySpend_iff.2 h.allowed,
      BitVec.le_def.1 h.funds⟩, hlender h⟩

/-! ### Health -/

theorem SameSetup.terms {w' : World} (h : w.SameSetup w') : w'.terms = w.terms := by
  simp only [World.terms, h.decimals, h.self, h.iBUSC, h.tokenToPriceFeed, h.collateralTokens]

theorem Frame.terms {w' : World} (h : w.Frame w') : w'.terms = w.terms := h.sameSetup.terms

theorem seized_eq (w : World) (t : Address) (x : Nat) :
    w.terms.seized t (w.lender.price (w.terms.feed t)) x = w.seized t x := by
  have hq : w.tokenAmount t x = x * 10 ^ 8 / w.price t := by
    rw [tokenAmount, show x * 10 ^ 18 = x * 10 ^ 8 * 10 ^ 10 by omega]
    exact Nat.mul_div_mul_right _ _ (by decide)
  have htenth : w.tokenAmount t x * 10 / 100 = w.tokenAmount t x / 10 := by omega
  rw [seized, htenth, hq]
  rfl

theorem market_eq (w : World) : w.terms.market w.lender.price = w.market := by
  have hvalue : (fun t a => w.terms.value t (w.lender.price (w.terms.feed t)) a) = w.valueInUSD := by
    funext t a
    show w.price t * w.scaled t a / 10 ^ 8 = w.price t * 10 ^ 10 * w.scaled t a / 10 ^ 18
    rw [Nat.mul_right_comm, show (10 : Nat) ^ 18 = 10 ^ 8 * 10 ^ 10 from rfl]
    exact (Nat.mul_div_mul_right _ _ (by decide)).symm
  simp only [Terms.market, World.market, hvalue]
  rfl

theorem lender_safe : w.terms.Safe w.lender user ↔ w.Healthy user := by
  rw [Terms.Safe, market_eq]
  exact safe_iff_healthy

theorem lender_better {w' : World} (hf : w.Frame w') (hlow : ¬ w.Healthy user) :
    w.terms.Better w.lender w'.lender user ↔ w.factor user < w'.factor user := by
  have hfactor (v : World) : v.terms.factor v.lender user =
      v.collateralValue user / 2 * 10 ^ 18 / (v.debt user).toNat := by
    rw [Terms.factor, market_eq]
    rfl
  have h0 : (w.debt user).toNat ≠ 0 := fun h => hlow (.inl h)
  have hbetter : w.terms.Better w.lender w'.lender user ↔ (w'.debt user).toNat = 0 ∨
      w.terms.factor w.lender user < w'.terms.factor w'.lender user := by
    rw [hf.terms]
    rfl
  rw [hbetter, hfactor, hfactor, ← factor_of_debt h0]
  by_cases h0' : (w'.debt user).toNat = 0
  · have hmax : w'.factor user = uintMax.toNat := by rw [factor, healthFactor, if_pos h0']
    have hlt := Nat.lt_of_not_le (healthy_iff.not.1 hlow)
    rw [hmax]
    exact iff_of_true (.inl h0') (hlt.trans (by decide))
  · rw [or_iff_right h0', factor_of_debt h0']

end World

end Busc
