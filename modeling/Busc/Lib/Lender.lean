import Busc.Lib.Cdp
import Mathlib.Data.Option.Basic
import Mathlib.Logic.Function.Basic

/-!
# A lender against collateral, on paper

The lender of `Cdp` as a machine: purses of every kind of money, positions, prices, and what accounts
may ask for. Amounts are numbers without bound, nothing is stored twice, and a request is refused for
one of the lender's own reasons or not at all. `seized`, `value` and `unit` fix how the lender rounds.
-/

namespace Cdp

/-- One kind of money: what everybody has, and how much of it who may take from whom. -/
@[ext] structure Purse (υ : Type) where
  balance : υ → Nat
  allowance : υ → υ → Nat
  supply : Nat

inductive Payment (υ : Type)
  | transfer (dst : υ) (amount : Nat)
  | transferFrom (src dst : υ) (amount : Nat)
  | approve (spender : υ) (amount : Nat)
  | increase (spender : υ) (amount : Nat)
  | decrease (spender : υ) (amount : Nat)
  | issue (dst : υ) (amount : Nat)
  | destroy (amount : Nat)
  | destroyFrom (src : υ) (amount : Nat)

/-- Who lends a kind of money keeps these to itself. -/
def Payment.Reserved {υ : Type} : Payment υ → Prop
  | .issue .. | .destroy .. => True
  | _ => False

instance {υ : Type} : DecidablePred (@Payment.Reserved υ)
  | .issue .. | .destroy .. => inferInstanceAs (Decidable True)
  | .transfer .. | .transferFrom .. | .approve .. | .increase .. | .decrease .. | .destroyFrom .. =>
    inferInstanceAs (Decidable False)

structure Terms (υ κ φ : Type) where
  listed : List κ
  /-- Who quotes the price of a kind of collateral. -/
  feed : κ → φ
  /-- What an amount is worth at a price. -/
  value : κ → Nat → Nat → Nat
  value_add : ∀ t p a b, value t p a + value t p b ≤ value t p (a + b)
  /-- What a liquidator gets, at a price, for the debt it covers. -/
  seized : κ → Nat → Nat → Nat
  ratio : Nat
  /-- One, in health factors. -/
  unit : Nat
  /-- The money that is lent. -/
  coin : κ
  /-- The lender's own account. -/
  desk : υ
  nobody : υ
  /-- The largest allowance, which is never used up, and the largest supply. -/
  unlimited : Nat

@[ext] structure Lender (υ κ φ : Type) where
  price : φ → Nat
  book : Book υ κ
  purse : κ → Purse υ

inductive Request (υ κ : Type)
  | deposit (t : κ) (amount : Nat)
  | draw (amount : Nat)
  | depositAndDraw (t : κ) (amount drawn : Nat)
  | withdraw (t : κ) (amount : Nat)
  | repay (amount : Nat)
  | repayAndWithdraw (t : κ) (amount repaid : Nat)
  | liquidate (t : κ) (user : υ) (covered : Nat)

inductive Event (υ κ φ : Type)
  | request (sender : υ) (r : Request υ κ)
  | pay (sender : υ) (t : κ) (p : Payment υ)
  | quote (f : φ) (price : Nat)

variable {υ κ φ : Type} [DecidableEq υ] [DecidableEq κ]

namespace Purse
variable (p : Purse υ)

def move (src dst : υ) (a : Nat) : Purse υ :=
  { p with balance := fun v => p.balance v - (if v = src then a else 0) + if v = dst then a else 0 }

def issue (dst : υ) (a : Nat) : Purse υ :=
  { p with
    balance := fun v => p.balance v + if v = dst then a else 0
    supply := p.supply + a }

def destroy (src : υ) (a : Nat) : Purse υ :=
  { p with
    balance := fun v => p.balance v - if v = src then a else 0
    supply := p.supply - a }

def allow (owner spender : υ) (a : Nat) : Purse υ :=
  { p with allowance := fun o s => if o = owner ∧ s = spender then a else p.allowance o s }

end Purse

namespace Book
variable (b : Book υ κ)

def putIn (u : υ) (t : κ) (a : Nat) : Book υ κ :=
  { b with deposit := fun v s => b.deposit v s + if v = u ∧ s = t then a else 0 }

def takeOut (u : υ) (t : κ) (a : Nat) : Book υ κ :=
  { b with deposit := fun v s => b.deposit v s - if v = u ∧ s = t then a else 0 }

def charge (u : υ) (a : Nat) : Book υ κ :=
  { b with debt := fun v => b.debt v + if v = u then a else 0 }

def credit (u : υ) (a : Nat) : Book υ κ :=
  { b with debt := fun v => b.debt v - if v = u then a else 0 }

instance (m : Market κ) (r : Nat) (u : υ) : Decidable (b.Safe m r u) :=
  inferInstanceAs (Decidable (_ ∨ _))

end Book

namespace Terms
variable (k : Terms υ κ φ)

/-! ### Payments -/

def MaySpend (p : Purse υ) (owner spender : υ) (a : Nat) : Prop :=
  p.allowance owner spender = k.unlimited ∨
    a ≤ p.allowance owner spender ∧ owner ≠ k.nobody ∧ spender ≠ k.nobody

instance (p : Purse υ) (owner spender : υ) (a : Nat) : Decidable (k.MaySpend p owner spender a) :=
  inferInstanceAs (Decidable (_ ∨ _))

def spend (p : Purse υ) (owner spender : υ) (a : Nat) : Purse υ :=
  if p.allowance owner spender = k.unlimited then p
  else p.allow owner spender (p.allowance owner spender - a)

def pay (sender : υ) (p : Purse υ) : Payment υ → Option (Purse υ)
  | .transfer dst a => do
    guard (sender ≠ k.nobody ∧ dst ≠ k.nobody ∧ a ≤ p.balance sender)
    return p.move sender dst a
  | .transferFrom src dst a => do
    guard (k.MaySpend p src sender a ∧ src ≠ k.nobody ∧ dst ≠ k.nobody ∧ a ≤ p.balance src)
    return (k.spend p src sender a).move src dst a
  | .approve spender a => do
    guard (sender ≠ k.nobody ∧ spender ≠ k.nobody)
    return p.allow sender spender a
  | .increase spender a => do
    guard (p.allowance sender spender + a ≤ k.unlimited ∧ sender ≠ k.nobody ∧ spender ≠ k.nobody)
    return p.allow sender spender (p.allowance sender spender + a)
  | .decrease spender a => do
    guard (a ≤ p.allowance sender spender ∧ sender ≠ k.nobody ∧ spender ≠ k.nobody)
    return p.allow sender spender (p.allowance sender spender - a)
  | .issue dst a => do
    guard (dst ≠ k.nobody ∧ p.supply + a ≤ k.unlimited)
    return p.issue dst a
  | .destroy a => do
    guard (sender ≠ k.nobody ∧ a ≤ p.balance sender)
    return p.destroy sender a
  | .destroyFrom src a => do
    guard (k.MaySpend p src sender a ∧ src ≠ k.nobody ∧ a ≤ p.balance src)
    return (k.spend p src sender a).destroy src a

/-! ### Positions -/

def market (price : φ → Nat) : Market κ where
  listed := k.listed
  value t := k.value t (price (k.feed t))
  value_add t := k.value_add t _

def Safe (l : Lender υ κ φ) (u : υ) : Prop := l.book.Safe (k.market l.price) k.ratio u

instance (l : Lender υ κ φ) (u : υ) : Decidable (k.Safe l u) := inferInstanceAs (Decidable (Book.Safe ..))

/-- What the account may owe, over what it owes. -/
def factor (l : Lender υ κ φ) (u : υ) : Nat :=
  l.book.collateral (k.market l.price) u / k.ratio * k.unit / l.book.debt u

/-- The account of `u` is better off in `l'` than it was in `l`. -/
def Better (l l' : Lender υ κ φ) (u : υ) : Prop := l'.book.debt u = 0 ∨ k.factor l u < k.factor l' u

instance (l l' : Lender υ κ φ) (u : υ) : Decidable (k.Better l l' u) :=
  inferInstanceAs (Decidable (_ ∨ _))

def enter (u : υ) (t : κ) (a : Nat) (l : Lender υ κ φ) : Option (Lender υ κ φ) := do
  guard (0 < a ∧ t ∈ k.listed ∧ u ≠ k.nobody ∧ k.MaySpend (l.purse t) u k.desk a ∧
    a ≤ (l.purse t).balance u)
  return { l with
    book := l.book.putIn u t a
    purse := Function.update l.purse t ((k.spend (l.purse t) u k.desk a).move u k.desk a) }

def leave (src dst : υ) (t : κ) (a : Nat) (l : Lender υ κ φ) : Option (Lender υ κ φ) := do
  guard (a ≤ l.book.deposit src t ∧ dst ≠ k.nobody)
  return { l with
    book := l.book.takeOut src t a
    purse := Function.update l.purse t ((l.purse t).move k.desk dst a) }

def lend (u : υ) (a : Nat) (l : Lender υ κ φ) : Option (Lender υ κ φ) := do
  guard (0 < a ∧ u ≠ k.nobody)
  return { l with
    book := l.book.charge u a
    purse := Function.update l.purse k.coin ((l.purse k.coin).issue u a) }

/-- `payer` pays back debt of `user`. -/
def repaid (user payer : υ) (a : Nat) (l : Lender υ κ φ) : Option (Lender υ κ φ) := do
  guard (0 < a ∧ a ≤ l.book.debt user ∧ payer ≠ k.nobody ∧
    k.MaySpend (l.purse k.coin) payer k.desk a ∧ a ≤ (l.purse k.coin).balance payer)
  return { l with
    book := l.book.credit user a
    purse := Function.update l.purse k.coin
      ((k.spend (l.purse k.coin) payer k.desk a).destroy payer a) }

/-! ### The machine -/

def request (sender : υ) (l : Lender υ κ φ) : Request υ κ → Option (Lender υ κ φ)
  | .deposit t a => k.enter sender t a l
  | .draw a => do
    let l ← k.lend sender a l
    guard (k.Safe l sender)
    return l
  | .depositAndDraw t a m => do
    let l ← k.enter sender t a l
    let l ← k.lend sender m l
    guard (k.Safe l sender)
    return l
  | .withdraw t a => do
    guard (0 < a)
    let l ← k.leave sender sender t a l
    guard (k.Safe l sender)
    return l
  | .repay a => do
    let l ← k.repaid sender sender a l
    guard (k.Safe l sender)
    return l
  | .repayAndWithdraw t a b => do
    guard (0 < a ∧ t ∈ k.listed)
    let l ← k.repaid sender sender b l
    let l ← k.leave sender sender t a l
    guard (k.Safe l sender)
    return l
  | .liquidate t user x => do
    -- at no price there is no amount to seize
    guard (t ∈ k.listed ∧ 0 < l.price (k.feed t) ∧ ¬ k.Safe l user)
    let l₁ ← k.leave user sender t (k.seized t (l.price (k.feed t)) x) l
    let l₂ ← k.repaid user sender x l₁
    guard (k.Better l l₂ user ∧ k.Safe l₂ sender)
    return l₂

def act [DecidableEq φ] (l : Lender υ κ φ) : Event υ κ φ → Option (Lender υ κ φ)
  | .request sender r => k.request sender l r
  | .pay sender t p => do
    guard (t = k.coin → ¬ p.Reserved)
    return { l with purse := Function.update l.purse t (← k.pay sender (l.purse t) p) }
  | .quote f p => some { l with price := Function.update l.price f p }

/-- What is refused changes nothing. -/
def exec [DecidableEq φ] (l : Lender υ κ φ) (e : Event υ κ φ) : Lender υ κ φ := (k.act l e).getD l

/-! ### What a leg needs, and what it does -/

section legs
variable {k} {l l' : Lender υ κ φ} {u src dst user payer : υ} {t : κ} {a : Nat}

theorem enter_eq_some : k.enter u t a l = some l' ↔
    (0 < a ∧ t ∈ k.listed ∧ u ≠ k.nobody ∧ k.MaySpend (l.purse t) u k.desk a ∧
      a ≤ (l.purse t).balance u) ∧
    l' = { l with
      book := l.book.putIn u t a
      purse := Function.update l.purse t ((k.spend (l.purse t) u k.desk a).move u k.desk a) } := by
  simp only [enter, Option.bind_eq_bind, Option.bind_eq_some_iff, Option.guard_eq_some', exists_const,
    Option.pure_def, Option.some_inj, eq_comm (a := l')]

theorem leave_eq_some : k.leave src dst t a l = some l' ↔
    (a ≤ l.book.deposit src t ∧ dst ≠ k.nobody) ∧
    l' = { l with
      book := l.book.takeOut src t a
      purse := Function.update l.purse t ((l.purse t).move k.desk dst a) } := by
  simp only [leave, Option.bind_eq_bind, Option.bind_eq_some_iff, Option.guard_eq_some', exists_const,
    Option.pure_def, Option.some_inj, eq_comm (a := l')]

theorem lend_eq_some : k.lend u a l = some l' ↔
    (0 < a ∧ u ≠ k.nobody) ∧
    l' = { l with
      book := l.book.charge u a
      purse := Function.update l.purse k.coin ((l.purse k.coin).issue u a) } := by
  simp only [lend, Option.bind_eq_bind, Option.bind_eq_some_iff, Option.guard_eq_some', exists_const,
    Option.pure_def, Option.some_inj, eq_comm (a := l')]

theorem repaid_eq_some : k.repaid user payer a l = some l' ↔
    (0 < a ∧ a ≤ l.book.debt user ∧ payer ≠ k.nobody ∧
      k.MaySpend (l.purse k.coin) payer k.desk a ∧ a ≤ (l.purse k.coin).balance payer) ∧
    l' = { l with
      book := l.book.credit user a
      purse := Function.update l.purse k.coin
        ((k.spend (l.purse k.coin) payer k.desk a).destroy payer a) } := by
  simp only [repaid, Option.bind_eq_bind, Option.bind_eq_some_iff, Option.guard_eq_some', exists_const,
    Option.pure_def, Option.some_inj, eq_comm (a := l')]

end legs

end Terms

end Cdp
