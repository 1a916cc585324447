import Busc.Events
import Busc.Deployment
import Busc.Invariant

/-!
# The books in the log

The events tell the whole story of the books: who deposited what, who owes what, and every balance and
allowance of every token can be replayed from the log. The motor announces neither what is minted nor
what is burned; the transfers of `BUSC` from and to the zero address do. What is burned is paid by the
account that last sent `BUSC` to the motor, and in a liquidation it is the debt of another, which the
`Liquidation` event names afterwards.
-/

namespace Busc
open Solidity WordMap Machine

/-! ### Reading the log -/

/-- What is known of one token. -/
@[ext] structure Ledger where
  balances : Address → UInt256
  allowances : Address → Address → UInt256
  totalSupply : UInt256

namespace Ledger

def transfer (src dst : Address) (value : UInt256) (t : Ledger) : Ledger :=
  if src = 0 then { t with
    balances := Function.update t.balances dst (t.balances dst + value)
    totalSupply := t.totalSupply + value }
  else if dst = 0 then { t with
    balances := Function.update t.balances src (t.balances src - value)
    totalSupply := t.totalSupply - value }
  else { t with balances := moved t.balances src dst value }

def approval (owner spender : Address) (value : UInt256) (t : Ledger) : Ledger :=
  { t with
    allowances := Function.update t.allowances owner
      (Function.update (t.allowances owner) spender value) }

end Ledger

structure Books where
  deposit : Address → Address → UInt256
  debt : Address → UInt256
  ledger : Address → Ledger
  owner : Address

/-- The books read so far, and the account that last paid `BUSC` to the motor. -/
structure Reader extends Books where
  payer : Address

namespace Reader
variable (self iBUSC : Address)

def transfer (token src dst : Address) (value : UInt256) (r : Reader) : Reader where
  deposit := r.deposit
  debt :=
    if token = iBUSC ∧ src = 0 then Function.update r.debt dst (r.debt dst + value)
    else if token = iBUSC ∧ src = self ∧ dst = 0 then
      Function.update r.debt r.payer (r.debt r.payer - value)
    else r.debt
  ledger := Function.update r.ledger token ((r.ledger token).transfer src dst value)
  owner := r.owner
  payer := if token = iBUSC ∧ dst = self then src else r.payer

def setLedger (token : Address) (t : Ledger) (r : Reader) : Reader :=
  { r with ledger := Function.update r.ledger token t }

def setDeposit (user token : Address) (amount : UInt256) (r : Reader) : Reader :=
  { r with
    deposit := Function.update r.deposit user (Function.update (r.deposit user) token amount) }

/-- The debt the liquidator paid was that of `user`. -/
def reassign (liquidator user : Address) (covered : UInt256) (r : Reader) : Reader :=
  let debt := Function.update r.debt liquidator (r.debt liquidator + covered)
  { r with debt := Function.update debt user (debt user - covered) }

def read (r : Reader) (log : Log) : Reader :=
  match log.event with
  | .transfer src dst value => r.transfer self iBUSC log.emitter src dst value
  | .approval owner spender value => r.setLedger log.emitter
      ((r.ledger log.emitter).approval owner spender value)
  | .ownershipTransferred _ newOwner =>
    if log.emitter = iBUSC then { r with owner := newOwner } else r
  | .collateralDeposited user token amount =>
    if log.emitter = self then r.setDeposit user token (r.deposit user token + amount) else r
  | .collateralRedeemed src _ token amount =>
    if log.emitter = self then r.setDeposit src token (r.deposit src token - amount) else r
  | .liquidation liquidator user _ covered _ =>
    if log.emitter = self then r.reassign liquidator user covered else r

end Reader

/-- The books after the events of `log`, if `b` were the books before them. -/
def Books.replay (self iBUSC : Address) (b : Books) (log : List Log) : Books :=
  (log.foldl (Reader.read self iBUSC) { toBooks := b, payer := 0 }).toBooks

/-! ### What there is to read -/

def ERC20.toLedger (t : ERC20) : Ledger where
  balances := t.balances
  allowances := t.allowances
  totalSupply := t.totalSupply

def World.books (w : World) : Books where
  deposit := w.deposit
  debt := w.debt
  ledger token := (w.erc20 token).toLedger
  owner := w.owner

section ledger
variable {t : ERC20} {src dst account owner spender : Address} {amount : UInt256}

theorem toLedger_move (hs : src ≠ 0) (hd : dst ≠ 0) (h : amount ≤ t.balances src) :
    (t.move src dst amount h).toLedger = t.toLedger.transfer src dst amount := by
  rw [Ledger.transfer, if_neg hs, if_neg hd]; rfl

theorem toLedger_issue (h : t.totalSupply.toNat + amount.toNat < 2 ^ 256) :
    (t.issue account amount h).toLedger = t.toLedger.transfer 0 account amount := by
  rw [Ledger.transfer, if_pos rfl]; rfl

theorem toLedger_destroy (ha : account ≠ 0) (h : amount ≤ t.balances account) :
    (t.destroy account amount h).toLedger = t.toLedger.transfer account 0 amount := by
  rw [Ledger.transfer, if_neg ha, if_pos rfl]; rfl

end ledger

namespace World
variable (w : World)

def reader (payer : Address) : Reader where
  toBooks := w.books
  payer := payer

/-- Reading `log` leads from the books of `w` to those of `w'`, whoever paid last. -/
def Reads (w w' : World) (log : List Log) : Prop :=
  ∀ p, ∃ p', log.foldl (Reader.read w.self w.motor.iBUSC) (w.reader p) = w'.reader p'

variable {w} {w₁ w₂ : World} {log log' : List Log} {token src dst user payer : Address}
  {amount : UInt256} {t : ERC20}

theorem Reads.refl (w : World) : w.Reads w [] := fun p => ⟨p, rfl⟩

theorem Reads.trans (h₁ : w.Reads w₁ log) (h₂ : w₁.Reads w₂ log') (hs : w.SameSetup w₁) :
    w.Reads w₂ (log ++ log') := fun p => by
  obtain ⟨p₁, h₁⟩ := h₁ p
  obtain ⟨p₂, h₂⟩ := h₂ p₁
  rw [hs.self, hs.iBUSC] at h₂
  exact ⟨p₂, by rw [List.foldl_append, h₁, h₂]⟩

theorem reader_setToken (p : Address) :
    (w.setToken token t).reader p = (w.reader p).setLedger token t.toLedger := by
  have hl : (fun t' => ((w.setToken token t).erc20 t').toLedger) =
      Function.update (fun t' => (w.erc20 t').toLedger) token t.toLedger :=
    funext fun t' => by
      simp only [setToken_erc20, Function.update_apply]
      split <;> rfl
  unfold reader books
  rw [hl]; rfl

/-- A transfer that neither mints nor burns any `BUSC`. -/
theorem read_transfer (ht : t.toLedger = (w.erc20 token).toLedger.transfer src dst amount)
    (hm : ¬ (token = w.motor.iBUSC ∧ src = 0))
    (hb : token = w.motor.iBUSC ∧ src = w.self ∧ dst = 0 → amount = 0) (p : Address) :
    (w.reader p).read w.self w.motor.iBUSC ⟨token, .transfer src dst amount⟩ =
      (w.setToken token t).reader (if token = w.motor.iBUSC ∧ dst = w.self then src else p) := by
  have h0 : ∀ x : UInt256, x - 0 = x := fun _ => BitVec.sub_zero _
  rw [reader_setToken, ht]
  show Reader.transfer .. = _
  unfold Reader.transfer
  rw [if_neg hm]
  split
  · next h =>
    rw [hb h, h0, Function.update_eq_self]; rfl
  · rfl

theorem reads_transfer (ht : t.toLedger = (w.erc20 token).toLedger.transfer src dst amount)
    (hm : ¬ (token = w.motor.iBUSC ∧ src = 0))
    (hb : token = w.motor.iBUSC ∧ src = w.self ∧ dst = 0 → amount = 0) :
    w.Reads (w.setToken token t) [⟨token, .transfer src dst amount⟩] := fun p =>
  ⟨_, read_transfer ht hm hb p⟩

theorem reads_approval (owner spender : Address) : w.Reads
    (w.setToken token ((w.erc20 token).setAllowance owner spender amount))
    [⟨token, .approval owner spender amount⟩] := fun p =>
  ⟨p, by rw [reader_setToken]; rfl⟩

theorem reads_spend (owner spender : Address) : w.Reads
    (w.setToken token ((w.erc20 token).spend owner spender amount))
    (Logged.ERC20.spendLogs token owner spender amount (w.erc20 token)) := by
  unfold Logged.ERC20.spendLogs
  by_cases h : (w.erc20 token).allowances owner spender = uintMax
  · rw [if_neg (not_not.2 h)]
    have hs : (w.erc20 token).spend owner spender amount = w.erc20 token := by
      unfold ERC20.spend; simp only [h, if_true]
    rw [hs, setToken, Function.update_eq_self]
    exact .refl w
  · rw [if_pos h]
    have hs : (w.erc20 token).setAllowance owner spender
        ((w.erc20 token).allowances owner spender - amount) =
          (w.erc20 token).spend owner spender amount := by
      unfold ERC20.spend ERC20.setAllowance; simp only [h, if_false]
    rw [← hs]
    exact reads_approval owner spender

/-- A transfer by a spender. -/
theorem read_spend_transfer {spender : Address}
    (ht : t.toLedger =
      ((w.erc20 token).spend src spender amount).toLedger.transfer src dst amount)
    (hm : ¬ (token = w.motor.iBUSC ∧ src = 0))
    (hb : token = w.motor.iBUSC ∧ src = w.self ∧ dst = 0 → amount = 0) (p : Address) :
    ∃ p₁, List.foldl (Reader.read w.self w.motor.iBUSC) (w.reader p)
      (Logged.ERC20.spendLogs token src spender amount (w.erc20 token) ++
        [⟨token, .transfer src dst amount⟩]) =
      (w.setToken token t).reader (if token = w.motor.iBUSC ∧ dst = w.self then src else p₁) := by
  set w₁ := w.setToken token ((w.erc20 token).spend src spender amount) with hw
  obtain ⟨p₁, h₁⟩ : ∃ p₁, _ = w₁.reader p₁ := reads_spend src spender p
  have he : w₁.erc20 token = (w.erc20 token).spend src spender amount := Function.update_self ..
  have h₂ := read_transfer (w := w₁) (t := t) (by rw [he]; exact ht) hm hb p₁
  rw [hw, setToken_setToken, ← hw] at h₂
  exact ⟨p₁, by rw [List.foldl_append, h₁]; exact h₂⟩

theorem reads_spend_transfer {spender : Address}
    (ht : t.toLedger =
      ((w.erc20 token).spend src spender amount).toLedger.transfer src dst amount)
    (hm : ¬ (token = w.motor.iBUSC ∧ src = 0))
    (hb : token = w.motor.iBUSC ∧ src = w.self ∧ dst = 0 → amount = 0) :
    w.Reads (w.setToken token t) (Logged.ERC20.spendLogs token src spender amount (w.erc20 token) ++
      [⟨token, .transfer src dst amount⟩]) := fun p => by
  obtain ⟨p₁, h⟩ := read_spend_transfer ht hm hb p
  exact ⟨_, h⟩

/-! ### The legs -/

theorem reads_deposited (h : w.CanDeposit user token amount) :
    w.Reads (w.deposited h) (w.depositLogs user token amount) := by
  set w₁ := w.setDeposit user token (w.deposit user token + amount) with hw
  have h₁ : w.Reads w₁ [⟨w.self, .collateralDeposited user token amount⟩] := fun p =>
    ⟨p, if_pos rfl⟩
  have h₂ : w₁.Reads (w.deposited h) _ := reads_spend_transfer
    (toLedger_move h.user_ne h.self_ne (ERC20.le_spend h.funds)) (fun e => h.user_ne e.2)
    (fun e => absurd e.2.2 h.self_ne)
  exact h₁.trans h₂ (Frame.setDeposit ..).sameSetup

theorem reads_pulled (h : w.CanPull src dst token amount) :
    w.Reads (w.pulled h) (w.pullLogs src dst token amount) := by
  set w₁ := w.setDeposit src token (w.deposit src token - amount) with hw
  have h₁ : w.Reads w₁ [⟨w.self, .collateralRedeemed src dst token amount⟩] := fun p =>
    ⟨p, if_pos rfl⟩
  have h₂ : w₁.Reads (w.pulled h) [⟨token, .transfer w.self dst amount⟩] :=
    reads_transfer (toLedger_move h.self_ne h.dst_ne h.funds) (fun e => h.self_ne e.2)
      (fun e => absurd e.2.2 h.dst_ne)
  exact h₁.trans h₂ (Frame.setDeposit ..).sameSetup

theorem reads_minted (h : w.CanMint user amount) :
    w.Reads (w.minted h) (w.mintLogs user amount) := fun p => by
  refine ⟨if user = w.self then 0 else p, ?_⟩
  show Reader.transfer .. = _
  unfold minted Reader.transfer
  rw [reader_setToken, if_pos ⟨rfl, rfl⟩, toLedger_issue]
  simp only [true_and]
  rfl

/-- The debt burned is read as that of the last payer. -/
theorem read_burn (hs : w.self ≠ 0)
    (ht : t.toLedger = (w.erc20 w.motor.iBUSC).toLedger.transfer w.self 0 amount) (p : Address) :
    (w.reader p).read w.self w.motor.iBUSC ⟨w.motor.iBUSC, .transfer w.self 0 amount⟩ =
      ((w.setDebt p (w.debt p - amount)).setToken w.motor.iBUSC t).reader p := by
  rw [reader_setToken, ht]
  show Reader.transfer .. = _
  unfold Reader.transfer
  rw [if_neg fun e => hs e.2, if_pos ⟨rfl, rfl, rfl⟩, if_neg fun e => hs e.2.symm]
  rfl

theorem reads_paid (h : w.CanBurn user payer amount) :
    w.Reads ((w.setDebt payer (w.debt payer - amount)).setToken w.motor.iBUSC
      (((w.erc20 w.motor.iBUSC).spend payer w.self amount).destroy payer amount
        (ERC20.le_spend h.funds))) (w.burnLogs payer amount) := fun p => by
  set t := (w.erc20 w.motor.iBUSC).spend payer w.self amount
  have hle : amount ≤ t.balances payer := ERC20.le_spend h.funds
  set w₁ := w.setToken w.motor.iBUSC (t.move payer w.self amount hle) with hw
  obtain ⟨p₁, h₁⟩ : ∃ p₁, _ =
      w₁.reader (if w.motor.iBUSC = w.motor.iBUSC ∧ w.self = w.self then payer else p₁) :=
    read_spend_transfer (toLedger_move h.payer_ne h.self_ne hle) (fun e => h.payer_ne e.2)
      (fun e => absurd e.2.2 h.self_ne) p
  rw [if_pos ⟨rfl, rfl⟩] at h₁
  have ht : (t.destroy payer amount hle).toLedger =
      (w₁.erc20 w.motor.iBUSC).toLedger.transfer w.self 0 amount := by
    rw [hw, setToken_erc20, Function.update_self, ← ERC20.destroy_move, toLedger_destroy h.self_ne]
  have h₂ : _ = ((w₁.setDebt payer _).setToken w.motor.iBUSC _).reader payer :=
    read_burn (w := w₁) h.self_ne ht payer
  refine ⟨payer, ?_⟩
  rw [burnLogs, List.append_cons, List.foldl_append, h₁]
  refine h₂.trans ?_
  show (((w.setDebt payer _).setToken w.motor.iBUSC _).setToken w.motor.iBUSC _).reader payer = _
  rw [setToken_setToken]
  rfl

theorem reassign_setDebt (p : Address) :
    ((w.setDebt payer (w.debt payer - amount)).reader p).reassign payer user amount =
      (w.setDebt user (w.debt user - amount)).reader p := by
  have hd : Function.update (Function.update w.debt payer (w.debt payer - amount)) payer
      (Function.update w.debt payer (w.debt payer - amount) payer + amount) = w.debt := by
    rw [Function.update_self, BitVec.sub_add_cancel, Function.update_idem, Function.update_eq_self]
  unfold Reader.reassign
  exact congrArg (fun D : Address → UInt256 => Reader.mk
    { (w.books) with debt := Function.update D user (D user - amount) } p) hd

/-- The `Liquidation` event puts the debt right. -/
theorem reads_liquidated (h : w.CanBurn user payer amount) (token : Address) (seized : UInt256) :
    w.Reads (w.burned h) (w.burnLogs payer amount ++
      [⟨w.self, .liquidation payer user token amount seized⟩]) := by
  refine (reads_paid h).trans (fun p => ⟨p, (if_pos rfl).trans ?_⟩)
    ((Frame.setDebt ..).trans (Frame.setToken ..)).sameSetup
  rw [reader_setToken]
  show (Reader.reassign ..).setLedger .. = _
  rw [reassign_setDebt, burned, reader_setToken]

end World

/-! ### Calls and runs -/

section calls
variable {w w' : World} {sender token : Address}

theorem MotorOp.call_reads {op : MotorOp} (hok : op.call .exact sender w = .ok w') :
    w.Reads w' (op.logs sender w) := by
  cases op with
  | depositCollateralAndMintBUSC t a m =>
    obtain ⟨-, -, -, -, h, -, h', -, rfl⟩ := depositCollateralAndMintBUSC_eq_ok.1 hok
    exact (World.reads_deposited h).trans (World.reads_minted h') (World.frame_deposited h).sameSetup
  | depositCollateral t a =>
    obtain ⟨-, -, -, h, rfl⟩ := depositCollateral_eq_ok.1 hok
    exact World.reads_deposited h
  | mintBUSC m =>
    obtain ⟨-, -, -, h, -, rfl⟩ := mintBUSC_eq_ok.1 hok
    exact World.reads_minted h
  | pullCollateralAndBurnBUSC t a b =>
    obtain ⟨-, -, h, h', -, rfl⟩ := pullCollateralAndBurnBUSC_eq_ok.1 hok
    exact (World.reads_paid h).trans (World.reads_pulled h') (World.frame_burned h).sameSetup
  | pullCollateral t a =>
    obtain ⟨-, -, h, -, rfl⟩ := pullCollateral_eq_ok.1 hok
    exact World.reads_pulled h
  | burnBUSC b =>
    obtain ⟨h, -, rfl⟩ := burnBUSC_eq_ok.1 hok
    exact World.reads_paid h
  | liquidate t u x =>
    obtain ⟨-, -, -, -, -, -, s, hs, h, h', -, -, -, rfl⟩ := liquidate_eq_ok.1 hok
    have hf := World.frame_pulled h
    have h₂ := World.reads_liquidated h' t s
    rw [World.burnLogs_congr hf (World.allowances_pulled w.motor.iBUSC h), hf.self] at h₂
    rw [MotorOp.logs, ← hs, BitVec.ofNat_toNat, BitVec.setWidth_eq]
    exact (World.reads_pulled h).trans h₂ hf.sameSetup

/-- Whoever else calls a token mints no `BUSC`, and burns none of the motor's. -/
theorem TokenCall.call_reads {call : TokenCall} (hi : Inv w) (hne : sender ≠ w.self)
    (h : call.call sender token w = .ok w') : w.Reads w' (call.logs token sender (w.erc20 token)) := by
  obtain ⟨hr, t, ht, rfl⟩ := (TokenCall.call_eq_ok (hi.owner ▸ hne.symm)).1 h
  cases TokenCall.ledger_step ht with
  | transfer hs hd hle =>
    exact World.reads_transfer (toLedger_move hs hd hle) (fun e => hs e.2) (fun e => absurd e.2.2 hd)
  | transferFrom hc hs hd hle =>
    exact World.reads_spend_transfer (toLedger_move hs hd hle) (fun e => hs e.2)
      (fun e => absurd e.2.2 hd)
  | approve => exact World.reads_approval _ _
  | increaseAllowance => exact World.reads_approval _ _
  | decreaseAllowance => exact World.reads_approval _ _
  | mint ha hlt =>
    exact World.reads_transfer (toLedger_issue hlt) (fun e => hr e.1 trivial)
      (fun e => absurd trivial (hr e.1))
  | burn ha hle =>
    exact World.reads_transfer (toLedger_destroy ha hle) (fun e => ha e.2)
      (fun e => absurd e.2.1 hne)
  | burnFrom hc ha hle =>
    exact World.reads_spend_transfer (toLedger_destroy ha hle) (fun e => ha e.2)
      (fun e => (hi.closed token).canSpend (e.2.1 ▸ hc))

theorem outcome_logged {m : LoggedTx World} {x : Tx World} {es : List Log} (h : Emit.Emits m x es)
    (hr : ∀ w', x = .ok w' → w.Reads w' es) : ∃ es',
      (∀ log, Emit.commit (w, log) m = (outcome w x, log ++ es')) ∧ w.Reads (outcome w x) es' := by
  cases hx : x with
  | error e => exact ⟨[], fun log => by rw [h.commit_error hx, List.append_nil]; rfl, .refl w⟩
  | ok w' => exact ⟨es, fun log => h.commit_ok hx, hr w' hx⟩

end calls

namespace Inv
variable {w : World} {a : Action}

/-- One step emits some events, which are read as what the step did. -/
theorem exec_logged (hi : Inv w) (ha : Legal w a) : ∃ es,
    (∀ log, Logged.exec (w, log) a = (Busc.exec w a, log ++ es)) ∧ w.Reads (Busc.exec w a) es := by
  cases a with
  | motor sender op => exact outcome_logged (Logged.MotorOp.call_emits op) fun _ => MotorOp.call_reads
  | token sender token call =>
    exact outcome_logged (Logged.TokenCall.call_emits call) fun _ => TokenCall.call_reads hi ha
  | owner sender call =>
    exact outcome_logged (Logged.OwnerCall.call_emits call) fun _ h =>
      absurd h (OwnerCall.call_ne_ok (hi.owner ▸ ha.symm))
  | passTime seconds => exact ⟨[], fun log => by rw [List.append_nil]; rfl, fun p => ⟨p, rfl⟩⟩
  | updateFeed feed round => exact ⟨[], fun log => by rw [List.append_nil]; rfl, fun p => ⟨p, rfl⟩⟩

theorem run_logged {as : List Action} (hi : Inv w) (h : Along Busc.exec Legal w as) : ∃ es,
    (∀ log, Machine.run Logged.exec (w, log) as = (Machine.run Busc.exec w as, log ++ es)) ∧
      w.Reads (Machine.run Busc.exec w as) es := by
  induction as generalizing w with
  | nil => exact ⟨[], fun log => by rw [List.append_nil]; rfl, .refl w⟩
  | cons a as ih =>
    obtain ⟨es₁, he₁, hr₁⟩ := hi.exec_logged h.1
    obtain ⟨es₂, he₂, hr₂⟩ := ih (hi.exec h.1) h.2
    refine ⟨es₁ ++ es₂, fun log => ?_, hr₁.trans hr₂ (hi.exec_change h.1).sameSetup⟩
    rw [run_cons, he₁, he₂, List.append_assoc]; rfl

end Inv

/-- The logged run is the run, and the books at its end are those replayed from its log. -/
theorem books_of_events {w₀ : World} {as : List Action} (hd : Deployed w₀)
    (h : Along exec Legal w₀ as) :
    (run Logged.exec (w₀, []) as).1 = run exec w₀ as ∧
      w₀.books.replay w₀.self w₀.motor.iBUSC (run Logged.exec (w₀, []) as).2 =
        (run exec w₀ as).books := by
  obtain ⟨es, hes, hr⟩ := hd.inv.run_logged h
  obtain ⟨p, hp⟩ := hr 0
  rw [hes []]
  exact ⟨rfl, congrArg Reader.toBooks hp⟩

/-- Account 7 borrows 1500 BUSC against one WETH and passes them to account 8; the price of WETH falls
from 4000 to 2500, and account 8 pays 1000 of the debt. -/
def Anvil.sold : List Action := approvals ++ [
  .motor 7 (.depositCollateral 1 1000000000000000000), .motor 7 (.mintBUSC 1500000000000000000000),
  .token 7 5 (.transfer 8 1500000000000000000000), .token 8 5 (.approve 6 1500000000000000000000),
  .updateFeed 3 (HelperConfig.mockRound 1 250000000000),
  .motor 8 (.liquidate 1 7 1000000000000000000000)]

theorem books_of_events_sold :
    let log := (run Logged.exec (Anvil.world, []) Anvil.sold).2
    let books := Anvil.world.books.replay Anvil.world.self Anvil.world.motor.iBUSC log
    books.debt 7 = 500000000000000000000 ∧ books.debt 8 = 0 ∧
      books.deposit 7 1 = 560000000000000000 ∧ (books.ledger 5).balances 8 = 500000000000000000000 := by
  have hlegal : Along exec Legal Anvil.world Anvil.sold := by decide +kernel
  intro log books
  have hb : books = (run exec Anvil.world Anvil.sold).books :=
    (books_of_events Anvil.deployed hlegal).2
  rw [hb]
  decide +kernel

end Busc
