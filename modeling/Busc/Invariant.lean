import Busc.Deployment

/-!
# The invariant of reachable states

`Inv` holds of a deployed motor and is kept by every legal action, so it holds of every reachable
state (`Reachable.inv`). `exec_change` says once what an action can do: nothing, an operation of the
motor by another account, a call on one ledger, or a change of the clock or of a feed. The motor has
approved nobody and has no position of its own, so no operation succeeds with the motor as its
caller, and no token call takes anything from it.
-/

namespace Busc
open Solidity WordMap Machine BUSCmotor

/-! ### Token calls -/

def TokenCall.sentTo (dst : Address) : TokenCall → Nat
  | .transfer d amount => if d = dst then amount.toNat else 0
  | .transferFrom _ d amount => if d = dst then amount.toNat else 0
  | .mint account amount => if account = dst then amount.toNat else 0
  | _ => 0

/-- The call is to a function `BUSC` reserves to its owner. -/
def TokenCall.Reserved : TokenCall → Prop
  | .mint .. | .burn .. => True
  | _ => False

/-- The call takes nothing from the account, unless the account sends it. -/
def TokenCall.Harmless (account : Address) : TokenCall → Prop
  | .transferFrom src .. => src ≠ account
  | .burnFrom src .. => src ≠ account
  | _ => True

/-- What a call that returns does to the ledger of a plain ERC20. -/
inductive TokenCall.Step (sender : Address) (t : ERC20) : TokenCall → ERC20 → Prop
  | transfer {dst : Address} {amount : UInt256} (src_ne : sender ≠ 0) (dst_ne : dst ≠ 0)
      (h : amount ≤ t.balances sender) : Step sender t (.transfer dst amount) (t.move sender dst amount h)
  | transferFrom {src dst : Address} {amount : UInt256} (allowed : t.CanSpend src sender amount)
      (src_ne : src ≠ 0) (dst_ne : dst ≠ 0) (h : amount ≤ (t.spend src sender amount).balances src) :
      Step sender t (.transferFrom src dst amount) ((t.spend src sender amount).move src dst amount h)
  | approve {spender : Address} {amount : UInt256} :
      Step sender t (.approve spender amount) (t.setAllowance sender spender amount)
  | increaseAllowance {spender : Address} {added : UInt256} :
      Step sender t (.increaseAllowance spender added)
        (t.setAllowance sender spender (t.allowances sender spender + added))
  | decreaseAllowance {spender : Address} {sub : UInt256} :
      Step sender t (.decreaseAllowance spender sub)
        (t.setAllowance sender spender (t.allowances sender spender - sub))
  | mint {account : Address} {amount : UInt256} (ne : account ≠ 0)
      (h : t.totalSupply.toNat + amount.toNat < 2 ^ 256) :
      Step sender t (.mint account amount) (t.issue account amount h)
  | burn {amount : UInt256} (ne : sender ≠ 0) (h : amount ≤ t.balances sender) :
      Step sender t (.burn amount) (t.destroy sender amount h)
  | burnFrom {account : Address} {amount : UInt256} (allowed : t.CanSpend account sender amount)
      (ne : account ≠ 0) (h : amount ≤ (t.spend account sender amount).balances account) :
      Step sender t (.burnFrom account amount) ((t.spend account sender amount).destroy account amount h)

theorem TokenCall.ledger_step {sender : Address} {t t' : ERC20} {call : TokenCall}
    (h : call.ledger sender t = .ok t') : Step sender t call t' := by
  cases call with
  | transfer dst a =>
    simp only [ledger, bind_eq_ok, Prod.exists, pure_eq_ok, ERC20.transfer_eq_ok] at h
    obtain ⟨_, _, ⟨-, hs, hd, hle, rfl⟩, rfl⟩ := h
    exact .transfer hs hd hle
  | transferFrom src dst a =>
    simp only [ledger, bind_eq_ok, Prod.exists, pure_eq_ok, ERC20.transferFrom_eq_ok] at h
    obtain ⟨_, _, ⟨-, hc, hs, hd, hle, rfl⟩, rfl⟩ := h
    exact .transferFrom hc hs hd hle
  | approve spender a =>
    simp only [ledger, bind_eq_ok, Prod.exists, pure_eq_ok, ERC20.approve_eq_ok] at h
    obtain ⟨_, _, ⟨-, -, -, rfl⟩, rfl⟩ := h
    exact .approve
  | increaseAllowance spender a =>
    simp only [ledger, bind_eq_ok, Prod.exists, pure_eq_ok, ERC20.increaseAllowance_eq_ok] at h
    obtain ⟨_, _, ⟨-, -, -, -, rfl⟩, rfl⟩ := h
    exact .increaseAllowance
  | decreaseAllowance spender a =>
    simp only [ledger, bind_eq_ok, Prod.exists, pure_eq_ok, ERC20.decreaseAllowance_eq_ok] at h
    obtain ⟨_, _, ⟨-, -, -, -, rfl⟩, rfl⟩ := h
    exact .decreaseAllowance
  | mint account a =>
    obtain ⟨ha, hlt, rfl⟩ := ERC20._mint_eq_ok.1 h
    exact .mint ha hlt
  | burn a =>
    obtain ⟨ha, hle, rfl⟩ := ERC20._burn_eq_ok.1 h
    exact .burn ha hle
  | burnFrom account a =>
    obtain ⟨hc, ha, hle, rfl⟩ := ERC20.burnFrom_eq_ok.1 h
    exact .burnFrom hc ha hle

namespace ERC20
variable {t t' : ERC20} {owner spender sender account motor src dst : Address} {amount : UInt256}

/-- The account has approved nobody. -/
def Closed (t : ERC20) (owner : Address) : Prop := ∀ spender, t.allowances owner spender = 0

theorem Closed.canSpend (h : t.Closed owner) (hc : t.CanSpend owner spender amount) : amount = 0 := by
  rcases hc with hmax | ⟨hle, -⟩
  · rw [h spender] at hmax; exact absurd hmax (by decide)
  · rw [h spender] at hle; exact BitVec.le_zero_iff.1 hle

theorem Closed.setAllowance (h : t.Closed owner) (hne : account ≠ owner) :
    (t.setAllowance account spender amount).Closed owner := fun s => by
  rw [setAllowance_allowances, Function.update_of_ne hne.symm]; exact h s

theorem Closed.spend (h : t.Closed owner) (hc : t.CanSpend account spender amount) :
    (t.spend account spender amount).Closed owner := fun s => by
  rw [spend_allowances]
  split
  · exact h s
  · rcases eq_or_ne owner account with rfl | hne
    · rw [h.canSpend hc, Function.update_self, Function.update_apply]
      split
      · rw [h spender]; rfl
      · exact h s
    · rw [Function.update_of_ne hne]; exact h s

theorem toNat_move_balances {h : amount ≤ t.balances src} (hs : src = motor → amount = 0) :
    ((t.move src dst amount h).balances motor).toNat =
      (t.balances motor).toNat + if dst = motor then amount.toNat else 0 := by
  by_cases hsrc : src = motor
  · have ha := hs hsrc
    subst ha
    rw [move_balances, moved_apply]
    by_cases hd : motor = dst <;> by_cases hds : dst = src <;> simp_all
  · rcases eq_or_ne dst motor with rfl | hd
    · rw [if_pos rfl, toNat_move_dst hsrc]
    · rw [if_neg hd, move_balances_of_ne (Ne.symm hsrc) (Ne.symm hd)]; rfl

theorem toNat_destroy_balances {h : amount ≤ t.balances account} (hs : account = motor → amount = 0) :
    ((t.destroy account amount h).balances motor).toNat = (t.balances motor).toNat := by
  rw [destroy_balances, Function.update_apply]
  split
  · next e => rw [hs e.symm, e]; simp
  · rfl

theorem toNat_issue_balances {h : t.totalSupply.toNat + amount.toNat < 2 ^ 256} :
    ((t.issue account amount h).balances motor).toNat =
      (t.balances motor).toNat + if account = motor then amount.toNat else 0 := by
  have hle := t.balance_le_supply account
  rw [issue_balances]
  rcases eq_or_ne account motor with rfl | ha
  · rw [Function.update_self, if_pos rfl]
    exact BitVec.toNat_add_of_lt (by omega)
  · rw [Function.update_of_ne (Ne.symm ha), if_neg ha]; rfl

theorem destroy_totalSupply_le {h : amount ≤ t.balances account} :
    (t.destroy account amount h).totalSupply.toNat ≤ t.totalSupply.toNat := by
  have hle := t.balance_le_supply account
  have hfun := BitVec.le_def.1 h
  rw [destroy_totalSupply, toNat_sub_of_le (BitVec.le_def.2 (by omega))]
  omega

end ERC20

namespace TokenCall.Step
variable {t t' : ERC20} {sender motor : Address} {call : TokenCall} (h : Step sender t call t')
include h

/-- Another account takes nothing from the motor that the motor has not approved. -/
theorem balance (hne : sender ≠ motor) (hs : call.Harmless motor ∨ t.Closed motor) :
    (t'.balances motor).toNat = (t.balances motor).toNat + call.sentTo motor := by
  have hspend {src : Address} {a : UInt256} (hc : t.CanSpend src sender a)
      (hs : src ≠ motor ∨ t.Closed motor) (e : src = motor) : a = 0 :=
    hs.elim (absurd e) fun ht => ht.canSpend (e ▸ hc)
  cases h with
  | transfer => exact ERC20.toNat_move_balances fun e => absurd e hne
  | @transferFrom src dst a hc =>
    exact ERC20.toNat_move_balances (t := t.spend src sender a) (hspend hc hs)
  | mint => exact ERC20.toNat_issue_balances
  | burn => exact ERC20.toNat_destroy_balances fun e => absurd e hne
  | @burnFrom src a hc =>
    exact ERC20.toNat_destroy_balances (t := t.spend src sender a) (hspend hc hs)
  | approve | increaseAllowance | decreaseAllowance => rfl

theorem supply_le (hr : ¬ call.Reserved) : t'.totalSupply.toNat ≤ t.totalSupply.toNat := by
  cases h with
  | mint | burn => exact absurd trivial hr
  | burnFrom => exact ERC20.destroy_totalSupply_le
  | _ => exact le_rfl

end TokenCall.Step

namespace ERC20
variable {t t' : ERC20} {sender motor : Address}

/-- What a call by another account does to the motor's side of a ledger. -/
structure Call (motor : Address) (call : TokenCall) (t t' : ERC20) : Prop where
  closed : t'.Closed motor
  balance : (t'.balances motor).toNat = (t.balances motor).toNat + call.sentTo motor
  zero : t.balances 0 = 0 → t'.balances 0 = 0
  supply : ¬ call.Reserved → t'.totalSupply.toNat ≤ t.totalSupply.toNat

theorem call_ledger {call : TokenCall} (hne : sender ≠ motor) (ht : t.Closed motor)
    (h : call.ledger sender t = .ok t') : Call motor call t t' := by
  have hstep := TokenCall.ledger_step h
  refine ⟨?_, hstep.balance hne (.inr ht), ?_, hstep.supply_le⟩
  · cases hstep with
    | transferFrom hc => exact ht.spend hc
    | burnFrom hc => exact ht.spend hc
    | approve => exact ht.setAllowance hne
    | increaseAllowance => exact ht.setAllowance hne
    | decreaseAllowance => exact ht.setAllowance hne
    | transfer | mint | burn => exact ht
  · intro h0
    cases hstep with
    | transfer hs hd => exact (move_balances_of_ne hs.symm hd.symm).trans h0
    | transferFrom _ hs hd => exact (move_balances_of_ne hs.symm hd.symm).trans h0
    | mint ha => exact (Function.update_of_ne ha.symm _ _).trans h0
    | burn ha => exact (Function.update_of_ne ha.symm _ _).trans h0
    | burnFrom _ ha => exact (Function.update_of_ne ha.symm _ _).trans h0
    | approve | increaseAllowance | decreaseAllowance => exact h0

end ERC20

/-- On `BUSC`, an account that is not the owner has the calls of a plain ERC20, less the reserved
ones. -/
theorem TokenCall.busc_eq_ok {sender : Address} {b b' : BUSC} {call : TokenCall}
    (hne : b.owner ≠ sender) : call.busc sender b = .ok b' ↔
      ¬ call.Reserved ∧ ∃ t, call.ledger sender b.toERC20 = .ok t ∧ b' = { b with toERC20 := t } := by
  cases call <;> simp only [TokenCall.busc, bind_eq_ok, Prod.exists, pure_eq_ok, BUSC.mint_eq_ok,
    BUSC.burn_eq_ok, hne, false_and, TokenCall.Reserved, not_true_eq_false, not_false_eq_true,
    true_and, exists_false]

theorem TokenCall.call_eq_ok {sender token : Address} {w w' : World} {call : TokenCall}
    (hne : w.owner ≠ sender) : call.call sender token w = .ok w' ↔
      (token = w.motor.iBUSC → ¬ call.Reserved) ∧
        ∃ t, call.ledger sender (w.erc20 token) = .ok t ∧ w' = w.setToken token t := by
  unfold TokenCall.call
  rcases eq_or_ne token w.motor.iBUSC with rfl | ht
  · simp only [if_true, bind_eq_ok, pure_eq_ok, TokenCall.busc_eq_ok (b := w.busc) hne, true_imp_iff]
    constructor
    · rintro ⟨_, ⟨hr, t, h, rfl⟩, rfl⟩; exact ⟨hr, t, h, rfl⟩
    · rintro ⟨hr, t, h, rfl⟩; exact ⟨_, ⟨hr, t, h, rfl⟩, rfl⟩
  · simp only [ht, if_false, bind_eq_ok, pure_eq_ok, false_imp_iff, true_and]

/-- Whoever sends it, a call that returns is one on a plain ledger. -/
theorem TokenCall.exists_ledger {sender token : Address} {w w' : World} {call : TokenCall}
    (h : call.call sender token w = .ok w') :
    ∃ t, call.ledger sender (w.erc20 token) = .ok t ∧ w' = w.setToken token t := by
  unfold TokenCall.call at h
  split at h
  swap
  · obtain ⟨t, ht, hw⟩ := bind_eq_ok.1 h
    exact ⟨t, ht, pure_eq_ok.1 hw⟩
  next e =>
  subst e
  obtain ⟨b, hb, hw⟩ := bind_eq_ok.1 h
  obtain rfl := pure_eq_ok.1 hw
  cases call with
  | mint account amount =>
    obtain ⟨⟨_, b'⟩, hb, hw⟩ := bind_eq_ok.1 hb
    obtain rfl := pure_eq_ok.1 hw
    obtain ⟨-, -, hne, -, hroom, rfl⟩ := BUSC.mint_eq_ok.1 hb
    exact ⟨_, ERC20._mint_eq_ok.2 ⟨hne, hroom, rfl⟩, rfl⟩
  | burn amount =>
    obtain ⟨-, -, hne, hle, rfl⟩ := BUSC.burn_eq_ok.1 hb
    exact ⟨_, ERC20._burn_eq_ok.2 ⟨hne, hle, rfl⟩, rfl⟩
  | _ =>
    obtain ⟨t, ht, hw⟩ := bind_eq_ok.1 hb
    obtain rfl := pure_eq_ok.1 hw
    exact ⟨t, ht, rfl⟩

theorem OwnerCall.call_ne_ok {sender : Address} {w w' : World} {call : OwnerCall}
    (hne : w.owner ≠ sender) : call.call sender w ≠ .ok w' := by
  have hb : w.busc.owner ≠ sender := hne
  cases call <;> simp only [OwnerCall.call, BUSC.transferOwnership, BUSC.renounceOwnership,
    BUSC.onlyOwner, bind_eq_ok, require_eq_ok, hb, false_and, exists_false, not_false_eq_true, ne_eq]

/-! ### The invariant -/

structure Inv (w : World) : Prop where
  self_ne : w.self ≠ 0
  owner : w.owner = w.self
  idle : w.Idle
  nodup : w.motor.collateralTokens.Nodup
  /-- The allow-list and the list of tokens agree. -/
  listed : ∀ t, w.Listed t ↔ t ∈ w.motor.collateralTokens
  busc_unlisted : ¬ w.Listed w.motor.iBUSC
  closed : ∀ t, (w.erc20 t).Closed w.self
  deposit_self : ∀ t, w.deposit w.self t = 0
  debt_self : w.debt w.self = 0
  deposit_unlisted : ∀ u t, ¬ w.Listed t → w.deposit u t = 0
  /-- The motor holds what is deposited. -/
  custody : ∀ t, 0 ≤ w.slack t
  /-- Supply never exceeds the debt. -/
  covered : 0 ≤ w.drift
  busc_zero : (w.erc20 w.motor.iBUSC).balances 0 = 0

theorem World.collateralValue_eq_zero {w : World} {u : Address} (h : ∀ t, w.deposit u t = 0) :
    w.collateralValue u = 0 := by
  unfold collateralValue
  refine List.sum_eq_zero fun x hx => ?_
  obtain ⟨t, -, rfl⟩ := List.mem_map.1 hx
  rw [h]
  simp [valueInUSD, scaled]

namespace Inv
variable {w w' : World} {sender token : Address} {op : MotorOp}

theorem collateralValue_self (hi : Inv w) : w.collateralValue w.self = 0 :=
  World.collateralValue_eq_zero hi.deposit_self

/-- While the motor holds the deposits, it can pay out any of them. -/
theorem canPull {src dst : Address} {amount : UInt256} (hi : Inv w) (hdst : dst ≠ 0)
    (hle : amount ≤ w.deposit src token) : w.CanPull src dst token amount := by
  have hcus := hi.custody token
  have hdep := w.deposit_le_totalDeposits src token
  have hle' := BitVec.le_def.1 hle
  unfold World.slack at hcus
  exact ⟨hle, hi.self_ne, hdst, BitVec.le_def.2 (by omega)⟩

/-- A payout fails only for want of a deposit. -/
theorem pull_iff {src dst : Address} {amount : UInt256} (hi : Inv w)
    (hdst : dst ≠ 0) : (∃ w', _pullCollateral .exact src dst token amount w = .ok w') ↔
      amount ≤ w.deposit src token := by
  constructor
  · rintro ⟨w', h⟩
    obtain ⟨hp, -⟩ := pull_eq_ok.1 h
    exact hp.deposit
  · intro hle
    exact ⟨_, pull_eq_ok.2 ⟨hi.canPull hdst hle, rfl⟩⟩

/-- No leg pays from the motor's own wallet, no debt is minted on its own account. -/
theorem sender_ne (hi : Inv w) (h : op.call .exact sender w = .ok w') : sender ≠ w.self := by
  rintro rfl
  have hdep {t : Address} {a : UInt256} (ha : a ≠ 0) (hd : w.CanDeposit w.self t a) : False :=
    ha ((hi.closed t).canSpend hd.allowed)
  have hpull {d t : Address} {a : UInt256} (ha : a ≠ 0) (hp : w.CanPull w.self d t a) : False := by
    have hle := hp.deposit
    rw [hi.deposit_self] at hle
    exact ha (BitVec.le_zero_iff.1 hle)
  cases op with
  | depositCollateralAndMintBUSC t a m =>
    obtain ⟨ha, -, -, -, hd, -⟩ := depositCollateralAndMintBUSC_eq_ok.1 h
    exact hdep ha hd
  | depositCollateral t a =>
    obtain ⟨ha, -, -, hd, -⟩ := depositCollateral_eq_ok.1 h
    exact hdep ha hd
  | mintBUSC m =>
    obtain ⟨hm, -, -, hmint, ⟨-, hc⟩, -⟩ := mintBUSC_eq_ok.1 h
    have hval : (w.minted hmint).collateralValue w.self = 0 :=
      ((w.frame_minted hmint).collateralValue rfl).trans hi.collateralValue_self
    have hdebt : ((w.minted hmint).debt w.self).toNat = m.toNat := by
      rw [World.debt_minted, if_pos rfl, hi.debt_self]; simp
    have hpos := toNat_pos_of_ne hm
    unfold World.Healthy at hc
    omega
  | pullCollateralAndBurnBUSC t a b =>
    obtain ⟨-, -, hb, -⟩ := pullCollateralAndBurnBUSC_eq_ok.1 h
    exact hb.amount_ne ((hi.closed _).canSpend hb.allowed)
  | pullCollateral t a =>
    obtain ⟨ha, -, hp, -⟩ := pullCollateral_eq_ok.1 h
    exact hpull ha hp
  | burnBUSC b =>
    obtain ⟨hb, -⟩ := burnBUSC_eq_ok.1 h
    exact hb.amount_ne ((hi.closed _).canSpend hb.allowed)
  | liquidate t u x =>
    obtain ⟨hx, -, -, -, -, -, s, -, hp, hb, -⟩ := liquidate_eq_ok.1 h
    refine hx (ERC20.Closed.canSpend (fun spender => ?_) hb.allowed)
    rw [World.allowances_pulled]
    exact hi.closed _ spender

end Inv

namespace Leg
variable {sender token : Address} {w w' : World}

theorem closed (h : Leg sender w w') (hc : ∀ t, (w.erc20 t).Closed w.self) (t : Address) :
    (w'.erc20 t).Closed w.self := by
  cases h with
  | deposited _ _ h =>
    rw [World.erc20_deposited]
    split
    · exact (hc _).spend h.allowed
    · exact hc t
  | pulled h =>
    intro s
    rw [World.allowances_pulled]
    exact hc t s
  | minted h =>
    rw [World.erc20_minted]
    split
    · exact hc _
    · exact hc t
  | burned h =>
    rw [World.erc20_burned]
    split
    · exact (hc _).spend h.allowed
    · exact hc t

/-- Only the caller, who is somebody, gets a deposit, and only of a listed token. -/
theorem deposit_eq_zero (h : Leg sender w w') {v t : Address} (h0 : w.deposit v t = 0)
    (hnot : ¬ (v = sender ∧ sender ≠ 0 ∧ w.Listed t)) : w'.deposit v t = 0 := by
  cases h with
  | deposited hl _ h =>
    rw [World.deposit_deposited, if_neg]
    · exact h0
    · rintro ⟨rfl, rfl⟩
      exact hnot ⟨rfl, h.user_ne, hl⟩
  | pulled h =>
    rw [World.deposit_pulled]
    split
    · next e =>
      obtain ⟨rfl, rfl⟩ := e
      exact sub_eq_zero_of_le h0 h.deposit
    · exact h0
  | minted h => exact h0
  | burned h => exact h0

theorem debt_self (h : Leg sender w w') (hne : sender ≠ w.self) (hd : w.debt w.self = 0) :
    w'.debt w.self = 0 := by
  cases h with
  | deposited _ _ h => exact hd
  | pulled h => exact hd
  | minted h => rw [World.debt_minted, if_neg hne.symm]; exact hd
  | burned h =>
    rw [World.debt_burned]
    split
    · next e => exact sub_eq_zero_of_le (e ▸ hd) h.debt
    · exact hd

theorem busc_zero (h : Leg sender w w') (h0 : (w.erc20 w.motor.iBUSC).balances 0 = 0) :
    (w'.erc20 w.motor.iBUSC).balances 0 = 0 := by
  cases h with
  | deposited _ _ h =>
    rw [World.erc20_deposited]
    split
    · next e =>
      subst e
      rw [ERC20.move_balances_of_ne h.user_ne.symm h.self_ne.symm]; exact h0
    · exact h0
  | pulled h =>
    rw [World.erc20_pulled]
    split
    · next e =>
      subst e
      rw [ERC20.move_balances_of_ne h.self_ne.symm h.dst_ne.symm]; exact h0
    · exact h0
  | minted h =>
    rw [World.erc20_minted, if_pos rfl, ERC20.issue_balances, Function.update_of_ne h.user_ne.symm]
    exact h0
  | burned h =>
    rw [World.erc20_burned, if_pos rfl, ERC20.destroy_balances, Function.update_of_ne h.payer_ne.symm]
    exact h0

theorem inv (h : Leg sender w w') (hne : sender ≠ w.self) (hi : Inv w) : Inv w' := by
  have hf := h.frame
  have hl {t : Address} : w'.Listed t ↔ w.Listed t := by
    unfold World.Listed; rw [hf.tokenToPriceFeed]
  exact {
    self_ne := hf.self ▸ hi.self_ne
    owner := hf.owner.trans (hi.owner.trans hf.self.symm)
    idle := h.status.trans hi.idle
    nodup := hf.collateralTokens ▸ hi.nodup
    listed := fun t => by rw [hl, hf.collateralTokens]; exact hi.listed t
    busc_unlisted := by rw [hl, hf.iBUSC]; exact hi.busc_unlisted
    closed := fun t => by rw [hf.self]; exact h.closed hi.closed t
    deposit_self := fun t => by
      rw [hf.self]
      exact h.deposit_eq_zero (hi.deposit_self t) fun e => hne e.1.symm
    debt_self := by rw [hf.self]; exact h.debt_self hne hi.debt_self
    deposit_unlisted := fun u t ht =>
      h.deposit_eq_zero (hi.deposit_unlisted u t (hl.not.1 ht)) fun e => ht (hl.2 e.2.2)
    custody := fun t => by rw [h.slack hne]; exact hi.custody t
    covered := by rw [h.drift]; exact hi.covered
    busc_zero := by rw [hf.iBUSC]; exact h.busc_zero hi.busc_zero }

end Leg

theorem MotorOp.call_inv {sender : Address} {op : MotorOp} {w w' : World} (hi : Inv w)
    (h : op.call .exact sender w = .ok w') : Inv w' := by
  have hne := hi.sender_ne h
  refine (call_legs (P := fun v => Inv v ∧ v.self = w.self) h ⟨hi, rfl⟩ fun v _ hleg ⟨hv, hs⟩ => ?_).1
  exact ⟨hleg.inv (hs ▸ hne) hv, hleg.frame.self.trans hs⟩

/-! ### Every action -/

/-- What an action does to a state the invariant holds of. -/
inductive Change (w : World) : Action → World → Prop
  | reverted (a : Action) : Change w a w
  | motor {sender : Address} {op : MotorOp} {w' : World} (ne : sender ≠ w.self)
      (h : op.call .exact sender w = .ok w') : Change w (.motor sender op) w'
  | token {sender token : Address} {call : TokenCall} {t : ERC20} (ne : sender ≠ w.self)
      (busc : token = w.motor.iBUSC → ¬ call.Reserved)
      (h : call.ledger sender (w.erc20 token) = .ok t) :
      Change w (.token sender token call) (w.setToken token t)
  | passTime (seconds : UInt256) :
      Change w (.passTime seconds) { w with timestamp := w.timestamp + seconds }
  | updateFeed (feed : Address) (round : RoundData) :
      Change w (.updateFeed feed round) { w with feeds := Function.update w.feeds feed round }

theorem Inv.exec_change {w : World} {a : Action} (hi : Inv w) (hl : Legal w a) :
    Change w a (exec w a) := by
  cases a with
  | motor sender op =>
    cases h : op.call .exact sender w with
    | error e => rw [exec, outcome_error h]; exact .reverted _
    | ok w' => rw [exec, outcome_ok h]; exact .motor (hi.sender_ne h) h
  | token sender token call =>
    cases h : call.call sender token w with
    | error e => rw [exec, outcome_error h]; exact .reverted _
    | ok w' =>
      obtain ⟨hr, t, ht, rfl⟩ := (TokenCall.call_eq_ok (hi.owner ▸ Ne.symm hl)).1 h
      rw [exec, outcome_ok h]
      exact .token hl hr ht
  | owner sender call =>
    cases h : call.call sender w with
    | error e => rw [exec, outcome_error h]; exact .reverted _
    | ok w' => exact absurd h (OwnerCall.call_ne_ok (hi.owner ▸ Ne.symm hl))
  | passTime seconds => exact .passTime seconds
  | updateFeed feed round => exact .updateFeed feed round

theorem Change.inv {w w' : World} {a : Action} (h : Change w a w') (hi : Inv w) : Inv w' := by
  cases h with
  | reverted => exact hi
  | motor _ h => exact MotorOp.call_inv hi h
  | @token sender token call t ne busc h =>
    have hcall := ERC20.call_ledger ne (hi.closed token) h
    refine { hi with closed := ?_, custody := ?_, covered := ?_, busc_zero := ?_ }
    · intro t'
      rw [World.setToken_erc20, Function.update_apply]
      split
      · exact hcall.closed
      · exact hi.closed t'
    · intro t'
      rw [World.slack_setToken]
      have hbal := hcall.balance
      have hcus := hi.custody token
      split
      · omega
      · exact hi.custody t'
    · rw [World.drift_setToken]
      have hcov := hi.covered
      split
      · next e => have hsup := hcall.supply (busc e); omega
      · exact hcov
    · rw [World.setToken_erc20, World.setToken_motor, Function.update_apply]
      split
      · next e => exact hcall.zero (e ▸ hi.busc_zero)
      · exact hi.busc_zero
  | passTime seconds => exact { hi with }
  | updateFeed feed round => exact { hi with }

theorem Inv.exec {w : World} {a : Action} (hi : Inv w) (hl : Legal w a) : Inv (exec w a) :=
  (hi.exec_change hl).inv hi

theorem Change.sameSetup {w w' : World} {a : Action} (h : Change w a w') : w.SameSetup w' := by
  cases h with
  | motor _ h => exact (MotorOp.call_frame h).sameSetup
  | token => exact (World.Frame.setToken ..).sameSetup
  | _ => exact ⟨rfl, rfl, rfl, rfl, rfl⟩

/-! ### Deployed and reachable states -/

namespace Deployed
variable {w : World}

theorem debt (h : Deployed w) : w.debt = fun _ => 0 := by
  obtain ⟨c, tokens, feeds, -, hok⟩ := h
  obtain ⟨-, -, rfl⟩ := deploy_eq_ok.1 hok
  rfl

theorem totalDeposits (h : Deployed w) (t : Address) : w.totalDeposits t = 0 := by
  obtain ⟨c, tokens, feeds, -, hok⟩ := h
  obtain ⟨-, -, rfl⟩ := deploy_eq_ok.1 hok
  exact total_zero

theorem busc_empty (h : Deployed w) : w.erc20 w.motor.iBUSC = .empty := by
  obtain ⟨c, tokens, feeds, -, hok⟩ := h
  obtain ⟨-, -, rfl⟩ := deploy_eq_ok.1 hok
  exact Function.update_self ..

theorem drift (h : Deployed w) : w.drift = 0 := by
  unfold World.drift World.totalDebt
  rw [h.debt, h.busc_empty, total_zero]
  rfl

theorem inv (h : Deployed w) : Inv w := by
  have hdep := h.totalDeposits
  have hdrift := h.drift
  have hbusc := h.busc_empty
  obtain ⟨c, tokens, feeds, hapt, hok⟩ := h
  obtain ⟨hwf, hm, rfl⟩ := deploy_eq_ok.1 hok
  have hlisted (t : Address) : (c.deployed tokens feeds).Listed t ↔ t ∈ tokens := hwf.feed_ne_zero
  exact {
    self_ne := hm
    owner := rfl
    idle := rfl
    nodup := hwf.nodup
    listed := hlisted
    busc_unlisted := (hlisted _).not.2 hapt.busc
    closed := fun t s => by
      show (Function.update c.erc20 c.busc .empty t).allowances c.motor s = 0
      rw [Function.update_apply]
      split
      · rfl
      · exact hapt.allowances t s
    deposit_self := fun _ => rfl
    debt_self := rfl
    deposit_unlisted := fun _ _ _ => rfl
    custody := fun t => by unfold World.slack; rw [hdep]; omega
    covered := hdrift.ge
    busc_zero := by rw [hbusc]; rfl }

end Deployed

theorem Inv.run {w : World} {as : List Action} (hi : Inv w) (h : Along Busc.exec Legal w as) :
    Inv (Machine.run Busc.exec w as) ∧ Along Busc.exec (fun w a => Inv w ∧ Legal w a) w as :=
  h.inv hi fun _ _ => Inv.exec

theorem Inv.sameSetup_run {w : World} {as : List Action} (hi : Inv w)
    (h : Along Busc.exec Legal w as) : w.SameSetup (Machine.run Busc.exec w as) :=
  (hi.run h).2.rel .refl fun _ _ _ ⟨hi, hl⟩ => (hi.exec_change hl).sameSetup.trans

theorem Reachable.inv {w : World} (h : Reachable w) : Inv w := by
  obtain ⟨w₀, as, hd, hl, rfl⟩ := h
  exact (hd.inv.run hl).1

theorem Reachable.run {w : World} {as : List Action} (h : Reachable w)
    (hl : Along Busc.exec Legal w as) : Reachable (Machine.run Busc.exec w as) := by
  obtain ⟨w₀, bs, hd, hbs, rfl⟩ := h
  exact ⟨w₀, bs ++ as, hd, along_append.2 ⟨hbs, hl⟩, run_append.symm⟩

/-! ### The local network at fixed addresses -/

namespace Anvil

def config : NetworkConfiguration where
  wethTokenAddress := 1
  wbtcTokenAddress := 2
  wethTokenPriceFeedAddress := 3
  wbtcTokenPriceFeedAddress := 4

def chain : Chain :=
  HelperConfig.createOrgetAnvilNetworkConfig 1 7 7 5 6 config

/-- What `DeployBUSC.run` leaves on it. -/
def world : World := chain.deployed [1, 2] [3, 4]

theorem run_eq_ok : DeployBUSC.run chain config = .ok world := by
  refine deploy_eq_ok.2 ⟨⟨rfl, ?_, ?_, ?_, ?_⟩, ?_, rfl⟩ <;> decide

theorem apt : chain.Apt [1, 2] := by
  refine ⟨by decide, fun token spender => ?_⟩
  show (if token = 1 then ERC20.initial 7 _ else if token = 2 then ERC20.initial 7 _ else .empty).allowances
    6 spender = 0
  split
  · rfl
  · split <;> rfl

theorem deployed : Deployed world := ⟨chain, [1, 2], [3, 4], apt, run_eq_ok⟩

theorem reachable {as : List Action} (h : Along Busc.exec Legal world as) :
    Reachable (run Busc.exec world as) := ⟨world, as, deployed, h, rfl⟩

/-- Account 7 lets the motor take both of its collateral tokens. -/
def approvals : List Action :=
  [.token 7 1 (.approve 6 10000000000000000000000), .token 7 2 (.approve 6 900000000000)]

theorem forall_listed {P : Address → Prop} {w : World} (hw : w.motor.collateralTokens = [1, 2])
    (h1 : P 1) (h2 : P 2) : ∀ t ∈ w.motor.collateralTokens, P t := by
  rw [hw]
  exact List.forall_mem_cons.2 ⟨h1, List.forall_mem_singleton.2 h2⟩

end Anvil

end Busc
