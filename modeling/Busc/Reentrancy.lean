import Busc.Health

/-!
# Reentrancy

A collateral token may call back: before and after it moves the balance it runs any list of further
calls, to the motor or to any token, each of which may run more in turn. What every complete call
establishes, nested or not, is shown by one induction over the call tree (`Nested.exec`). `Kept` is such
a relation: prices, the excess of the motor's balances over the deposits, and every account's health.
None of it holds in the middle of a call, but each call restores it relative to its own start, whatever
ran in between; so `burnBUSC` and `pullCollateralAndBurnBUSC` need no flag. A tree without inner calls is
the call into the plain ERC20 (`CallTree.exec_leaf`).
-/

namespace Busc
open Solidity WordMap BUSCmotor

/-- A call by an account, and the calls that run inside the token it moves, if it moves one: those
before the balance is moved and those after. -/
inductive CallTree
  | motor (sender : Address) (op : MotorOp) (before after : List CallTree)
  | token (sender token : Address) (call : TokenCall) (before after : List CallTree)

/-- A token that moves exactly the amount it is asked to, between two callbacks. -/
def IERC20.hooked (before after : World → World) : IERC20 where
  transfer token sender dst amount w := do
    let (success, w) ← IERC20.exact.transfer token sender dst amount (before w)
    return (success, after w)
  transferFrom token sender src dst amount w := do
    let (success, w) ← IERC20.exact.transferFrom token sender src dst amount (before w)
    return (success, after w)

mutual

def CallTree.exec : CallTree → World → Tx World
  | .motor sender op before after => op.call (.hooked (execAll before) (execAll after)) sender
  | .token sender token call before after => fun w => do
    let w ← call.call sender token (execAll before w)
    return execAll after w

/-- The calls one after the other; one that reverts undoes its own effects only. -/
def execAll : List CallTree → World → World
  | [] => id
  | c :: cs => fun w => execAll cs (outcome w (c.exec w))

end

theorem IERC20.hooked_id : IERC20.hooked id id = .exact := by
  have hid (x : Tx (Bool × World)) : (do let (success, w) ← x; return (success, id w)) = x := by
    cases x <;> rfl
  show IERC20.mk _ _ = IERC20.mk _ _
  congr 1
  · funext token sender dst amount w
    exact hid (IERC20.exact.transfer token sender dst amount w)
  · funext token sender src dst amount w
    exact hid (IERC20.exact.transferFrom token sender src dst amount w)

theorem CallTree.exec_leaf {sender : Address} {op : MotorOp} :
    (CallTree.motor sender op [] []).exec = op.call .exact sender := by
  rw [CallTree.exec, execAll, IERC20.hooked_id]

theorem CallTree.exec_token_leaf {sender token : Address} {call : TokenCall} :
    (CallTree.token sender token call [] []).exec = call.call sender token := by
  funext w
  rw [CallTree.exec, execAll]
  cases h : call.call sender token w <;> simp only [id_eq, h] <;> rfl

mutual

/-- No call of the tree is sent by the motor itself, and its token calls are of the kind `A`. -/
def CallTree.Outside (motor : Address) (A : TokenCall → Prop) : CallTree → Prop
  | .motor sender _ before after => sender ≠ motor ∧ AllOutside motor A before ∧ AllOutside motor A after
  | .token sender _ call before after =>
    sender ≠ motor ∧ A call ∧ AllOutside motor A before ∧ AllOutside motor A after

def AllOutside (motor : Address) (A : TokenCall → Prop) : List CallTree → Prop
  | [] => True
  | c :: cs => c.Outside motor A ∧ AllOutside motor A cs

end

/-! ### The induction over call trees -/

/-- A relation that every token call of the kind `A` establishes, and every operation whose callbacks
establish it, in a system whose motor is `m`. -/
structure Nested (m : Address) (A : TokenCall → Prop) (R : World → World → Prop) : Prop where
  refl : ∀ w, R w w
  trans : ∀ {w w₁ w₂}, R w w₁ → R w₁ w₂ → R w w₂
  frame : ∀ {w w'}, R w w' → w.Frame w'
  op : ∀ {f g : World → World} {sender op w w'}, (∀ v, v.self = m → R v (f v)) →
    (∀ v, v.self = m → R v (g v)) → w.self = m → sender ≠ m →
      MotorOp.call (.hooked f g) sender op w = .ok w' → R w w'
  token : ∀ {sender token call w w'}, A call → w.self = m → sender ≠ m →
    TokenCall.call sender token call w = .ok w' → R w w'

mutual

theorem Nested.exec {m : Address} {A : TokenCall → Prop} {R : World → World → Prop}
    (hR : Nested m A R) : ∀ {c : CallTree} {w w' : World}, c.Outside m A → w.self = m →
      c.exec w = .ok w' → R w w'
  | .motor sender op before after, w, w', ⟨hne, hb, ha⟩, hm, h =>
    hR.op (fun _ hv => hR.execAll hb hv) (fun _ hv => hR.execAll ha hv) hm hne h
  | .token sender token call before after, w, w', ⟨hne, hA, hb, ha⟩, hm, h => by
    obtain ⟨w₁, hcall, hw⟩ := bind_eq_ok.1 h
    obtain rfl := pure_eq_ok.1 hw
    have h₁ := hR.execAll hb hm
    have hm₁ := (hR.frame h₁).self.trans hm
    have h₂ := hR.token hA hm₁ hne hcall
    exact hR.trans h₁ (hR.trans h₂ (hR.execAll ha ((hR.frame h₂).self.trans hm₁)))

theorem Nested.execAll {m : Address} {A : TokenCall → Prop} {R : World → World → Prop}
    (hR : Nested m A R) : ∀ {cs : List CallTree} {w : World}, AllOutside m A cs → w.self = m →
      R w (Busc.execAll cs w)
  | [], w, _, _ => hR.refl w
  | c :: cs, w, ⟨hc, hcs⟩, hm => by
    have h₁ : R w (outcome w (c.exec w)) :=
      outcome_cases (hR.refl w) fun w' h => hR.exec hc hm h
    exact hR.trans h₁ (hR.execAll hcs ((hR.frame h₁).self.trans hm))

end

/-! ### Custody and health -/

/-- The motor has approved nobody. -/
def World.Closed (w : World) : Prop := ∀ t, (w.erc20 t).Closed w.self

theorem World.Closed.setToken {w : World} {token : Address} {t : ERC20} (h : w.Closed)
    (ht : t.Closed w.self) : (w.setToken token t).Closed := by
  intro t'
  rw [World.setToken_erc20, Function.update_apply]
  split
  · exact ht
  · exact h t'

theorem MotorOp.call_closed {sender : Address} {op : MotorOp} {w w' : World}
    (h : op.call .exact sender w = .ok w') (hc : w.Closed) : w'.Closed :=
  call_legs (P := World.Closed) h hc fun _ _ hleg hc t => hleg.frame.self ▸ hleg.closed hc t

/-- What a complete call preserves. Balances are safe from token calls where the motor has approved
nobody, or where `spared`: no call takes anything from its account. -/
structure Kept (spared : Prop) (w w' : World) : Prop where
  frame : w.Frame w'
  closed : w.Closed → w'.Closed
  slack : spared ∨ w.Closed → ∀ t, w.slack t ≤ w'.slack t
  healthy : ∀ u, w.Healthy u → w'.Healthy u

namespace Kept
variable {spared : Prop} {w w₁ w₂ : World}

theorem refl (w : World) : Kept spared w w := ⟨.refl w, id, fun _ _ => le_rfl, fun _ => id⟩

theorem trans (h₁ : Kept spared w w₁) (h₂ : Kept spared w₁ w₂) : Kept spared w w₂ where
  frame := h₁.frame.trans h₂.frame
  closed hc := h₂.closed (h₁.closed hc)
  slack hs t := (h₁.slack hs t).trans (h₂.slack (hs.imp_right h₁.closed) t)
  healthy u hu := h₂.healthy u (h₁.healthy u hu)

theorem setStatus (w : World) (s : Status) : Kept spared w (w.setStatus s) :=
  ⟨.setStatus w s, id, fun _ _ => le_rfl, fun _ => id⟩

end Kept

/-- Callbacks of a system whose motor is `m` that keep what a call has to keep. -/
def Keeps (spared : Prop) (m : Address) (f : World → World) : Prop :=
  ∀ w, w.self = m → Kept spared w (f w)

section hooked
variable {spared : Prop}
variable {f g : World → World} {w w' : World} {sender src dst token user t : Address} {amount : UInt256}
  {b : Bool}

theorem hooked_transfer (h : (IERC20.hooked f g).transfer token sender dst amount w = .ok (b, w')) :
    ∃ hle, w' = g ((f w).setToken token (((f w).erc20 token).move sender dst amount hle)) := by
  simp only [IERC20.hooked, bind_eq_ok, exact_transfer_eq_ok, pure_eq_ok, Prod.exists,
    Prod.mk.injEq] at h
  obtain ⟨_, _, ⟨-, -, -, hle, rfl⟩, -, rfl⟩ := h
  exact ⟨hle, rfl⟩

theorem hooked_transferFrom
    (h : (IERC20.hooked f g).transferFrom token sender src dst amount w = .ok (b, w')) :
    ∃ hle, w' = g ((f w).setToken token
      ((((f w).erc20 token).spend src sender amount).move src dst amount hle)) := by
  simp only [IERC20.hooked, bind_eq_ok, pure_eq_ok, Prod.exists, Prod.mk.injEq] at h
  obtain ⟨_, _, h, -, rfl⟩ := h
  obtain ⟨-, -, -, -, hle, rfl⟩ := callToken_transferFrom_eq_ok.1 h
  exact ⟨hle, rfl⟩

theorem healthy_setToken {x : ERC20} : (w.setToken token x).Healthy user ↔ w.Healthy user :=
  (World.Frame.setToken w token x).healthy rfl rfl

/-- A call into a token that adds at least `gain` to what the motor holds of it, and keeps the rest. -/
structure Paid (spared : Prop) (token : Address) (gain : Int) (w w' : World) : Prop where
  frame : w.Frame w'
  closed : w.Closed → w'.Closed
  slack : spared ∨ w.Closed → ∀ t, w.slack t + (if t = token then gain else 0) ≤ w'.slack t
  healthy : ∀ u, w.Healthy u → w'.Healthy u

theorem paid_between {w₁ w₂ : World} {x : ERC20} {gain : Int} (k₁ : Kept spared w w₁)
    (k₂ : Kept spared (w₁.setToken token x) w₂) (hc : (w₁.erc20 token).Closed w₁.self → x.Closed w₁.self)
    (h : gain ≤ (x.balances w₁.self).toNat - ((w₁.erc20 token).balances w₁.self).toNat) :
    Paid spared token gain w w₂ := by
  have hclosed (h₁ : w₁.Closed) : (w₁.setToken token x).Closed := h₁.setToken (hc (h₁ token))
  refine ⟨k₁.frame.trans ((World.Frame.setToken ..).trans k₂.frame),
    fun h => k₂.closed (hclosed (k₁.closed h)), fun hs t => ?_,
    fun u hu => k₂.healthy u (healthy_setToken.2 (k₁.healthy u hu))⟩
  have s₁ := k₁.slack hs t
  have s₂ := k₂.slack (hs.imp_right fun h => hclosed (k₁.closed h)) t
  rw [World.slack_setToken] at s₂
  rcases eq_or_ne t token with rfl | ht
  · rw [if_pos rfl] at s₂ ⊢
    omega
  · rw [if_neg ht] at s₂ ⊢
    omega

variable (hf : Keeps spared w.self f) (hg : Keeps spared w.self g)
include hf hg

theorem paid_transfer (h : (IERC20.hooked f g).transfer token w.self dst amount w = .ok (b, w')) :
    Paid spared token (-(amount.toNat : Int)) w w' := by
  obtain ⟨hle, rfl⟩ := hooked_transfer h
  have k₁ := hf w rfl
  refine paid_between k₁ (hg _ k₁.frame.self) id ?_
  rw [k₁.frame.self]
  have hfun := BitVec.le_def.1 hle
  by_cases hd : w.self = dst
  · rw [← hd, ERC20.move_balances, moved_self]
    omega
  · rw [ERC20.toNat_move_src hd]
    omega

theorem paid_transferFrom (hne : src ≠ w.self)
    (h : (IERC20.hooked f g).transferFrom token sender src w.self amount w = .ok (b, w')) :
    Paid spared token amount.toNat w w' := by
  obtain ⟨hle, rfl⟩ := hooked_transferFrom h
  have k₁ := hf w rfl
  refine paid_between k₁ (hg _ k₁.frame.self) (fun hc spender => ?_) ?_
  · show (((f w).erc20 token).spend src sender amount).allowances (f w).self spender = 0
    rw [ERC20.spend_allowances_of_ne (k₁.frame.self ▸ hne.symm)]
    exact hc spender
  · rw [k₁.frame.self, ERC20.toNat_move_dst hne, ERC20.spend_balances]
    omega

/-- A payout takes from the balance what it took from the deposit. Only the health of the account it
takes from is left open. -/
theorem pull_kept (h : _pullCollateral (.hooked f g) src dst token amount w = .ok w') :
    w.Frame w' ∧ (w.Closed → w'.Closed) ∧ (spared ∨ w.Closed → ∀ t, w.slack t ≤ w'.slack t) ∧
      ∀ u, u ≠ src → w.Healthy u → w'.Healthy u := by
  obtain ⟨hle, h⟩ := pull_ext_eq_ok.1 h
  set w₁ := w.setDeposit src token (w.deposit src token - amount) with hw₁
  have hp : Paid spared token (-(amount.toNat : Int)) w₁ w' := paid_transfer (w := w₁) hf hg h
  have hframe : w.Frame w₁ := .setDeposit ..
  refine ⟨hframe.trans hp.frame, hp.closed, fun hs t => ?_, fun u hu hh => hp.healthy u ?_⟩
  · have hs := hp.slack hs t
    have hdep := toNat_sub_of_le hle
    have hle' := BitVec.le_def.1 hle
    rw [hw₁, World.slack_setDeposit] at hs
    by_cases ht : t = token
    · rw [if_pos ht, if_pos ht] at hs
      subst ht
      omega
    · rw [if_neg ht, if_neg ht] at hs
      omega
  · exact (hframe.healthy (World.sameAccount_setDeposit hu).deposit rfl).2 hh

theorem deposit_kept (hne : sender ≠ w.self)
    (h : depositCollateral (.hooked f g) sender token amount w = .ok w') : Kept spared w w' := by
  obtain ⟨-, -, -, hroom, w₂, h, rfl⟩ := depositCollateral_ext_eq_ok.1 h
  set w₁ := (w.setStatus .entered).setDeposit sender token (w.deposit sender token + amount) with hw₁
  have hp : Paid spared token amount.toNat w₁ w₂ := paid_transferFrom (w := w₁) hf hg hne h
  have hadd := BitVec.toNat_add_of_lt hroom
  have hframe : w.Frame w₁ := (World.Frame.setStatus w .entered).trans (.setDeposit ..)
  refine Kept.trans ⟨hframe.trans hp.frame, hp.closed, fun hs t => ?_, fun u hu => hp.healthy u ?_⟩
    (.setStatus ..)
  · have hs := hp.slack hs t
    rw [hw₁, World.slack_setDeposit] at hs
    by_cases ht : t = token
    · rw [if_pos ht, if_pos ht] at hs
      subst ht
      simp only [World.slack_setStatus, World.deposit_setStatus] at hs
      omega
    · rw [if_neg ht, if_neg ht] at hs
      simp only [World.slack_setStatus] at hs
      omega
  · have hfate : Cdp.Book.Fate (w.setStatus .entered).book w₁.book (w.setStatus .entered).market 2 u :=
      fate_setDeposit (by rw [hadd]; exact Nat.le_add_right _ _)
    exact hfate.safe hu

omit hf hg in
theorem kept_of_exact {op : MotorOp} (hne : sender ≠ w.self) (h : op.call .exact sender w = .ok w') :
    Kept spared w w' where
  frame := MotorOp.call_frame h
  closed := MotorOp.call_closed h
  slack _ _ := (MotorOp.call_slack h hne).ge
  healthy _ := MotorOp.call_healthy h

/-- Every operation keeps what its callbacks keep. -/
theorem op_kept {op : MotorOp} (hne : sender ≠ w.self)
    (h : op.call (.hooked f g) sender w = .ok w') : Kept spared w w' := by
  cases op with
  | depositCollateralAndMintBUSC t a m =>
    obtain ⟨w₁, hd, hm⟩ := bind_eq_ok.1 h
    have k₁ := deposit_kept hf hg hne hd
    have hm : (MotorOp.mintBUSC m).call .exact sender w₁ = .ok w' := hm
    exact k₁.trans (kept_of_exact (k₁.frame.self.symm ▸ hne) hm)
  | depositCollateral t a => exact deposit_kept hf hg hne h
  | mintBUSC m =>
    have h : (MotorOp.mintBUSC m).call .exact sender w = .ok w' := h
    exact kept_of_exact hne h
  | burnBUSC b =>
    have h : (MotorOp.burnBUSC b).call .exact sender w = .ok w' := h
    exact kept_of_exact hne h
  | pullCollateralAndBurnBUSC t a b =>
    obtain ⟨-, -, hb, hp, hc⟩ := pullCollateralAndBurnBUSC_ext_eq_ok.1 h
    have hframe := World.frame_burned hb
    have hclosed : w.Closed → (w.burned hb).Closed := (Leg.burned hb).closed
    obtain ⟨hfr, hcl, hs, hh⟩ := pull_kept (w := w.burned hb) hf hg hp
    refine ⟨hframe.trans hfr, fun h => hcl (hclosed h), fun h t => ?_, fun u hu => ?_⟩
    · exact (World.slack_burned hb hne).ge.trans (hs (h.imp_right hclosed) t)
    rcases eq_or_ne u sender with rfl | hus
    · exact hc.2
    · have hsame := World.sameAccount_burned hb hus
      exact hh u hus ((hframe.healthy hsame.deposit hsame.debt).2 hu)
  | pullCollateral t a =>
    obtain ⟨-, -, w₁, hp, hc, rfl⟩ := pullCollateral_ext_eq_ok.1 h
    obtain ⟨hfr, hcl, hs, hh⟩ := pull_kept (w := w.setStatus .entered) hf hg hp
    refine Kept.trans ⟨(World.Frame.setStatus w .entered).trans hfr, hcl, hs, fun u hu => ?_⟩
      (.setStatus ..)
    rcases eq_or_ne u sender with rfl | hus
    · exact hc.2
    · exact hh u hus hu
  | liquidate t user x =>
    obtain ⟨-, -, -, -, hunsafe, -, s, -, w₁, hp, hb, -, -, hc, rfl⟩ := liquidate_ext_eq_ok.1 h
    obtain ⟨hfr, hcl, hs, hh⟩ := pull_kept (w := w.setStatus .entered) hf hg hp
    have hframe := World.frame_burned hb
    have hclosed : w₁.Closed → (w₁.burned hb).Closed := (Leg.burned hb).closed
    have hself : sender ≠ w₁.self := hfr.self.symm ▸ hne
    refine Kept.trans ⟨(World.Frame.setStatus w .entered).trans (hfr.trans hframe),
      fun h => hclosed (hcl h), fun h t => (hs h t).trans (World.slack_burned hb hself).ge,
      fun u hu => ?_⟩ (.setStatus ..)
    rcases eq_or_ne u sender with rfl | hus
    · exact hc.2
    · have huu : u ≠ user := fun e => hunsafe (e ▸ hu)
      have hsame := World.sameAccount_burned hb huu
      exact (hframe.healthy hsame.deposit hsame.debt).2 (hh u huu hu)

end hooked

theorem kept_token {spared : Prop} {sender token : Address} {call : TokenCall} {w w' : World}
    (hs : spared → call.Harmless w.self) (hne : sender ≠ w.self)
    (h : call.call sender token w = .ok w') : Kept spared w w' := by
  obtain ⟨t, ht, rfl⟩ := TokenCall.exists_ledger h
  refine ⟨.setToken .., fun hc => hc.setToken (ERC20.call_ledger hne (hc token) ht).closed,
    fun h t' => ?_, fun u => healthy_setToken.2⟩
  have hbal := (TokenCall.ledger_step ht).balance hne (h.imp hs fun hc => hc token)
  rw [World.slack_setToken]
  split
  · next e =>
    subst e
    omega
  · exact le_rfl

theorem nested_kept {spared : Prop} {m : Address} {A : TokenCall → Prop}
    (hA : spared → ∀ call, A call → call.Harmless m) : Nested m A (Kept spared) where
  refl := .refl
  trans := .trans
  frame h := h.frame
  op hf hg hm hne h := by
    subst hm
    exact op_kept hf hg hne h
  token hcall hm hne h := by
    subst hm
    exact kept_token (fun hs => hA hs _ hcall) hne h

/-- However the tokens call back, a call that succeeds leaves every deposit covered and every healthy
account healthy, at the prices it found. The callbacks may be motor operations and token calls of any
kind; none is sent by the motor itself, and none spends an allowance on its account. -/
theorem reentrant_call_safe {sender : Address} {op : MotorOp} {before after : List CallTree}
    {w w' : World} (hout : (CallTree.motor sender op before after).Outside w.self (TokenCall.Harmless w.self))
    (hcov : ∀ t ∈ w.motor.collateralTokens, w.totalDeposits t ≤ ((w.erc20 t).balances w.self).toNat)
    (h : (CallTree.motor sender op before after).exec w = .ok w') :
    w'.valueInUSD = w.valueInUSD ∧
      (∀ t ∈ w.motor.collateralTokens,
        w'.totalDeposits t ≤ ((w'.erc20 t).balances w'.self).toNat) ∧
      ∀ u, w.Healthy u → w'.Healthy u := by
  have hk : Kept True w w' := (nested_kept fun _ _ => id).exec hout rfl h
  refine ⟨hk.frame.valueInUSD, fun t ht => ?_, hk.healthy⟩
  have hs := hk.slack (.inl trivial) t
  have hc := hcov t ht
  unfold World.slack at hs
  omega

/-- The state of `borrowed`, where account 7 also lets the motor take its BUSC. -/
def Anvil.approved : World := exec borrowed (.token 7 5 (.approve 6 uintMax))

/-- While account 7 takes 50 units of WETH back, the token tries a deposit, which the flag stops, and
then pays one unit of the debt. -/
def Anvil.nested : CallTree :=
  .motor 7 (.pullCollateral 1 50) [.motor 7 (.depositCollateral 1 20) [] []]
    [.motor 7 (.burnBUSC 1) [] []]

theorem reentrant_call_nested : ∃ w', Anvil.nested.exec Anvil.approved = .ok w' ∧
    w'.deposit 7 1 = 999999999999999950 ∧ w'.debt 7 = 999999999999999999999 ∧
      w'.totalDeposits 1 ≤ ((w'.erc20 1).balances w'.self).toNat ∧
        ∀ u, Anvil.approved.Healthy u → w'.Healthy u := by
  have hr : Reachable Anvil.approved := by
    have hb : Reachable Anvil.borrowed := Anvil.reachable (by decide +kernel)
    have hl : Machine.Along exec Legal Anvil.borrowed [.token 7 5 (.approve 6 uintMax)] := by decide +kernel
    exact hb.run hl
  have h : Anvil.nested.exec Anvil.approved = .ok (outcome Anvil.approved
      (Anvil.nested.exec Anvil.approved)) := by rfl
  have hout : Anvil.nested.Outside Anvil.approved.self (TokenCall.Harmless Anvil.approved.self) := by
    refine ⟨?_, ⟨⟨?_, trivial, trivial⟩, trivial⟩, ⟨?_, trivial, trivial⟩, trivial⟩ <;> decide
  obtain ⟨-, hcov, hheal⟩ := reentrant_call_safe hout
    (fun t _ => Int.ofNat_le.1 (Int.sub_nonneg.1 (hr.inv.custody t))) h
  exact ⟨_, h, by rfl, by rfl, hcov 1 (.head _), hheal⟩

end Busc
