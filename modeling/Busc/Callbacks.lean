import Busc.Isolation
import Busc.Reentrancy
import Busc.Solvency

/-!
# Solvency among tokens that call back

The runs of `Solvency` with collateral tokens that call back: a transaction is a whole call tree, and
the environment moves between transactions. Besides what `Kept` says, a complete call adds no supply
without its debt; and under negative answers, where nobody can be checked, it leaves every debt as it
was. Each holds of an operation whose callbacks keep it, so it holds of all call trees (`Nested.exec`),
and solvency follows as it does without callbacks.
-/

namespace Busc
open Solidity WordMap Machine BUSCmotor Cdp

/-! ### What every complete call keeps -/

/-- The parts of a call: no supply without its debt. Only the owner of `BUSC` mints it. -/
structure Sealed (w w' : World) : Prop where
  frame : w.Frame w'
  drift : w.owner = w.self → w.drift ≤ w'.drift

namespace Sealed
variable {w w₁ w₂ : World} {sender token user : Address} {amount : UInt256}

theorem refl (w : World) : Sealed w w := ⟨.refl w, fun _ => le_rfl⟩

theorem trans (h₁ : Sealed w w₁) (h₂ : Sealed w₁ w₂) : Sealed w w₂ :=
  ⟨h₁.frame.trans h₂.frame, fun ho => (h₁.drift ho).trans
    (h₂.drift (h₁.frame.owner.trans (ho.trans h₁.frame.self.symm)))⟩

theorem setStatus (w : World) (s : Status) : Sealed w (w.setStatus s) := ⟨.setStatus w s, fun _ => le_rfl⟩

theorem setDeposit (w : World) (user token : Address) (x : UInt256) :
    Sealed w (w.setDeposit user token x) := ⟨.setDeposit w user token x, fun _ => le_rfl⟩

theorem setToken {t : ERC20}
    (hs : token = w.motor.iBUSC → w.owner = w.self →
      t.totalSupply.toNat ≤ (w.erc20 token).totalSupply.toNat) : Sealed w (w.setToken token t) := by
  refine ⟨.setToken .., fun ho => ?_⟩
  rw [World.drift_setToken]
  split
  · next e =>
    have hle := hs e ho
    omega
  · exact le_rfl

theorem leg (h : Leg sender w w₁) : Sealed w w₁ := ⟨h.frame, fun _ => h.drift.ge⟩

theorem call {op : MotorOp} (h : op.call .exact sender w = .ok w₁) : Sealed w w₁ :=
  MotorOp.call_legs (P := Sealed w) h (.refl w) fun _ _ hleg hs => hs.trans (.leg hleg)

end Sealed

/-- What a complete call keeps of debt and supply; where nobody can be checked, no debt changes. -/
structure Settled (w w' : World) : Prop extends Sealed w w' where
  debt : ¬ w.Signed → w'.debt = w.debt

namespace Settled
variable {w w₁ w₂ : World}

theorem refl (w : World) : Settled w w := ⟨.refl w, fun _ => rfl⟩

theorem trans (h₁ : Settled w w₁) (h₂ : Settled w₁ w₂) : Settled w w₂ :=
  ⟨h₁.toSealed.trans h₂.toSealed, fun hs =>
    (h₂.debt (h₁.frame.signed.not.2 hs)).trans (h₁.debt hs)⟩

/-- A call that ends with a check found prices that are not negative. -/
theorem of_checked {user : Address} (h : Sealed w w₁) (hc : w₁.Checked user) : Settled w w₁ :=
  ⟨h, fun hs => absurd (h.frame.signed.1 hc.1.signed) hs⟩

theorem token {sender token : Address} {call : TokenCall} (hne : sender ≠ w.self)
    (h : call.call sender token w = .ok w₁) : Settled w w₁ := by
  obtain ⟨t, ht, rfl⟩ := TokenCall.exists_ledger h
  refine ⟨.setToken fun e ho => ?_, fun _ => rfl⟩
  obtain ⟨hr, -⟩ := (TokenCall.call_eq_ok (ho ▸ hne.symm)).1 h
  exact (TokenCall.ledger_step ht).supply_le (hr e)

end Settled

section hooked
variable {f g : World → World} {w w' : World} {sender src dst token : Address} {amount : UInt256}
  {b : Bool} (hf : ∀ v, v.self = w.self → Settled v (f v)) (hg : ∀ v, v.self = w.self → Settled v (g v))

include hg in
theorem settled_between {w₁ : World} {x : ERC20} (h₁ : Settled w w₁)
    (hs : x.totalSupply = (w₁.erc20 token).totalSupply) : Settled w (g (w₁.setToken token x)) := by
  have h₂ : Settled w₁ (w₁.setToken token x) := ⟨.setToken fun _ _ => hs ▸ le_rfl, fun _ => rfl⟩
  exact h₁.trans (h₂.trans (hg _ h₁.frame.self))

include hf hg

theorem settled_transfer (h : (IERC20.hooked f g).transfer token sender dst amount w = .ok (b, w')) :
    Settled w w' := by
  obtain ⟨hle, rfl⟩ := hooked_transfer h
  exact settled_between hg (hf w rfl) rfl

theorem settled_transferFrom
    (h : (IERC20.hooked f g).transferFrom token sender src dst amount w = .ok (b, w')) :
    Settled w w' := by
  obtain ⟨hle, rfl⟩ := hooked_transferFrom h
  exact settled_between hg (hf w rfl) rfl

theorem pull_sealed (h : _pullCollateral (.hooked f g) src dst token amount w = .ok w') :
    Sealed w w' := by
  obtain ⟨-, h⟩ := pull_ext_eq_ok.1 h
  set w₁ := w.setDeposit src token (w.deposit src token - amount)
  exact (Sealed.setDeposit ..).trans (settled_transfer (w := w₁) hf hg h).toSealed

theorem deposit_settled (h : depositCollateral (.hooked f g) sender token amount w = .ok w') :
    Settled w w' := by
  obtain ⟨-, -, -, -, w₂, h, rfl⟩ := depositCollateral_ext_eq_ok.1 h
  set w₁ := (w.setStatus .entered).setDeposit sender token (w.deposit sender token + amount)
  have h₁ : Settled w w₁ := ⟨(Sealed.setStatus w _).trans (.setDeposit ..), fun _ => rfl⟩
  have h₂ : Settled w₁ w₂ := settled_transferFrom (w := w₁) hf hg h
  exact h₁.trans (h₂.trans ⟨.setStatus w₂ _, fun _ => rfl⟩)

omit hf hg in
theorem settled_of_exact {op : MotorOp} (h : op.call .exact sender w = .ok w')
    (hop : ∀ t a, op ≠ .depositCollateral t a) : Settled w w' :=
  .of_checked (.call h) (MotorOp.call_checked h hop)

/-- Every operation settles what its callbacks settle. -/
theorem op_settled {op : MotorOp} (h : op.call (.hooked f g) sender w = .ok w') : Settled w w' := by
  cases op with
  | depositCollateralAndMintBUSC t a m =>
    obtain ⟨w₁, hd, hm⟩ := bind_eq_ok.1 h
    have hm : (MotorOp.mintBUSC m).call .exact sender w₁ = .ok w' := hm
    exact (deposit_settled hf hg hd).trans (settled_of_exact hm nofun)
  | depositCollateral t a => exact deposit_settled hf hg h
  | mintBUSC m =>
    have h : (MotorOp.mintBUSC m).call .exact sender w = .ok w' := h
    exact settled_of_exact h nofun
  | burnBUSC b =>
    have h : (MotorOp.burnBUSC b).call .exact sender w = .ok w' := h
    exact settled_of_exact h nofun
  | pullCollateralAndBurnBUSC t a b =>
    obtain ⟨-, -, hb, hp, hc⟩ := pullCollateralAndBurnBUSC_ext_eq_ok.1 h
    exact .of_checked ((Sealed.leg (.burned hb)).trans (pull_sealed (w := w.burned hb) hf hg hp)) hc
  | pullCollateral t a =>
    obtain ⟨-, -, w₁, hp, hc, rfl⟩ := pullCollateral_ext_eq_ok.1 h
    have hs : Sealed w w₁ :=
      (Sealed.setStatus w _).trans (pull_sealed (w := w.setStatus .entered) hf hg hp)
    exact .of_checked (hs.trans (.setStatus ..)) (World.checked_setStatus.2 hc)
  | liquidate t user x =>
    obtain ⟨-, -, -, -, -, -, s, -, w₁, hp, hb, -, -, hc, rfl⟩ := liquidate_ext_eq_ok.1 h
    have hs : Sealed w w₁ :=
      (Sealed.setStatus w _).trans (pull_sealed (w := w.setStatus .entered) hf hg hp)
    exact .of_checked (hs.trans ((Sealed.leg (.burned hb)).trans (.setStatus ..)))
      (World.checked_setStatus.2 hc)

end hooked

theorem nested_settled (m : Address) (A : TokenCall → Prop) : Nested m A Settled where
  refl := .refl
  trans := .trans
  frame h := h.frame
  op hf hg hm _ h := by
    subst hm
    exact op_settled hf hg h
  token _ hm hne h := by
    subst hm
    exact .token hne h

/-! ### Runs of transactions -/

/-- A transaction with all the calls inside it, or a step of the environment. -/
inductive Turn
  | calls (c : CallTree)
  | passTime (seconds : UInt256)
  | updateFeed (feed : Address) (round : RoundData)

def Turn.exec (w : World) : Turn → World
  | .calls c => outcome w (c.exec w)
  | .passTime seconds => Busc.exec w (.passTime seconds)
  | .updateFeed feed round => Busc.exec w (.updateFeed feed round)

/-- The motor sends no call of its own, and no oracle update lowers its feed's answer. Whatever else the
callbacks may be, any token call among them. -/
def Turn.Fair (w : World) : Turn → Prop
  | .calls c => c.Outside w.self fun _ => True
  | .passTime _ => True
  | .updateFeed feed round => NonFalling w (.updateFeed feed round)

/-- What solvency needs of a state. -/
structure World.Sound (w : World) : Prop where
  owner : w.owner = w.self
  closed : w.Closed
  custody : ∀ t, 0 ≤ w.slack t
  covered : 0 ≤ w.drift
  backed : w.Backed

namespace World.Sound
variable {w w' : World}

theorem calls (h : w.Sound) (hk : Kept False w w') (hs : Settled w w') : w'.Sound where
  owner := hs.frame.owner.trans (h.owner.trans hs.frame.self.symm)
  closed := hk.closed h.closed
  custody t := (h.custody t).trans (hk.slack (.inr h.closed) t)
  covered := h.covered.trans (hs.drift h.owner)
  backed u := by
    by_cases hsig : w.Signed
    · exact .inr ⟨hs.frame.signed.2 hsig, hk.healthy u (h.backed.healthy u)⟩
    · rcases h.backed u with h0 | ⟨hsig', -⟩
      · exact .inl (by rw [hs.debt hsig]; exact h0)
      · exact absurd hsig' hsig

theorem exec (h : w.Sound) {t : Turn} (ht : t.Fair w) : (t.exec w).Sound := by
  cases t with
  | calls c =>
    exact outcome_cases h fun w' hok => h.calls ((nested_kept nofun).exec ht rfl hok)
      ((nested_settled w.self _).exec ht rfl hok)
  | passTime => exact ⟨h.owner, h.closed, h.custody, h.covered, h.backed⟩
  | updateFeed => exact ⟨h.owner, h.closed, h.custody, h.covered, h.backed.updateFeed ht⟩

end World.Sound

theorem Deployed.sound {w : World} (h : Deployed w) : w.Sound where
  owner := h.inv.owner
  closed := h.inv.closed
  custody := h.inv.custody
  covered := h.inv.covered
  backed u := .inl (by rw [h.debt])

/-- Calls without callbacks are turns. -/
theorem Turn.exec_leaf (w : World) (sender token : Address) (op : MotorOp) (call : TokenCall) :
    Turn.exec w (.calls (.motor sender op [] [])) = Busc.exec w (.motor sender op) ∧
      Turn.exec w (.calls (.token sender token call [] [])) = Busc.exec w (.token sender token call) := by
  rw [Turn.exec, Turn.exec, CallTree.exec_leaf, CallTree.exec_token_leaf]
  exact ⟨rfl, rfl⟩

/-- However the collateral tokens call back in the transactions of a run, the motor's holdings cover
twice the supply, as long as no oracle update lowers an answer. -/
theorem solvent_of_callbacks {w₀ : World} {ts : List Turn} (hd : Deployed w₀)
    (hrun : Along Turn.exec Turn.Fair w₀ ts) :
    let w := run Turn.exec w₀ ts
    2 * (w.erc20 w.motor.iBUSC).totalSupply.toNat ≤ w.holdings := by
  intro w
  have hs : w.Sound := (hrun.inv hd.sound fun _ _ hs => hs.exec).1
  exact World.mul_supply_le_holdings hs.backed.healthy hs.custody hs.covered

/-- Account 7 borrows against one WETH. While it takes 50 units back, the token tries a deposit, which
the flag stops, lets the motor take its BUSC, and then pays one unit of the debt. -/
def Anvil.callbacks : List Turn :=
  [.calls (.token 7 1 (.approve 6 1000000000000000000) [] []),
    .calls (.motor 7 (.depositCollateral 1 1000000000000000000) [] []),
    .calls (.motor 7 (.mintBUSC 1000000000000000000000) [] []),
    .calls (.motor 7 (.pullCollateral 1 50)
      [.motor 7 (.depositCollateral 1 20) [] [], .token 7 5 (.approve 6 uintMax) [] []]
      [.motor 7 (.burnBUSC 1) [] []]),
    .updateFeed 3 (HelperConfig.mockRound 1 450000000000)]

theorem solvent_of_callbacks_nested :
    ((run Turn.exec Anvil.world Anvil.callbacks).erc20 5).totalSupply = 999999999999999999999 ∧
      2 * ((run Turn.exec Anvil.world Anvil.callbacks).erc20 5).totalSupply.toNat ≤
        (run Turn.exec Anvil.world Anvil.callbacks).holdings := by
  have h7 : (7 : Address) ≠ 6 := by decide
  have hrun : Along Turn.exec Turn.Fair Anvil.world Anvil.callbacks := by
    refine ⟨⟨h7, trivial, trivial, trivial⟩, ⟨h7, trivial, trivial⟩, ⟨h7, trivial, trivial⟩, ?_, ?_, trivial⟩
    · exact ⟨h7, ⟨⟨h7, trivial, trivial⟩, ⟨h7, trivial, trivial, trivial⟩, trivial⟩,
        ⟨h7, trivial, trivial⟩, trivial⟩
    · show NonFalling _ (.updateFeed 3 _)
      decide +kernel
  exact ⟨by decide +kernel, solvent_of_callbacks Anvil.deployed hrun⟩

end Busc
