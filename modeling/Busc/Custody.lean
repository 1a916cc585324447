import Busc.Invariant

/-!
# Custody of collateral

For every token the motor's balance is the deposits recorded in it and what it was sent directly,
down to the last unit: no operation changes the difference (`Leg.slack`), and a token call by another
account adds to it what it sends. So the motor can always pay out what the deposit subtraction lets
through, also between the two legs of an operation.
-/

namespace Busc
open Solidity WordMap Machine BUSCmotor

/-- How much of `token` the action sends to the motor outside the motor's operations. -/
def received (token : Address) (w : World) : Action → Nat
  | .token sender t call =>
    if t = token then
      match call.call sender t w with
      | .ok _ => call.sentTo w.self
      | .error _ => 0
    else 0
  | _ => 0

section step
variable {w : World} {a : Action} {token : Address}

theorem slack_exec (hi : Inv w) (hl : Legal w a) :
    (exec w a).slack token = w.slack token + received token w a := by
  cases a with
  | motor sender op =>
    refine (outcome_cases (P := fun v => v.slack token = w.slack token) rfl fun w' h => ?_).trans
      (Int.add_zero _).symm
    exact MotorOp.call_slack h (hi.sender_ne h)
  | token sender t call =>
    cases h : call.call sender t w with
    | error e =>
      rw [exec, outcome_error h, received]
      simp only [h, ite_self]
      exact (Int.add_zero _).symm
    | ok w' =>
      obtain ⟨-, t', ht', rfl⟩ := (TokenCall.call_eq_ok (hi.owner ▸ Ne.symm hl)).1 h
      have hbal := (ERC20.call_ledger hl (hi.closed t) ht').balance
      rw [exec, outcome_ok h, World.slack_setToken, received]
      simp only [h]
      rcases eq_or_ne token t with rfl | ht
      · simp only [if_true]
        omega
      · simp only [if_neg ht, if_neg (Ne.symm ht)]
        exact (Int.add_zero _).symm
  | owner sender call =>
    cases h : call.call sender w with
    | error e => rw [exec, outcome_error h]; exact (Int.add_zero _).symm
    | ok w' => exact absurd h (OwnerCall.call_ne_ok (hi.owner ▸ Ne.symm hl))
  | passTime => exact (Int.add_zero _).symm
  | updateFeed => exact (Int.add_zero _).symm

end step

/-- Custody, at the end of every run from a deployment over `tokens`: the balance to the unit, every
payout the deposits cover, before and after each leg of an operation, and no deposit of any other
token. -/
theorem custody {c : Chain} {tokens feeds : List Address} {w₀ : World} {as : List Action}
    (hapt : c.Apt tokens) (hdep : deploy c tokens feeds = .ok w₀) (hl : Along exec Legal w₀ as) :
    let w := run exec w₀ as
    (∀ t ∈ tokens, ((w.erc20 t).balances w.self).toNat =
        w.totalDeposits t + (((c.erc20 t).balances c.motor).toNat + tally exec (received t) w₀ as)) ∧
      (∀ src dst t amount, dst ≠ 0 →
        ((∃ w', _pullCollateral .exact src dst t amount w = .ok w') ↔ amount ≤ w.deposit src t)) ∧
      (∀ sender v src dst t amount, sender ≠ w.self → Leg sender w v → dst ≠ 0 →
        ((∃ w', _pullCollateral .exact src dst t amount v = .ok w') ↔ amount ≤ v.deposit src t)) ∧
      ∀ t ∉ tokens, ∀ u, w.deposit u t = 0 := by
  intro w
  have hd : Deployed w₀ := ⟨c, tokens, feeds, hapt, hdep⟩
  obtain ⟨hi, hsteps⟩ := hd.inv.run hl
  obtain ⟨hwf, -, rfl⟩ := deploy_eq_ok.1 hdep
  refine ⟨?_, fun _ _ _ _ h => hi.pull_iff h,
    fun _ _ _ _ _ _ hne hleg h => (hleg.inv hne hi).pull_iff h, ?_⟩
  · intro t ht
    have hslack : w.slack t = (c.deployed tokens feeds).slack t + tally exec (received t) _ as :=
      hsteps.eq_add_tally (m := fun w => w.slack t) fun _ _ ⟨hi, hla⟩ => slack_exec hi hla
    have hstart : (c.deployed tokens feeds).slack t = ((c.erc20 t).balances c.motor).toNat := by
      have h0 := hd.totalDeposits t
      have hbusc : t ≠ c.busc := fun e => hapt.busc (e ▸ ht)
      unfold World.slack
      rw [h0, show (c.deployed tokens feeds).erc20 t = c.erc20 t from Function.update_of_ne hbusc _ _]
      exact Int.sub_zero _
    rw [hstart] at hslack
    unfold World.slack at hslack
    omega
  · intro t ht u
    refine hi.deposit_unlisted u t ?_
    rw [hi.listed, (hd.inv.sameSetup_run hl).collateralTokens]
    exact ht

/-- Account 7 deposits 50 units of WETH, sends the motor 30 more and takes 20 back. -/
def Anvil.donation : List Action := approvals ++ [.motor 7 (.depositCollateral 1 50),
  .token 7 1 (.transfer 6 30), .motor 7 (.pullCollateral 1 20)]

theorem custody_donation :
    (((run exec Anvil.world Anvil.donation).erc20 1).balances 6).toNat = 60 ∧
      (((run exec Anvil.world Anvil.donation).erc20 1).balances 6).toNat =
        (run exec Anvil.world Anvil.donation).totalDeposits 1 + 30 := by
  have hl : Along exec Legal Anvil.world Anvil.donation := by decide +kernel
  have h := (custody Anvil.apt Anvil.run_eq_ok hl).1 1 (.head _)
  have htally : ((Anvil.chain.erc20 1).balances Anvil.chain.motor).toNat +
      tally exec (received 1) Anvil.world Anvil.donation = 30 := by decide +kernel
  rw [htally] at h
  exact ⟨by decide +kernel, h⟩

end Busc
