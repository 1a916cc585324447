import Busc.Invariant

/-!
# Debt and supply

The motor mints and burns as much BUSC as it records debt, so its operations keep `drift` at the zero
it has after the deployment. `BUSC` reserves `mint` and `burn` to the motor, but it inherits
`burnFrom` as it stands: an account with another's approval burns that account's BUSC and no debt is
repaid. That is the only way the two totals part.
-/

namespace Busc
open Solidity WordMap Machine BUSCmotor

/-- The action is a call of `burnFrom` on `BUSC` that goes through, for an amount above zero. -/
def BurnsFrom (w : World) : Action → Prop
  | .token sender token (.burnFrom account amount) =>
    token = w.motor.iBUSC ∧ amount ≠ 0 ∧ account ≠ 0 ∧
      (w.erc20 token).CanSpend account sender amount ∧ amount ≤ (w.erc20 token).balances account
  | _ => False

instance (w : World) : ∀ a, Decidable (BurnsFrom w a)
  | .token _ _ (.burnFrom ..) => inferInstanceAs (Decidable (_ ∧ _ ∧ _ ∧ _ ∧ _))
  | .token _ _ (.transfer ..) | .token _ _ (.transferFrom ..) | .token _ _ (.approve ..)
  | .token _ _ (.increaseAllowance ..) | .token _ _ (.decreaseAllowance ..) | .token _ _ (.mint ..)
  | .token _ _ (.burn ..) | .motor .. | .owner .. | .passTime .. | .updateFeed .. => isFalse id

def World.Matched (w : World) : Prop :=
  (w.erc20 w.motor.iBUSC).totalSupply.toNat = w.totalDebt

theorem World.matched_iff {w : World} : w.Matched ↔ w.drift = 0 := by
  unfold World.Matched World.drift; omega

section step
variable {w : World} {a : Action}

theorem ERC20.totalSupply_ledger {sender : Address} {t t' : ERC20} {call : TokenCall}
    (h : call.ledger sender t = .ok t') (hr : ¬ call.Reserved)
    (hb : ∀ account amount, call = .burnFrom account amount → amount = 0) :
    t'.totalSupply = t.totalSupply := by
  cases TokenCall.ledger_step h with
  | @burnFrom account a =>
    obtain rfl := hb account a rfl
    simp only [destroy_totalSupply, spend_totalSupply]
    exact BitVec.sub_zero _
  | mint | burn => exact absurd trivial hr
  | _ => rfl

/-- Without such a call, the drift stays, and the supply too but for the motor's operations. -/
theorem drift_exec (hi : Inv w) (hl : Legal w a) (hb : ¬ BurnsFrom w a) :
    (exec w a).drift = w.drift ∧ (¬ a.IsMotor →
      ((exec w a).erc20 w.motor.iBUSC).totalSupply = (w.erc20 w.motor.iBUSC).totalSupply) := by
  have hch := hi.exec_change hl
  revert hch
  generalize exec w a = w'
  intro hch
  cases hch with
  | reverted => exact ⟨rfl, fun _ => rfl⟩
  | motor _ h => exact ⟨MotorOp.call_drift h, fun hm => absurd trivial hm⟩
  | @token sender token call t ne busc h =>
    have hsup (ht : token = w.motor.iBUSC) : t.totalSupply = (w.erc20 token).totalSupply := by
      refine ERC20.totalSupply_ledger h (busc ht) fun account amount hcall => ?_
      subst hcall
      obtain ⟨hc, ha, hle, -⟩ := ERC20.burnFrom_eq_ok.1 h
      by_contra hne
      exact hb ⟨ht, hne, ha, hc, hle⟩
    constructor
    · rw [World.drift_setToken]
      split
      · next ht => rw [hsup ht]; omega
      · rfl
    · intro _
      rw [World.setToken_erc20, Function.update_apply]
      split
      · next ht => rw [hsup ht.symm, ht]
      · rfl
  | passTime => exact ⟨rfl, fun _ => rfl⟩
  | updateFeed => exact ⟨rfl, fun _ => rfl⟩

theorem drift_exec_burnFrom (hi : Inv w) (hl : Legal w a) (hb : BurnsFrom w a) :
    w.drift < (exec w a).drift := by
  obtain ⟨sender, token, account, amount, rfl⟩ : ∃ sender token account amount,
      a = .token sender token (.burnFrom account amount) := by
    match a, hb with
    | .token sender token (.burnFrom account amount), _ => exact ⟨_, _, _, _, rfl⟩
  obtain ⟨rfl, hne, ha, hc, hle⟩ := hb
  have hok : (TokenCall.burnFrom account amount).call sender w.motor.iBUSC w = .ok _ :=
    (TokenCall.call_eq_ok (hi.owner ▸ Ne.symm hl)).2
      ⟨fun _ => id, _, ERC20.burnFrom_eq_ok.2 ⟨hc, ha, ERC20.le_spend hle, rfl⟩, rfl⟩
  rw [exec, outcome_ok hok, World.drift_setToken, if_pos rfl, ERC20.destroy_totalSupply,
    ERC20.spend_totalSupply]
  have hpos := toNat_pos_of_ne hne
  have hbal := (w.erc20 w.motor.iBUSC).balance_le_supply account
  have hfun := BitVec.le_def.1 hle
  rw [toNat_sub_of_le (BitVec.le_def.2 (by omega))]
  omega

end step

/-- Debt and supply agree in every state of a run, and only the motor changes the supply, exactly
when nobody burns through `burnFrom`. -/
theorem matched_iff_no_burnFrom {w₀ : World} {as : List Action} (hd : Deployed w₀)
    (hl : Along exec Legal w₀ as) :
    ((∀ pre, pre <+: as → (run exec w₀ pre).Matched) ∧
        Along exec (fun w a => ¬ a.IsMotor →
          ((exec w a).erc20 w.motor.iBUSC).totalSupply = (w.erc20 w.motor.iBUSC).totalSupply) w₀ as) ↔
      Along exec (fun w a => ¬ BurnsFrom w a) w₀ as := by
  have hinv := (hd.inv.run hl).2
  constructor
  · rintro ⟨hm, -⟩
    refine Along.iff_prefix.2 fun pre a post heq hb => ?_
    obtain ⟨hi, hla⟩ := Along.iff_prefix.1 hinv pre a post heq
    have hbefore := World.matched_iff.1 (hm pre ⟨a :: post, heq.symm⟩)
    have hafter := World.matched_iff.1 (hm (pre ++ [a]) ⟨post, by rw [heq]; simp⟩)
    rw [run_append, run_cons, run_nil] at hafter
    have := drift_exec_burnFrom hi hla hb
    omega
  · intro hb
    have hsteps := hinv.and hb
    refine ⟨fun pre hpre => ?_, hsteps.mono fun _ _ ⟨⟨hi, hla⟩, hb⟩ => (drift_exec hi hla hb).2⟩
    refine World.matched_iff.2 ((hsteps.of_prefix hpre).inv (I := fun w => w.drift = 0) hd.drift
      fun s a h0 ⟨⟨hi, hla⟩, hb⟩ => ?_).1
    rw [(drift_exec hi hla hb).1, h0]

/-- Account 7 draws 1000 BUSC, approves itself, and burns half of it by `burnFrom`. -/
def Anvil.burnFromRun : List Action :=
  [.token 7 1 (.approve 6 1000000000000000000), .motor 7 (.depositCollateral 1 1000000000000000000),
    .motor 7 (.mintBUSC 1000000000000000000000), .token 7 5 (.approve 7 500000000000000000000),
    .token 7 5 (.burnFrom 7 500000000000000000000)]

/-- The supply falls to 500 while account 7 still owes 1000. -/
theorem burnFromRun_not_matched : Deployed Anvil.world ∧
    Along exec Legal Anvil.world Anvil.burnFromRun ∧
      ¬ (run exec Anvil.world Anvil.burnFromRun).Matched := by
  refine ⟨Anvil.deployed, by decide +kernel, fun hm => ?_⟩
  have hdebt : ((run exec Anvil.world Anvil.burnFromRun).debt 7).toNat = 1000000000000000000000 := by
    decide +kernel
  have hsup : ((run exec Anvil.world Anvil.burnFromRun).erc20
      (run exec Anvil.world Anvil.burnFromRun).motor.iBUSC).totalSupply.toNat =
      500000000000000000000 := by
    decide +kernel
  have hle := (run exec Anvil.world Anvil.burnFromRun).debt_le_totalDebt 7
  unfold World.Matched at hm
  omega

/-- Account 7 draws 1000 BUSC, gives a part away and burns another. -/
def Anvil.repayRun : List Action :=
  [.token 7 1 (.approve 6 1000000000000000000), .motor 7 (.depositCollateral 1 1000000000000000000),
    .motor 7 (.mintBUSC 1000000000000000000000), .token 7 5 (.transfer 8 300000000000000000000),
    .token 7 5 (.approve 6 500000000000000000000), .motor 7 (.burnBUSC 500000000000000000000)]

theorem repayRun_matched : (run exec Anvil.world Anvil.repayRun).Matched ∧
    ((run exec Anvil.world Anvil.repayRun).erc20 5).totalSupply = 500000000000000000000 :=
  ⟨((matched_iff_no_burnFrom Anvil.deployed (by decide +kernel)).2 (by decide +kernel)).1
    Anvil.repayRun (List.prefix_refl _), by decide +kernel⟩

end Busc
