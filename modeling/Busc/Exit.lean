import Busc.Custody
import Busc.Interleaving
import Busc.Limits
import Busc.Repayment
import Busc.Supply

/-!
# Getting out

An account that holds its debt in BUSC can leave by its own actions alone, however unhealthy it is and
whatever the others do with theirs: it approves the motor, pays all of its debt, and withdraws deposit
after deposit, each to the last unit. Since BUSC can be passed around, all accounts can leave, one after
the other, exactly if every unit of debt has a unit of BUSC in somebody's wallet: nothing was burned
through `burnFrom`, and nothing was sent to the motor, which never gives it back.
-/

namespace Busc
open Solidity WordMap Machine BUSCmotor

/-! ### Actions that go through -/

section forward
variable {w w' : World} {sender token : Address} {call : TokenCall} {op : MotorOp} {t : ERC20}

theorem Inv.exec_token (hi : Inv w) (hne : sender ≠ w.self)
    (hr : token = w.motor.iBUSC → ¬ call.Reserved) (h : call.ledger sender (w.erc20 token) = .ok t) :
    Busc.exec w (.token sender token call) = w.setToken token t :=
  outcome_ok ((TokenCall.call_eq_ok (hi.owner ▸ Ne.symm hne)).2 ⟨hr, t, h, rfl⟩)

theorem Inv.exec_approve (hi : Inv w) (hu : sender ≠ 0) (hne : sender ≠ w.self) (a : UInt256) :
    Busc.exec w (.token sender token (.approve w.self a)) =
      w.setToken token ((w.erc20 token).setAllowance sender w.self a) := by
  refine hi.exec_token hne (fun _ => id) ?_
  simp only [TokenCall.ledger, bind_eq_ok, Prod.exists, pure_eq_ok, ERC20.approve_eq_ok]
  exact ⟨_, _, ⟨rfl, hu, hi.self_ne, rfl⟩, rfl⟩

theorem Inv.exec_transfer (hi : Inv w) {dst : Address} {a : UInt256} (hu : sender ≠ 0)
    (hne : sender ≠ w.self) (hd : dst ≠ 0) (h : a ≤ (w.erc20 token).balances sender) :
    Busc.exec w (.token sender token (.transfer dst a)) =
      w.setToken token ((w.erc20 token).move sender dst a h) := by
  refine hi.exec_token hne (fun _ => id) ?_
  simp only [TokenCall.ledger, bind_eq_ok, Prod.exists, pure_eq_ok, ERC20.transfer_eq_ok]
  exact ⟨_, _, ⟨rfl, hu, hd, h, rfl⟩, rfl⟩

end forward

/-! ### One account -/

/-- A legal action of `u` on its own position, or an approval. -/
def ByItself (u : Address) (w : World) (a : Action) : Prop :=
  Legal w a ∧ a.sender = some u ∧ a.Own

namespace World

/-- From `w` to `s` the account has paid all of its debt, has taken what left its deposits into its
wallet, and nothing else has changed. -/
structure Paid (w s : World) (u : Address) : Prop where
  inv : Inv s
  frame : w.Frame s
  valued : s.Valued u
  drift : s.drift = w.drift
  debt : s.debt u = 0
  busc : ((s.erc20 w.motor.iBUSC).balances u).toNat + (w.debt u).toNat =
    ((w.erc20 w.motor.iBUSC).balances u).toNat
  collateral : ∀ t, t ≠ w.motor.iBUSC →
    ((s.erc20 t).balances u).toNat + (s.deposit u t).toNat =
      ((w.erc20 t).balances u).toNat + (w.deposit u t).toNat
  others : ∀ v, v ≠ u → w.SameAccount s v
  wallets : ∀ v, v ≠ u → v ≠ w.self → w.SameWallet s v
  busc_self : (s.erc20 w.motor.iBUSC).balances w.self = (w.erc20 w.motor.iBUSC).balances w.self

/-- All of its debt is paid, and all of its deposits are in its wallet. -/
structure Exited (w s : World) (u : Address) : Prop extends w.Paid s u where
  deposit : ∀ t, s.deposit u t = 0

variable {w s : World} {u : Address}

theorem paid_of_debt (hi : Inv w) (hV : w.Valued u) (h0 : w.debt u = 0) : w.Paid w u where
  inv := hi
  frame := .refl w
  valued := hV
  drift := rfl
  debt := h0
  busc := by rw [h0]; rfl
  collateral _ _ := rfl
  others _ _ := ⟨rfl, rfl⟩
  wallets v _ _ := .refl w v
  busc_self := rfl

/-- What approving the motor for the whole debt and paying it leaves. -/
theorem paid_burned (hs : u ≠ w.self) (hV : w.Valued u) {w₁ : World}
    (hw₁ : w₁ = w.setToken w.motor.iBUSC
      ((w.erc20 w.motor.iBUSC).setAllowance u w.self (w.debt u))) (hi : Inv w₁)
    (h : w₁.CanBurn u u (w.debt u)) : w.Paid (w₁.burned h) u := by
  have hleg : Leg u w₁ (w₁.burned h) := .burned h
  have hf : w.Frame w₁ := hw₁ ▸ Frame.setToken ..
  have hbusc : w₁.erc20 w.motor.iBUSC =
      (w.erc20 w.motor.iBUSC).setAllowance u w.self (w.debt u) := by
    rw [hw₁, setToken_erc20, Function.update_self]
  have hledger : (w₁.burned h).erc20 w.motor.iBUSC =
      ((w₁.erc20 w.motor.iBUSC).spend u w₁.self (w.debt u)).destroy u (w.debt u)
        (hf.iBUSC ▸ ERC20.le_spend h.funds) := by
    rw [erc20_burned, if_pos hf.iBUSC.symm]
    simp only [hf.iBUSC]
  have hsame (v : Address) : w.SameAccount w₁ v := hw₁ ▸ ⟨rfl, rfl⟩
  have hfun : w.debt u ≤ (w.erc20 w.motor.iBUSC).balances u := by
    have := h.funds
    rwa [hf.iBUSC, hbusc] at this
  exact {
    inv := hleg.inv (hf.self ▸ hs) hi
    frame := hf.trans (frame_burned h)
    valued := ((hf.valued (hsame u).deposit (hsame u).debt).2 hV).burned h
    drift := by
      rw [drift_burned, hw₁, drift_setToken, if_pos rfl, ERC20.setAllowance_totalSupply]
      omega
    debt := by rw [debt_burned, if_pos rfl, (hsame u).debt]; exact BitVec.sub_self _
    busc := by
      rw [hledger, ERC20.destroy_balances, Function.update_self, ERC20.spend_balances, hbusc,
        ERC20.setAllowance_balances, toNat_sub_of_le hfun]
      exact Nat.sub_add_cancel (BitVec.le_def.1 hfun)
    collateral := fun t ht => by
      rw [erc20_burned, if_neg (hf.iBUSC ▸ ht), deposit_burned, (hsame u).deposit, hw₁, setToken_erc20,
        Function.update_of_ne ht]
    others := fun v hv => (hsame v).trans (sameAccount_burned h hv)
    wallets := fun v hv hself => by
      have hset : w.SameWallet w₁ v :=
        hw₁ ▸ sameWallet_setToken ⟨rfl, Function.update_of_ne hv _ _⟩
      exact hset.trans (hleg.sameWallet hv (hf.self ▸ hself))
    busc_self := by
      rw [hledger, ERC20.destroy_balances, Function.update_of_ne hs.symm, ERC20.spend_balances, hbusc,
        ERC20.setAllowance_balances] }

/-- The debt of an account that holds it in BUSC can be paid, whatever its health. -/
theorem leads_paid (hi : Inv w) (hu : u ≠ 0) (hs : u ≠ w.self) (hV : w.Valued u)
    (hfunds : w.debt u ≤ (w.erc20 w.motor.iBUSC).balances u) :
    Leads exec (ByItself u) w fun s => w.Paid s u := by
  by_cases h0 : w.debt u = 0
  · exact .here (paid_of_debt hi hV h0)
  set t := (w.erc20 w.motor.iBUSC).setAllowance u w.self (w.debt u) with ht
  set w₁ := w.setToken w.motor.iBUSC t with hw₁
  have happrove : exec w (.token u w.motor.iBUSC (.approve w.self (w.debt u))) = w₁ :=
    hi.exec_approve hu hs _
  have hi₁ : Inv w₁ := happrove ▸ hi.exec (show Legal w (.token u _ _) from hs)
  have hbusc : w₁.erc20 w₁.motor.iBUSC = t := Function.update_self ..
  have h : w₁.CanBurn u u (w.debt u) := {
    debt := BitVec.le_refl _
    allowed := by
      rw [hbusc]
      refine .inr ⟨?_, hu, hi.self_ne⟩
      show w.debt u ≤ t.allowances u w.self
      rw [ht, ERC20.setAllowance_allowances, Function.update_self, Function.update_self]
      exact BitVec.le_refl _
    payer_ne := hu
    self_ne := hi.self_ne
    funds := by rw [hbusc]; exact hfunds
    owner := hi.owner
    amount_ne := h0 }
  have hpaid := paid_burned hs hV hw₁ hi₁ h
  have hburn : exec w₁ (.motor u (.burnBUSC (w.debt u))) = w₁.burned h :=
    exec_of_call (burnBUSC_eq_ok.2 ⟨h, ⟨hpaid.valued, .inl (by rw [hpaid.debt]; rfl)⟩, rfl⟩)
  exact ⟨[.token u w.motor.iBUSC (.approve w.self (w.debt u)), .motor u (.burnBUSC (w.debt u))],
    ⟨⟨hs, rfl, trivial⟩, ⟨trivial, rfl, trivial⟩, trivial⟩, by
      rw [run_cons, run_cons, run_nil, happrove, hburn]; exact hpaid⟩

/-- One of its deposits after the other can be withdrawn. -/
theorem Paid.leads_pulled (h : w.Paid s u) (hu : u ≠ 0) (hs : u ≠ w.self) (t : Address) :
    Leads exec (ByItself u) s fun s' => w.Paid s' u ∧ s'.deposit u t = 0 ∧
      ∀ t', s.deposit u t' = 0 → s'.deposit u t' = 0 := by
  by_cases h0 : s.deposit u t = 0
  · exact .here ⟨h, h0, fun _ => id⟩
  have htok : t ≠ w.motor.iBUSC := by
    rintro rfl
    exact h0 (h.inv.deposit_unlisted u _ (h.frame.iBUSC ▸ h.inv.busc_unlisted))
  have hself : u ≠ s.self := h.frame.self ▸ hs
  have hp : s.CanPull u u t (s.deposit u t) := h.inv.canPull hu (BitVec.le_refl _)
  have hleg : Leg u s (s.pulled hp) := .pulled hp
  have hV : (s.pulled hp).Valued u :=
    h.valued.of_le (frame_pulled hp) (deposit_pulled_le hp u) id
  have hpull : exec s (.motor u (.pullCollateral t (s.deposit u t))) = s.pulled hp :=
    exec_of_call (pullCollateral_eq_ok.2
      ⟨h0, h.inv.idle, hp, ⟨hV, .inl (congrArg BitVec.toNat h.debt)⟩, rfl⟩)
  have hledger (t' : Address) (ht : t' ≠ t) : (s.pulled hp).erc20 t' = s.erc20 t' := by
    rw [erc20_pulled, if_neg ht]
  refine .step (.motor u (.pullCollateral t (s.deposit u t))) ⟨trivial, rfl, trivial⟩ ?_
  rw [hpull]
  refine ⟨?_, ?_, fun t' ht' => ?_⟩
  · exact {
      inv := hleg.inv hself h.inv
      frame := h.frame.trans (frame_pulled hp)
      valued := hV
      drift := (drift_pulled hp).trans h.drift
      debt := h.debt
      busc := by rw [hledger _ htok.symm]; exact h.busc
      collateral := fun t' ht' => by
        have hold := h.collateral t' ht'
        rw [deposit_pulled]
        by_cases ht : t' = t
        · subst ht
          rw [if_pos ⟨rfl, rfl⟩, erc20_pulled, if_pos rfl, ERC20.toNat_move_dst hself.symm,
            BitVec.sub_self]
          exact hold
        · rw [if_neg fun e => ht e.2, hledger t' ht]
          exact hold
      others := fun v hv => (h.others v hv).trans (sameAccount_pulled hp hv)
      wallets := fun v hv hv' => (h.wallets v hv hv').trans (hleg.sameWallet hv (h.frame.self ▸ hv'))
      busc_self := by rw [hledger _ htok.symm]; exact h.busc_self }
  · rw [deposit_pulled, if_pos ⟨rfl, rfl⟩]
    exact BitVec.sub_self _
  · rw [deposit_pulled]
    split
    · exact BitVec.sub_self _
    · exact ht'

theorem leads_exited (hi : Inv w) (hu : u ≠ 0) (hs : u ≠ w.self) (hV : w.Valued u)
    (hfunds : w.debt u ≤ (w.erc20 w.motor.iBUSC).balances u) :
    Leads exec (ByItself u) w fun s => w.Exited s u := by
  refine (leads_paid hi hu hs hV hfunds).trans fun s h => ?_
  have hloop := Leads.forall_mem (J := fun s => w.Paid s u) (D := fun t s => s.deposit u t = 0)
    (l := w.motor.collateralTokens) h fun t _ s h => h.leads_pulled hu hs t
  refine hloop.mono (fun _ _ => id) fun s ⟨h, hall, _⟩ => { h with deposit := fun t => ?_ }
  by_cases ht : t ∈ w.motor.collateralTokens
  · exact hall t ht
  · refine h.inv.deposit_unlisted u t fun hl => ht ?_
    rw [← h.frame.collateralTokens]
    exact (h.inv.listed t).1 hl

end World

/-! ### All accounts -/

/-- A legal action of any account; the clock and the feeds stand. -/
def ByAccounts (w : World) (a : Action) : Prop := Legal w a ∧ a.sender ≠ none

theorem ByItself.byAccounts {u : Address} {w : World} {a : Action} (h : ByItself u w a) :
    ByAccounts w a :=
  ⟨h.1, by rw [h.2.1]; nofun⟩

namespace World
variable {w s : World} {u : Address}

/-- From `w` to `s` accounts have passed BUSC around, and none to the motor. -/
structure Passed (w s : World) : Prop where
  inv : Inv s
  busc : ∃ t, s = w.setToken w.motor.iBUSC t
  supply : (s.erc20 w.motor.iBUSC).totalSupply = (w.erc20 w.motor.iBUSC).totalSupply
  busc_self : (s.erc20 w.motor.iBUSC).balances w.self = (w.erc20 w.motor.iBUSC).balances w.self

theorem Passed.frame (h : w.Passed s) : w.Frame s := by
  obtain ⟨t, rfl⟩ := h.busc
  exact .setToken ..

theorem Passed.sameAccount (h : w.Passed s) (v : Address) : w.SameAccount s v := by
  obtain ⟨t, rfl⟩ := h.busc
  exact ⟨rfl, rfl⟩

theorem Passed.drift (h : w.Passed s) : s.drift = w.drift := by
  have hsup := h.supply
  obtain ⟨t, rfl⟩ := h.busc
  rw [setToken_erc20, Function.update_self] at hsup
  rw [drift_setToken, if_pos rfl, hsup]
  omega

theorem Passed.leads_emptied (h : w.Passed s) (hu : u ≠ 0) (hs : u ≠ w.self) (v : Address) :
    let Emptied v (s : World) := v ≠ u → v ≠ w.self → (s.erc20 w.motor.iBUSC).balances v = 0
    Leads exec ByAccounts s fun s' => w.Passed s' ∧ Emptied v s' ∧ ∀ v', Emptied v' s → Emptied v' s' := by
  intro Emptied
  by_cases hdone : Emptied v s
  · exact .here ⟨h, hdone, fun _ => id⟩
  obtain ⟨hvu, hvs, hbal⟩ : v ≠ u ∧ v ≠ w.self ∧ (s.erc20 w.motor.iBUSC).balances v ≠ 0 := by
    simpa only [Emptied, Classical.not_imp] using hdone
  have hself := h.frame.self
  have hbusc := h.frame.iBUSC
  have hv0 : v ≠ 0 := by
    rintro rfl
    exact hbal (hbusc ▸ h.inv.busc_zero)
  have hne : v ≠ s.self := hself ▸ hvs
  have hle := BitVec.le_refl ((s.erc20 w.motor.iBUSC).balances v)
  have htransfer := h.inv.exec_transfer hv0 hne hu hle
  set pay := Action.token v w.motor.iBUSC (.transfer u ((s.erc20 w.motor.iBUSC).balances v))
  have hi : Inv (exec s pay) := h.inv.exec hne
  refine .step pay ⟨hne, nofun⟩ ?_
  rw [htransfer] at hi ⊢
  have hledger : ∀ t, ((s.setToken w.motor.iBUSC t).erc20 w.motor.iBUSC) = t := fun t => by
    rw [setToken_erc20, Function.update_self]
  refine ⟨⟨hi, ?_, ?_, ?_⟩, fun _ _ => ?_, fun v' hv' hv'u hv's => ?_⟩
  · obtain ⟨t, rfl⟩ := h.busc
    exact ⟨_, setToken_setToken ..⟩
  · rw [hledger]
    exact h.supply
  · rw [hledger, ERC20.move_balances_of_ne hvs.symm hs.symm]
    exact h.busc_self
  · rw [hledger]
    refine BitVec.eq_of_toNat_eq ?_
    rw [ERC20.toNat_move_src hvu, Nat.sub_self]
    rfl
  · rw [hledger]
    rcases eq_or_ne v' v with rfl | hv
    · exact absurd (hv' hv'u hv's) hbal
    · rw [ERC20.move_balances_of_ne hv hv'u]
      exact hv' hv'u hv's

/-- All BUSC but the motor's can be brought together in one wallet. -/
theorem leads_gathered (hi : Inv w) (hu : u ≠ 0) (hs : u ≠ w.self) :
    Leads exec ByAccounts w fun s => w.Passed s ∧
      ((s.erc20 w.motor.iBUSC).balances u).toNat + ((w.erc20 w.motor.iBUSC).balances w.self).toNat =
        (w.erc20 w.motor.iBUSC).totalSupply.toNat := by
  have hloop := Leads.forall_mem (J := w.Passed) (l := Finset.univ.toList (α := Address))
    ⟨hi, ⟨w.erc20 w.motor.iBUSC, by rw [setToken, Function.update_eq_self]⟩, rfl, rfl⟩
    fun v _ s (h : w.Passed s) => h.leads_emptied hu hs v
  refine hloop.mono (fun _ _ => id) ?_
  rintro s ⟨h, hall, -⟩
  refine ⟨h, ?_⟩
  rw [← h.supply, ← h.busc_self, ← (s.erc20 w.motor.iBUSC).total_balances, total_eq_sum,
    ← Finset.add_sum_erase _ _ (Finset.mem_univ u), ← Finset.add_sum_erase _ _
      (Finset.mem_erase.2 ⟨hs.symm, Finset.mem_univ w.self⟩),
    Finset.sum_eq_zero fun v hv => ?_, Nat.add_zero]
  rw [Finset.mem_erase, Finset.mem_erase] at hv
  rw [hall v (Finset.mem_toList.2 (Finset.mem_univ v)) hv.2.1 hv.1]
  rfl

/-- All accounts can be valued, and every unit of debt has a unit of BUSC outside the motor. -/
structure Closable (w : World) : Prop where
  inv : Inv w
  valued : ∀ u, w.Valued u
  drift : w.drift = 0
  busc_self : (w.erc20 w.motor.iBUSC).balances w.self = 0
  nobody : w.debt 0 = 0 ∧ ∀ t, w.deposit 0 t = 0

/-- Everybody can bring the BUSC together for one account to leave. -/
theorem Closable.leads_exited (h : w.Closable) (u : Address) :
    let Gone u (s : World) := s.debt u = 0 ∧ ∀ t, s.deposit u t = 0
    Leads exec ByAccounts w fun s => s.Closable ∧ Gone u s ∧ ∀ v, Gone v w → Gone v s := by
  intro Gone
  by_cases hu : u = 0
  · exact .here ⟨h, hu ▸ h.nobody, fun _ => id⟩
  by_cases hs : u = w.self
  · exact .here ⟨h, hs ▸ ⟨h.inv.debt_self, h.inv.deposit_self⟩, fun _ => id⟩
  refine (leads_gathered h.inv hu hs).trans fun s ⟨hp, hbal⟩ => ?_
  have hsame := hp.sameAccount
  have hdebt := w.debt_le_totalDebt u
  have hdrift := h.drift
  unfold World.drift at hdrift
  rw [h.busc_self] at hbal
  have hbal' : ((s.erc20 w.motor.iBUSC).balances u).toNat =
      (w.erc20 w.motor.iBUSC).totalSupply.toNat := hbal
  have hfunds : s.debt u ≤ (s.erc20 s.motor.iBUSC).balances u := by
    rw [(hsame u).debt, hp.frame.iBUSC, BitVec.le_def]
    omega
  have hexit := World.leads_exited hp.inv hu (hp.frame.self ▸ hs)
    ((hp.frame.valued (hsame u).deposit (hsame u).debt).2 (h.valued u)) hfunds
  refine hexit.mono (fun _ _ => ByItself.byAccounts) fun s' he => ?_
  have hframe := hp.frame.trans he.frame
  have hothers (v : Address) (hv : v ≠ u) : w.SameAccount s' v := (hsame v).trans (he.others v hv)
  refine ⟨⟨he.inv, fun v => ?_, ?_, ?_, ?_⟩, ⟨he.debt, he.deposit⟩, fun v hv => ?_⟩
  · rcases eq_or_ne v u with rfl | hv
    · exact he.valued
    · exact (hframe.valued (hothers v hv).deposit (hothers v hv).debt).2 (h.valued v)
  · rw [he.drift, hp.drift, h.drift]
  · rw [hframe.iBUSC, hframe.self, ← hp.frame.iBUSC, ← hp.frame.self, he.busc_self, hp.frame.iBUSC,
      hp.frame.self, hp.busc_self, h.busc_self]
  · have h0 := hothers 0 (Ne.symm hu)
    exact ⟨h0.debt.trans h.nobody.1, fun t => by rw [h0.deposit]; exact h.nobody.2 t⟩
  · rcases eq_or_ne v u with rfl | hne
    · exact ⟨he.debt, he.deposit⟩
    · exact ⟨(hothers v hne).debt.trans hv.1, fun t => by rw [(hothers v hne).deposit]; exact hv.2 t⟩

end World

/-! ### What no run repays -/

section locked
variable {w : World} {a : Action}

end locked

/-- An account that can be valued and holds its debt in BUSC can pay it and take its deposits home, by
its own actions alone. -/
theorem exit {w : World} {u : Address} (hr : Reachable w) (hu : u ≠ 0) (hs : u ≠ w.self)
    (hV : w.Valued u) (hfunds : w.debt u ≤ (w.erc20 w.motor.iBUSC).balances u) :
    Leads exec (ByItself u) w fun s => w.Exited s u :=
  World.leads_exited hr.inv hu hs hV hfunds

/-- Account 7 owes 1500 dollars on 2500 dollars of WETH, and has the BUSC. -/
theorem exit_underwater :
    Leads exec (ByItself 7) Anvil.underwater fun s => Anvil.underwater.Exited s 7 :=
  exit (Anvil.reachable (by decide +kernel)) (by decide) (by decide) (by decide +kernel)
    (by decide +kernel)

end Busc
