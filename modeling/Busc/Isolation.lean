import Busc.Health

/-!
# Nobody else touches an account

Every leg moves tokens between the caller and the motor and spends only what the caller granted, so
the wallet and the approvals of an account that calls nothing stay as they are. Its position changes
only in a liquidation while it is unhealthy, and then by exactly what changes hands.
-/

namespace Busc
open Solidity WordMap Machine BUSCmotor

namespace World

/-- The account holds the same tokens and has approved the same amounts in both states. -/
structure SameWallet (w w' : World) (v : Address) : Prop where
  balances : ∀ t, (w'.erc20 t).balances v = (w.erc20 t).balances v
  allowances : ∀ t, (w'.erc20 t).allowances v = (w.erc20 t).allowances v

theorem SameWallet.refl (w : World) (v : Address) : w.SameWallet w v := ⟨fun _ => rfl, fun _ => rfl⟩

theorem SameWallet.trans {w w₁ w₂ : World} {v : Address} (h₁ : w.SameWallet w₁ v)
    (h₂ : w₁.SameWallet w₂ v) : w.SameWallet w₂ v :=
  ⟨fun t => (h₂.balances t).trans (h₁.balances t), fun t => (h₂.allowances t).trans (h₁.allowances t)⟩

end World

theorem Leg.sameWallet {sender v : Address} {w w' : World} (h : Leg sender w w') (hv : v ≠ sender)
    (hself : v ≠ w.self) : w.SameWallet w' v := by
  cases h with
  | deposited _ _ h =>
    refine ⟨fun t => ?_, fun t => ?_⟩ <;> rw [World.erc20_deposited] <;> split
    · next e => subst e; exact ERC20.move_balances_of_ne hv hself
    · rfl
    · next e => subst e; exact ERC20.spend_allowances_of_ne hv
    · rfl
  | pulled h =>
    refine ⟨fun t => ?_, fun t => congrFun (World.allowances_pulled t h) v⟩
    rw [World.erc20_pulled]
    split
    · next e => subst e; exact ERC20.move_balances_of_ne hself hv
    · rfl
  | minted h =>
    refine ⟨fun t => ?_, fun t => ?_⟩ <;> rw [World.erc20_minted] <;> split
    · next e => subst e; exact Function.update_of_ne hv _ _
    · rfl
    · next e => subst e; rfl
    · rfl
  | burned h =>
    refine ⟨fun t => ?_, fun t => ?_⟩ <;> rw [World.erc20_burned] <;> split
    · next e => subst e; exact Function.update_of_ne hv _ _
    · rfl
    · next e => subst e; exact ERC20.spend_allowances_of_ne hv
    · rfl

theorem MotorOp.call_sameWallet {sender v : Address} {op : MotorOp} {w w' : World}
    (h : op.call .exact sender w = .ok w') (hv : v ≠ sender) (hself : v ≠ w.self) :
    w.SameWallet w' v := by
  refine (call_legs (P := fun u => w.SameWallet u v ∧ u.self = w.self) h ⟨.refl w v, rfl⟩
    fun u _ hleg ⟨hw, hs⟩ => ?_).1
  exact ⟨hw.trans (hleg.sameWallet hv (hs ▸ hself)), hleg.frame.self.trans hs⟩

/-- What a liquidation of `user` does to its position and to the liquidator's wallet. -/
structure Seizure (sender token user : Address) (x : UInt256) (w w' : World) : Prop where
  ok : liquidate .exact sender token user x w = .ok w'
  unhealthy : ∃ h, _healthFactor user w = .ok h ∧ h < minimumHealthFactor
  others : ∀ t, t ≠ token → w'.deposit user t = w.deposit user t
  /-- What leaves the deposit arrives in the liquidator's wallet. -/
  collateral : ∃ s, (w'.deposit user token).toNat + s = (w.deposit user token).toNat ∧
    ((w'.erc20 token).balances sender).toNat = ((w.erc20 token).balances sender).toNat + s
  debt : (w'.debt user).toNat + x.toNat = (w.debt user).toNat
  payment : ((w'.erc20 w.motor.iBUSC).balances sender).toNat + x.toNat =
    ((w.erc20 w.motor.iBUSC).balances sender).toNat
  supply : (w'.erc20 w.motor.iBUSC).totalSupply.toNat + x.toNat =
    (w.erc20 w.motor.iBUSC).totalSupply.toNat

namespace World
variable {w : World} {u l t : Address} {s x : UInt256}

theorem swap_pulled (h : w.CanPull u l t s) : w.book.Swap (w.pulled h).book u t s.toNat 0 := by
  refine ⟨?_, fun t' ht => ?_, rfl⟩
  · show ((w.pulled h).deposit u t).toNat + s.toNat = (w.deposit u t).toNat
    rw [deposit_pulled, if_pos ⟨rfl, rfl⟩, toNat_sub_of_le h.deposit]
    exact Nat.sub_add_cancel (BitVec.le_def.1 h.deposit)
  · show ((w.pulled h).deposit u t').toNat = (w.deposit u t').toNat
    rw [deposit_pulled, if_neg fun e => ht e.2]

theorem swap_burned (hp : w.CanPull u l t s) (hb : (w.pulled hp).CanBurn u l x) :
    w.book.Swap ((w.pulled hp).burned hb).book u t s.toNat x.toNat := by
  refine ⟨(swap_pulled hp).deposit, (swap_pulled hp).others, ?_⟩
  show (((w.pulled hp).burned hb).debt u).toNat + x.toNat = (w.debt u).toNat
  rw [debt_burned, if_pos rfl, toNat_sub_of_le hb.debt]
  exact Nat.sub_add_cancel (BitVec.le_def.1 hb.debt)

end World

theorem seizure_of_liquidate {sender token user : Address} {x : UInt256} {w w' : World} (hi : Inv w)
    (h : liquidate .exact sender token user x w = .ok w') : Seizure sender token user x w w' := by
  have hne : sender ≠ w.self :=
    hi.sender_ne (show (MotorOp.liquidate token user x).call .exact sender w = .ok w' from h)
  obtain ⟨-, hl, -, hV, hunsafe, -, s, -, hp, hb, -, -, -, rfl⟩ := liquidate_eq_ok.1 h
  have htok : token ≠ w.motor.iBUSC := fun e => hi.busc_unlisted (e ▸ hl)
  have hbusc : (w.pulled hp).erc20 (w.pulled hp).motor.iBUSC = w.erc20 w.motor.iBUSC := by
    rw [World.erc20_pulled]; exact if_neg htok.symm
  have hfun := BitVec.le_def.1 hb.funds
  have hsup := ((w.pulled hp).erc20 (w.pulled hp).motor.iBUSC).balance_le_supply sender
  have hmin : minimumHealthFactor.toNat = 10 ^ 18 := rfl
  have hswap := World.swap_burned hp hb
  refine ⟨h, ?_, ?_, ⟨s.toNat, hswap.deposit, ?_⟩, hswap.debt, ?_, ?_⟩
  · obtain ⟨v, hv⟩ := hV.exists_factor
    refine ⟨v, healthFactor_eq_ok.2 ⟨hV, hv⟩, BitVec.lt_def.2 ?_⟩
    rw [hv, hmin]
    exact Nat.not_le.1 (World.healthy_iff.not.1 hunsafe)
  · intro t ht
    exact BitVec.eq_of_toNat_eq (hswap.others t ht)
  · rw [World.erc20_burned, if_neg (show ¬ token = (w.pulled hp).motor.iBUSC from htok),
      World.erc20_pulled, if_pos rfl]
    exact ERC20.toNat_move_dst hne.symm
  · rw [World.erc20_burned, if_pos (show w.motor.iBUSC = (w.pulled hp).motor.iBUSC from rfl),
      ERC20.destroy_balances, Function.update_self, ERC20.spend_balances, toNat_sub_of_le hb.funds]
    rw [hbusc] at hfun ⊢
    exact Nat.sub_add_cancel hfun
  · rw [World.erc20_burned, if_pos (show w.motor.iBUSC = (w.pulled hp).motor.iBUSC from rfl),
      ERC20.destroy_totalSupply, ERC20.spend_totalSupply,
      toNat_sub_of_le (BitVec.le_def.2 (hfun.trans hsup))]
    rw [hbusc] at hfun hsup ⊢
    exact Nat.sub_add_cancel (hfun.trans hsup)

/-- The action is an operation of another account, or the environment's. -/
def LeavesOut (v : Address) : Action → Prop
  | .motor sender _ => sender ≠ v
  | .passTime _ | .updateFeed .. => True
  | .token .. | .owner .. => False

theorem LeavesOut.legal {v : Address} {w : World} {a : Action} (h : LeavesOut v a) : Legal w a := by
  cases a with
  | token | owner => exact h.elim
  | _ => trivial

theorem isolation_exec {w : World} {a : Action} {v : Address} (hi : Inv w) (hv : v ≠ w.self)
    (ha : LeavesOut v a) : w.SameWallet (exec w a) v ∧ (w.SameAccount (exec w a) v ∨
      ∃ sender t x, a = .motor sender (.liquidate t v x) ∧ Seizure sender t v x w (exec w a)) := by
  cases a with
  | motor sender op =>
    refine outcome_cases (t := op.call .exact sender w) (P := fun w' => w.SameWallet w' v ∧
      (w.SameAccount w' v ∨ ∃ s t x, Action.motor sender op = .motor s (.liquidate t v x) ∧
        Seizure s t v x w w')) ⟨.refl w v, .inl ⟨rfl, rfl⟩⟩ fun w' h => ?_
    refine ⟨MotorOp.call_sameWallet h (Ne.symm ha) hv, ?_⟩
    by_cases ht : op.Touches sender v
    · rcases ht with rfl | ⟨t, x, rfl⟩
      · exact absurd rfl ha
      · exact .inr ⟨sender, t, x, rfl, seizure_of_liquidate hi h⟩
    · exact .inl (MotorOp.call_sameAccount h ht)
  | passTime | updateFeed => exact ⟨⟨fun _ => rfl, fun _ => rfl⟩, .inl ⟨rfl, rfl⟩⟩
  | token | owner => exact ha.elim

/-- Along a run of operations by others, at any prices, an account keeps its wallet and its
approvals, and its position but for the liquidations of it while it is unhealthy. -/
theorem isolation {w₀ : World} {as : List Action} {v : Address} (hr : Reachable w₀)
    (hv : v ≠ w₀.self) (hl : Along exec (fun _ a => LeavesOut v a) w₀ as) :
    w₀.SameWallet (run exec w₀ as) v ∧ Along exec (fun w a => w.SameAccount (exec w a) v ∨
      ∃ sender t x, a = .motor sender (.liquidate t v x) ∧ Seizure sender t v x w (exec w a)) w₀ as := by
  have hsteps := (hl.inv (I := fun w => Inv w ∧ v ≠ w.self) ⟨hr.inv, hv⟩
    fun s a ⟨hi, hv⟩ ha => ⟨hi.exec ha.legal, ?_⟩).2
  · exact ⟨hsteps.rel (R := fun s t => s.SameWallet t v) (fun s => .refl s v)
        fun s a t ⟨⟨hi, hv⟩, ha⟩ => (isolation_exec hi hv ha).1.trans,
      hsteps.mono fun s a ⟨⟨hi, hv⟩, ha⟩ => (isolation_exec hi hv ha).2⟩
  · rw [(hi.exec_change ha.legal).sameSetup.self]
    exact hv

/-- Account 7 has borrowed 3000 BUSC against one WETH and one WBTC, lets the motor take all its
BUSC, and passed 1000 to account 8, which lets the motor take them. -/
def Anvil.lent : World := run exec world (approvals ++
  [.motor 7 (.depositCollateral 1 1000000000000000000), .motor 7 (.depositCollateral 2 100000000),
    .motor 7 (.mintBUSC 3000000000000000000000), .token 7 5 (.transfer 8 1000000000000000000000),
    .token 7 5 (.approve 6 uintMax), .token 8 5 (.approve 6 1000000000000000000000)])

/-- The price of WBTC collapses, and account 8 pays 1000 BUSC of the debt of account 7. -/
def Anvil.liquidation : List Action :=
  [.updateFeed 4 (HelperConfig.mockRound 1 1), .motor 8 (.liquidate 1 7 1000000000000000000000)]

theorem isolation_liquidation :
    Anvil.lent.SameWallet (run exec Anvil.lent Anvil.liquidation) 7 ∧
      (run exec Anvil.lent Anvil.liquidation).debt 7 = 2000000000000000000000 := by
  have hr : Reachable Anvil.lent := Anvil.reachable (by decide +kernel)
  have hl : Along exec (fun _ a => LeavesOut 7 a) Anvil.lent Anvil.liquidation :=
    ⟨trivial, (by decide : (8 : Address) ≠ 7), trivial⟩
  exact ⟨(isolation hr (by decide) hl).1, by decide +kernel⟩

end Busc
