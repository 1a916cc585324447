import Busc.Margin

/-!
# What others cost an account

While prices stand, an account that makes no operation of its own is touched by liquidations only,
and these are bounded over any run: its health factor never falls, and what it loses of its collateral
is worth the debt that was paid for it, a tenth, and one for each liquidation, for the rounding of the
value that remains.
-/

namespace Busc
open Solidity WordMap Machine BUSCmotor Cdp

/-- A legal action at standing prices, and not an operation of `v`. An oracle update that keeps its
feed's answer only makes it fresh again. -/
def Passive (v : Address) (w : World) : Action → Prop
  | .motor sender _ => sender ≠ v
  | .updateFeed feed round => round.answer = (w.feeds feed).answer
  | a => Legal w a

instance (v : Address) (w : World) : ∀ a, Decidable (Passive v w a)
  | .motor sender _ => inferInstanceAs (Decidable (sender ≠ v))
  | .updateFeed feed round => inferInstanceAs (Decidable (round.answer = (w.feeds feed).answer))
  | .token sender token call => inferInstanceAs (Decidable (Legal w (.token sender token call)))
  | .owner sender call => inferInstanceAs (Decidable (Legal w (.owner sender call)))
  | .passTime seconds => inferInstanceAs (Decidable (Legal w (.passTime seconds)))

/-- The liquidations of `v` that an action makes: one or none. -/
def liquidations (v : Address) (w : World) : Action → Nat
  | .motor sender (.liquidate t u x) =>
    if u = v ∧ (liquidate .exact sender t u x w).isOk then 1 else 0
  | _ => 0

section step
variable {w w' : World} {a : Action} {v t u l : Address} {x : UInt256}

theorem liquidations_of_ok (h : liquidate .exact l t v x w = .ok w') :
    liquidations v w (.motor l (.liquidate t v x)) = 1 := by
  show (if v = v ∧ (liquidate .exact l t v x w).isOk then 1 else 0) = 1
  rw [h]
  exact if_pos ⟨rfl, rfl⟩

theorem Passive.legal (h : Passive v w a) : Legal w a := by
  cases a with
  | motor | updateFeed => trivial
  | token | owner | passTime => exact h

theorem World.market_updateFeed {feed : Address} {round : RoundData}
    (h : round.answer = (w.feeds feed).answer) :
    ({ w with feeds := Function.update w.feeds feed round } : World).market = w.market := by
  refine World.market_congr rfl (funext fun t => funext fun a => ?_)
  have hprice : ({ w with feeds := Function.update w.feeds feed round } : World).price t = w.price t := by
    unfold World.price
    rw [World.round_updateFeed]
    split
    · next e => rw [h, ← e]; rfl
    · rfl
  exact World.valueInUSD_congr hprice rfl a

theorem Inv.passive_exec (hi : Inv w) (ha : Passive v w a) :
    w.market = (Busc.exec w a).market ∧ (w.SameAccount (Busc.exec w a) v ∨
      ∃ l t x, a = .motor l (.liquidate t v x) ∧ liquidate .exact l t v x w = .ok (Busc.exec w a)) := by
  have hch := hi.exec_change ha.legal
  revert hch
  generalize Busc.exec w a = w'
  intro hch
  cases hch with
  | reverted => exact ⟨rfl, .inl ⟨rfl, rfl⟩⟩
  | @motor sender op w' _ h =>
    refine ⟨(MotorOp.call_frame h).market.symm, ?_⟩
    by_cases ht : op.Touches sender v
    · rcases ht with rfl | ⟨t, x, rfl⟩
      · exact absurd rfl ha
      · exact .inr ⟨sender, t, x, rfl, h⟩
    · exact .inl (MotorOp.call_sameAccount h ht)
  | token => exact ⟨rfl, .inl ⟨rfl, rfl⟩⟩
  | passTime => exact ⟨rfl, .inl ⟨rfl, rfl⟩⟩
  | updateFeed => exact ⟨(World.market_updateFeed ha).symm, .inl ⟨rfl, rfl⟩⟩

/-- The collateral that goes is worth the debt that is paid, a tenth, and one. -/
theorem Inv.loss_of_liquidate (hi : Inv w) (h : liquidate .exact l t u x w = .ok w') :
    10 * w.collateralValue u ≤ 10 * w'.collateralValue u + 11 * x.toNat + 10 := by
  have hf := frame_of_liquidate h
  have hswap := swap_of_liquidate h
  obtain ⟨-, hlisted, -, hV, -, -, s, hs, hp, hb, -, -, -, rfl⟩ := liquidate_eq_ok.1 h
  have ht : t ∈ w.motor.collateralTokens := (hi.listed t).1 hlisted
  have hleft : ((w.pulled hp).burned hb).collateralValue u = w.valueLeft u t (w.seized t x.toNat) := by
    rw [(World.frame_burned hb).collateralValue (World.deposit_burned hb ▸ rfl),
      World.collateralValue_pulled, hs]
  rw [hleft]
  rcases Nat.lt_or_ge (w.decimals t).toNat 18 with hd | hd
  · have hzero : w.seized t x.toNat = 0 := by
      unfold World.seized
      rw [tokenAmount_eq_zero_of_liquidate ht hd h]
    have hsame : w.valueLeft u t 0 = w.collateralValue u := by
      unfold World.valueLeft World.collateralValue
      simp only [ite_self, Nat.sub_zero]
    rw [hzero, hsame]
    omega
  · exact hi.le_valueLeft hp.dst_ne ht (le_antisymm (hV.quotable t ht).decimals hd)
      (hs ▸ BitVec.le_def.1 hp.deposit)

theorem World.collateralValue_congr (hm : w.market = w'.market) (hd : w'.deposit v = w.deposit v) :
    w'.collateralValue v = w.collateralValue v := by
  have hb : w'.book.collateral w.market v = w.book.collateral w.market v := by
    unfold Book.collateral
    show (List.map (fun t => w.market.value t (w'.deposit v t).toNat) _).sum = _
    rw [hd]
    rfl
  calc w'.collateralValue v = w'.book.collateral w'.market v := rfl
    _ = w'.book.collateral w.market v := by rw [hm]
    _ = w.collateralValue v := hb

/-- The account has no more debt and no lower health factor than before. -/
structure World.NoWorse (w w' : World) (v : Address) : Prop where
  debt : (w'.debt v).toNat ≤ (w.debt v).toNat
  factor : w.factor v ≤ w'.factor v

theorem World.NoWorse.trans {w₁ w₂ : World} (h₁ : w.NoWorse w₁ v) (h₂ : w₁.NoWorse w₂ v) :
    w.NoWorse w₂ v :=
  ⟨h₂.debt.trans h₁.debt, h₁.factor.trans h₂.factor⟩

/-- What the collateral of `v` is worth, less its debt and a tenth of it. -/
def World.margin (w : World) (v : Address) : Int :=
  10 * w.collateralValue v - 11 * (w.debt v).toNat

theorem Inv.noWorse_exec (hi : Inv w) (ha : Passive v w a) :
    w.NoWorse (Busc.exec w a) v ∧
      w.margin v ≤ (Busc.exec w a).margin v + 10 * liquidations v w a := by
  obtain ⟨hm, hsame | ⟨l, t, x, rfl, h⟩⟩ := hi.passive_exec ha
  · have hc := World.collateralValue_congr hm hsame.deposit
    refine ⟨⟨by rw [hsame.debt], ?_⟩, ?_⟩
    · unfold World.factor
      rw [hc, hsame.debt]
    · unfold World.margin
      rw [hc, hsame.debt]
      omega
  · generalize Busc.exec w _ = w' at h
    have hloss := hi.loss_of_liquidate h
    have hdebt : (w'.debt v).toNat + x.toNat = (w.debt v).toNat := (swap_of_liquidate h).debt
    refine ⟨⟨by omega, (factor_lt_of_liquidate h).le⟩, ?_⟩
    rw [liquidations_of_ok h]
    unfold World.margin
    omega

end step

/-- Over any run in which `v` makes no operation, and prices stand, its debt and the danger to it only
fall, and every liquidation costs it at most the debt paid, a tenth, and one. -/
theorem passive_loss {w₀ : World} {as : List Action} {v : Address} (hr : Reachable w₀)
    (hrun : Along exec (Passive v) w₀ as) :
    let w := run exec w₀ as
    (w.debt v).toNat ≤ (w₀.debt v).toNat ∧ w₀.factor v ≤ w.factor v ∧
      10 * w₀.collateralValue v ≤ 10 * w.collateralValue v +
        11 * ((w₀.debt v).toNat - (w.debt v).toNat) + 10 * tally exec (liquidations v) w₀ as := by
  intro w
  have hsteps := (hrun.inv hr.inv fun _ _ hi ha => hi.exec ha.legal).2
  have hno : w₀.NoWorse w v := hsteps.rel (R := fun s s' => s.NoWorse s' v) (fun s => ⟨le_rfl, le_rfl⟩)
    fun s a s' ⟨hi, ha⟩ => (hi.noWorse_exec ha).1.trans
  have hsum : w₀.margin v ≤ w.margin v + 10 * tally exec (liquidations v) w₀ as :=
    hsteps.le_add_mul_tally (m := fun s => s.margin v) fun s a ⟨hi, ha⟩ => (hi.noWorse_exec ha).2
  have hdebt := hno.debt
  refine ⟨hdebt, hno.factor, ?_⟩
  unfold World.margin at hsum
  omega

/-- Two liquidations of account 7 pay 1000 of its 1500 dollars of debt. -/
theorem passive_loss_inParts :
    tally exec (liquidations 7) Anvil.wethFalls Anvil.inParts = 2 ∧
      Anvil.wethFalls.factor 7 ≤ (run exec Anvil.wethFalls Anvil.inParts).factor 7 :=
  ⟨by decide +kernel, (passive_loss (v := 7) (Anvil.reachable (by decide +kernel))
    (show Along exec (Passive 7) Anvil.wethFalls Anvil.inParts by decide +kernel)).2.1⟩

end Busc
