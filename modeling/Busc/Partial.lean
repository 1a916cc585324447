import Busc.Conversion

/-!
# Liquidation in part

`liquidate` looks at a health factor that is rounded down twice, and only asks that it rises. That is
enough: what is seized is never worth more than the debt paid and a tenth, whatever the decimals of the
token, and a position that covers its debt still covers it afterwards. With fewer than 18 decimals the
check lets nothing be seized at all; with 18 it is the position's ratio that decides, at 110 percent
up to rounding.
-/

namespace Busc
open Solidity Machine BUSCmotor Cdp Floor

section floors
variable {C C' D x e : Nat}

/-- What is left after a margin above 110 percent raises the rounded ratio. -/
theorem gap_of_margin (hx : x ≤ D) (hC : 10 * C ≤ 10 * C' + 11 * x + 10)
    (h : 20 * (D : Int) * (e + D) ≤ x * (10 * C - 11 * D) * e) :
    C / 2 * (D - x) * e + D * (D - x) ≤ C' / 2 * D * e := by
  obtain ⟨y, rfl⟩ := Nat.exists_eq_add_of_le hx
  rw [Nat.add_sub_cancel_left]
  have hh : 2 * (C / 2) ≤ C := by omega
  have hh' : C' ≤ 2 * (C' / 2) + 1 := by omega
  generalize C / 2 = a at hh ⊢
  generalize C' / 2 = b at hh' ⊢
  push_cast at h
  have h1 := Nat.mul_le_mul_right (10 * (y * e)) hh
  have h2 := Nat.mul_le_mul_right (10 * ((x + y) * e)) hh'
  have h3 := Nat.mul_le_mul_right ((x + y) * e) hC
  have h4 : 0 ≤ 20 * ((x + y) * x) := Nat.zero_le _
  zify at h1 h2 h3 h4 ⊢
  linarith

/-- Collateral short of 110 percent by a margin loses more than its share. -/
theorem share_lt_of_shortfall {P v : Nat} (he : 0 < e)
    (hlow : 11 * x * e < 10 * (v + 1) * e + 20 * P)
    (h : 20 * (D : Int) * (e + P) ≤ x * (11 * D - 10 * C) * e) : C * x + D ≤ v * D := by
  refine Nat.le_of_mul_le_mul_right (c := 10 * e) ?_ (by omega)
  have h1 := Nat.mul_le_mul_right D hlow.le
  zify at h1 ⊢
  linarith

end floors

namespace World
variable {w w' : World} {t u : Address} {x : Nat}

theorem factor_of_debt (h : (w.debt u).toNat ≠ 0) :
    w.factor u = w.collateralValue u / 2 * 10 ^ 18 / (w.debt u).toNat := by
  unfold factor healthFactor
  rw [if_neg h, show w.collateralValue u * 50 / 100 = w.collateralValue u / 2 by omega]

theorem improves_of_factor_lt (hf : w.Frame w') (h0 : (w.debt u).toNat ≠ 0)
    (h0' : (w'.debt u).toNat ≠ 0) (h : w.factor u < w'.factor u) :
    w.book.Improves w'.book w.market u := by
  rw [factor_of_debt h0, factor_of_debt h0'] at h
  show w.collateralValue u / 2 * (w'.debt u).toNat < w'.book.collateral w.market u / 2 * (w.debt u).toNat
  rw [← hf.market]
  exact mul_lt_mul_of_div_lt (Nat.pos_of_ne_zero h0) h

/-- With fewer decimals, what is seized is worth a multiple of what is paid. -/
theorem le_value_seized_of_decimals (hd : (w.decimals t).toNat < 18) (hp : 0 < w.price t)
    (hq : 0 < w.tokenAmount t x) : 4 * x ≤ w.valueInUSD t (w.seized t x) := by
  have h1 := w.lt_tokenAmount_succ_mul t x hp
  have h2 := w.tokenAmount_le_seized t x
  have h3 : w.tokenAmount t x * 10 ≤ w.scaled t (w.seized t x) :=
    Nat.mul_le_mul h2 (Nat.le_self_pow (by omega) 10)
  refine (Nat.le_div_iff_mul_le (by decide)).2 ?_
  calc 4 * x * 10 ^ 18 = 4 * (x * 10 ^ 18) := by ring
    _ ≤ 4 * ((w.tokenAmount t x + 1) * (w.price t * 10 ^ 10)) := by omega
    _ ≤ 4 * (2 * w.tokenAmount t x * (w.price t * 10 ^ 10)) :=
      Nat.mul_le_mul_left 4 (Nat.mul_le_mul_right _ (by omega))
    _ = w.price t * 10 ^ 10 * (w.tokenAmount t x * 8) := by ring
    _ ≤ w.price t * 10 ^ 10 * (w.tokenAmount t x * 10) := by gcongr; decide
    _ ≤ w.price t * 10 ^ 10 * w.scaled t (w.seized t x) := Nat.mul_le_mul_left _ h3

/-- With 18, it is worth the debt and a tenth, less two units and a rounding. -/
theorem lt_value_seized (hd : (w.decimals t).toNat = 18) (hp : 0 < w.price t) :
    11 * x * 10 ^ 18 <
      10 * (w.valueInUSD t (w.seized t x) + 1) * 10 ^ 18 + 20 * (w.price t * 10 ^ 10) := by
  have h1 := w.lt_tokenAmount_succ_mul t x hp
  have h2 : 11 * (w.tokenAmount t x + 1) ≤ 10 * w.seized t x + 20 := by
    unfold seized
    omega
  have h3 := w.lt_valueInUSD_succ_mul t (w.seized t x)
  rw [scaled_of_decimals hd] at h3
  have h4 := Nat.mul_le_mul_right (w.price t * 10 ^ 10) h2
  linarith

end World

section calls
variable {w w' : World} {t u l : Address} {x : UInt256}

theorem frame_of_liquidate (h : liquidate .exact l t u x w = .ok w') : w.Frame w' :=
  MotorOp.call_frame (show (MotorOp.liquidate t u x).call .exact l w = .ok w' from h)

theorem below_of_liquidate (h : liquidate .exact l t u x w = .ok w') :
    (w.debt u).toNat ≠ 0 ∧ w.collateralValue u < 2 * (w.debt u).toNat := by
  obtain ⟨-, -, -, -, hunsafe, -⟩ := liquidate_eq_ok.1 h
  rw [World.Healthy, not_or, Nat.not_le] at hunsafe
  exact hunsafe

theorem factor_lt_of_liquidate (h : liquidate .exact l t u x w = .ok w') :
    w.factor u < w'.factor u := by
  obtain ⟨-, -, -, -, -, -, s, -, hp, hb, -, hup, -, rfl⟩ := liquidate_eq_ok.1 h
  exact hup

/-- What the health check at the end says of an account that still owes. -/
theorem improves_of_liquidate (h : liquidate .exact l t u x w = .ok w') :
    (w'.debt u).toNat = 0 ∨ w.book.Improves w'.book w.market u := by
  by_cases h0 : (w'.debt u).toNat = 0
  · exact .inl h0
  · exact .inr (World.improves_of_factor_lt (frame_of_liquidate h) (below_of_liquidate h).1 h0
      (factor_lt_of_liquidate h))

/-- With fewer than 18 decimals, the health check lets nothing be seized. -/
theorem tokenAmount_eq_zero_of_liquidate (ht : t ∈ w.motor.collateralTokens)
    (hd : (w.decimals t).toNat < 18) (h : liquidate .exact l t u x w = .ok w') :
    w.tokenAmount t x.toNat = 0 := by
  obtain ⟨hx, -, -, -, -, hcv, -⟩ := liquidate_eq_ok.1 h
  obtain ⟨hD, hlow⟩ := below_of_liquidate h
  have hxpos := toNat_pos_of_ne hx
  by_contra hq
  have hval := World.le_value_seized_of_decimals hd hcv.pos (Nat.pos_of_ne_zero hq)
  refine (swap_of_liquidate h).not_improves (m := w.market) ht (Nat.pos_of_ne_zero hD) ?_
    (improves_of_liquidate h)
  show w.collateralValue u * x.toNat + (w.debt u).toNat ≤
    w.valueInUSD t (w.seized t x.toNat) * (w.debt u).toNat
  calc w.collateralValue u * x.toNat + (w.debt u).toNat
      ≤ 2 * (w.debt u).toNat * x.toNat + 2 * (w.debt u).toNat * x.toNat := by
        refine Nat.add_le_add (Nat.mul_le_mul_right _ hlow.le) ?_
        rw [Nat.mul_comm 2, Nat.mul_assoc]
        exact Nat.le_mul_of_pos_right _ (by omega)
    _ = 4 * x.toNat * (w.debt u).toNat := by ring
    _ ≤ _ := Nat.mul_le_mul_right _ hval

/-- A liquidator gets at most the debt paid and ten percent, for any decimals. -/
theorem bonus_cap (ht : t ∈ w.motor.collateralTokens) (h : liquidate .exact l t u x w = .ok w') :
    ∃ v, getValueInUSD t (w.deposit u t - w'.deposit u t) w = .ok v ∧ 10 * v.toNat ≤ 11 * x.toNat := by
  obtain ⟨-, -, -, hV, -⟩ := liquidate_eq_ok.1 h
  have hquote := hV.quotable t ht
  have hdep : (w'.deposit u t).toNat + w.seized t x.toNat = (w.deposit u t).toNat :=
    (swap_of_liquidate h).deposit
  have hs : (w.deposit u t - w'.deposit u t).toNat = w.seized t x.toNat := by
    rw [toNat_sub_of_le (BitVec.le_def.2 (by omega))]
    omega
  obtain ⟨v, hv, hok⟩ := World.Quotable.exists_value (a := w.deposit u t - w'.deposit u t)
    (hquote.mono (by omega))
  refine ⟨v, hok, ?_⟩
  rw [hv, hs]
  rcases Nat.lt_or_ge (w.decimals t).toNat 18 with hd | hd
  · have hzero : w.seized t x.toNat = 0 := by
      unfold World.seized
      rw [tokenAmount_eq_zero_of_liquidate ht hd h]
    rw [hzero, show w.valueInUSD t 0 = 0 from w.market.value_zero t]
    omega
  · exact World.value_seized_le (le_antisymm hquote.decimals hd)

/-- 500 dollars of a debt are paid in WETH, and less than the price of one unit of 18 decimals in
WBTC. -/
theorem bonus_cap_anvil :
    (∃ w', liquidate .exact 8 1 7 500000000000000000000 Anvil.wethFalls = .ok w' ∧
      ∃ v, getValueInUSD 1 (Anvil.wethFalls.deposit 7 1 - w'.deposit 7 1) Anvil.wethFalls = .ok v ∧
        10 * v.toNat ≤ 11 * (500000000000000000000 : UInt256).toNat) ∧
    ∃ w', liquidate .exact 8 2 7 79999 Anvil.wbtcFalls = .ok w' ∧
      ∃ v, getValueInUSD 2 (Anvil.wbtcFalls.deposit 7 2 - w'.deposit 7 2) Anvil.wbtcFalls = .ok v ∧
        10 * v.toNat ≤ 11 * (79999 : UInt256).toNat := by
  constructor
  · obtain ⟨w', h⟩ := exists_ok (t := liquidate .exact 8 1 7 500000000000000000000 Anvil.wethFalls)
      (by decide +kernel)
    exact ⟨w', h, bonus_cap (.head _) h⟩
  · obtain ⟨w', h⟩ := exists_ok (t := liquidate .exact 8 2 7 79999 Anvil.wbtcFalls) (by decide +kernel)
    exact ⟨w', h, bonus_cap (.tail _ (.head _)) h⟩

/-- Liquidation makes no bad debt. -/
theorem liquidate_covers (h : liquidate .exact l t u x w = .ok w')
    (hc : (w.debt u).toNat ≤ w.collateralValue u) :
    (w'.debt u).toNat + x.toNat = (w.debt u).toNat ∧ w'.valueInUSD = w.valueInUSD ∧
      (w'.debt u).toNat ≤ w'.collateralValue u := by
  have hf := frame_of_liquidate h
  refine ⟨(swap_of_liquidate h).debt, hf.valueInUSD, ?_⟩
  rcases improves_of_liquidate h with h0 | himp
  · omega
  · have hle := (swap_of_liquidate h).covers himp hc
    rw [← hf.market] at hle
    exact hle

theorem liquidate_covers_weth : ∃ w',
    liquidate .exact 8 1 7 500000000000000000000 Anvil.wethFalls = .ok w' ∧
      (w'.debt 7).toNat ≤ w'.collateralValue 7 := by
  obtain ⟨w', h⟩ := exists_ok (t := liquidate .exact 8 1 7 500000000000000000000 Anvil.wethFalls)
    (by decide +kernel)
  exact ⟨w', h, (liquidate_covers h (by decide +kernel)).2.2⟩

/-! ### The break-even with 18 decimals -/

/-- Taking what a liquidation seizes costs the account at most the debt, a tenth, and one. -/
theorem Inv.le_valueLeft (hi : Inv w) (hl : l ≠ 0) (ht : t ∈ w.motor.collateralTokens)
    (hd : (w.decimals t).toNat = 18) (hle : w.seized t x.toNat ≤ (w.deposit u t).toNat) :
    10 * w.collateralValue u ≤
      10 * w.valueLeft u t (w.seized t x.toNat) + 11 * x.toNat + 10 := by
  obtain ⟨s, hs⟩ := exists_toNat (hle.trans_lt (w.deposit u t).isLt)
  have hp : w.CanPull u l t s := hi.canPull hl (BitVec.le_def.2 (hs.trans_le hle))
  have hsum : (w.pulled hp).book.collateral w.market u + w.valueInUSD t (w.deposit u t).toNat =
      w.collateralValue u + w.valueInUSD t ((w.pulled hp).deposit u t).toNat :=
    (World.swap_pulled hp).collateral_add (m := w.market) hi.nodup ht
  rw [← (World.frame_pulled hp).market] at hsum
  have hleft : (w.pulled hp).book.collateral (w.pulled hp).market u =
      w.valueLeft u t (w.seized t x.toNat) := (World.collateralValue_pulled hp).trans (by rw [hs])
  have hdep : ((w.pulled hp).deposit u t).toNat + s.toNat = (w.deposit u t).toNat :=
    (World.swap_pulled hp).deposit
  have hval := World.value_seized_le (D := x.toNat) hd
  have hsplit := (rate_splits (n := w.price t * 10 ^ 10) (m := 10 ^ 18)).le_add
    ((w.pulled hp).deposit u t).toNat s.toNat
  have hrate (a : Nat) : rate (w.price t * 10 ^ 10) (10 ^ 18) a = w.valueInUSD t a := by
    rw [World.valueInUSD_eq_rate, World.scaled_of_decimals hd]
  rw [hdep, hrate, hrate, hrate, hs] at hsplit
  omega

/-- Above 110 percent by a margin, any healthy account with the BUSC at hand can pay a part. -/
theorem Inv.liquidates_of_margin (hi : Inv w) (ht : t ∈ w.motor.collateralTokens)
    (hd : (w.decimals t).toNat = 18) (hp : 0 < w.price t)
    (hlow : w.collateralValue u < 2 * (w.debt u).toNat) (hV : w.Valued u)
    (husd : x.toNat * 10 ^ 18 < 2 ^ 256) (hlt : x.toNat < (w.debt u).toNat)
    (hle : w.seized t x.toNat ≤ (w.deposit u t).toNat)
    (hmargin : 20 * ((w.debt u).toNat : Int) * (10 ^ 18 + (w.debt u).toNat) ≤
      x.toNat * (10 * w.collateralValue u - 11 * (w.debt u).toNat) * 10 ^ 18)
    (hne : l ≠ u) (hl : w.Checked l) (hfunds : x ≤ (w.erc20 w.motor.iBUSC).balances l)
    (happr : x ≤ (w.erc20 w.motor.iBUSC).allowances l w.self) :
    ∃ w', liquidate .exact l t u x w = .ok w' := by
  have hD : 0 < (w.debt u).toNat := by omega
  have hx : x ≠ 0 := by
    refine ne_zero_of_toNat_pos (Nat.pos_of_ne_zero fun h0 => ?_)
    rw [h0, Nat.cast_zero, zero_mul, zero_mul] at hmargin
    exact absurd hmargin (not_le.2 (by positivity))
  obtain ⟨hl0, -⟩ := hi.payer_ne hx hfunds happr
  have hquote := hV.quotable t ht
  have hunsafe : ¬ w.Healthy u := by
    unfold World.Healthy
    omega
  have hup : w.factor u < healthFactor ((w.debt u).toNat - x.toNat)
      (w.valueLeft u t (w.seized t x.toNat)) := by
    have hleft := hi.le_valueLeft hl0 ht hd hle
    have hgap := gap_of_margin hlt.le hleft (by exact_mod_cast hmargin)
    rw [World.factor_of_debt (by omega), healthFactor, if_neg (by omega),
      show ∀ c, c * 50 / 100 = c / 2 by intro c; omega]
    exact div_lt_div_of_gap hD (by omega) hgap
  exact (hi.liquidate_iff hx hne hl hfunds happr hV).2 ⟨(hi.listed t).2 ht, hunsafe,
    ⟨hquote.fresh, husd, hquote.price, hp⟩, BitVec.le_def.2 hlt.le, hle, hup⟩

/-- Below 110 percent by a margin, nobody can. -/
theorem reverts_of_shortfall (ht : t ∈ w.motor.collateralTokens)
    (hd : (w.decimals t).toNat = 18) (hp : 0 < w.price t) (hD : 0 < (w.debt u).toNat)
    (hshort : 20 * ((w.debt u).toNat : Int) * (10 ^ 18 + w.price t * 10 ^ 10) ≤
      x.toNat * (11 * (w.debt u).toNat - 10 * w.collateralValue u) * 10 ^ 18) :
    ∃ e, liquidate .exact l t u x w = .error e := by
  cases h : liquidate .exact l t u x w with
  | error e => exact ⟨e, rfl⟩
  | ok w' =>
    have hshare := share_lt_of_shortfall (by decide) (World.lt_value_seized hd hp)
      (by exact_mod_cast hshort)
    exact absurd (improves_of_liquidate h)
      ((swap_of_liquidate h).not_improves (m := w.market) ht hD hshare)

/-- A part `x` of the debt of an unhealthy account can be paid off in a token of 18 decimals, by any
healthy account that has it, when the position is above 110 percent by a margin, and by nobody when
it is below by a margin. -/
theorem partial_liquidation (hr : Reachable w) (ht : t ∈ w.motor.collateralTokens)
    (hd : (w.decimals t).toNat = 18) (hp : 0 < w.price t)
    (hlow : w.collateralValue u < 2 * (w.debt u).toNat) :
    (w.Valued u → x.toNat * 10 ^ 18 < 2 ^ 256 → x.toNat < (w.debt u).toNat →
      w.seized t x.toNat ≤ (w.deposit u t).toNat →
      20 * ((w.debt u).toNat : Int) * (10 ^ 18 + (w.debt u).toNat) ≤
        x.toNat * (10 * w.collateralValue u - 11 * (w.debt u).toNat) * 10 ^ 18 →
      l ≠ u → w.Checked l → x ≤ (w.erc20 w.motor.iBUSC).balances l →
      x ≤ (w.erc20 w.motor.iBUSC).allowances l w.self →
        ∃ w', liquidate .exact l t u x w = .ok w' ∧ Seizure l t u x w w' ∧
          (w'.deposit u t).toNat + w.seized t x.toNat = (w.deposit u t).toNat) ∧
    (0 < x.toNat → 20 * ((w.debt u).toNat : Int) * (10 ^ 18 + w.price t * 10 ^ 10) ≤
        x.toNat * (11 * (w.debt u).toNat - 10 * w.collateralValue u) * 10 ^ 18 →
      ∃ e, liquidate .exact l t u x w = .error e) := by
  refine ⟨fun hV husd hlt hle hmargin hne hl hfunds happr => ?_,
    fun _ => reverts_of_shortfall ht hd hp (by omega)⟩
  obtain ⟨w', hok⟩ :=
    hr.inv.liquidates_of_margin ht hd hp hlow hV husd hlt hle hmargin hne hl hfunds happr
  exact ⟨w', hok, seizure_of_liquidate hr.inv hok, (swap_of_liquidate hok).deposit⟩

/-- The price of WETH falls on to 1600, and the position of account 7 to 107 percent. -/
def Anvil.wethCrashes : World :=
  exec wethFalls (.updateFeed 3 (HelperConfig.mockRound 1 160000000000))

/-- At 167 percent 500 of the 1500 dollars of debt can be paid, at 107 percent 1000 cannot. -/
theorem partial_liquidation_weth :
    (∃ w', liquidate .exact 8 1 7 500000000000000000000 Anvil.wethFalls = .ok w' ∧
      (w'.deposit 7 1).toNat + 220000000000000000 = 1000000000000000000) ∧
    ∃ e, liquidate .exact 8 1 7 1000000000000000000000 Anvil.wethCrashes = .error e := by
  have hfalls : Reachable Anvil.wethFalls := Anvil.reachable (by decide +kernel)
  have hfall : Along exec Legal Anvil.wethFalls
      [.updateFeed 3 (HelperConfig.mockRound 1 160000000000)] := ⟨trivial, trivial⟩
  have hcrash : Reachable Anvil.wethCrashes := hfalls.run hfall
  constructor
  · obtain ⟨w', hok, -, hdep⟩ :=
      (partial_liquidation (u := 7) (l := 8) (x := 500000000000000000000) hfalls (.head _) rfl
        (by decide +kernel) (by decide +kernel)).1
        (by decide +kernel) (by decide) (by decide +kernel) (by decide +kernel) (by decide +kernel)
        (by decide) (by decide +kernel) (by decide +kernel) (by decide +kernel)
    have hseized : Anvil.wethFalls.seized 1 (500000000000000000000 : UInt256).toNat =
        220000000000000000 := by decide +kernel
    have hheld : (Anvil.wethFalls.deposit 7 1).toNat = 1000000000000000000 := by decide +kernel
    rw [hseized, hheld] at hdep
    exact ⟨w', hok, hdep⟩
  · exact (partial_liquidation hcrash (.head _) rfl (by decide +kernel) (by decide +kernel)).2
      (by decide) (by decide +kernel)

end calls

end Busc
