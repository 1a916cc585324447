import Busc.Isolation
import Busc.Lib.Floor
import Mathlib.Tactic.Linarith
import Mathlib.Tactic.Ring

/-!
# Liquidation in full

`getTokenAmountFromUSDwei` converts dollars to units of 18 decimals, `_getValueInUSD` converts native
units to dollars, and `liquidate` takes the amount the first one gives out of a deposit in native
units. For a token of 18 decimals the units agree, and a position above 110 percent can be liquidated
in full. For a token of fewer decimals the amount to seize exceeds the whole deposit, and the
subtraction reverts.
-/

namespace Busc
open Solidity WordMap Machine BUSCmotor Floor

namespace World
variable (w : World) (t : Address) (x : Nat)

/-! ### The floors -/

theorem tokenAmount_eq_rate : w.tokenAmount t x = rate (10 ^ 18) (w.price t * 10 ^ 10) x := rfl

theorem valueInUSD_eq_rate (a : Nat) :
    w.valueInUSD t a = rate (w.price t * 10 ^ 10) (10 ^ 18) (w.scaled t a) := by
  unfold valueInUSD rate
  rw [Nat.mul_comm]

theorem tokenAmount_mul_le : w.tokenAmount t x * (w.price t * 10 ^ 10) ≤ x * 10 ^ 18 :=
  rate_mul_le _ _ _

theorem lt_tokenAmount_succ_mul (hp : 0 < w.price t) :
    x * 10 ^ 18 < (w.tokenAmount t x + 1) * (w.price t * 10 ^ 10) :=
  lt_rate_succ_mul x (by omega)

theorem tokenAmount_le_seized : w.tokenAmount t x ≤ w.seized t x := Nat.le_add_right _ _

theorem seized_le : 10 * w.seized t x ≤ 11 * w.tokenAmount t x := by
  unfold seized; omega

theorem valueInUSD_mul_le (a : Nat) :
    w.valueInUSD t a * 10 ^ 18 ≤ w.price t * 10 ^ 10 * w.scaled t a := by
  rw [valueInUSD_eq_rate, Nat.mul_comm (w.price t * 10 ^ 10)]
  exact rate_mul_le _ _ _

theorem lt_valueInUSD_succ_mul (a : Nat) :
    w.price t * 10 ^ 10 * w.scaled t a < (w.valueInUSD t a + 1) * 10 ^ 18 := by
  rw [valueInUSD_eq_rate, Nat.mul_comm (w.price t * 10 ^ 10)]
  exact lt_rate_succ_mul _ (by decide)

variable {w t x} {D : Nat}

theorem scaled_of_decimals (hd : (w.decimals t).toNat = 18) (a : Nat) : w.scaled t a = a := by
  unfold scaled; rw [hd]; exact Nat.mul_one a

/-- With 18 decimals, collateral above 110 percent holds what is to be seized. -/
theorem seized_le_of_decimals (hd : (w.decimals t).toNat = 18) (hp : 0 < w.price t) {a : Nat}
    (h : 11 * D ≤ 10 * w.valueInUSD t a) : w.seized t D ≤ a := by
  have h1 := w.tokenAmount_mul_le t D
  have h2 := w.seized_le t D
  have h3 := w.valueInUSD_mul_le t a
  rw [scaled_of_decimals hd] at h3
  refine Nat.le_of_mul_le_mul_right (c := 10 * (w.price t * 10 ^ 10)) ?_ (by omega)
  calc w.seized t D * (10 * (w.price t * 10 ^ 10))
      = 10 * w.seized t D * (w.price t * 10 ^ 10) := by ring
    _ ≤ 11 * w.tokenAmount t D * (w.price t * 10 ^ 10) := Nat.mul_le_mul_right _ h2
    _ = 11 * (w.tokenAmount t D * (w.price t * 10 ^ 10)) := by ring
    _ ≤ 11 * D * 10 ^ 18 := by omega
    _ ≤ 10 * w.valueInUSD t a * 10 ^ 18 := Nat.mul_le_mul_right _ h
    _ ≤ a * (10 * (w.price t * 10 ^ 10)) := by linarith

/-- With fewer decimals, collateral below 200 percent does not. -/
theorem lt_seized_of_decimals (hd : (w.decimals t).toNat < 18) (hp : 0 < w.price t) {a : Nat}
    (ha : 0 < a) (h : w.valueInUSD t a < 2 * D) : a < w.seized t D := by
  have h1 := w.lt_tokenAmount_succ_mul t D hp
  have h2 := w.tokenAmount_le_seized t D
  have h3 := w.lt_valueInUSD_succ_mul t a
  have hscale : a * 10 ≤ w.scaled t a :=
    Nat.mul_le_mul_left a (Nat.le_self_pow (by omega) 10)
  have hlt : 5 * a < w.tokenAmount t D + 1 := by
    refine Nat.lt_of_mul_lt_mul_right (a := 2 * (w.price t * 10 ^ 10)) ?_
    calc 5 * a * (2 * (w.price t * 10 ^ 10)) = w.price t * 10 ^ 10 * (a * 10) := by ring
      _ ≤ w.price t * 10 ^ 10 * w.scaled t a := Nat.mul_le_mul_left _ hscale
      _ < (w.valueInUSD t a + 1) * 10 ^ 18 := h3
      _ ≤ 2 * D * 10 ^ 18 := Nat.mul_le_mul_right _ h
      _ ≤ (w.tokenAmount t D + 1) * (2 * (w.price t * 10 ^ 10)) := by linarith
  omega

theorem value_seized_le (hd : (w.decimals t).toNat = 18) :
    10 * w.valueInUSD t (w.seized t D) ≤ 11 * D := by
  have h1 := w.tokenAmount_mul_le t D
  have h2 := w.seized_le t D
  have h3 := w.valueInUSD_mul_le t (w.seized t D)
  rw [scaled_of_decimals hd] at h3
  refine Nat.le_of_mul_le_mul_right (c := 10 ^ 18) ?_ (by decide)
  calc 10 * w.valueInUSD t (w.seized t D) * 10 ^ 18
      ≤ 10 * w.seized t D * (w.price t * 10 ^ 10) := by linarith
    _ ≤ 11 * w.tokenAmount t D * (w.price t * 10 ^ 10) := Nat.mul_le_mul_right _ h2
    _ ≤ 11 * D * 10 ^ 18 := by linarith

theorem le_value_seized (hd : (w.decimals t).toNat = 18) (hp : 0 < w.price t) :
    D ≤ w.valueInUSD t (w.seized t D) + w.valueInUSD t 2 + 1 := by
  have h1 := w.lt_tokenAmount_succ_mul t D hp
  have h2 := w.tokenAmount_le_seized t D
  have h3 := w.lt_valueInUSD_succ_mul t (w.seized t D)
  have h4 := w.lt_valueInUSD_succ_mul t 2
  rw [scaled_of_decimals hd] at h3 h4
  refine Nat.le_of_lt_succ (Nat.lt_of_mul_lt_mul_right (a := 10 ^ 18) ?_)
  calc D * 10 ^ 18 < (w.tokenAmount t D + 1) * (w.price t * 10 ^ 10) := h1
    _ ≤ (w.seized t D + 2) * (w.price t * 10 ^ 10) := Nat.mul_le_mul_right _ (by omega)
    _ ≤ (w.valueInUSD t (w.seized t D) + w.valueInUSD t 2 + 1).succ * 10 ^ 18 := by
      rw [Nat.succ_eq_add_one]; linarith

/-! ### The account before and after -/

variable {w' : World} {u : Address}

theorem Quotable.mono {a b : Nat} (h : w.Quotable t a) (hle : b ≤ a) : w.Quotable t b := by
  have hs : w.scaled t b ≤ w.scaled t a := Nat.mul_le_mul_right _ hle
  exact ⟨h.fresh, h.decimals, hs.trans_lt h.scaled, h.price,
    (Nat.mul_le_mul_left _ hs).trans_lt h.value⟩

theorem Frame.collateralValue_le (hf : w.Frame w')
    (hle : ∀ t, (w'.deposit u t).toNat ≤ (w.deposit u t).toNat) :
    w'.collateralValue u ≤ w.collateralValue u := by
  have hmono : w'.book.collateral w.market u ≤ w.book.collateral w.market u :=
    Cdp.Book.collateral_mono fun t _ => hle t
  rw [← hf.market] at hmono
  exact hmono.trans_eq (congrArg (fun m => w.book.collateral m u) hf.market)

/-- An account that can be valued still can with less collateral. -/
theorem Valued.of_le (h : w.Valued u) (hf : w.Frame w')
    (hle : ∀ t, (w'.deposit u t).toNat ≤ (w.deposit u t).toNat)
    (h0 : w.debt u = 0 → w'.debt u = 0) : w'.Valued u := by
  have hc := hf.collateralValue_le hle
  refine ⟨fun t ht => hf.quotable.2 ((h.quotable t (hf.collateralTokens ▸ ht)).mono (hle t)),
    hc.trans_lt h.total, h.factor.imp h0 fun ⟨h1, h2⟩ => ⟨?_, ?_⟩⟩
  · exact (Nat.mul_le_mul_right _ hc).trans_lt h1
  · exact (Nat.mul_le_mul_right _ (Nat.div_le_div_right (Nat.mul_le_mul_right _ hc))).trans_lt h2

/-- What the collateral of `user` is worth once `amount` of `token` is taken from it. -/
def valueLeft (w : World) (user token : Address) (amount : Nat) : Nat :=
  (w.motor.collateralTokens.map fun t =>
    w.valueInUSD t ((w.deposit user t).toNat - if t = token then amount else 0)).sum

theorem collateralValue_pulled {s : UInt256} {l : Address} (h : w.CanPull u l t s) :
    (w.pulled h).collateralValue u = w.valueLeft u t s.toNat := by
  unfold collateralValue valueLeft
  rw [(frame_pulled h).valueInUSD]
  refine congrArg List.sum (List.map_congr_left fun t' _ => ?_)
  rw [deposit_pulled]
  split_ifs with h1 h2 h2
  · rw [toNat_sub_of_le h.deposit, h2]
  · exact absurd h1.2 h2
  · exact absurd ⟨rfl, h2⟩ h1
  · rfl

theorem deposit_pulled_le {a : UInt256} {l : Address} (h : w.CanPull u l t a) (v t' : Address) :
    ((w.pulled h).deposit v t').toNat ≤ (w.deposit v t').toNat := by
  rw [deposit_pulled]
  split
  · next e => rw [toNat_sub_of_le h.deposit, e.1, e.2]; exact Nat.sub_le _ _
  · exact le_rfl

theorem collateralValue_of_only (hnd : w.motor.collateralTokens.Nodup)
    (ht : t ∈ w.motor.collateralTokens) (honly : ∀ t', t' ≠ t → w.deposit u t' = 0) :
    w.collateralValue u = w.valueInUSD t (w.deposit u t).toNat := by
  have hzero (l : List Address) (hl : t ∉ l) :
      (l.map fun t => w.valueInUSD t (w.deposit u t).toNat).sum = 0 := by
    refine List.sum_eq_zero fun x hx => ?_
    obtain ⟨t', ht', rfl⟩ := List.mem_map.1 hx
    rw [honly t' fun e => hl (e ▸ ht')]
    exact w.market.value_zero t'
  unfold collateralValue
  obtain ⟨l₁, l₂, hl⟩ := List.append_of_mem ht
  rw [hl] at hnd ⊢
  obtain ⟨-, h2, hdisj⟩ := List.nodup_append.1 hnd
  rw [List.map_append, List.sum_append, List.map_cons, List.sum_cons,
    hzero l₁ fun h => hdisj t h t List.mem_cons_self rfl, hzero l₂ (List.nodup_cons.1 h2).1]
  omega

/-- A user whose only collateral is `token` is unhealthy but above 110 percent, and a healthy
liquidator can pay the whole debt. That the two accounts can be valued says that the feeds are fresh
and that no amount overflows. -/
structure Liquidatable (w : World) (token user liquidator : Address) : Prop where
  listed : token ∈ w.motor.collateralTokens
  valued : w.Valued user
  only : ∀ t, t ≠ token → w.deposit user t = 0
  debt : 0 < (w.debt user).toNat
  above : 11 * (w.debt user).toNat ≤ 10 * w.collateralValue user
  below : w.collateralValue user < 2 * (w.debt user).toNat
  usd : (w.debt user).toNat * 10 ^ 18 < 2 ^ 256
  ne : liquidator ≠ user
  checked : w.Checked liquidator
  funds : w.debt user ≤ (w.erc20 w.motor.iBUSC).balances liquidator
  approved : w.debt user ≤ (w.erc20 w.motor.iBUSC).allowances liquidator w.self

/-- The debt is gone and the liquidator holds more of the token, worth the debt up to rounding and
at most a tenth above it. -/
structure LiquidatedInFull (w w' : World) (token user liquidator : Address) : Prop where
  debt : w'.debt user = 0
  payout : ∃ s, ((w'.erc20 token).balances liquidator).toNat =
      ((w.erc20 token).balances liquidator).toNat + s ∧
    10 * w.valueInUSD token s ≤ 11 * (w.debt user).toNat ∧
    (w.debt user).toNat ≤ w.valueInUSD token s + w.valueInUSD token 2 + 1

end World

/-! ### When a liquidation goes through -/

section calls
variable {w w' : World} {t u l : Address} {x : UInt256}

theorem swap_of_liquidate (h : liquidate .exact l t u x w = .ok w') :
    w.book.Swap w'.book u t (w.seized t x.toNat) x.toNat := by
  obtain ⟨-, -, -, -, -, -, s, hs, hp, hb, -, -, -, rfl⟩ := liquidate_eq_ok.1 h
  exact hs ▸ World.swap_burned hp hb

/-- Whoever holds BUSC and has approved the motor is neither the motor nor nobody. -/
theorem Inv.payer_ne (hi : Inv w) (hx : x ≠ 0) (hfunds : x ≤ (w.erc20 w.motor.iBUSC).balances l)
    (happr : x ≤ (w.erc20 w.motor.iBUSC).allowances l w.self) : l ≠ 0 ∧ l ≠ w.self := by
  constructor
  · rintro rfl
    rw [hi.busc_zero] at hfunds
    exact hx (BitVec.le_zero_iff.1 hfunds)
  · rintro rfl
    rw [hi.closed] at happr
    exact hx (BitVec.le_zero_iff.1 happr)

/-- For a healthy liquidator with the BUSC at hand, what is left to fail is the user's side. -/
theorem Inv.liquidate_iff (hi : Inv w) (hx : x ≠ 0) (hne : l ≠ u) (hl : w.Checked l)
    (hfunds : x ≤ (w.erc20 w.motor.iBUSC).balances l)
    (happr : x ≤ (w.erc20 w.motor.iBUSC).allowances l w.self) (hV : w.Valued u) :
    (∃ w', liquidate .exact l t u x w = .ok w') ↔
      w.Listed t ∧ ¬ w.Healthy u ∧ w.Convertible t x.toNat ∧ x ≤ w.debt u ∧
        w.seized t x.toNat ≤ (w.deposit u t).toNat ∧
          w.factor u < healthFactor ((w.debt u).toNat - x.toNat)
            (w.valueLeft u t (w.seized t x.toNat)) := by
  obtain ⟨hl0, -⟩ := hi.payer_ne hx hfunds happr
  have hfactor {s : UInt256} (hs : s.toNat = w.seized t x.toNat) (hp : w.CanPull u l t s)
      (hb : (w.pulled hp).CanBurn u l x) : ((w.pulled hp).burned hb).factor u =
        healthFactor ((w.debt u).toNat - x.toNat) (w.valueLeft u t (w.seized t x.toNat)) := by
    unfold World.factor
    rw [(World.frame_burned hb).collateralValue (World.deposit_burned hb ▸ rfl),
      World.collateralValue_pulled, hs, World.debt_burned, if_pos rfl, toNat_sub_of_le hb.debt]
    rfl
  constructor
  · rintro ⟨w', h⟩
    obtain ⟨-, hlisted, -, -, hunsafe, hcv, s, hs, hp, hb, -, hup, -, -⟩ := liquidate_eq_ok.1 h
    exact ⟨hlisted, hunsafe, hcv, hb.debt, hs ▸ BitVec.le_def.1 hp.deposit, hfactor hs hp hb ▸ hup⟩
  · rintro ⟨hlisted, hunsafe, hcv, hdebt, hle, hup⟩
    have htok : t ≠ w.motor.iBUSC := fun e => hi.busc_unlisted (e ▸ hlisted)
    have hlt := (w.deposit u t).isLt
    obtain ⟨s, hs⟩ := exists_toNat (hle.trans_lt hlt)
    have hp : w.CanPull u l t s := hi.canPull hl0 (BitVec.le_def.2 (hs.trans_le hle))
    have hbusc : (w.pulled hp).erc20 (w.pulled hp).motor.iBUSC = w.erc20 w.motor.iBUSC := by
      rw [World.erc20_pulled]; exact if_neg htok.symm
    have hb : (w.pulled hp).CanBurn u l x := {
      debt := hdebt
      allowed := by rw [hbusc]; exact .inr ⟨happr, hl0, hi.self_ne⟩
      payer_ne := hl0
      self_ne := hi.self_ne
      funds := by rw [hbusc]; exact hfunds
      owner := hi.owner
      amount_ne := hx }
    have hf : w.Frame ((w.pulled hp).burned hb) := (World.frame_pulled hp).trans (World.frame_burned hb)
    refine ⟨_, liquidate_eq_ok.2 ⟨hx, hlisted, hi.idle, hV, hunsafe, hcv, s, hs, hp, hb, ?_,
      hfactor hs hp hb ▸ hup, ?_, rfl⟩⟩
    · refine hV.of_le hf (World.deposit_pulled_le hp u) fun h0 => ?_
      rw [World.debt_burned, if_pos rfl]
      exact sub_eq_zero_of_le h0 hdebt
    · have hsame := (World.sameAccount_pulled hp hne).trans (World.sameAccount_burned hb hne)
      exact (hf.checked hsame.deposit hsame.debt).2 hl

end calls

section full
variable {w : World} {t u l : Address}

namespace World.Liquidatable

theorem collateral (h : w.Liquidatable t u l) (hi : Inv w) :
    w.collateralValue u = w.valueInUSD t (w.deposit u t).toNat :=
  collateralValue_of_only hi.nodup h.listed h.only

theorem price_pos (h : w.Liquidatable t u l) (hi : Inv w) : 0 < w.price t := by
  rw [Nat.pos_iff_ne_zero]
  intro h0
  have hzero : w.valueInUSD t (w.deposit u t).toNat = 0 := by
    unfold valueInUSD; rw [h0]; simp
  have hc := h.collateral hi
  have hd := h.debt
  have ha := h.above
  omega

theorem deposit_pos (h : w.Liquidatable t u l) (hi : Inv w) : 0 < (w.deposit u t).toNat := by
  rw [Nat.pos_iff_ne_zero]
  intro h0
  have hc := h.collateral hi
  have hzero : w.valueInUSD t 0 = 0 := w.market.value_zero t
  have hd := h.debt
  have ha := h.above
  rw [h0, hzero] at hc
  omega

theorem convertible (h : w.Liquidatable t u l) (hi : Inv w) : w.Convertible t (w.debt u).toNat :=
  ⟨(h.valued.quotable t h.listed).fresh, h.usd, (h.valued.quotable t h.listed).price, h.price_pos hi⟩

/-- If the deposit holds the amount to seize, the liquidation goes through. -/
theorem liquidates (h : w.Liquidatable t u l) (hi : Inv w)
    (hs : w.seized t (w.debt u).toNat ≤ (w.deposit u t).toNat) :
    ∃ w', liquidate .exact l t u (w.debt u) w = .ok w' ∧ w'.debt u = 0 ∧
      ((w'.erc20 t).balances l).toNat =
        ((w.erc20 t).balances l).toNat + w.seized t (w.debt u).toNat := by
  have hunsafe : ¬ w.Healthy u := by
    have := h.debt
    have := h.below
    unfold Healthy
    omega
  have hup : w.factor u < healthFactor ((w.debt u).toNat - (w.debt u).toNat)
      (w.valueLeft u t (w.seized t (w.debt u).toNat)) := by
    rw [Nat.sub_self, show healthFactor 0 _ = uintMax.toNat from rfl]
    exact (Nat.not_le.1 (healthy_iff.not.1 hunsafe)).trans (by decide)
  obtain ⟨w', hok⟩ := (hi.liquidate_iff (ne_zero_of_toNat_pos h.debt) h.ne h.checked h.funds h.approved
    h.valued).2 ⟨(hi.listed t).2 h.listed, hunsafe, h.convertible hi, BitVec.le_refl _, hs, hup⟩
  have hswap := swap_of_liquidate hok
  have hseize := seizure_of_liquidate hi hok
  have hdebt := hseize.debt
  obtain ⟨s, hs', hpay⟩ := hseize.collateral
  have hdep : (w'.deposit u t).toNat + w.seized t (w.debt u).toNat = (w.deposit u t).toNat := hswap.deposit
  refine ⟨w', hok, BitVec.eq_of_toNat_eq ?_, by omega⟩
  exact Nat.add_right_cancel (hdebt.trans (Nat.zero_add _).symm)

end World.Liquidatable

/-- Such a position is liquidated in full exactly if the token has 18 decimals. -/
theorem liquidated_in_full_iff (hr : Reachable w) (h : w.Liquidatable t u l) :
    (∃ w', liquidate .exact l t u (w.debt u) w = .ok w' ∧ w.LiquidatedInFull w' t u l) ↔
      (w.decimals t).toNat = 18 := by
  have hi := hr.inv
  have hp := h.price_pos hi
  have hc := h.collateral hi
  constructor
  · rintro ⟨w', hok, -⟩
    obtain ⟨-, -, -, -, -, -, s, hs, hpull, -⟩ := liquidate_eq_ok.1 hok
    have hle := BitVec.le_def.1 hpull.deposit
    have hdec := (h.valued.quotable t h.listed).decimals
    by_contra hd
    have := World.lt_seized_of_decimals (by omega) hp (h.deposit_pos hi) (hc ▸ h.below)
    omega
  · intro hd
    obtain ⟨w', hok, hdebt, hpay⟩ :=
      h.liquidates hi (World.seized_le_of_decimals hd hp (hc ▸ h.above))
    exact ⟨w', hok, hdebt, _, hpay, World.value_seized_le hd, World.le_value_seized hd hp⟩

end full

/-- Account 7 borrows 50000 BUSC against one WBTC and passes them to account 8, and the price of WBTC
falls from 112000 to 80000. -/
def Anvil.wbtcFalls : World := run exec world (approvals ++ [
  .motor 7 (.depositCollateral 2 100000000), .motor 7 (.mintBUSC 50000000000000000000000),
  .token 7 5 (.transfer 8 50000000000000000000000), .token 8 5 (.approve 6 50000000000000000000000),
  .updateFeed 4 (HelperConfig.mockRound 1 8000000000000)])

/-- Account 7 borrows 1500 BUSC against one WETH and passes them to account 8, and the price of WETH
falls from 4000 to 2500. -/
def Anvil.wethFalls : World := run exec world (approvals ++ [
  .motor 7 (.depositCollateral 1 1000000000000000000), .motor 7 (.mintBUSC 1500000000000000000000),
  .token 7 5 (.transfer 8 1500000000000000000000), .token 8 5 (.approve 6 1500000000000000000000),
  .updateFeed 3 (HelperConfig.mockRound 1 250000000000)])

/-- An account without deposits of the other listed token has none of any other token. -/
theorem Anvil.only {as : List Action} {u t : Address} (hl : Along exec Legal world as)
    (h₁ : 1 ≠ t → (run exec world as).deposit u 1 = 0)
    (h₂ : 2 ≠ t → (run exec world as).deposit u 2 = 0) (t' : Address) (ht : t' ≠ t) :
    (run exec world as).deposit u t' = 0 := by
  have hi := (reachable hl).inv
  by_cases hlisted : (run exec world as).Listed t'
  · rw [hi.listed, (deployed.inv.sameSetup_run hl).collateralTokens] at hlisted
    rcases List.mem_cons.1 hlisted with rfl | h
    · exact h₁ ht
    · obtain rfl := List.mem_singleton.1 h
      exact h₂ ht
  · exact hi.deposit_unlisted u t' hlisted

/-- At 160 percent, a position in WBTC cannot be liquidated. -/
theorem wbtcFalls_not_liquidated : Reachable Anvil.wbtcFalls ∧ Anvil.wbtcFalls.Liquidatable 2 7 8 ∧
    liquidate .exact 8 2 7 (Anvil.wbtcFalls.debt 7) Anvil.wbtcFalls = .error .arithmetic := by
  refine ⟨Anvil.reachable (by decide +kernel), ?_, by rfl⟩
  exact {
    listed := .tail _ (.head _)
    valued := by decide +kernel
    only := Anvil.only (by decide +kernel) (by decide +kernel) (by decide +kernel)
    debt := by decide +kernel
    above := by decide +kernel
    below := by decide +kernel
    usd := by decide +kernel
    ne := by decide
    checked := by decide +kernel
    funds := by decide +kernel
    approved := by decide +kernel }

/-- At 167 percent, one in WETH can. -/
theorem wethFalls_liquidated : ∃ w', liquidate .exact 8 1 7 (Anvil.wethFalls.debt 7) Anvil.wethFalls =
    .ok w' ∧ Anvil.wethFalls.LiquidatedInFull w' 1 7 8 :=
  (liquidated_in_full_iff (Anvil.reachable (by decide +kernel)) {
    listed := .head _
    valued := by decide +kernel
    only := Anvil.only (by decide +kernel) (by decide +kernel) (by decide +kernel)
    debt := by decide +kernel
    above := by decide +kernel
    below := by decide +kernel
    usd := by decide +kernel
    ne := by decide
    checked := by decide +kernel
    funds := by decide +kernel
    approved := by decide +kernel }).2 rfl

end Busc
