import Busc.Liquidation
import Busc.Words

/-!
# Paying back and unwinding

`burnBUSC` closes with the health check although it can only raise the health factor. So an unhealthy
account can pay back all of its debt, or enough to be healthy at once, but no less. The check stands in
no way of an unwind: what `pullCollateralAndBurnBUSC` does in one call, `burnBUSC` and `pullCollateral`
do in two, since an account that is healthy with less collateral was healthy before it was taken.
-/

namespace Busc
open Solidity WordMap Machine BUSCmotor

theorem healthFactor_anti {d d' c : Nat} (hd : d' ≤ d) (h : healthFactor d c ≤ uintMax.toNat) :
    healthFactor d c ≤ healthFactor d' c := by
  rcases Nat.eq_zero_or_pos d' with rfl | hpos
  · exact h
  · unfold healthFactor
    rw [if_neg (by omega), if_neg (by omega)]
    exact Nat.div_le_div_left hd hpos

namespace World
variable {w w' : World} {u t : Address} {a b : UInt256}

theorem Valued.factor_le (h : w.Valued u) : w.factor u ≤ uintMax.toNat := by
  obtain ⟨v, hv⟩ := h.exists_factor
  have hlt := v.isLt
  have hmax : uintMax.toNat = 2 ^ 256 - 1 := rfl
  omega

theorem Valued.burned (hv : w.Valued u) (h : w.CanBurn u u b) : (w.burned h).Valued u :=
  hv.of_le (frame_burned h) (fun _ => le_rfl) fun h0 => by
    rw [debt_burned, if_pos rfl]
    exact sub_eq_zero_of_le h0 h.debt

/-! ### Paying back -/

/-- An account pays back at most its debt, and has the BUSC at hand. That it can be valued says that the
feeds are fresh and that nothing overflows. -/
structure Repayable (w : World) (u : Address) (b : UInt256) : Prop where
  valued : w.Valued u
  positive : ∀ t ∈ w.motor.collateralTokens, 0 < (w.round t).answer.toInt
  pos : 1 ≤ b.toNat
  debt : b.toNat ≤ (w.debt u).toNat
  funds : b ≤ (w.erc20 w.motor.iBUSC).balances u
  approved : b ≤ (w.erc20 w.motor.iBUSC).allowances u w.self

/-- Debt and supply are lower by what was paid, and the health factor is not. -/
structure Repaid (w w' : World) (u : Address) (b : UInt256) : Prop where
  debt : (w'.debt u).toNat + b.toNat = (w.debt u).toNat
  supply : (w'.erc20 w.motor.iBUSC).totalSupply.toNat + b.toNat =
    (w.erc20 w.motor.iBUSC).totalSupply.toNat
  factor : ∃ v v', _healthFactor u w = .ok v ∧ _healthFactor u w' = .ok v' ∧ v ≤ v'

theorem Repayable.canBurn (h : w.Repayable u b) (hi : Inv w) : w.CanBurn u u b := by
  have hb : b ≠ 0 := ne_zero_of_toNat_pos h.pos
  obtain ⟨hu, -⟩ := hi.payer_ne hb h.funds h.approved
  exact {
    debt := BitVec.le_def.2 h.debt
    allowed := .inr ⟨h.approved, hu, hi.self_ne⟩
    payer_ne := hu
    self_ne := hi.self_ne
    funds := h.funds
    owner := hi.owner
    amount_ne := hb }

theorem repaid_burned (hv : w.Valued u) (h : w.CanBurn u u b) : w.Repaid (w.burned h) u b := by
  have hdebt : ((w.burned h).debt u).toNat + b.toNat = (w.debt u).toNat := by
    rw [debt_burned, if_pos rfl, toNat_sub_of_le h.debt]
    exact Nat.sub_add_cancel (BitVec.le_def.1 h.debt)
  refine ⟨hdebt, ?_, ?_⟩
  · have hle := (BitVec.le_def.1 h.funds).trans ((w.erc20 w.motor.iBUSC).balance_le_supply u)
    rw [erc20_burned, if_pos rfl, ERC20.destroy_totalSupply, ERC20.spend_totalSupply,
      toNat_sub_of_le (BitVec.le_def.2 hle)]
    exact Nat.sub_add_cancel hle
  · obtain ⟨v, hv'⟩ := hv.exists_factor
    obtain ⟨v', hv''⟩ := (hv.burned h).exists_factor
    refine ⟨v, v', healthFactor_eq_ok.2 ⟨hv, hv'⟩, healthFactor_eq_ok.2 ⟨hv.burned h, hv''⟩, ?_⟩
    rw [BitVec.le_def, hv', hv'']
    unfold factor
    rw [(frame_burned h).collateralValue rfl]
    exact healthFactor_anti (by omega) hv.factor_le

end World

/-- A repayment goes through exactly if it is in full, or leaves the account healthy. -/
theorem repaid_iff {w : World} {u : Address} {b : UInt256} (hr : Reachable w) (h : w.Repayable u b) :
    (∃ w', burnBUSC u b w = .ok w' ∧ w.Repaid w' u b) ↔
      b = w.debt u ∨ 2 * ((w.debt u).toNat - b.toNat) ≤ w.collateralValue u := by
  have hb := h.canBurn hr.inv
  have hle := h.debt
  have hdebt : ((w.burned hb).debt u).toNat = (w.debt u).toNat - b.toNat := by
    rw [World.debt_burned, if_pos rfl, toNat_sub_of_le hb.debt]
  have hhealthy : (w.burned hb).Healthy u ↔
      b = w.debt u ∨ 2 * ((w.debt u).toNat - b.toNat) ≤ w.collateralValue u := by
    rw [World.Healthy, hdebt, (World.frame_burned hb).collateralValue rfl, ← BitVec.toNat_inj]
    omega
  rw [← hhealthy]
  constructor
  · rintro ⟨w', hok, -⟩
    obtain ⟨_, hc, -⟩ := burnBUSC_eq_ok.1 hok
    exact hc.2
  · intro hc
    exact ⟨_, burnBUSC_eq_ok.2 ⟨hb, ⟨h.valued.burned hb, hc⟩, rfl⟩, World.repaid_burned h.valued hb⟩

/-- Account 7 has drawn 1500 BUSC on one WETH, lets the motor take them, and the price of WETH falls
from 4000 to 2500. -/
def Anvil.underwater : World := run exec world (approvals ++ [
  .motor 7 (.depositCollateral 1 1000000000000000000), .motor 7 (.mintBUSC 1500000000000000000000),
  .token 7 5 (.approve 6 1500000000000000000000),
  .updateFeed 3 (HelperConfig.mockRound 1 250000000000)])

theorem Anvil.underwater_repayable {b : UInt256} (hpos : 1 ≤ b.toNat)
    (hle : b.toNat ≤ 1500000000000000000000) : underwater.Repayable 7 b := by
  have hl : underwater.motor.collateralTokens = [1, 2] := by decide +kernel
  have hdebt : (underwater.debt 7).toNat = 1500000000000000000000 := by decide +kernel
  have hfunds : ((underwater.erc20 underwater.motor.iBUSC).balances 7).toNat =
      1500000000000000000000 := by decide +kernel
  have happr : ((underwater.erc20 underwater.motor.iBUSC).allowances 7 underwater.self).toNat =
      1500000000000000000000 := by decide +kernel
  exact {
    valued := by decide +kernel
    positive := forall_listed hl (by decide +kernel) (by decide +kernel)
    pos := hpos
    debt := hdebt ▸ hle
    funds := BitVec.le_def.2 (hfunds ▸ hle)
    approved := BitVec.le_def.2 (happr ▸ hle) }

/-- Paying back 100 of the 1500 is refused, for the health factor that it raises. -/
theorem underwater_refused : Reachable Anvil.underwater ∧
    Anvil.underwater.Repayable 7 100000000000000000000 ∧
    burnBUSC 7 100000000000000000000 Anvil.underwater =
      .error (.error (.breaksTheHealthFactorThreshold 892857142857142857)) :=
  ⟨Anvil.reachable (by decide +kernel), Anvil.underwater_repayable (by decide) (by decide), by rfl⟩

/-- Paying back 250 is not: what is left is half the collateral. -/
theorem underwater_repaid : ∃ w', burnBUSC 7 250000000000000000000 Anvil.underwater = .ok w' ∧
    Anvil.underwater.Repaid w' 7 250000000000000000000 :=
  (repaid_iff (Anvil.reachable (by decide +kernel))
    (Anvil.underwater_repayable (by decide) (by decide))).2 (.inr (by decide +kernel))

/-! ### Unwinding -/

namespace World
variable {w w' : World} {u t : Address} {a b : UInt256}

/-- No step of the health factor computation overflows. -/
structure NoOverflow (w : World) (u : Address) : Prop where
  scaled : ∀ t ∈ w.motor.collateralTokens, w.scaled t (w.deposit u t).toNat < 2 ^ 256
  price : ∀ t ∈ w.motor.collateralTokens, w.price t * 10 ^ 10 < 2 ^ 256
  value : ∀ t ∈ w.motor.collateralTokens,
    w.price t * 10 ^ 10 * w.scaled t (w.deposit u t).toNat < 2 ^ 256
  total : w.collateralValue u < 2 ^ 256
  factor : w.debt u = 0 ∨ w.collateralValue u * 50 < 2 ^ 256 ∧
    w.collateralValue u * 50 / 100 * 10 ^ 18 < 2 ^ 256

/-- Besides overflows only the feeds and the decimals matter, which no operation changes. -/
theorem NoOverflow.valued (h : w.NoOverflow u) (hf : w.Frame w') (hv : w'.Valued u) : w.Valued u := by
  refine ⟨fun t ht => ?_, h.total, h.factor⟩
  have hq := hf.quotable.1 (hv.quotable t (hf.collateralTokens ▸ ht))
  exact ⟨hq.fresh, hq.decimals, h.scaled t ht, h.price t ht, h.value t ht⟩

/-- A healthy account was healthy before collateral was taken from it. -/
theorem Healthy.of_pulled (h : w.CanPull u u t a) (hh : (w.pulled h).Healthy u) : w.Healthy u := by
  have hle := (frame_pulled h).collateralValue_le (deposit_pulled_le h u)
  rcases hh with h0 | h2
  · exact .inl h0
  · exact .inr (h2.trans hle)

/-- The payout and the repayment touch different words. -/
theorem pulled_burned (ht : t ≠ w.motor.iBUSC) (hp : w.CanPull u u t a)
    (hb : (w.pulled hp).CanBurn u u b) : ∃ hb' : w.CanBurn u u b,
      ∃ hp' : (w.burned hb').CanPull u u t a, (w.pulled hp).burned hb = (w.burned hb').pulled hp' := by
  have hbusc : (w.pulled hp).erc20 w.motor.iBUSC = w.erc20 w.motor.iBUSC := by
    rw [erc20_pulled, if_neg ht.symm]
  have hb' : w.CanBurn u u b := {
    debt := hb.debt
    allowed := hbusc ▸ hb.allowed
    payer_ne := hb.payer_ne
    self_ne := hb.self_ne
    funds := hbusc ▸ hb.funds
    owner := hb.owner
    amount_ne := hb.amount_ne }
  have htok : (w.burned hb').erc20 t = w.erc20 t := by rw [erc20_burned, if_neg ht]
  have hp' : (w.burned hb').CanPull u u t a :=
    ⟨hp.deposit, hp.self_ne, hp.dst_ne, htok.symm ▸ hp.funds⟩
  refine ⟨hb', hp', eq_of_words ?_ rfl ?_⟩
  · exact ((frame_burned hb').trans (frame_pulled hp')).symm.trans
      ((frame_pulled hp).trans (frame_burned hb))
  · have h1 := words_burned hb
    have h2 := words_burned hb'
    have h3 := words_pulled hp
    have h4 := words_pulled hp'
    rw [show (w.pulled hp).motor.iBUSC = w.motor.iBUSC from rfl, hbusc,
      show (w.pulled hp).self = w.self from rfl, ← h2] at h1
    rw [show (w.burned hb').self = w.self from rfl, ← h3] at h4
    rw [eq_add_of_sub_eq h1, eq_add_of_sub_eq h4]
    abel

end World

/-- The one call and the two calls lead to the same states, and so do the two calls in the other order
where both go through. -/
theorem unwind {w : World} {u t : Address} {a b : UInt256} (hr : Reachable w) (ht : w.Listed t)
    (hno : w.NoOverflow u) :
    (∀ w', pullCollateralAndBurnBUSC .exact u t a b w = .ok w' ↔
      ∃ w₁, burnBUSC u b w = .ok w₁ ∧ pullCollateral .exact u t a w₁ = .ok w') ∧
    ∀ w₁ w', pullCollateral .exact u t a w = .ok w₁ → burnBUSC u b w₁ = .ok w' →
      pullCollateralAndBurnBUSC .exact u t a b w = .ok w' := by
  have hi := hr.inv
  constructor
  · intro w'
    constructor
    · intro h
      obtain ⟨ha, -, hb, hp, hc, rfl⟩ := pullCollateralAndBurnBUSC_eq_ok.1 h
      -- the health check between the two calls
      have hv : w.Valued u := hno.valued ((World.frame_burned hb).trans (World.frame_pulled hp)) hc.1
      have hmid : (w.burned hb).Checked u := ⟨hv.burned hb, hc.2.of_pulled hp⟩
      exact ⟨_, burnBUSC_eq_ok.2 ⟨hb, hmid, rfl⟩, pullCollateral_eq_ok.2 ⟨ha, hi.idle, hp, hc, rfl⟩⟩
    · rintro ⟨w₁, hburn, hpull⟩
      obtain ⟨hb, -, rfl⟩ := burnBUSC_eq_ok.1 hburn
      obtain ⟨ha, -, hp, hc, rfl⟩ := pullCollateral_eq_ok.1 hpull
      exact pullCollateralAndBurnBUSC_eq_ok.2 ⟨ha, ht, hb, hp, hc, rfl⟩
  · intro w₁ w' hpull hburn
    obtain ⟨ha, -, hp, -, rfl⟩ := pullCollateral_eq_ok.1 hpull
    obtain ⟨hb, hc, rfl⟩ := burnBUSC_eq_ok.1 hburn
    have htok : t ≠ w.motor.iBUSC := fun e => hi.busc_unlisted (e ▸ ht)
    obtain ⟨hb', hp', he⟩ := World.pulled_burned htok hp hb
    exact pullCollateralAndBurnBUSC_eq_ok.2 ⟨ha, ht, hb', hp', he ▸ hc, he⟩

/-- The unhealthy account pays back 500 and takes a fifth of its WETH, in two calls as in one. -/
theorem unwind_underwater : ∃ w₁ w', burnBUSC 7 500000000000000000000 Anvil.underwater = .ok w₁ ∧
    pullCollateral .exact 7 1 200000000000000000 w₁ = .ok w' ∧
      pullCollateralAndBurnBUSC .exact 7 1 200000000000000000 500000000000000000000
        Anvil.underwater = .ok w' := by
  have hl : Anvil.underwater.motor.collateralTokens = [1, 2] := by decide +kernel
  have hno : Anvil.underwater.NoOverflow 7 := {
    scaled := Anvil.forall_listed hl (by decide +kernel) (by decide +kernel)
    price := Anvil.forall_listed hl (by decide +kernel) (by decide +kernel)
    value := Anvil.forall_listed hl (by decide +kernel) (by decide +kernel)
    total := by decide +kernel
    factor := .inr (by decide +kernel) }
  obtain ⟨w', h⟩ := exists_ok (t := pullCollateralAndBurnBUSC .exact 7 1 200000000000000000
    500000000000000000000 Anvil.underwater) (by decide +kernel)
  have hr : Reachable Anvil.underwater := Anvil.reachable (by decide +kernel)
  have ht : Anvil.underwater.Listed 1 := (hr.inv.listed 1).2 (hl ▸ List.mem_cons_self)
  obtain ⟨w₁, hburn, hpull⟩ := ((unwind hr ht hno).1 w').1 h
  exact ⟨w₁, w', hburn, hpull, h⟩

end Busc
