import Busc.Motor
import Mathlib.Tactic.MkIffOfInductiveProp

/-!
# What accounts are worth

The exact values behind the motor's checked arithmetic: the price of a token, the value of an
amount, the collateral value and the health factor of an account, all in natural numbers with the
source's own floor divisions. For each valuation function of the motor one equation says when it
returns and that it then returns the exact value. The health check is `2 * debt ≤ collateral`, to the
last wei.
-/

namespace Busc
open Solidity BUSCmotor

namespace World
variable (w : World)

/-- `uint256(price)` of a token's feed. -/
def price (token : Address) : Nat := (w.round token).answer.toNat

/-- `amount * 10 ** (18 - decimals)`. -/
def scaled (token : Address) (amount : Nat) : Nat := amount * 10 ^ (18 - (w.decimals token).toNat)

/-- The value of `amount` native units of a token, with 18 decimals. -/
def valueInUSD (token : Address) (amount : Nat) : Nat :=
  w.price token * 10 ^ 10 * w.scaled token amount / 10 ^ 18

def collateralValue (user : Address) : Nat :=
  (w.motor.collateralTokens.map fun t => w.valueInUSD t (w.deposit user t).toNat).sum

/-- The token has a feed, which was updated within the last two hours, and not in the future. -/
def Fresh (token : Address) : Prop :=
  w.motor.tokenToPriceFeed token ≠ 0 ∧ (w.round token).updatedAt.toNat ≤ w.timestamp.toNat ∧
    w.timestamp.toNat - (w.round token).updatedAt.toNat ≤ 7200

/-- `_getValueInUSD` computes the value of `amount` without reverting. -/
@[mk_iff] structure Quotable (token : Address) (amount : Nat) : Prop where
  fresh : w.Fresh token
  decimals : (w.decimals token).toNat ≤ 18
  scaled : w.scaled token amount < 2 ^ 256
  price : w.price token * 10 ^ 10 < 2 ^ 256
  value : w.price token * 10 ^ 10 * w.scaled token amount < 2 ^ 256

/-- `getTokenAmountFromUSDwei` of `usd`. -/
def tokenAmount (token : Address) (usd : Nat) : Nat := usd * 10 ^ 18 / (w.price token * 10 ^ 10)

/-- What `liquidate` takes for `usd` of debt: its worth in the token and a tenth on top. -/
def seized (token : Address) (usd : Nat) : Nat :=
  w.tokenAmount token usd + w.tokenAmount token usd * 10 / 100

/-- `getTokenAmountFromUSDwei` converts `usd` without reverting. -/
structure Convertible (token : Address) (usd : Nat) : Prop where
  fresh : w.Fresh token
  usd : usd * 10 ^ 18 < 2 ^ 256
  price : w.price token * 10 ^ 10 < 2 ^ 256
  pos : 0 < w.price token

end World

def healthFactor (d c : Nat) : Nat :=
  if d = 0 then uintMax.toNat else c * 50 / 100 * 10 ^ 18 / d

namespace World
variable (w : World)

def factor (user : Address) : Nat := healthFactor (w.debt user).toNat (w.collateralValue user)

/-- `_healthFactor` computes the health factor of `user` without reverting. -/
@[mk_iff] structure Valued (user : Address) : Prop where
  quotable : ∀ t ∈ w.motor.collateralTokens, w.Quotable t (w.deposit user t).toNat
  total : w.collateralValue user < 2 ^ 256
  factor : w.debt user = 0 ∨ w.collateralValue user * 50 < 2 ^ 256 ∧
    w.collateralValue user * 50 / 100 * 10 ^ 18 < 2 ^ 256

/-- The account has no debt, or collateral worth twice its debt. -/
def Healthy (user : Address) : Prop :=
  (w.debt user).toNat = 0 ∨ 2 * (w.debt user).toNat ≤ w.collateralValue user

instance (token : Address) : Decidable (w.Fresh token) := inferInstanceAs (Decidable (_ ∧ _))

instance (token : Address) (amount : Nat) : Decidable (w.Quotable token amount) :=
  decidable_of_iff' _ (quotable_iff w token amount)

instance (user : Address) : Decidable (w.Valued user) :=
  -- over the list, not over all addresses
  have : Decidable (∀ t ∈ w.motor.collateralTokens, w.Quotable t (w.deposit user t).toNat) :=
    List.decidableBAll _ _
  decidable_of_iff' _ (valued_iff w user)

instance (user : Address) : Decidable (w.Healthy user) := inferInstanceAs (Decidable (_ ∨ _))

end World

/-! ### Values depend on prices, deposits and debts only -/

namespace World.Frame
variable {w w' : World} {user token : Address} {amount : Nat} (h : w.Frame w')
include h

theorem valueInUSD : w'.valueInUSD = w.valueInUSD := by
  funext t a; simp only [World.valueInUSD, World.price, World.scaled, h.round, h.decimals]

theorem fresh : w'.Fresh token ↔ w.Fresh token := by
  simp only [World.Fresh, h.round, h.timestamp, h.tokenToPriceFeed]

theorem quotable : w'.Quotable token amount ↔ w.Quotable token amount := by
  have hp : w'.price token = w.price token := by simp only [World.price, h.round]
  have hs : w'.scaled token amount = w.scaled token amount := by simp only [World.scaled, h.decimals]
  constructor
  · intro q
    exact ⟨h.fresh.1 q.fresh, by rw [← h.decimals]; exact q.decimals, by rw [← hs]; exact q.scaled,
      by rw [← hp]; exact q.price, by rw [← hp, ← hs]; exact q.value⟩
  · intro q
    exact ⟨h.fresh.2 q.fresh, by rw [h.decimals]; exact q.decimals, by rw [hs]; exact q.scaled,
      by rw [hp]; exact q.price, by rw [hp, hs]; exact q.value⟩

theorem collateralValue (hd : w'.deposit user = w.deposit user) :
    w'.collateralValue user = w.collateralValue user := by
  simp only [World.collateralValue, h.valueInUSD, h.collateralTokens, hd]

theorem valued (hd : w'.deposit user = w.deposit user) (hD : w'.debt user = w.debt user) :
    w'.Valued user ↔ w.Valued user := by
  have hc := h.collateralValue hd
  constructor
  · intro v
    refine ⟨fun t ht => ?_, by rw [← hc]; exact v.total, by rw [← hc, ← hD]; exact v.factor⟩
    rw [← hd]; exact h.quotable.1 (v.quotable t (h.collateralTokens ▸ ht))
  · intro v
    refine ⟨fun t ht => ?_, by rw [hc]; exact v.total, by rw [hc, hD]; exact v.factor⟩
    rw [hd]; exact h.quotable.2 (v.quotable t (h.collateralTokens ▸ ht))

theorem healthy (hd : w'.deposit user = w.deposit user) (hD : w'.debt user = w.debt user) :
    w'.Healthy user ↔ w.Healthy user := by
  unfold World.Healthy; rw [h.collateralValue hd, hD]

end World.Frame

theorem World.Valued.exists_factor {w : World} {user : Address} (h : w.Valued user) :
    ∃ v : UInt256, v.toNat = w.factor user := by
  unfold World.factor healthFactor
  split
  · exact ⟨uintMax, rfl⟩
  · rcases h.factor with h0 | ⟨-, hlt⟩
    · exact absurd (by rw [h0]; rfl) ‹¬ (w.debt user).toNat = 0›
    · exact exists_toNat ((Nat.div_le_self _ _).trans_lt hlt)

theorem healthFactor_ge_iff (d c : Nat) : 10 ^ 18 ≤ healthFactor d c ↔ d = 0 ∨ 2 * d ≤ c := by
  unfold healthFactor
  by_cases hd : d = 0
  · simp only [hd, if_true, true_or, iff_true]; decide
  · have hpos : 0 < d := Nat.pos_of_ne_zero hd
    simp only [hd, if_false, false_or]
    rw [Nat.le_div_iff_mul_le hpos, Nat.mul_comm, Nat.mul_le_mul_right_iff (by decide)]
    omega

theorem World.healthy_iff {w : World} {user : Address} :
    w.Healthy user ↔ 10 ^ 18 ≤ w.factor user :=
  (healthFactor_ge_iff _ _).symm

section spec
variable {w : World} {token user : Address} {amount v : UInt256}

theorem stalePriceCheck_eq_ok {r : RoundData} :
    OracleLib.stalePriceCheckLatestRoundData (w.motor.tokenToPriceFeed token) w = .ok r ↔
      w.Fresh token ∧ r = w.round token := by
  simp only [OracleLib.stalePriceCheckLatestRoundData, latestRoundData, bind_eq_ok, checkedSub_eq_ok,
    revertIf_eq_ok, exists_const, pure_eq_ok, and_assoc, exists_and_left, exists_eq_left,
    gt_iff_lt, BitVec.not_lt, World.Fresh]
  refine and_congr_right fun _ => and_congr_right fun h => and_congr_left fun _ => ?_
  rw [BitVec.le_def, BitVec.toNat_sub_of_le h]
  exact Iff.rfl

theorem setWidth_le_iff {d : BitVec 8} : d.setWidth 256 ≤ (18 : UInt256) ↔ d.toNat ≤ 18 := by
  rw [BitVec.le_def, BitVec.toNat_setWidth, Nat.mod_eq_of_lt (by have := d.isLt; omega)]
  exact Iff.rfl

theorem toNat_scale {d : BitVec 8} (h : d.toNat ≤ 18) :
    (10 : UInt256).toNat ^ (18 - d.setWidth 256 : UInt256).toNat = 10 ^ (18 - d.toNat) ∧
      10 ^ (18 - d.toNat) < 2 ^ 256 := by
  constructor
  · rw [BitVec.toNat_sub_of_le (setWidth_le_iff.2 h), BitVec.toNat_setWidth, Nat.mod_eq_of_lt (by omega)]
    rfl
  · exact (Nat.pow_le_pow_right (by decide) (Nat.sub_le 18 _)).trans_lt (by decide)

theorem getValueInUSD_eq_ok : _getValueInUSD token amount w = .ok v ↔
    w.Quotable token amount.toNat ∧ v.toNat = w.valueInUSD token amount.toNat := by
  have hp : pricefeedPrecisionFactor.toNat = 10 ^ 10 := rfl
  have hs : solidityPrecisionFactor.toNat = 10 ^ 18 := rfl
  have hs0 : solidityPrecisionFactor ≠ 0 := by decide
  simp only [_getValueInUSD, bind_eq_ok, stalePriceCheck_eq_ok, checkedSub_eq_ok, checkedPow_eq_ok,
    checkedMul_eq_ok, checkedDiv_eq_ok, and_assoc, exists_and_left, exists_eq_left, setWidth_le_iff]
  by_cases hd : (w.decimals token).toNat ≤ 18
  swap
  · exact ⟨fun h => absurd h.2.1 hd, fun h => absurd h.1.decimals hd⟩
  obtain ⟨hscale, hlt⟩ := toNat_scale hd
  rw [hscale]
  have hof : (BitVec.ofNat 256 (10 ^ (18 - (w.decimals token).toNat))).toNat =
      10 ^ (18 - (w.decimals token).toNat) := by rw [BitVec.toNat_ofNat, Nat.mod_eq_of_lt hlt]
  generalize BitVec.ofNat 256 (10 ^ (18 - (w.decimals token).toNat)) = scale at hof ⊢
  rw [hof, hp]
  by_cases hsc : w.scaled token amount.toNat < 2 ^ 256
  swap
  · exact ⟨fun h => absurd h.2.2.2.1 hsc, fun h => absurd h.1.scaled hsc⟩
  by_cases hpr : w.price token * 10 ^ 10 < 2 ^ 256
  swap
  · exact ⟨fun h => absurd h.2.2.2.2.1 hpr, fun h => absurd h.1.price hpr⟩
  have e1 : ((w.round token).answer * pricefeedPrecisionFactor).toNat = w.price token * 10 ^ 10 :=
    BitVec.toNat_mul_of_lt hpr
  have e2 : (amount * scale).toNat = w.scaled token amount.toNat := by
    rw [BitVec.toNat_mul_of_lt (by rw [hof]; exact hsc), hof]; rfl
  rw [e1, e2]
  constructor
  · rintro ⟨hfresh, -, -, -, -, hv, -, rfl⟩
    refine ⟨⟨hfresh, hd, hsc, hpr, hv⟩, ?_⟩
    rw [BitVec.toNat_udiv, BitVec.toNat_mul_of_lt (by rw [e1, e2]; exact hv), e1, e2, hs]
    rfl
  · rintro ⟨h, hv⟩
    refine ⟨h.fresh, hd, hlt, hsc, hpr, h.value, hs0, BitVec.eq_of_toNat_eq ?_⟩
    rw [hv, BitVec.toNat_udiv, BitVec.toNat_mul_of_lt (by rw [e1, e2]; exact h.value), e1, e2, hs]
    rfl

theorem getCollateralValue_eq_ok : getCollateralValueOfTheAccountInUSD user w = .ok v ↔
    (∀ t ∈ w.motor.collateralTokens, w.Quotable t (w.deposit user t).toNat) ∧
      v.toNat = w.collateralValue user := by
  have h := foldlM_checkedAdd_eq_ok (f := fun t => _getValueInUSD t (w.deposit user t) w)
    (P := fun t => w.Quotable t (w.deposit user t).toNat)
    (g := fun t => w.valueInUSD t (w.deposit user t).toNat)
    (fun _ _ => getValueInUSD_eq_ok) (l := w.motor.collateralTokens) (a := 0) (c := v)
  rw [show (0 : UInt256).toNat = 0 from rfl, Nat.zero_add] at h
  exact h

theorem calculateHealthFactor_eq_ok {d c h : UInt256} : _calculateHealthFactor d c = .ok h ↔
    (d = 0 ∨ c.toNat * 50 < 2 ^ 256 ∧ c.toNat * 50 / 100 * 10 ^ 18 < 2 ^ 256) ∧
      h.toNat = healthFactor d.toNat c.toNat := by
  unfold _calculateHealthFactor healthFactor
  rcases eq_or_ne d 0 with rfl | hd
  · rw [if_pos rfl, if_pos (show (0 : UInt256).toNat = 0 from rfl), Except.ok.injEq]
    exact ⟨fun e => ⟨.inl rfl, by rw [e]⟩, fun e => (BitVec.eq_of_toNat_eq e.2).symm⟩
  have h50 : liquidationThresholdPercent.toNat = 50 := rfl
  have h100 : liquidationPrecision.toNat = 100 := rfl
  have h18 : solidityPrecisionFactor.toNat = 10 ^ 18 := rfl
  have hd' : d.toNat ≠ 0 := Nat.pos_iff_ne_zero.1 (toNat_pos_of_ne hd)
  simp only [hd, hd', if_false, bind_eq_ok, checkedMul_eq_ok, checkedDiv_eq_ok, and_assoc,
    exists_and_left, exists_eq_left, false_or, h50, h18, ne_eq, not_false_eq_true, true_and,
    show liquidationPrecision ≠ 0 from by decide]
  by_cases h1 : c.toNat * 50 < 2 ^ 256
  swap
  · exact ⟨fun h => absurd h.1 h1, fun h => absurd h.1 h1⟩
  have e1 : (c * liquidationThresholdPercent / liquidationPrecision).toNat = c.toNat * 50 / 100 := by
    rw [BitVec.toNat_udiv, BitVec.toNat_mul_of_lt h1, h100, h50]
  rw [e1]
  refine and_congr_right fun _ => and_congr_right fun h2 => ?_
  rw [← BitVec.toNat_inj, BitVec.toNat_udiv, BitVec.toNat_mul_of_lt (by rw [e1]; exact h2), e1, h18]

theorem healthFactor_eq_ok : _healthFactor user w = .ok v ↔
    w.Valued user ∧ v.toNat = w.factor user := by
  simp only [World.factor, _healthFactor, _getAccountInformation, bind_eq_ok, pure_eq_ok, Prod.exists,
    Prod.mk.injEq, getCollateralValue_eq_ok, calculateHealthFactor_eq_ok]
  constructor
  · rintro ⟨d, c, ⟨_, ⟨hq, hc⟩, rfl, rfl⟩, hf, hv⟩
    rw [hc] at hf hv
    exact ⟨⟨hq, hc ▸ c.isLt, hf⟩, hv⟩
  · rintro ⟨⟨hq, ht, hf⟩, hv⟩
    obtain ⟨c, hc⟩ := exists_toNat ht
    exact ⟨_, c, ⟨c, ⟨hq, hc⟩, rfl, rfl⟩, by rw [hc]; exact hf, by rw [hc]; exact hv⟩

theorem revertOnBrokenHealthFactor_eq_ok {u : Unit} : _revertOnBrokenHealthFactor user w = .ok u ↔
    w.Valued user ∧ w.Healthy user := by
  have hm : minimumHealthFactor.toNat = 10 ^ 18 := rfl
  simp only [_revertOnBrokenHealthFactor, bind_eq_ok, healthFactor_eq_ok, revertIf_eq_ok,
    BitVec.not_lt, BitVec.le_def, hm, World.healthy_iff]
  constructor
  · rintro ⟨v, ⟨hV, hv⟩, h⟩; exact ⟨hV, hv ▸ h⟩
  · rintro ⟨hV, h⟩
    obtain ⟨v, hv⟩ := hV.exists_factor
    exact ⟨v, ⟨hV, hv⟩, hv ▸ h⟩

theorem getTokenAmountFromUSDwei_eq_ok : getTokenAmountFromUSDwei token amount w = .ok v ↔
    w.Convertible token amount.toNat ∧ v.toNat = w.tokenAmount token amount.toNat := by
  have hp : pricefeedPrecisionFactor.toNat = 10 ^ 10 := rfl
  have hs : solidityPrecisionFactor.toNat = 10 ^ 18 := rfl
  simp only [getTokenAmountFromUSDwei, bind_eq_ok, stalePriceCheck_eq_ok, checkedMul_eq_ok,
    checkedDiv_eq_ok, and_assoc, exists_and_left, exists_eq_left, hp, hs]
  by_cases h1 : amount.toNat * 10 ^ 18 < 2 ^ 256
  swap
  · exact ⟨fun h => absurd h.2.1 h1, fun h => absurd h.1.usd h1⟩
  by_cases h2 : w.price token * 10 ^ 10 < 2 ^ 256
  swap
  · exact ⟨fun h => absurd h.2.2.1 h2, fun h => absurd h.1.price h2⟩
  have e1 : ((w.round token).answer * pricefeedPrecisionFactor).toNat = w.price token * 10 ^ 10 :=
    BitVec.toNat_mul_of_lt h2
  rw [← BitVec.toNat_inj (y := _ / _), BitVec.toNat_udiv,
    BitVec.toNat_mul_of_lt (by rw [hs]; exact h1), hs, e1, ne_eq, ← BitVec.toNat_inj, e1,
    show (0 : UInt256).toNat = 0 from rfl]
  constructor
  · rintro ⟨hf, -, -, h0, hv⟩; exact ⟨⟨hf, h1, h2, by omega⟩, hv⟩
  · rintro ⟨h, hv⟩; exact ⟨h.fresh, h1, h2, by have := h.pos; omega, hv⟩

/-- An amount that fits before the conversion fits after it, ten times over. -/
theorem World.Convertible.tokenAmount_lt {usd : Nat} (h : w.Convertible token usd) :
    w.tokenAmount token usd * 10 < 2 ^ 256 := by
  have hdiv : w.tokenAmount token usd ≤ usd * 10 ^ 8 := by
    refine Nat.div_le_of_le_mul ?_
    calc usd * 10 ^ 18 = 1 * 10 ^ 10 * (usd * 10 ^ 8) := by omega
      _ ≤ w.price token * 10 ^ 10 * (usd * 10 ^ 8) :=
        Nat.mul_le_mul_right _ (Nat.mul_le_mul_right _ h.pos)
  have := h.usd
  omega

/-- The amount to seize, as `liquidate` computes it for its next step `R`. -/
theorem exists_seized_iff {R : UInt256 → Prop} :
    (∃ q, getTokenAmountFromUSDwei token amount w = .ok q ∧
      ∃ m, checkedMul q liquidationBonus = (.ok m : Tx UInt256) ∧
      ∃ b, checkedDiv m liquidationPrecision = (.ok b : Tx UInt256) ∧
      ∃ s, checkedAdd q b = (.ok s : Tx UInt256) ∧ R s) ↔
    w.Convertible token amount.toNat ∧ ∃ s, s.toNat = w.seized token amount.toNat ∧ R s := by
  have hb : liquidationBonus.toNat = 10 := rfl
  have hp : liquidationPrecision.toNat = 100 := rfl
  have hp0 : liquidationPrecision ≠ 0 := by decide
  simp only [getTokenAmountFromUSDwei_eq_ok, checkedMul_eq_ok, checkedDiv_eq_ok, checkedAdd_eq_ok,
    and_assoc, exists_and_left, exists_eq_left, hb]
  refine and_congr_right fun h => ?_
  have hq := h.tokenAmount_lt
  have hval (q : UInt256) (e : q.toNat = w.tokenAmount token amount.toNat) :
      (q * liquidationBonus / liquidationPrecision).toNat = q.toNat * 10 / 100 := by
    rw [BitVec.toNat_udiv, BitVec.toNat_mul_of_lt (by rw [hb, e]; exact hq), hb, hp]
  unfold World.seized
  constructor
  · rintro ⟨q, hv, -, -, hadd, hR⟩
    refine ⟨_, ?_, hR⟩
    rw [BitVec.toNat_add_of_lt hadd, hval q hv, hv]
  · rintro ⟨s, hs, hR⟩
    obtain ⟨q, hv⟩ := exists_toNat (n := w.tokenAmount token amount.toNat) (by omega)
    have hadd := hval _ hv
    have hlt := s.isLt
    refine ⟨q, hv, by rw [hv]; exact hq, hp0, by rw [hadd, hv]; omega, ?_⟩
    convert hR
    refine BitVec.eq_of_toNat_eq ?_
    rw [BitVec.toNat_add_of_lt (by rw [hadd, hv]; omega), hadd, hv, hs]

end spec

end Busc
