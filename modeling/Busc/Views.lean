import Busc.Conversion
import Busc.Limits

/-!
# The views

The remaining view functions of the motor, and what a caller can foresee with them. The health factor
after a mint or a burn is the one `calculateHealthFactor` gives for the debt afterwards, so the views tell
exactly which mints and burns go through. A withdrawal is foreseen up to one wei: the value of what is
left and the value of what is taken are rounded down each for itself.
-/

namespace Busc
open Solidity Machine BUSCmotor Cdp Floor

namespace BUSCmotor

def getTokenAmountFromRawUSD (tokenAddress : Address) (tokenValueInUSD : UInt256) (w : World) :
    Tx UInt256 := do
  let priceFeed := w.motor.tokenToPriceFeed tokenAddress
  let { answer := price, .. } ← OracleLib.stalePriceCheckLatestRoundData priceFeed w
  let tokenValueInUSDtoWEI ← checkedMul tokenValueInUSD 1000000000000000000
  checkedDiv (← checkedMul tokenValueInUSDtoWEI solidityPrecisionFactor)
    (← checkedMul price pricefeedPrecisionFactor)

def calculateHealthFactor (totalDscMinted collateralValueInUsd : UInt256) : Tx UInt256 :=
  _calculateHealthFactor totalDscMinted collateralValueInUsd

def getBUSCminted (user : Address) (w : World) : UInt256 := w.debt user

def getPriceFeedPrecisionFactor : UInt256 := pricefeedPrecisionFactor
def getSolidityPrecisionFactor : UInt256 := solidityPrecisionFactor
def getLiquidationThresholdPercent : UInt256 := liquidationThresholdPercent
def getLiuidationPrecision : UInt256 := liquidationPrecision
def getMinimumHealthFactor : UInt256 := minimumHealthFactor
def getLiquidationBonus : UInt256 := liquidationBonus

def getUserCollateralBalance (user tokenAddress : Address) (w : World) : UInt256 :=
  w.deposit user tokenAddress

def getBUSCstablecoinAddress (w : World) : Address := w.motor.iBUSC

def getAccountInformation (user : Address) (w : World) : Tx (UInt256 × UInt256) :=
  _getAccountInformation user w

def getHealthFactor (user : Address) (w : World) : Tx UInt256 := _healthFactor user w

def getCollateralTokens (w : World) : List Address := w.motor.collateralTokens

def getPriceFeedOfCollateralTokens (collateralTokenAddress : Address) (w : World) : Address :=
  w.motor.tokenToPriceFeed collateralTokenAddress

end BUSCmotor

section spec
variable {w w' : World} {u t : Address} {D C a v f : UInt256}

/-- The raw amount is the amount in wei, scaled first. -/
theorem getTokenAmountFromRawUSD_eq_ok {usd : UInt256} :
    getTokenAmountFromRawUSD t usd w = .ok v ↔ usd.toNat * 10 ^ 18 < 2 ^ 256 ∧
      getTokenAmountFromUSDwei t (usd * 1000000000000000000) w = .ok v := by
  have h18 : (1000000000000000000 : UInt256).toNat = 10 ^ 18 := rfl
  simp only [getTokenAmountFromRawUSD, getTokenAmountFromUSDwei, bind_eq_ok, stalePriceCheck_eq_ok,
    checkedMul_eq_ok, h18, and_assoc, exists_and_left, exists_eq_left]
  exact and_left_comm

theorem getAccountInformation_eq_ok : getAccountInformation u w = .ok (D, C) ↔
    D = w.debt u ∧ (∀ t ∈ w.motor.collateralTokens, w.Quotable t (w.deposit u t).toNat) ∧
      C.toNat = w.collateralValue u := by
  simp only [getAccountInformation, _getAccountInformation, bind_eq_ok, getCollateralValue_eq_ok,
    pure_eq_ok, Prod.mk.injEq]
  constructor
  · rintro ⟨C', h, rfl, rfl⟩; exact ⟨rfl, h⟩
  · rintro ⟨rfl, h⟩; exact ⟨C, h, rfl, rfl⟩

/-- `calculateHealthFactor` returns at least the minimum. -/
def Passes (D C : UInt256) : Prop := ∃ f, calculateHealthFactor D C = .ok f ∧ minimumHealthFactor ≤ f

theorem passes_iff : Passes D C ↔
    (D = 0 ∨ C.toNat * 50 < 2 ^ 256 ∧ C.toNat * 50 / 100 * 10 ^ 18 < 2 ^ 256) ∧
      (D.toNat = 0 ∨ 2 * D.toNat ≤ C.toNat) := by
  have hm : minimumHealthFactor.toNat = 10 ^ 18 := rfl
  simp only [Passes, calculateHealthFactor, calculateHealthFactor_eq_ok, BitVec.le_def, hm,
    ← healthFactor_ge_iff]
  constructor
  · rintro ⟨f, ⟨hf, he⟩, hle⟩
    exact ⟨hf, he ▸ hle⟩
  · rintro ⟨hf, hle⟩
    have hlt : healthFactor D.toNat C.toNat < 2 ^ 256 := by
      unfold healthFactor
      split
      · exact uintMax.isLt
      · next h0 =>
        rcases hf with rfl | ⟨-, hf⟩
        · exact absurd rfl h0
        · exact (Nat.div_le_self _ _).trans_lt hf
    obtain ⟨f, he⟩ := exists_toNat hlt
    exact ⟨f, ⟨hf, he⟩, he ▸ hle⟩

section info
variable (hinfo : getAccountInformation u w = .ok (D, C))
include hinfo

/-- Where the deposits are as they were, the check is foreseen from the debt it will find. -/
theorem checked_iff_passes (hf : w.Frame w') (hd : w'.deposit u = w.deposit u) :
    w'.Checked u ↔ Passes (w'.debt u) C := by
  obtain ⟨-, hq, hC⟩ := getAccountInformation_eq_ok.1 hinfo
  have hc : w'.collateralValue u = C.toNat := (hf.collateralValue hd).trans hC.symm
  have hq' : ∀ t ∈ w'.motor.collateralTokens, w'.Quotable t (w'.deposit u t).toNat := by
    intro t ht
    rw [hd]
    exact hf.quotable.2 (hq t (hf.collateralTokens ▸ ht))
  rw [passes_iff, World.Checked, World.Healthy, hc, World.valued_iff, hc]
  exact and_congr_left fun _ => ⟨fun h => h.2.2, fun h => ⟨hq', C.isLt, h⟩⟩

theorem getHealthFactor_eq (hf : w.Frame w') (hd : w'.deposit u = w.deposit u) (hc : w'.Checked u) :
    getHealthFactor u w' = calculateHealthFactor (w'.debt u) C := by
  obtain ⟨-, -, hC⟩ := getAccountInformation_eq_ok.1 hinfo
  have hcv : w'.collateralValue u = C.toNat := (hf.collateralValue hd).trans hC.symm
  obtain ⟨f, hfac⟩ := hc.1.exists_factor
  have h : _healthFactor u w' = .ok f := healthFactor_eq_ok.2 ⟨hc.1, hfac⟩
  have h' : _calculateHealthFactor (w'.debt u) C = .ok f := by
    rw [calculateHealthFactor_eq_ok, ← hcv]
    exact ⟨hc.1.factor, hfac⟩
  exact h.trans h'.symm

end info

/-! ### Mints and burns -/

theorem mint_foreseen (hr : Reachable w) (hinfo : getAccountInformation u w = .ok (D, C))
    (m : UInt256) : (∃ w', mintBUSC u m w = .ok w') ↔
      m ≠ 0 ∧ D.toNat + m.toNat < 2 ^ 256 ∧
        (w.erc20 w.motor.iBUSC).totalSupply.toNat + m.toNat < 2 ^ 256 ∧ Passes (D + m) C := by
  obtain ⟨rfl, -, hC⟩ := getAccountInformation_eq_ok.1 hinfo
  have hi := hr.inv
  have hafter (h : w.CanMint u m) : (w.minted h).Checked u ↔ Passes (w.debt u + m) C := by
    rw [checked_iff_passes hinfo (World.frame_minted h) rfl, World.debt_minted, if_pos rfl]
  constructor
  · rintro ⟨w', h⟩
    obtain ⟨hm, -, -, hcan, hc, -⟩ := mintBUSC_eq_ok.1 h
    exact ⟨hm, hcan.room, hcan.supply, (hafter hcan).1 hc⟩
  · rintro ⟨hm, hroom, hsup, hpass⟩
    have hpos := toNat_pos_of_ne hm
    obtain ⟨hf, hle⟩ := passes_iff.1 hpass
    rw [← BitVec.toNat_inj, BitVec.toNat_add_of_lt hroom] at hf
    rw [BitVec.toNat_add_of_lt hroom] at hle
    have h0 : (0 : UInt256).toNat = 0 := rfl
    have hu : u ≠ 0 := by
      rintro rfl
      rw [World.collateralValue_eq_zero hr.deposit_zero] at hC
      omega
    have hcan : w.CanMint u m := ⟨hroom, hi.owner, hu, hsup⟩
    have hbefore : Passes (w.debt u) C := passes_iff.2 ⟨.inr (by omega), by omega⟩
    exact ⟨_, mintBUSC_eq_ok.2 ⟨hm, hi.idle,
      (checked_iff_passes hinfo (.refl w) rfl).2 hbefore, hcan, (hafter hcan).2 hpass, rfl⟩⟩

theorem burn_foreseen (hr : Reachable w) (hinfo : getAccountInformation u w = .ok (D, C))
    (b : UInt256) : (∃ w', burnBUSC u b w = .ok w') ↔
      b ≠ 0 ∧ b ≤ D ∧ b ≤ (w.erc20 w.motor.iBUSC).balances u ∧
        (w.erc20 w.motor.iBUSC).CanSpend u w.self b ∧ Passes (D - b) C := by
  obtain ⟨rfl, -, -⟩ := getAccountInformation_eq_ok.1 hinfo
  have hi := hr.inv
  have hafter (h : w.CanBurn u u b) : (w.burned h).Checked u ↔ Passes (w.debt u - b) C := by
    rw [checked_iff_passes hinfo (World.frame_burned h) rfl, World.debt_burned, if_pos rfl]
  constructor
  · rintro ⟨w', h⟩
    obtain ⟨hcan, hc, -⟩ := burnBUSC_eq_ok.1 h
    exact ⟨hcan.amount_ne, hcan.debt, hcan.funds, hcan.allowed, (hafter hcan).1 hc⟩
  · rintro ⟨hb, hdebt, hfunds, hallow, hpass⟩
    have hu : u ≠ 0 := by
      rintro rfl
      rw [hi.busc_zero] at hfunds
      exact hb (BitVec.le_zero_iff.1 hfunds)
    have hcan : w.CanBurn u u b := ⟨hdebt, hallow, hu, hi.self_ne, hfunds, hi.owner, hb⟩
    exact ⟨_, burnBUSC_eq_ok.2 ⟨hcan, (hafter hcan).2 hpass, rfl⟩⟩

/-! ### Withdrawals -/

theorem World.valueInUSD_splits (w : World) (t : Address) : Splits (w.valueInUSD t) 1 where
  add_le := w.valueInUSD_add t
  le_add x y := by
    have hs : w.scaled t (x + y) = w.scaled t x + w.scaled t y := Nat.add_mul ..
    rw [w.valueInUSD_eq_rate, w.valueInUSD_eq_rate, w.valueInUSD_eq_rate, hs]
    exact rate_splits.le_add _ _

/-- The value of what is taken is what the account loses, up to a wei. -/
theorem collateralValue_pulled_split (hi : Inv w) (ht : w.Listed t) (h : w.CanPull u u t a) :
    (w.pulled h).collateralValue u + w.valueInUSD t a.toNat ≤ w.collateralValue u ∧
      w.collateralValue u ≤ (w.pulled h).collateralValue u + w.valueInUSD t a.toNat + 1 := by
  have hswap := World.swap_pulled h
  have hadd := hswap.collateral_add (m := w.market) hi.nodup ((hi.listed t).1 ht)
  have hle := (w.valueInUSD_splits t).add_le ((w.pulled h).deposit u t).toNat a.toNat
  have hge := (w.valueInUSD_splits t).le_add ((w.pulled h).deposit u t).toNat a.toNat
  have hdep : ((w.pulled h).deposit u t).toNat + a.toNat = (w.deposit u t).toNat := hswap.deposit
  rw [hdep] at hle hge
  have hc : (w.pulled h).collateralValue u = (w.pulled h).book.collateral w.market u := by
    rw [← (World.frame_pulled h).market]; rfl
  rw [hc]
  have hadd : (w.pulled h).book.collateral w.market u + w.valueInUSD t (w.deposit u t).toNat =
      w.collateralValue u + w.valueInUSD t ((w.pulled h).deposit u t).toNat := hadd
  omega

theorem pull_foreseen (hr : Reachable w) (hinfo : getAccountInformation u w = .ok (D, C))
    (hval : w.Valued u) (hv : getValueInUSD t a w = .ok v) :
    ((∃ w', pullCollateral .exact u t a w = .ok w') →
      a ≠ 0 ∧ a ≤ getUserCollateralBalance u t w ∧ v ≤ C ∧ Passes D (C - v)) ∧
    (a ≠ 0 → a ≤ getUserCollateralBalance u t w → (D = 0 ∨ v < C ∧ Passes D (C - v - 1)) →
      ∃ w', pullCollateral .exact u t a w = .ok w') := by
  obtain ⟨rfl, -, hC⟩ := getAccountInformation_eq_ok.1 hinfo
  obtain ⟨-, hv⟩ := getValueInUSD_eq_ok.1 hv
  have hi := hr.inv
  have hlisted (ha : a ≠ 0) (hle : a ≤ w.deposit u t) : w.Listed t := by
    by_contra hun
    rw [hi.deposit_unlisted u t hun] at hle
    exact ha (BitVec.le_zero_iff.1 hle)
  have hfac := hval.factor
  rw [← hC] at hfac
  constructor
  · rintro ⟨w', h⟩
    obtain ⟨ha, -, hcan, ⟨-, hh⟩, -⟩ := pullCollateral_eq_ok.1 h
    have hsplit := collateralValue_pulled_split hi (hlisted ha hcan.deposit) hcan
    rw [← hC, ← hv] at hsplit
    have hvC : v ≤ C := BitVec.le_def.2 (by omega)
    refine ⟨ha, hcan.deposit, hvC, passes_iff.2 ⟨hfac.imp id ?_, hh.imp id fun hh => ?_⟩⟩
    · rw [toNat_sub_of_le hvC]
      omega
    · rw [toNat_sub_of_le hvC]
      exact hh.trans (by omega)
  · intro ha hle hpass
    have hu : u ≠ 0 := by
      rintro rfl
      rw [getUserCollateralBalance, hr.deposit_zero] at hle
      exact ha (BitVec.le_zero_iff.1 hle)
    have hcan : w.CanPull u u t a := hi.canPull hu hle
    have hsplit := collateralValue_pulled_split hi (hlisted ha hle) hcan
    rw [← hC, ← hv] at hsplit
    have hvalued : (w.pulled hcan).Valued u :=
      hval.of_le (World.frame_pulled hcan) (World.deposit_pulled_le hcan u) id
    refine ⟨_, pullCollateral_eq_ok.2 ⟨ha, hi.idle, hcan, ⟨hvalued, ?_⟩, rfl⟩⟩
    rcases hpass with h0 | ⟨hlt, hpass⟩
    · exact .inl (by rw [World.debt_pulled, h0]; rfl)
    · have hvC := BitVec.le_def.1 (BitVec.le_of_lt hlt)
      have hlt' := BitVec.lt_def.1 hlt
      have h1 : (1 : UInt256).toNat = 1 := rfl
      have hsub : (C - v - 1).toNat = C.toNat - v.toNat - 1 := by
        rw [toNat_sub_of_le (BitVec.le_def.2 ?_), toNat_sub_of_le (BitVec.le_of_lt hlt), h1]
        rw [toNat_sub_of_le (BitVec.le_of_lt hlt), h1]
        omega
      have hhealth := (passes_iff.1 hpass).2
      rw [hsub] at hhealth
      exact hhealth.imp id fun hhealth => hhealth.trans (by omega)

/-- What the views foretell: mints and burns exactly, with the health factor they leave, and
withdrawals up to a wei. -/
theorem previews (hr : Reachable w) (hinfo : getAccountInformation u w = .ok (D, C)) :
    (∀ m, (∃ w', mintBUSC u m w = .ok w') ↔
      m ≠ 0 ∧ D.toNat + m.toNat < 2 ^ 256 ∧
        (w.erc20 w.motor.iBUSC).totalSupply.toNat + m.toNat < 2 ^ 256 ∧ Passes (D + m) C) ∧
    (∀ b, (∃ w', burnBUSC u b w = .ok w') ↔
      b ≠ 0 ∧ b ≤ D ∧ b ≤ (w.erc20 w.motor.iBUSC).balances u ∧
        (w.erc20 w.motor.iBUSC).CanSpend u w.self b ∧ Passes (D - b) C) ∧
    (∀ m w', mintBUSC u m w = .ok w' → getHealthFactor u w' = calculateHealthFactor (D + m) C) ∧
    (∀ b w', burnBUSC u b w = .ok w' → getHealthFactor u w' = calculateHealthFactor (D - b) C) ∧
    ∀ f t a v, getHealthFactor u w = .ok f → getValueInUSD t a w = .ok v →
      ((∃ w', pullCollateral .exact u t a w = .ok w') →
        a ≠ 0 ∧ a ≤ getUserCollateralBalance u t w ∧ v ≤ C ∧ Passes D (C - v)) ∧
      (a ≠ 0 → a ≤ getUserCollateralBalance u t w → (D = 0 ∨ v < C ∧ Passes D (C - v - 1)) →
        ∃ w', pullCollateral .exact u t a w = .ok w') := by
  refine ⟨mint_foreseen hr hinfo, burn_foreseen hr hinfo, fun m w' h => ?_, fun b w' h => ?_,
    fun f t a v hf hv => pull_foreseen hr hinfo (healthFactor_eq_ok.1 hf).1 hv⟩
  · obtain ⟨-, -, -, hcan, hc, rfl⟩ := mintBUSC_eq_ok.1 h
    rw [getHealthFactor_eq hinfo (World.frame_minted hcan) rfl hc, World.debt_minted, if_pos rfl,
      (getAccountInformation_eq_ok.1 hinfo).1]
  · obtain ⟨hcan, hc, rfl⟩ := burnBUSC_eq_ok.1 h
    rw [getHealthFactor_eq hinfo (World.frame_burned hcan) rfl hc, World.debt_burned, if_pos rfl,
      (getAccountInformation_eq_ok.1 hinfo).1]

/-- With 1000 dollars drawn on one WETH at 4000, the views allow another 1000 to be minted, or 0.4 WETH
to be withdrawn. -/
theorem previews_borrowed :
    (∃ w', mintBUSC 7 1000000000000000000000 Anvil.borrowed = .ok w') ∧
      (¬ ∃ w', mintBUSC 7 1000000000000000000001 Anvil.borrowed = .ok w') ∧
        ∃ w', pullCollateral .exact 7 1 400000000000000000 Anvil.borrowed = .ok w' := by
  have hr : Reachable Anvil.borrowed := Anvil.reachable (by decide +kernel)
  have hinfo : getAccountInformation 7 Anvil.borrowed =
      .ok (1000000000000000000000, 4000000000000000000000) := by decide +kernel
  have hfactor : getHealthFactor 7 Anvil.borrowed = .ok 2000000000000000000 := by decide +kernel
  have hvalue : getValueInUSD 1 400000000000000000 Anvil.borrowed = .ok 1600000000000000000000 := by
    decide +kernel
  obtain ⟨hmint, -, -, -, hpull⟩ := previews hr hinfo
  refine ⟨(hmint _).2 ?_, (hmint _).not.2 ?_, (hpull _ _ _ _ hfactor hvalue).2 (by decide)
    (by decide +kernel) (.inr ⟨by decide, passes_iff.2 (by decide)⟩)⟩
  · exact ⟨by decide, by decide, by decide +kernel, passes_iff.2 (by decide)⟩
  · rintro ⟨-, -, -, h⟩
    exact absurd (passes_iff.1 h).2 (by decide)

end spec

end Busc
