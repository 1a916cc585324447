import Busc.Partial
import Busc.Solvency

/-!
# The margin

The health check asks for twice the debt, so that a price may fall before the collateral stops
covering the debt. A fall by at most half, from a state without unhealthy accounts, leaves every debt
covered: the half is exact, rounding included, because only the tokens of one feed lose value and the
feeds of the tokens differ. What no fall undoes, no operation does: in the states between, where
accounts may be unhealthy, mints and withdrawals are checked, and a liquidation of a covered account
leaves it covered. So if liquidators are done with the unhealthy accounts before the next fall, the
motor's holdings cover the supply for ever.
-/

namespace Busc
open Solidity WordMap Machine BUSCmotor Cdp

namespace World

/-- An account that owes something has collateral worth the debt, at prices that are not negative. -/
def Covered (w : World) : Prop := ∀ u, w.debt u = 0 ∨ w.Signed ∧ w.book.Safe w.market 1 u

/-- No two of the listed tokens share a feed. -/
def SeparateFeeds (w : World) : Prop :=
  ∀ t ∈ w.motor.collateralTokens, ∀ t' ∈ w.motor.collateralTokens,
    w.motor.tokenToPriceFeed t = w.motor.tokenToPriceFeed t' → t = t'

end World

/-- An oracle update does not lower its feed's answer, or it halves it at worst while no account is
unhealthy. -/
def Gradual (w : World) : Action → Prop
  | .updateFeed feed round => (w.feeds feed).answer.toInt ≤ round.answer.toInt ∨
      (w.feeds feed).answer.toInt ≤ 2 * round.answer.toInt ∧ ∀ u, w.Healthy u
  | _ => True

/-! ### Operations -/

section calls
variable {sender v t u l : Address} {op : MotorOp} {x : UInt256} {w w' : World}

/-- What an operation does to an account: it adds collateral or pays debt, it checks the account
afterwards, or it liquidates it. -/
theorem MotorOp.call_cases (h : op.call .exact sender w = .ok w') (v : Address) :
    ((∀ t, (w.deposit v t).toNat ≤ (w'.deposit v t).toNat) ∧ (w'.debt v).toNat ≤ (w.debt v).toNat) ∨
      w'.Checked v ∨ ∃ t x, op = .liquidate t v x := by
  by_cases ht : op.Touches sender v
  swap
  · have hs := call_sameAccount h ht
    exact .inl ⟨fun t => by rw [hs.deposit], by rw [hs.debt]⟩
  rcases ht with rfl | hliq
  swap
  · exact .inr (.inr hliq)
  by_cases hop : ∃ t a, op = .depositCollateral t a
  · obtain ⟨t, a, rfl⟩ := hop
    obtain ⟨-, -, -, hd, rfl⟩ := depositCollateral_eq_ok.1 h
    refine .inl ⟨fun t' => ?_, le_rfl⟩
    rw [World.deposit_deposited]
    split
    · next e => rw [e.2, BitVec.toNat_add_of_lt hd.room]; exact Nat.le_add_right _ _
    · exact le_rfl
  · exact .inr (.inl (call_checked h fun t a e => hop ⟨t, a, e⟩))

/-- A liquidation leaves a covered account covered. -/
theorem safe_of_liquidate (h : liquidate .exact l t u x w = .ok w')
    (hs : w.book.Safe w.market 1 u) : w'.book.Safe w.market 1 u := by
  have hc : w.book.debt u ≤ w.book.collateral w.market u := by
    rcases hs with h0 | hc
    · rw [h0]; exact Nat.zero_le _
    · rwa [Nat.one_mul] at hc
  rcases improves_of_liquidate h with h0 | himp
  · exact .inl h0
  · exact .inr (by rw [Nat.one_mul]; exact (swap_of_liquidate h).covers himp hc)

theorem MotorOp.call_safe (h : op.call .exact sender w = .ok w') (hs : w.book.Safe w.market 1 v) :
    w'.book.Safe w'.market 1 v := by
  rw [(call_frame h).market]
  rcases call_cases h v with ⟨hdep, hdebt⟩ | hc | ⟨t, x, rfl⟩
  · exact hs.of_le (Book.collateral_mono fun t _ => hdep t) hdebt
  · exact (call_frame h).market ▸ Book.Safe.lower (r := 2) hc.2 (by decide)
  · exact safe_of_liquidate h hs

end calls

namespace World
variable {w w' : World}

theorem Covered.safe (h : w.Covered) (u : Address) : w.book.Safe w.market 1 u := by
  rcases h u with h0 | ⟨-, hs⟩
  · exact .inl (congrArg BitVec.toNat h0)
  · exact hs

theorem Covered.call {sender : Address} {op : MotorOp} (h : w.Covered)
    (hok : op.call .exact sender w = .ok w') : w'.Covered := by
  intro u
  by_cases hop : ∃ t a, op = .depositCollateral t a
  · have hf := MotorOp.call_frame hok
    have hsafe := MotorOp.call_safe hok (h.safe u)
    obtain ⟨t, a, rfl⟩ := hop
    obtain ⟨-, -, -, hd, rfl⟩ := depositCollateral_eq_ok.1 hok
    exact (h u).imp id fun ⟨hs, _⟩ => ⟨hf.signed.2 hs, hsafe⟩
  · have hc := MotorOp.call_checked hok fun t a e => hop ⟨t, a, e⟩
    exact .inr ⟨hc.1.signed, MotorOp.call_safe hok (h.safe u)⟩

theorem Covered.setToken {token : Address} {t : ERC20} (h : w.Covered) :
    (w.setToken token t).Covered :=
  fun u => (h u).imp id fun ⟨hs, hu⟩ => ⟨(Frame.setToken w token t).signed.2 hs,
    (Frame.setToken w token t).market ▸ hu⟩

/-! ### Oracle updates -/

section update
variable {feed : Address} {round : RoundData}

theorem round_updateFeed (w : World) (feed t : Address) (round : RoundData) :
    ({ w with feeds := Function.update w.feeds feed round } : World).round t =
      if w.motor.tokenToPriceFeed t = feed then round else w.round t := by
  show Function.update w.feeds feed round _ = _
  rw [Function.update_apply]
  rfl

theorem valueInUSD_congr {t : Address} (hp : w.price t = w'.price t) (hd : w.decimals = w'.decimals)
    (a : Nat) : w.valueInUSD t a = w'.valueInUSD t a := by
  unfold valueInUSD scaled
  rw [hp, hd]

theorem valueInUSD_mono {t : Address} (hp : w.price t ≤ w'.price t) (hd : w.decimals = w'.decimals)
    (a : Nat) : w.valueInUSD t a ≤ w'.valueInUSD t a := by
  unfold valueInUSD scaled
  rw [hd]
  exact Nat.div_le_div_right (Nat.mul_le_mul_right _ (Nat.mul_le_mul_right _ hp))

/-- At half the price an amount is worth half, and loses at most what a rounding hides. -/
theorem valueInUSD_lt_of_half {t : Address} (hp : w.price t ≤ 2 * w'.price t)
    (hd : w.decimals = w'.decimals) (a : Nat) : w.valueInUSD t a < 2 * (w'.valueInUSD t a + 1) := by
  have h : w.price t * 10 ^ 10 * w.scaled t a ≤ 2 * (w'.price t * 10 ^ 10 * w'.scaled t a) := by
    rw [show w.scaled t a = w'.scaled t a by unfold scaled; rw [hd], ← Nat.mul_assoc,
      ← Nat.mul_assoc]
    exact Nat.mul_le_mul_right _ (Nat.mul_le_mul_right _ hp)
  unfold valueInUSD
  omega

theorem price_le {t : Address} {k : Nat} (h0 : 0 ≤ (w.round t).answer.toInt)
    (h0' : 0 ≤ (w'.round t).answer.toInt)
    (h : (w.round t).answer.toInt ≤ k * (w'.round t).answer.toInt) : w.price t ≤ k * w'.price t := by
  have h1 := toNat_eq_toInt h0
  have h2 := toNat_eq_toInt h0'
  unfold price
  zify
  rwa [h1, h2]

/-- The feed of one listed token may halve its answer. -/
theorem fall_updateFeed (hi : Inv w) (hsep : w.SeparateFeeds) {t : Address}
    (ht : t ∈ w.motor.collateralTokens) (hfeed : w.motor.tokenToPriceFeed t = feed)
    (h0 : 0 ≤ (w.round t).answer.toInt) (h : (w.round t).answer.toInt ≤ 2 * round.answer.toInt) :
    w.market.Fall ({ w with feeds := Function.update w.feeds feed round } : World).market 2 t := by
  set w' : World := { w with feeds := Function.update w.feeds feed round } with hw
  have hround : w'.round t = round := by rw [hw, round_updateFeed, if_pos hfeed]
  refine ⟨rfl, valueInUSD_lt_of_half (price_le h0 ?_ ?_) rfl, fun t' ht' a => ?_⟩
  · rw [hround]
    omega
  · rw [hround]
    exact h
  · have hne : w.motor.tokenToPriceFeed t' ≠ feed := by
      intro e
      have hl : w.Listed t' := by
        unfold Listed
        rw [e, ← hfeed]
        exact (hi.listed t).2 ht
      exact ht' (hsep t' ((hi.listed t').1 hl) t ht (e.trans hfeed.symm))
    have hround : w'.round t' = w.round t' := by rw [hw, round_updateFeed, if_neg hne]
    have hprice : w.price t' = w'.price t' := congrArg (fun r => r.answer.toNat) hround.symm
    exact (valueInUSD_congr hprice rfl a).le

theorem signed_updateFeed (hs : w.Signed)
    (h : (w.feeds feed).answer.toInt ≤ 2 * round.answer.toInt) :
    ({ w with feeds := Function.update w.feeds feed round } : World).Signed := by
  intro t ht
  rw [round_updateFeed]
  split
  · next e =>
    have h0 := hs t ht
    unfold World.round at h0
    rw [e] at h0
    omega
  · exact hs t ht

theorem Covered.updateFeed (hi : Inv w) (hsep : w.SeparateFeeds) (h : w.Covered)
    (hup : Gradual w (.updateFeed feed round)) :
    ({ w with feeds := Function.update w.feeds feed round } : World).Covered := by
  set w' : World := { w with feeds := Function.update w.feeds feed round } with hw
  intro u
  rcases h u with h0 | ⟨hs, hsafe⟩
  · exact .inl h0
  by_cases ht : ∃ t ∈ w.motor.collateralTokens, w.motor.tokenToPriceFeed t = feed
  swap
  -- no listed token reads this feed
  · have hround (t : Address) (hm : t ∈ w.motor.collateralTokens) : w'.round t = w.round t := by
      rw [hw, round_updateFeed, if_neg fun e => ht ⟨t, hm, e⟩]
    refine .inr ⟨fun t hm => (hround t hm).symm ▸ hs t hm, hsafe.reprice rfl fun t hm => ?_⟩
    have hprice : w.price t = w'.price t := congrArg (fun r => r.answer.toNat) (hround t hm).symm
    exact (valueInUSD_congr hprice rfl _).le
  obtain ⟨t, ht, hfeed⟩ := ht
  have hold : (w.feeds feed).answer = (w.round t).answer := by rw [← hfeed]; rfl
  have h0 := hs t ht
  rcases hup with hup | ⟨hup, hall⟩
  · have hsigned : w'.Signed := signed_updateFeed hs (by rw [hold] at hup ⊢; omega)
    have hprice (t' : Address) (ht' : t' ∈ w.motor.collateralTokens) : w.price t' ≤ w'.price t' := by
      have hle : (w.round t').answer.toInt ≤ (1 : Nat) * (w'.round t').answer.toInt := by
        rw [hw, round_updateFeed, Nat.cast_one, one_mul]
        split
        · next e => unfold World.round; rw [e]; exact hup
        · exact le_rfl
      simpa using price_le (hs t' ht') (hsigned t' ht') hle
    exact .inr ⟨hsigned, hsafe.reprice rfl fun t' ht' => valueInUSD_mono (hprice t' ht') rfl _⟩
  · have htwice : w.book.Safe w.market (2 * 1) u := hall u
    exact .inr ⟨signed_updateFeed hs hup,
      htwice.fall (fall_updateFeed hi hsep ht hfeed h0 (hold ▸ hup)) (by decide) hi.nodup⟩

end update

theorem Covered.exec {a : Action} (hi : Inv w) (hl : Legal w a) (hsep : w.SeparateFeeds)
    (hup : Gradual w a) (h : w.Covered) : (Busc.exec w a).Covered := by
  have hch := hi.exec_change hl
  revert hch
  generalize Busc.exec w a = w'
  rintro (_ | ⟨-, hok⟩ | _ | _ | _)
  · exact h
  · exact h.call hok
  · exact h.setToken
  · exact h
  · exact h.updateFeed hi hsep hup

theorem SameSetup.separateFeeds (h : w.SameSetup w') (hs : w.SeparateFeeds) : w'.SeparateFeeds := by
  unfold SeparateFeeds
  rw [h.collateralTokens, h.tokenToPriceFeed]
  exact hs

end World

/-- If no price falls by more than half at once, and none falls while an account is unhealthy, then
every account's collateral covers its debt and the motor's holdings cover the supply. -/
theorem covered_of_gradual {w₀ : World} {as : List Action} (hd : Deployed w₀)
    (hsep : w₀.SeparateFeeds) (hrun : Along exec (fun w a => Legal w a ∧ Gradual w a) w₀ as) :
    let w := run exec w₀ as
    (∀ u, (w.debt u).toNat ≤ w.collateralValue u) ∧
      (w.erc20 w.motor.iBUSC).totalSupply.toNat ≤ w.holdings := by
  intro w
  have hstart : w₀.Covered := fun u => .inl (by rw [hd.debt])
  obtain ⟨hi, -, hc⟩ : Inv w ∧ w.SeparateFeeds ∧ w.Covered :=
    (hrun.inv (I := fun w => Inv w ∧ w.SeparateFeeds ∧ w.Covered) ⟨hd.inv, hsep, hstart⟩
      fun _ _ ⟨hi, hsep, hc⟩ ⟨hl, hup⟩ => ⟨hi.exec hl,
        (hi.exec_change hl).sameSetup.separateFeeds hsep, hc.exec hi hl hsep hup⟩).1
  have hsol := World.mul_supply_le_holdings hc.safe hi.custody hi.covered
  rw [Nat.one_mul] at hsol
  refine ⟨fun u => ?_, hsol⟩
  rcases hc.safe u with h0 | hle
  · exact (show (w.debt u).toNat = 0 from h0) ▸ Nat.zero_le _
  · rwa [Nat.one_mul] at hle

/-- Account 7 borrows 1500 BUSC against one WETH and passes them to account 8. -/
def Anvil.drawn : List Action := approvals ++ [
  .motor 7 (.depositCollateral 1 1000000000000000000), .motor 7 (.mintBUSC 1500000000000000000000),
  .token 7 5 (.transfer 8 1500000000000000000000), .token 8 5 (.approve 6 1500000000000000000000)]

/-- The price of WETH falls from 4000 to 2500, account 8 pays 600 of the debt, and the price falls to
1500. -/
def Anvil.slide : List Action := drawn ++ [
  .updateFeed 3 (HelperConfig.mockRound 1 250000000000),
  .motor 8 (.liquidate 1 7 600000000000000000000),
  .updateFeed 3 (HelperConfig.mockRound 1 150000000000)]

theorem World.forall_healthy {w : World} {v : Address} (h : w.Healthy v)
    (hdebt : ∀ u, u ≠ v → w.debt u = 0) (u : Address) : w.Healthy u := by
  rcases eq_or_ne u v with rfl | hu
  · exact h
  · exact .inl (by rw [hdebt u hu]; rfl)

/-- After the slide 900 BUSC are on 1104 dollars of WETH, and in between 1500 were on 2500. -/
theorem covered_of_gradual_slide :
    ((run exec Anvil.world Anvil.slide).erc20 5).totalSupply = 900000000000000000000 ∧
      ((run exec Anvil.world Anvil.slide).erc20 5).totalSupply.toNat ≤
        (run exec Anvil.world Anvil.slide).holdings := by
  have hsep : Anvil.world.SeparateFeeds := Anvil.forall_listed rfl
    (Anvil.forall_listed rfl (fun _ => rfl) (fun h => absurd h (by decide)))
    (Anvil.forall_listed rfl (fun h => absurd h (by decide)) (fun _ => rfl))
  have hdrawn : ∀ u, (run exec Anvil.world Anvil.drawn).Healthy u := by
    refine World.forall_healthy (v := 7) (by decide +kernel) fun u hu => ?_
    show Function.update (fun _ => (0 : UInt256)) 7 1500000000000000000000 u = 0
    rw [Function.update_of_ne hu]
  have hpaid : ∀ u, (run exec (run exec Anvil.world Anvil.drawn) [
      .updateFeed 3 (HelperConfig.mockRound 1 250000000000),
      .motor 8 (.liquidate 1 7 600000000000000000000)]).Healthy u := by
    refine World.forall_healthy (v := 7) (by decide +kernel) fun u hu => ?_
    show Function.update (Function.update (fun _ => (0 : UInt256)) 7 1500000000000000000000) 7
      900000000000000000000 u = 0
    rw [Function.update_of_ne hu, Function.update_of_ne hu]
  have hlegal : Along exec Legal Anvil.world Anvil.slide := by decide +kernel
  refine ⟨by decide +kernel,
    (covered_of_gradual Anvil.deployed hsep (hlegal.and (along_append.2 ⟨?_, ?_⟩))).2⟩
  · exact ⟨trivial, trivial, trivial, trivial, trivial, trivial, trivial⟩
  · exact ⟨.inr ⟨by decide +kernel, hdrawn⟩, trivial, .inr ⟨by decide +kernel, hpaid⟩, trivial⟩

end Busc
