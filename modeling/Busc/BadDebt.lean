import Busc.Margin

/-!
# Bad debt comes from prices only

What an account's collateral lacks of its debt is lost if the account never pays: the holdings cover the
supply but for that. No operation adds to it, of whatever account and however far under water: mints and
withdrawals are checked, and a liquidation that improves the health factor takes no more than it pays for.
So over any run bad debt grows by what the oracle updates add to it, and by nothing else.
-/

namespace Busc
open Solidity WordMap Machine BUSCmotor Cdp

namespace World
variable (w : World)

def shortfall (user : Address) : Nat := w.book.shortfall w.market user

def badDebt : Nat := w.book.badDebt w.market

end World

/-- What a quantity grows by at the oracle updates. -/
def byPrices (f : World → Nat) (w : World) : Action → Nat
  | .updateFeed feed round => f (exec w (.updateFeed feed round)) - f w
  | _ => 0

section step
variable {w w' : World} {a : Action} {sender u : Address} {op : MotorOp}

theorem MotorOp.call_shortfall (h : op.call .exact sender w = .ok w') (u : Address) :
    w'.shortfall u ≤ w.shortfall u := by
  unfold World.shortfall
  have hm := (call_frame h).market
  rcases call_cases h u with ⟨hdep, hdebt⟩ | hc | ⟨t, x, rfl⟩
  · rw [hm]
    exact Book.shortfall_mono (Book.collateral_mono fun t _ => hdep t) hdebt
  · have hsafe : w'.book.Safe w'.market 2 u := hc.2
    rw [hsafe.shortfall (by decide)]
    exact Nat.zero_le _
  · have hswap := swap_of_liquidate h
    rw [hm]
    rcases improves_of_liquidate h with h0 | himp
    · have hsafe : w'.book.Safe w.market 1 u := .inl h0
      rw [hsafe.shortfall le_rfl]
      exact Nat.zero_le _
    · exact hswap.shortfall_le himp

/-- A quantity of positions and prices that no operation adds to. -/
structure OnlyByPrices (f : World → Nat) : Prop where
  congr : ∀ {w w' : World}, w'.book = w.book → w'.market = w.market → f w' = f w
  call : ∀ {sender : Address} {op : MotorOp} {w w' : World},
    op.call .exact sender w = .ok w' → f w' ≤ f w

namespace OnlyByPrices
variable {f : World → Nat} (hf : OnlyByPrices f)
include hf

theorem exec (hi : Inv w) (hl : Legal w a) : f (Busc.exec w a) ≤ f w + byPrices f w a := by
  have hch := hi.exec_change hl
  revert hch
  generalize Busc.exec w a = w'
  intro hch
  cases hch with
  | reverted => exact Nat.le_add_right _ _
  | motor _ h => exact (hf.call h).trans (Nat.le_add_right _ _)
  | @token _ token _ t =>
    have h : f (w.setToken token t) = f w := hf.congr rfl rfl
    exact h.le.trans (Nat.le_add_right _ _)
  | passTime seconds =>
    have h : f { w with timestamp := w.timestamp + seconds } = f w := hf.congr rfl rfl
    exact h.le.trans (Nat.le_add_right _ _)
  | updateFeed feed round =>
    show _ ≤ f w + (f { w with feeds := Function.update w.feeds feed round } - f w)
    omega

theorem run {as : List Action} (hi : Inv w) (hl : Along Busc.exec Legal w as) :
    f (Machine.run Busc.exec w as) ≤ f w + tally Busc.exec (byPrices f) w as := by
  have h := (hi.run hl).2.le_add_mul_tally (m := fun w => -(f w : Int)) (f := byPrices f) (k := 1)
    fun v b ⟨hi, hl⟩ => by
      have := hf.exec hi hl
      omega
  omega

end OnlyByPrices

theorem onlyByPrices_shortfall (u : Address) : OnlyByPrices fun w => w.shortfall u where
  congr hb hm := by unfold World.shortfall; rw [hb, hm]
  call h := MotorOp.call_shortfall h u

theorem onlyByPrices_badDebt : OnlyByPrices World.badDebt where
  congr hb hm := by unfold World.badDebt; rw [hb, hm]
  call h := by
    unfold World.badDebt Book.badDebt
    exact Finset.sum_le_sum fun u _ => MotorOp.call_shortfall h u

end step

/-- The holdings cover the supply but for the bad debt. -/
theorem Inv.supply_le (hi : Inv w) :
    (w.erc20 w.motor.iBUSC).totalSupply.toNat ≤ w.holdings + w.badDebt := by
  have hle := w.book.sum_debt_le (m := w.market) (fun t => ((w.erc20 t).balances w.self).toNat)
    fun t _ => World.sum_deposit_le (hi.custody t)
  exact (World.supply_le_sum_debt hi.covered).trans hle

/-- Over any run, under any price history: an account lacks no more, and all accounts together no more,
than before and what the oracle updates added; and the holdings cover the supply but for that. -/
theorem bad_debt {w₀ : World} {as : List Action} (hr : Reachable w₀) (hl : Along exec Legal w₀ as) :
    let w := run exec w₀ as
    (∀ u, w.shortfall u ≤ w₀.shortfall u + tally exec (byPrices fun w => w.shortfall u) w₀ as) ∧
      w.badDebt ≤ w₀.badDebt + tally exec (byPrices World.badDebt) w₀ as ∧
        (w.erc20 w.motor.iBUSC).totalSupply.toNat ≤ w.holdings + w.badDebt :=
  ⟨fun u => (onlyByPrices_shortfall u).run hr.inv hl, onlyByPrices_badDebt.run hr.inv hl,
    (hr.run hl).inv.supply_le⟩

/-- The price of WETH falls from 4000 to 500, and account 7, which owes 1000 on one WETH, adds a tenth. -/
def Anvil.crash : List Action := [.updateFeed 3 (HelperConfig.mockRound 1 50000000000),
  .motor 7 (.depositCollateral 1 100000000000000000)]

theorem bad_debt_crash :
    tally exec (byPrices fun w => w.shortfall 7) Anvil.borrowed Anvil.crash = 500000000000000000000 ∧
      (run exec Anvil.borrowed Anvil.crash).shortfall 7 ≤ 500000000000000000000 := by
  have hr : Reachable Anvil.borrowed := Anvil.reachable (by decide +kernel)
  have hl : Along exec Legal Anvil.borrowed Anvil.crash := by decide +kernel
  have htally : tally exec (byPrices fun w => w.shortfall 7) Anvil.borrowed Anvil.crash =
      500000000000000000000 := by decide +kernel
  have h0 : Anvil.borrowed.shortfall 7 = 0 := by decide +kernel
  have h := (bad_debt hr hl).1 7
  rw [htally, h0, Nat.zero_add] at h
  exact ⟨htally, h⟩

end Busc
