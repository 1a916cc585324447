import Busc.Health

/-!
# Solvency while prices do not fall

Four facts make the motor solvent: every account is healthy, supply never exceeds the recorded debt,
the motor holds what is deposited, and the value of a whole is at least the values of its parts. The
last three hold in every reachable state. The first one is kept by every operation, and by an oracle
update that does not lower a price. The feeds' answers are signed and the source casts them to
`uint256`, so that "not lower" carries over to prices only from answers that are not negative; as
long as there is debt they are not, since no debt is minted under a negative answer.
-/

namespace Busc
open Solidity WordMap Machine BUSCmotor Cdp

def World.Signed (w : World) : Prop :=
  ∀ t ∈ w.motor.collateralTokens, 0 ≤ (w.round t).answer.toInt

/-- An account that owes something is healthy, at prices that are not negative. -/
def World.Backed (w : World) : Prop := ∀ u, w.debt u = 0 ∨ w.Signed ∧ w.Healthy u

def World.holdings (w : World) : Nat :=
  (w.motor.collateralTokens.map fun t =>
    w.valueInUSD t ((w.erc20 t).balances w.self).toNat).sum

/-- An oracle update does not lower its feed's answer. -/
def NonFalling (w : World) : Action → Prop
  | .updateFeed feed round => (w.feeds feed).answer.toInt ≤ round.answer.toInt
  | _ => True

instance (w : World) : ∀ a, Decidable (NonFalling w a)
  | .updateFeed feed round =>
    inferInstanceAs (Decidable ((w.feeds feed).answer.toInt ≤ round.answer.toInt))
  | .motor .. | .token .. | .owner .. | .passTime .. => inferInstanceAs (Decidable True)

namespace World
variable {w w' : World} {user : Address}

theorem Valued.signed (h : w.Valued user) : w.Signed := by
  intro t ht
  by_contra hneg
  have hp := (h.quotable t ht).price
  have hbig := le_toNat_of_toInt_neg (Int.not_le.1 hneg)
  unfold price at hp
  omega

theorem Frame.signed (h : w.Frame w') : w'.Signed ↔ w.Signed := by
  unfold Signed; rw [h.collateralTokens, h.round]

theorem Backed.healthy (h : w.Backed) (u : Address) : w.Healthy u := by
  rcases h u with h0 | ⟨-, hu⟩
  · exact .inl (by rw [h0]; rfl)
  · exact hu

theorem Backed.call {sender : Address} {op : MotorOp} (h : w.Backed)
    (hok : op.call .exact sender w = .ok w') : w'.Backed := by
  intro u
  by_cases hop : ∃ t a, op = .depositCollateral t a
  · obtain ⟨t, a, rfl⟩ := hop
    obtain ⟨-, -, -, hd, rfl⟩ := depositCollateral_eq_ok.1 hok
    rcases h u with h0 | ⟨hs, hu⟩
    · exact .inl h0
    · exact .inr ⟨(w.frame_deposited hd).signed.2 hs, MotorOp.call_healthy hok hu⟩
  · have hc := MotorOp.call_checked hok fun t a e => hop ⟨t, a, e⟩
    exact .inr ⟨hc.1.signed, MotorOp.call_healthy hok (h.healthy u)⟩

theorem Backed.setToken {token : Address} {t : ERC20} (h : w.Backed) : (w.setToken token t).Backed :=
  fun u => (h u).imp id fun ⟨hs, hu⟩ =>
    ⟨(Frame.setToken w token t).signed.2 hs, ((Frame.setToken w token t).healthy rfl rfl).2 hu⟩

theorem Backed.updateFeed {feed : Address} {round : RoundData} (h : w.Backed)
    (hup : (w.feeds feed).answer.toInt ≤ round.answer.toInt) :
    ({ w with feeds := Function.update w.feeds feed round } : World).Backed := by
  set w' : World := { w with feeds := Function.update w.feeds feed round }
  intro u
  rcases h u with h0 | ⟨hs, hu⟩
  · exact .inl h0
  have hge (t : Address) : (w.round t).answer.toInt ≤ (w'.round t).answer.toInt := by
    show (w.feeds _).answer.toInt ≤ (Function.update w.feeds feed round _).answer.toInt
    rw [Function.update_apply]
    split
    · next e => rw [show w.motor.tokenToPriceFeed t = feed from e]; exact hup
    · exact le_rfl
  have hprice (t : Address) (ht : t ∈ w.motor.collateralTokens) : w.price t ≤ w'.price t := by
    have h1 := toNat_eq_toInt (hs t ht)
    have h2 := toNat_eq_toInt ((hs t ht).trans (hge t))
    have h3 := hge t
    unfold price
    omega
  refine .inr ⟨fun t ht => (hs t ht).trans (hge t), ?_⟩
  have hbook : w'.book = w.book := rfl
  rw [← safe_iff_healthy, hbook]
  refine (safe_iff_healthy.2 hu).reprice rfl fun t ht => ?_
  exact Nat.div_le_div_right (Nat.mul_le_mul_right _ (Nat.mul_le_mul_right _ (hprice t ht)))

theorem sum_deposit_le {t : Address} (hcus : 0 ≤ w.slack t) :
    ∑ u, w.book.deposit u t ≤ ((w.erc20 t).balances w.self).toNat := by
  have hdep : ∑ u, (w.deposit u t).toNat = w.totalDeposits t := (total_eq_sum _).symm
  show ∑ u, (w.deposit u t).toNat ≤ _
  unfold slack at hcus
  omega

theorem supply_le_sum_debt (hcov : 0 ≤ w.drift) :
    (w.erc20 w.motor.iBUSC).totalSupply.toNat ≤ ∑ u, w.book.debt u := by
  have hdebt : ∑ u, (w.debt u).toNat = w.totalDebt := (total_eq_sum _).symm
  show _ ≤ ∑ u, (w.debt u).toNat
  unfold drift at hcov
  omega

/-- What every account keeps towards its debt, the holdings keep towards the supply. -/
theorem mul_supply_le_holdings {r : Nat} (hs : ∀ u, w.book.Safe w.market r u)
    (hcus : ∀ t, 0 ≤ w.slack t) (hcov : 0 ≤ w.drift) :
    r * (w.erc20 w.motor.iBUSC).totalSupply.toNat ≤ w.holdings :=
  (Nat.mul_le_mul_left r (supply_le_sum_debt hcov)).trans
    (Book.solvent hs (fun t => ((w.erc20 t).balances w.self).toNat) fun t _ => sum_deposit_le (hcus t))

end World

theorem backed_exec {w : World} {a : Action} (hi : Inv w) (hl : Legal w a) (hup : NonFalling w a)
    (h : w.Backed) : (exec w a).Backed := by
  have hch := hi.exec_change hl
  revert hch
  generalize exec w a = w'
  rintro (_ | ⟨-, hok⟩ | _ | _ | ⟨feed, round⟩)
  · exact h
  · exact h.call hok
  · exact h.setToken
  · exact h
  · exact h.updateFeed hup

/-- The motor's holdings cover twice the supply, whatever the accounts do, as long as no oracle
update lowers an answer; and while there is supply the answers that say so are not negative. -/
theorem solvent_of_nonFalling {w₀ : World} {as : List Action} (hd : Deployed w₀)
    (hrun : Along exec (fun w a => Legal w a ∧ NonFalling w a) w₀ as) :
    let w := run exec w₀ as
    2 * (w.erc20 w.motor.iBUSC).totalSupply.toNat ≤ w.holdings ∧
      ((w.erc20 w.motor.iBUSC).totalSupply ≠ 0 → w.Signed) := by
  intro w
  have hstart : w₀.Backed := fun u => .inl (by rw [hd.debt])
  obtain ⟨hi, hb⟩ : Inv w ∧ w.Backed := (hrun.inv (I := fun w => Inv w ∧ w.Backed) ⟨hd.inv, hstart⟩
    fun _ _ ⟨hi, hb⟩ ⟨hl, hup⟩ => ⟨hi.exec hl, backed_exec hi hl hup hb⟩).1
  refine ⟨World.mul_supply_le_holdings hb.healthy hi.custody hi.covered, fun hsup => ?_⟩
  by_contra hneg
  have hzero : ∑ u, w.book.debt u = 0 := Finset.sum_eq_zero fun u _ => by
    rcases hb u with h0 | ⟨hs, -⟩
    · exact congrArg BitVec.toNat h0
    · exact absurd hs hneg
  have hle := World.supply_le_sum_debt hi.covered
  rw [hzero] at hle
  exact absurd (toNat_pos_of_ne hsup) (Nat.not_lt.2 hle)

/-- Account 7 deposits one WETH, draws 2000 BUSC on it and burns half; then the price rises. -/
def Anvil.rally : List Action :=
  [.token 7 1 (.approve 6 1000000000000000000), .motor 7 (.depositCollateral 1 1000000000000000000),
    .motor 7 (.mintBUSC 2000000000000000000000), .token 7 5 (.approve 6 1000000000000000000000),
    .motor 7 (.burnBUSC 1000000000000000000000), .passTime 3600,
    .updateFeed 3 (HelperConfig.mockRound 3601 450000000000)]

theorem solvent_rally :
    2 * ((run exec Anvil.world Anvil.rally).erc20 5).totalSupply.toNat ≤
        (run exec Anvil.world Anvil.rally).holdings ∧
      ((run exec Anvil.world Anvil.rally).erc20 5).totalSupply = 1000000000000000000000 :=
  ⟨(solvent_of_nonFalling Anvil.deployed (by decide +kernel)).1,
    by decide +kernel⟩

end Busc
