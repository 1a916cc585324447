import Busc.Invariant
import Busc.Lib.Cdp

/-!
# Only a price move makes an account unhealthy

The motor's storage is a book of collateralized positions and its feeds are a market; healthy is safe
at ratio 2, to the last wei of the source's nested floors. Every successful operation is a step of
that book: the caller is checked or only adds collateral, the target of a liquidation was not safe,
and every other account is left alone.
-/

namespace Busc
open Solidity BUSCmotor Cdp

namespace World
variable (w : World)

theorem valueInUSD_add (t : Address) (a b : Nat) :
    w.valueInUSD t a + w.valueInUSD t b ≤ w.valueInUSD t (a + b) := by
  unfold valueInUSD scaled
  rw [Nat.add_mul, Nat.mul_add]
  exact Nat.div_add_div_le_add_div

/-- The prices the motor reads. -/
def market : Market Address where
  listed := w.motor.collateralTokens
  value := w.valueInUSD
  value_add := w.valueInUSD_add

/-- The positions the motor records. -/
def book : Book Address Address where
  deposit user token := (w.deposit user token).toNat
  debt user := (w.debt user).toNat

variable {w} {w' : World} {user : Address}

theorem safe_iff_healthy : w.book.Safe w.market 2 user ↔ w.Healthy user := Iff.rfl

theorem market_congr (hl : w'.motor.collateralTokens = w.motor.collateralTokens)
    (hv : w'.valueInUSD = w.valueInUSD) : w'.market = w.market := by
  simp only [World.market, hl, hv]

theorem Frame.market (h : w.Frame w') : w'.market = w.market :=
  market_congr h.collateralTokens h.valueInUSD

theorem SameAccount.fate (h : w.SameAccount w' user) : Book.Fate w.book w'.book w.market 2 user :=
  .raised (fun t _ => (congrArg BitVec.toNat (congrFun h.deposit t)).ge)
    (congrArg BitVec.toNat h.debt).le

end World

variable {sender : Address} {op : MotorOp} {w w' : World}

theorem fate_of_checked {user : Address} (hf : w.Frame w') (h : w'.Checked user) :
    Book.Fate w.book w'.book w.market 2 user :=
  .checked (hf.market ▸ h.2)

theorem fate_setDeposit {user token v : Address} {x : UInt256}
    (hx : (w.deposit user token).toNat ≤ x.toNat) :
    Book.Fate w.book (w.setDeposit user token x).book w.market 2 v := by
  refine .raised (fun t _ => ?_) le_rfl
  show (w.deposit v t).toNat ≤ ((w.setDeposit user token x).deposit v t).toNat
  rw [World.deposit_setDeposit]
  split
  · next e => rw [e.1, e.2]; exact hx
  · exact le_rfl

theorem fate_deposited {user token v : Address} {amount : UInt256}
    (h : w.CanDeposit user token amount) : Book.Fate w.book (w.deposited h).book w.market 2 v :=
  fate_setDeposit (by rw [BitVec.toNat_add_of_lt h.room]; exact Nat.le_add_right _ _)

namespace MotorOp

/-- An operation checks its caller at the end, unless it only deposits. -/
theorem call_checked (h : op.call .exact sender w = .ok w')
    (hop : ∀ t a, op ≠ .depositCollateral t a) : w'.Checked sender := by
  cases op with
  | depositCollateralAndMintBUSC t a m =>
    obtain ⟨-, -, -, -, hd, -, hm, hc, rfl⟩ := depositCollateralAndMintBUSC_eq_ok.1 h
    exact hc
  | depositCollateral t a => exact absurd rfl (hop t a)
  | mintBUSC m =>
    obtain ⟨-, -, -, hm, hc, rfl⟩ := mintBUSC_eq_ok.1 h
    exact hc
  | pullCollateralAndBurnBUSC t a b =>
    obtain ⟨-, -, hb, hp, hc, rfl⟩ := pullCollateralAndBurnBUSC_eq_ok.1 h
    exact hc
  | pullCollateral t a =>
    obtain ⟨-, -, hp, hc, rfl⟩ := pullCollateral_eq_ok.1 h
    exact hc
  | burnBUSC b =>
    obtain ⟨hb, hc, rfl⟩ := burnBUSC_eq_ok.1 h
    exact hc
  | liquidate t u x =>
    obtain ⟨-, -, -, -, -, -, s, -, hp, hb, -, -, hc, rfl⟩ := liquidate_eq_ok.1 h
    exact hc

/-- The accounts an operation may change: the caller's, and the one it liquidates. -/
def Touches (op : MotorOp) (sender v : Address) : Prop :=
  v = sender ∨ ∃ t x, op = .liquidate t v x

theorem call_sameAccount (h : op.call .exact sender w = .ok w') {v : Address}
    (hv : ¬ op.Touches sender v) : w.SameAccount w' v := by
  obtain ⟨hne, hliq⟩ := not_or.1 hv
  cases op with
  | depositCollateralAndMintBUSC t a m =>
    obtain ⟨-, -, -, -, hd, -, hm, -, rfl⟩ := depositCollateralAndMintBUSC_eq_ok.1 h
    exact (World.sameAccount_deposited hd hne).trans (World.sameAccount_minted hm hne)
  | depositCollateral t a =>
    obtain ⟨-, -, -, hd, rfl⟩ := depositCollateral_eq_ok.1 h
    exact World.sameAccount_deposited hd hne
  | mintBUSC m =>
    obtain ⟨-, -, -, hm, -, rfl⟩ := mintBUSC_eq_ok.1 h
    exact World.sameAccount_minted hm hne
  | pullCollateralAndBurnBUSC t a b =>
    obtain ⟨-, -, hb, hp, -, rfl⟩ := pullCollateralAndBurnBUSC_eq_ok.1 h
    exact (World.sameAccount_burned hb hne).trans (World.sameAccount_pulled hp hne)
  | pullCollateral t a =>
    obtain ⟨-, -, hp, -, rfl⟩ := pullCollateral_eq_ok.1 h
    exact World.sameAccount_pulled hp hne
  | burnBUSC b =>
    obtain ⟨hb, -, rfl⟩ := burnBUSC_eq_ok.1 h
    exact World.sameAccount_burned hb hne
  | liquidate t u x =>
    obtain ⟨-, -, -, -, -, -, s, -, hp, hb, -, -, -, rfl⟩ := liquidate_eq_ok.1 h
    have hu : v ≠ u := fun e => hliq ⟨t, x, by rw [e]⟩
    exact (World.sameAccount_pulled hp hu).trans (World.sameAccount_burned hb hu)

theorem call_step (h : op.call .exact sender w = .ok w') :
    Book.Step w.book w'.book w.market 2 := by
  intro v
  by_cases hv : op.Touches sender v
  swap
  · exact (call_sameAccount h hv).fate
  by_cases hop : ∃ t a, op = .depositCollateral t a
  · obtain ⟨t, a, rfl⟩ := hop
    obtain ⟨-, -, -, hd, rfl⟩ := depositCollateral_eq_ok.1 h
    exact fate_deposited hd
  rcases hv with rfl | ⟨t, x, rfl⟩
  · exact fate_of_checked (call_frame h) (call_checked h fun t a e => hop ⟨t, a, e⟩)
  · obtain ⟨-, -, -, -, hunsafe, -⟩ := liquidate_eq_ok.1 h
    exact .exposed hunsafe

theorem call_healthy (h : op.call .exact sender w = .ok w') {v : Address} (hv : w.Healthy v) :
    w'.Healthy v := by
  have hs := (call_step h v).safe hv
  rw [← (call_frame h).market] at hs
  exact hs

end MotorOp

/-- At unchanged prices a successful operation keeps every healthy account healthy, and but for a
deposit it leaves its caller healthy. -/
theorem health_kept (h : op.call .exact sender w = .ok w') :
    w'.valueInUSD = w.valueInUSD ∧ (∀ u, w.Healthy u → w'.Healthy u) ∧
      ((∀ t a, op ≠ .depositCollateral t a) → w'.Healthy sender) :=
  ⟨(MotorOp.call_frame h).valueInUSD, fun _ => MotorOp.call_healthy h,
    fun hop => (MotorOp.call_checked h hop).2⟩

/-- Account 7 has one WETH deposited and 1000 BUSC drawn on it. -/
def Anvil.borrowed : World := Machine.run exec world (approvals ++
  [.motor 7 (.depositCollateral 1 1000000000000000000), .motor 7 (.mintBUSC 1000000000000000000000)])

theorem health_kept_borrowed : ∃ w', (MotorOp.mintBUSC 1000000000000000000000).call .exact 7
    Anvil.borrowed = .ok w' ∧ w'.Healthy 7 ∧ ∀ u, Anvil.borrowed.Healthy u → w'.Healthy u := by
  have h : (MotorOp.mintBUSC 1000000000000000000000).call .exact 7 Anvil.borrowed =
      .ok (exec Anvil.borrowed (.motor 7 (.mintBUSC 1000000000000000000000))) := by rfl
  exact ⟨_, h, (health_kept h).2.2 nofun, (health_kept h).2.1⟩

end Busc
