import Busc.Liquidation

/-!
# How much can be borrowed and withdrawn

Within bounds on the configuration and the amounts nothing in the valuation overflows, whatever the
number of listed tokens, and custody covers every withdrawal. What is left of the reasons to revert is
the health check, so borrowing and withdrawing go through to the last wei of `2 * debt ≤ collateral`.
-/

namespace Busc
open Solidity Machine BUSCmotor

/-! ### Nobody is not a user -/

theorem Change.deposit_zero {w w' : World} {a : Action} (h : Change w a w')
    (h0 : ∀ t, w.deposit 0 t = 0) : ∀ t, w'.deposit 0 t = 0 := by
  cases h with
  | motor _ h =>
    exact MotorOp.call_legs (P := fun v => ∀ t, v.deposit 0 t = 0) h h0
      fun _ _ hleg hv t => hleg.deposit_eq_zero (hv t) fun e => e.2.1 e.1.symm
  | _ => exact h0

theorem Reachable.deposit_zero {w : World} (hr : Reachable w) (t : Address) : w.deposit 0 t = 0 := by
  obtain ⟨w₀, as, hd, hl, rfl⟩ := hr
  have h0 : ∀ t, w₀.deposit 0 t = 0 := by
    obtain ⟨c, tokens, feeds, -, hok⟩ := hd
    obtain ⟨-, -, rfl⟩ := deploy_eq_ok.1 hok
    exact fun _ => rfl
  refine (hl.inv (I := fun w => Inv w ∧ ∀ t, w.deposit 0 t = 0) ⟨hd.inv, h0⟩ ?_).1.2 t
  rintro w a ⟨hi, h0⟩ ha
  exact ⟨hi.exec ha, (hi.exec_change ha).deposit_zero h0⟩

namespace World

/-- The bounds under which the motor is used: the feeds answer, with `0` or more and less than `2 ^ 64`,
and the deposits of the account, with 18 decimals, and the supply are below `2 ^ 128`. -/
structure Bounded (w : World) (u : Address) : Prop where
  tokens : w.motor.collateralTokens.length ≤ 2 ^ 16
  decimals : ∀ t ∈ w.motor.collateralTokens, (w.decimals t).toNat ≤ 18
  fresh : ∀ t ∈ w.motor.collateralTokens, w.Fresh t
  answer : ∀ t ∈ w.motor.collateralTokens,
    0 ≤ (w.round t).answer.toInt ∧ (w.round t).answer.toInt < 2 ^ 64
  deposit : ∀ t ∈ w.motor.collateralTokens, w.scaled t (w.deposit u t).toNat < 2 ^ 128
  supply : (w.erc20 w.motor.iBUSC).totalSupply.toNat < 2 ^ 128

namespace Bounded
variable {w : World} {u t : Address} (h : w.Bounded u)
include h

theorem price_lt (ht : t ∈ w.motor.collateralTokens) : w.price t < 2 ^ 64 := by
  obtain ⟨hpos, hlt⟩ := h.answer t ht
  have he := toNat_eq_toInt hpos
  unfold price
  omega

theorem value_mul_lt (ht : t ∈ w.motor.collateralTokens) :
    w.price t * 10 ^ 10 * w.scaled t (w.deposit u t).toNat < 2 ^ 226 := by
  calc w.price t * 10 ^ 10 * w.scaled t (w.deposit u t).toNat
      ≤ 2 ^ 64 * 10 ^ 10 * w.scaled t (w.deposit u t).toNat :=
        Nat.mul_le_mul_right _ (Nat.mul_le_mul_right _ (h.price_lt ht).le)
    _ < 2 ^ 64 * 10 ^ 10 * 2 ^ 128 := Nat.mul_lt_mul_of_pos_left (h.deposit t ht) (by decide)
    _ < 2 ^ 226 := by decide

theorem quotable (ht : t ∈ w.motor.collateralTokens) : w.Quotable t (w.deposit u t).toNat := by
  have hp := h.price_lt ht
  have hv := h.value_mul_lt ht
  have hs := h.deposit t ht
  exact ⟨h.fresh t ht, h.decimals t ht, by omega, by omega, by omega⟩

theorem collateralValue_lt : w.collateralValue u < 2 ^ 190 := by
  have hle : w.collateralValue u ≤ w.motor.collateralTokens.length • 2 ^ 167 := by
    unfold collateralValue
    refine (List.sum_le_card_nsmul _ _ fun v hv => ?_).trans_eq (by rw [List.length_map])
    obtain ⟨t, ht, rfl⟩ := List.mem_map.1 hv
    have hm := h.value_mul_lt ht
    exact Nat.div_le_of_le_mul (by omega)
  have hlen := Nat.mul_le_mul_right (2 ^ 167) h.tokens
  rw [nsmul_eq_mul, Nat.cast_id] at hle
  omega

/-- The account can be valued after anything that lowers its deposits, whatever its debt then. -/
theorem valued {w' : World} (hf : w.Frame w')
    (hle : ∀ t, (w'.deposit u t).toNat ≤ (w.deposit u t).toNat) : w'.Valued u := by
  have hc := hf.collateralValue_le hle
  have hlt := h.collateralValue_lt
  refine ⟨fun t ht => hf.quotable.2 ((h.quotable (hf.collateralTokens ▸ ht)).mono (hle t)), ?_,
    .inr ⟨?_, ?_⟩⟩ <;> omega

end Bounded

/-! ### What the calls leave -/

/-- Debt, wallet and supply are higher by what was minted. -/
structure Drawn (w w' : World) (u : Address) (m : UInt256) : Prop where
  debt : (w'.debt u).toNat = (w.debt u).toNat + m.toNat
  balance : ((w'.erc20 w.motor.iBUSC).balances u).toNat =
    ((w.erc20 w.motor.iBUSC).balances u).toNat + m.toNat
  supply : (w'.erc20 w.motor.iBUSC).totalSupply.toNat =
    (w.erc20 w.motor.iBUSC).totalSupply.toNat + m.toNat
  deposit : w'.deposit = w.deposit
  others : ∀ v, v ≠ u → w'.debt v = w.debt v

/-- What was in the deposit of the token is in the wallet. -/
structure Withdrawn (w w' : World) (u t : Address) (a : UInt256) : Prop where
  deposit : (w'.deposit u t).toNat + a.toNat = (w.deposit u t).toNat
  balance : ((w'.erc20 t).balances u).toNat = ((w.erc20 t).balances u).toNat + a.toNat
  debt : w'.debt = w.debt
  supply : ∀ t', (w'.erc20 t').totalSupply = (w.erc20 t').totalSupply
  others : ∀ v t', (v ≠ u ∨ t' ≠ t) → w'.deposit v t' = w.deposit v t'

variable {w w' : World} {u t : Address} {m a : UInt256}

theorem drawn_minted (h : w.CanMint u m) : w.Drawn (w.minted h) u m := by
  have hle := (w.erc20 w.motor.iBUSC).balance_le_supply u
  have hsup := h.supply
  refine ⟨?_, ?_, ?_, rfl, fun v hv => (sameAccount_minted h hv).debt⟩
  · rw [debt_minted, if_pos rfl, BitVec.toNat_add_of_lt h.room]
  · rw [erc20_minted, if_pos rfl, ERC20.issue_balances, Function.update_self,
      BitVec.toNat_add_of_lt (by omega)]
  · rw [erc20_minted, if_pos rfl]
    exact BitVec.toNat_add_of_lt hsup

theorem withdrawn_pulled (hne : w.self ≠ u) (h : w.CanPull u u t a) : w.Withdrawn (w.pulled h) u t a := by
  have hle := BitVec.le_def.1 h.deposit
  refine ⟨?_, ?_, rfl, fun t' => totalSupply_pulled t' h, fun v t' hv => ?_⟩
  · rw [deposit_pulled, if_pos ⟨rfl, rfl⟩, toNat_sub_of_le h.deposit]
    omega
  · rw [erc20_pulled, if_pos rfl]
    exact ERC20.toNat_move_dst hne
  · rw [deposit_pulled, if_neg fun e => hv.elim (fun hu => hu e.1) fun ht => ht e.2]

end World

section limits
variable {w w' : World} {u t : Address} {m a : UInt256}

theorem drawn_of_mintBUSC (h : mintBUSC u m w = .ok w') : w.Drawn w' u m := by
  obtain ⟨-, -, -, hcan, -, rfl⟩ := mintBUSC_eq_ok.1 h
  exact World.drawn_minted hcan

theorem withdrawn_of_pullCollateral (hi : Inv w) (h : pullCollateral .exact u t a w = .ok w') :
    w.Withdrawn w' u t a := by
  have hne : u ≠ w.self :=
    hi.sender_ne (show (MotorOp.pullCollateral t a).call .exact u w = .ok w' from h)
  obtain ⟨-, -, hcan, -, rfl⟩ := pullCollateral_eq_ok.1 h
  exact World.withdrawn_pulled hne.symm hcan

theorem mintBUSC_iff (hr : Reachable w) (hb : w.Bounded u) (m : UInt256) :
    (∃ w', mintBUSC u m w = .ok w') ↔
      1 ≤ m.toNat ∧ 2 * ((w.debt u).toNat + m.toNat) ≤ w.collateralValue u := by
  have hi := hr.inv
  have hdebt (h : w.CanMint u m) : ((w.minted h).debt u).toNat = (w.debt u).toNat + m.toNat := by
    rw [World.debt_minted, if_pos rfl, BitVec.toNat_add_of_lt h.room]
  have hvalue (h : w.CanMint u m) : (w.minted h).collateralValue u = w.collateralValue u :=
    (World.frame_minted h).collateralValue rfl
  constructor
  · rintro ⟨w', h⟩
    obtain ⟨hm, -, -, hcan, hc, -⟩ := mintBUSC_eq_ok.1 h
    have hpos := toNat_pos_of_ne hm
    have hhealth := hc.2
    rw [World.Healthy, hdebt, hvalue] at hhealth
    omega
  · rintro ⟨hm, hle⟩
    have hlt := hb.collateralValue_lt
    have hsup := hb.supply
    have hu : u ≠ 0 := by
      rintro rfl
      rw [World.collateralValue_eq_zero hr.deposit_zero] at hle
      omega
    have hcan : w.CanMint u m := ⟨by omega, hi.owner, hu, by omega⟩
    have hbefore : w.Checked u := by
      refine ⟨hb.valued (.refl w) fun _ => le_rfl, .inr ?_⟩
      omega
    have hafter : (w.minted hcan).Checked u := by
      refine ⟨hb.valued (World.frame_minted hcan) fun _ => le_rfl, .inr ?_⟩
      rw [hdebt, hvalue]
      exact hle
    exact ⟨_, mintBUSC_eq_ok.2 ⟨ne_zero_of_toNat_pos hm, hi.idle, hbefore, hcan, hafter, rfl⟩⟩

theorem pullCollateral_iff (hr : Reachable w) (hb : w.Bounded u) (t : Address) (a : UInt256) :
    (∃ w', pullCollateral .exact u t a w = .ok w') ↔
      1 ≤ a.toNat ∧ a.toNat ≤ (w.deposit u t).toNat ∧
        ((w.debt u).toNat = 0 ∨ 2 * (w.debt u).toNat ≤ w.valueLeft u t a.toNat) := by
  have hi := hr.inv
  have hhealthy (h : w.CanPull u u t a) : (w.pulled h).Healthy u ↔
      (w.debt u).toNat = 0 ∨ 2 * (w.debt u).toNat ≤ w.valueLeft u t a.toNat := by
    rw [World.Healthy, World.collateralValue_pulled, World.debt_pulled]
  constructor
  · rintro ⟨w', h⟩
    obtain ⟨ha, -, hcan, hc, -⟩ := pullCollateral_eq_ok.1 h
    exact ⟨toNat_pos_of_ne ha, BitVec.le_def.1 hcan.deposit, (hhealthy hcan).1 hc.2⟩
  · rintro ⟨ha, hle, hc⟩
    have hu : u ≠ 0 := by
      rintro rfl
      rw [hr.deposit_zero] at hle
      exact absurd (ha.trans hle) (by decide)
    have hcan : w.CanPull u u t a := hi.canPull hu (BitVec.le_def.2 hle)
    have hafter : (w.pulled hcan).Valued u :=
      hb.valued (World.frame_pulled hcan) (World.deposit_pulled_le hcan u)
    exact ⟨_, pullCollateral_eq_ok.2
      ⟨ne_zero_of_toNat_pos ha, hi.idle, hcan, ⟨hafter, (hhealthy hcan).2 hc⟩, rfl⟩⟩

/-- Borrowing and withdrawing fail for no reason but their limits, and else do what they are asked. -/
theorem limits_exact (hr : Reachable w) (hb : w.Bounded u) :
    (∀ m : UInt256, ((∃ w', mintBUSC u m w = .ok w') ↔
      1 ≤ m.toNat ∧ 2 * ((w.debt u).toNat + m.toNat) ≤ w.collateralValue u) ∧
        ∀ w', mintBUSC u m w = .ok w' → w.Drawn w' u m) ∧
    (∀ (t : Address) (a : UInt256), ((∃ w', pullCollateral .exact u t a w = .ok w') ↔
      1 ≤ a.toNat ∧ a.toNat ≤ (w.deposit u t).toNat ∧
        ((w.debt u).toNat = 0 ∨ 2 * (w.debt u).toNat ≤ w.valueLeft u t a.toNat)) ∧
          ∀ w', pullCollateral .exact u t a w = .ok w' → w.Withdrawn w' u t a) ∧
    (∀ (t : Address) (a : UInt256), (w.debt u).toNat = 0 → 1 ≤ a.toNat →
      a.toNat ≤ (w.deposit u t).toNat → ∃ w', pullCollateral .exact u t a w = .ok w') ∧
    ∀ m : UInt256, 1 ≤ m.toNat → m.toNat = w.collateralValue u / 2 - (w.debt u).toNat →
      ∃ w', mintBUSC u m w = .ok w' := by
  refine ⟨fun m => ⟨mintBUSC_iff hr hb m, fun _ => drawn_of_mintBUSC⟩,
    fun t a => ⟨pullCollateral_iff hr hb t a, fun _ => withdrawn_of_pullCollateral hr.inv⟩,
    fun t a h0 ha hle => ?_, fun m hm hmax => ?_⟩
  · exact (pullCollateral_iff hr hb t a).2 ⟨ha, hle, .inl h0⟩
  · exact (mintBUSC_iff hr hb m).2 ⟨hm, by omega⟩

theorem Anvil.borrowed_bounded : Anvil.borrowed.Bounded 7 := by
  have hl : Anvil.borrowed.motor.collateralTokens = [1, 2] := by decide +kernel
  exact {
    tokens := by rw [hl]; decide
    decimals := forall_listed hl (by decide +kernel) (by decide +kernel)
    fresh := forall_listed hl (by decide +kernel) (by decide +kernel)
    answer := forall_listed hl (by decide +kernel) (by decide +kernel)
    deposit := forall_listed hl (by decide +kernel) (by decide +kernel)
    supply := by decide +kernel }

/-- With 1000 dollars drawn on 4000, another 1000 can be minted and not a wei more. -/
theorem limits_exact_borrowed : (∃ w', mintBUSC 7 1000000000000000000000 Anvil.borrowed = .ok w') ∧
    ¬ ∃ w', mintBUSC 7 1000000000000000000001 Anvil.borrowed = .ok w' := by
  have hr : Reachable Anvil.borrowed := Anvil.reachable (by decide +kernel)
  have h := limits_exact hr Anvil.borrowed_bounded
  exact ⟨(h.1 _).1.2 (by decide +kernel), (h.1 _).1.not.2 (by decide +kernel)⟩

end limits

end Busc
