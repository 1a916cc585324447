import Busc.Liquidation

/-!
# Conversions between tokens and dollars

The two conversions are rates rounded down, of one unit of 18 decimals at `price * 10 ^ 10` dollars of
18 decimals: there and back they lose less than a unit on either side and never gain. What a
liquidation seizes is one of them with a tenth on top, so paying a debt in several parts, over any run
and by any liquidators, takes at most what paying it at once takes, and less than two units less for
each part.
-/

namespace Busc
open Solidity Machine BUSCmotor Floor

namespace World
variable {w : World} {t : Address}

/-- An amount that can be valued is worth an amount that can be converted. -/
theorem Quotable.convertible {a : Nat} (h : w.Quotable t a) (hp : 0 < w.price t) :
    w.Convertible t (w.valueInUSD t a) :=
  ⟨h.fresh, (w.valueInUSD_mul_le t a).trans_lt h.value, h.price, hp⟩

/-- With 18 decimals, also the other way round. -/
theorem Convertible.quotable {x : Nat} (h : w.Convertible t x) (hd : (w.decimals t).toNat = 18) :
    w.Quotable t (w.tokenAmount t x) := by
  have hq := h.tokenAmount_lt
  have hle := w.tokenAmount_mul_le t x
  have hs := scaled_of_decimals hd (w.tokenAmount t x)
  refine ⟨h.fresh, hd.le, ?_, h.price, ?_⟩
  · rw [hs]
    omega
  · rw [hs, Nat.mul_comm]
    exact hle.trans_lt h.usd

end World

section views
variable {w : World} {t : Address}

theorem World.Quotable.exists_value {a : UInt256} (h : w.Quotable t a.toNat) :
    ∃ v : UInt256, v.toNat = w.valueInUSD t a.toNat ∧ getValueInUSD t a w = .ok v := by
  obtain ⟨v, hv⟩ := exists_toNat ((Nat.div_le_self _ (10 ^ 18)).trans_lt h.value)
  exact ⟨v, hv, getValueInUSD_eq_ok.2 ⟨h, hv⟩⟩

theorem World.Convertible.exists_amount {x : UInt256} (h : w.Convertible t x.toNat) :
    ∃ q : UInt256, q.toNat = w.tokenAmount t x.toNat ∧ getTokenAmountFromUSDwei t x w = .ok q := by
  have hq := h.tokenAmount_lt
  obtain ⟨q, hv⟩ := exists_toNat (n := w.tokenAmount t x.toNat) (by omega)
  exact ⟨q, hv, getTokenAmountFromUSDwei_eq_ok.2 ⟨h, hv⟩⟩

/-- The two conversions composed in either order, wherever they do not revert. -/
theorem conversion_roundtrip (hp : 0 < w.price t) :
    (∀ a : UInt256, w.Quotable t a.toNat → ∃ v r, getValueInUSD t a w = .ok v ∧
      getTokenAmountFromUSDwei t v w = .ok r ∧ r.toNat ≤ w.scaled t a.toNat ∧
        (w.scaled t a.toNat - r.toNat) * (w.price t * 10 ^ 10) < 10 ^ 18 + w.price t * 10 ^ 10 ∧
          (10 ^ 8 ≤ w.price t → w.scaled t a.toNat - r.toNat ≤ 1)) ∧
    ((w.decimals t).toNat = 18 → ∀ x : UInt256, w.Convertible t x.toNat →
      ∃ r v, getTokenAmountFromUSDwei t x w = .ok r ∧ getValueInUSD t r w = .ok v ∧
        v.toNat ≤ x.toNat ∧ (x.toNat - v.toNat) * 10 ^ 18 < w.price t * 10 ^ 10 + 10 ^ 18) := by
  have hP : 0 < w.price t * 10 ^ 10 := Nat.mul_pos hp (by decide)
  constructor
  · intro a ha
    obtain ⟨v, hv, hvok⟩ := ha.exists_value
    obtain ⟨r, hr, hrok⟩ := World.Convertible.exists_amount (x := v) (hv ▸ ha.convertible hp)
    rw [hv, World.tokenAmount_eq_rate, World.valueInUSD_eq_rate] at hr
    have hlt : (w.scaled t a.toNat - r.toNat) * (w.price t * 10 ^ 10) <
        w.price t * 10 ^ 10 + 10 ^ 18 := by
      rw [hr]
      exact sub_rate_rate_mul_lt _ hP (by decide)
    refine ⟨v, r, hvok, hrok, ?_, by omega, fun hone => ?_⟩
    · rw [hr]
      exact rate_rate_le _ _ _
    · have h2 : (w.scaled t a.toNat - r.toNat) * (w.price t * 10 ^ 10) < 2 * (w.price t * 10 ^ 10) := by
        omega
      exact Nat.le_of_lt_succ (Nat.lt_of_mul_lt_mul_right h2)
  · intro hd x hx
    obtain ⟨r, hr, hrok⟩ := hx.exists_amount
    obtain ⟨v, hv, hvok⟩ := World.Quotable.exists_value (a := r) (hr ▸ hx.quotable hd)
    rw [hr, World.valueInUSD_eq_rate, World.scaled_of_decimals hd, World.tokenAmount_eq_rate] at hv
    refine ⟨r, v, hrok, hvok, ?_, ?_⟩
    · rw [hv]
      exact rate_rate_le _ _ _
    · rw [hv, Nat.add_comm]
      exact sub_rate_rate_mul_lt _ (by decide) hP

end views

/-- 1.23456789 WBTC at 112000 dollars, and 1000 dollars and one wei in WETH at 4000. -/
theorem conversion_roundtrip_anvil :
    (∃ v r, getValueInUSD 2 123456789 Anvil.world = .ok v ∧
      getTokenAmountFromUSDwei 2 v Anvil.world = .ok r ∧ Anvil.world.scaled 2 123456789 - r.toNat ≤ 1) ∧
    ∃ r v, getTokenAmountFromUSDwei 1 1000000000000000000001 Anvil.world = .ok r ∧
      getValueInUSD 1 r Anvil.world = .ok v ∧ v.toNat ≤ 1000000000000000000001 := by
  constructor
  · obtain ⟨v, r, hv, hr, -, -, h⟩ :=
      (conversion_roundtrip (w := Anvil.world) (t := 2) (by decide)).1 123456789 (by decide +kernel)
    exact ⟨v, r, hv, hr, h (by decide)⟩
  · obtain ⟨r, v, hr, hv, h, -⟩ := (conversion_roundtrip (w := Anvil.world) (t := 1) (by decide)).2 rfl
      1000000000000000000001 ⟨by decide, by decide, by decide, by decide⟩
    exact ⟨r, v, hr, hv, h⟩

/-! ### Paying in parts -/

theorem World.seized_splits (w : World) (t : Address) : Splits (w.seized t) 2 where
  add_le x y := by
    have h := rate_splits.add_le (f := rate (10 ^ 18) (w.price t * 10 ^ 10)) x y
    simp only [← World.tokenAmount_eq_rate] at h
    unfold World.seized
    omega
  le_add x y := by
    have h := rate_splits.le_add (f := rate (10 ^ 18) (w.price t * 10 ^ 10)) x y
    simp only [← World.tokenAmount_eq_rate] at h
    unfold World.seized
    -- one unit of the conversion may carry into the tenth
    omega

/-- The debt an action pays, if it is a liquidation of `user` in `token` that goes through. -/
def covered (token user : Address) (w : World) : Action → Option Nat
  | .motor sender (.liquidate t u x) =>
    if t = token ∧ u = user then
      match liquidate .exact sender t u x w with
      | .ok _ => some x.toNat
      | .error _ => none
    else none
  | _ => none

/-- What leaves the deposit of `user` at such an action. -/
def taken (token user : Address) (w : World) (a : Action) : Option Nat :=
  (covered token user w a).map fun _ =>
    (w.deposit user token).toNat - ((exec w a).deposit user token).toNat

theorem covered_eq_some {token user : Address} {w : World} {a : Action} {x : Nat}
    (h : covered token user w a = some x) : ∃ sender y w', a = .motor sender (.liquidate token user y) ∧
      liquidate .exact sender token user y w = .ok w' ∧ y.toNat = x := by
  unfold covered at h
  split at h
  · next sender t u y =>
    split_ifs at h with he
    obtain ⟨rfl, rfl⟩ := he
    cases hw : liquidate .exact sender t u y w with
    | error e => simp [hw] at h
    | ok w' =>
      rw [hw] at h
      exact ⟨sender, y, w', rfl, hw, Option.some.inj h⟩
  · simp at h

theorem taken_eq (token user : Address) (w : World) (a : Action) :
    taken token user w a = (covered token user w a).map (w.seized token) := by
  unfold taken
  cases hx : covered token user w a with
  | none => rw [Option.map_none, Option.map_none]
  | some x =>
    obtain ⟨sender, y, w', rfl, hok, rfl⟩ := covered_eq_some hx
    have hdep : (w'.deposit user token).toNat + w.seized token y.toNat = (w.deposit user token).toNat :=
      (swap_of_liquidate hok).deposit
    have hcall : (MotorOp.liquidate token user y).call .exact sender w = .ok w' := hok
    rw [Option.map_some, Option.map_some, exec, outcome_ok hcall]
    exact congrArg some (by omega)

/-- Any debts, paid in any number of liquidations of one user in one token at one price, by any
liquidators and with any other steps in between. -/
theorem split_liquidation (t u : Address) :
    (∀ (w : World) x q, getTokenAmountFromUSDwei t x w = .ok q →
      w.seized t x.toNat = q.toNat + q.toNat * 10 / 100) ∧
    (∀ (w : World) xs, xs ≠ [] → (xs.map (w.seized t)).sum ≤ w.seized t xs.sum ∧
      w.seized t xs.sum < (xs.map (w.seized t)).sum + 2 * xs.length) ∧
    ∀ (v w : World) as, Along exec (fun w a => covered t u w a ≠ none → w.price t = v.price t) w as →
      readings exec (covered t u) w as ≠ [] →
        (readings exec (taken t u) w as).sum ≤ v.seized t (readings exec (covered t u) w as).sum ∧
          v.seized t (readings exec (covered t u) w as).sum < (readings exec (taken t u) w as).sum +
            2 * (readings exec (covered t u) w as).length := by
  have hlist (w : World) (xs : List Nat) (hne : xs ≠ []) :
      (xs.map (w.seized t)).sum ≤ w.seized t xs.sum ∧
        w.seized t xs.sum < (xs.map (w.seized t)).sum + 2 * xs.length := by
    have hle := (w.seized_splits t).le_sum hne
    have hlen := List.length_pos_iff.2 hne
    rw [nsmul_eq_mul, Nat.cast_id] at hle
    exact ⟨(w.seized_splits t).sum_le (Nat.zero_le _), by omega⟩
  refine ⟨fun w x q h => ?_, hlist, fun v w as h hne => ?_⟩
  · rw [World.seized, (getTokenAmountFromUSDwei_eq_ok.1 h).2]
  · have hmap : readings exec (taken t u) w as =
        (readings exec (covered t u) w as).map (v.seized t) := by
      refine h.readings_eq_map fun s a hprice => ?_
      rw [taken_eq]
      cases hx : covered t u s a with
      | none => rw [Option.map_none, Option.map_none]
      | some x =>
        have hp := hprice (by simp [hx])
        simp only [Option.map_some, World.seized, World.tokenAmount, hp]
    rw [hmap]
    exact hlist v _ hne

/-- Account 8 pays 500 of the debt of account 7 and passes 500 on to account 9, which pays them. -/
def Anvil.inParts : List Action := [.motor 8 (.liquidate 1 7 500000000000000000000),
  .token 8 5 (.transfer 9 500000000000000000000), .token 9 5 (.approve 6 500000000000000000000),
  .motor 9 (.liquidate 1 7 500000000000000000000)]

theorem split_liquidation_inParts :
    readings exec (covered 1 7) Anvil.wethFalls Anvil.inParts =
      [500000000000000000000, 500000000000000000000] ∧
    (readings exec (taken 1 7) Anvil.wethFalls Anvil.inParts).sum ≤
      Anvil.wethFalls.seized 1 (readings exec (covered 1 7) Anvil.wethFalls Anvil.inParts).sum :=
  ⟨by decide +kernel,
    ((split_liquidation 1 7).2.2 Anvil.wethFalls _ _ (by decide +kernel) (by decide +kernel)).1⟩

end Busc
