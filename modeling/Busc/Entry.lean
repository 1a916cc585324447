import Busc.Legs

/-!
# The entry points

When each public function of the motor returns and with which state, in terms of its legs. The
functions that call into a collateral token are inverted for any `erc` first, up to the call; from
that and the legs of the exact token follows the equation for the plain ERC20.
-/

namespace Busc
open Solidity WordMap BUSCmotor

namespace World
variable {w : World} {user token src dst whose payer : Address} {amount : UInt256}

theorem frame_deposited (h : w.CanDeposit user token amount) : w.Frame (w.deposited h) :=
  ⟨rfl, rfl, rfl, rfl, rfl, rfl, rfl, rfl⟩

theorem frame_pulled (h : w.CanPull src dst token amount) : w.Frame (w.pulled h) :=
  ⟨rfl, rfl, rfl, rfl, rfl, rfl, rfl, rfl⟩

theorem frame_minted (h : w.CanMint user amount) : w.Frame (w.minted h) :=
  ⟨rfl, rfl, rfl, rfl, rfl, rfl, rfl, rfl⟩

theorem frame_burned (h : w.CanBurn whose payer amount) : w.Frame (w.burned h) :=
  ⟨rfl, rfl, rfl, rfl, rfl, rfl, rfl, rfl⟩

theorem Frame.checked {w' : World} (h : w.Frame w') (hd : w'.deposit user = w.deposit user)
    (hD : w'.debt user = w.debt user) : w'.Checked user ↔ w.Checked user :=
  and_congr (h.valued hd hD) (h.healthy hd hD)

theorem checked_setStatus {s : Status} : (w.setStatus s).Checked user ↔ w.Checked user :=
  (Frame.setStatus w s).checked rfl rfl

theorem valued_setStatus {s : Status} : (w.setStatus s).Valued user ↔ w.Valued user :=
  (Frame.setStatus w s).valued rfl rfl

theorem checked_setToken {t : ERC20} : (w.setToken token t).Checked user ↔ w.Checked user :=
  (Frame.setToken w token t).checked rfl rfl

end World

section spec
variable {erc : IERC20} {w w' : World} {sender token user : Address} {amount x m b : UInt256}

theorem checkHealth_eq_ok {u : Unit} : _revertOnBrokenHealthFactor user w = .ok u ↔ w.Checked user :=
  revertOnBrokenHealthFactor_eq_ok

/-! ### For any collateral token -/

theorem pullCollateral_ext_eq_ok : pullCollateral erc sender token amount w = .ok w' ↔
    amount ≠ 0 ∧ w.Idle ∧ ∃ w₁,
      _pullCollateral erc sender sender token amount (w.setStatus .entered) = .ok w₁ ∧
        w₁.Checked sender ∧ w' = w₁.setStatus .notEntered := by
  simp only [pullCollateral, bind_eq_ok, greaterThanZero_eq_ok, exists_const, nonReentrant_eq_ok,
    checkHealth_eq_ok, pure_eq_ok]
  refine and_congr_right fun _ => and_congr_right fun _ => ?_
  constructor
  · rintro ⟨_, ⟨_, h, hc, rfl⟩, rfl⟩; exact ⟨_, h, hc, rfl⟩
  · rintro ⟨_, h, hc, rfl⟩; exact ⟨_, ⟨_, h, hc, rfl⟩, rfl⟩

theorem pullCollateralAndBurnBUSC_ext_eq_ok :
    pullCollateralAndBurnBUSC erc sender token amount b w = .ok w' ↔
      amount ≠ 0 ∧ w.Listed token ∧ ∃ h : w.CanBurn sender sender b,
        _pullCollateral erc sender sender token amount (w.burned h) = .ok w' ∧
          w'.Checked sender := by
  simp only [pullCollateralAndBurnBUSC, bind_eq_ok, greaterThanZero_eq_ok, exists_const,
    protocolAllowedToken_eq_ok, checkHealth_eq_ok, pure_eq_ok, burn_eq_ok]
  constructor
  · rintro ⟨-, ha, hl, _, ⟨h, rfl⟩, _, hp, hc, rfl⟩; exact ⟨ha, hl, h, hp, hc⟩
  · rintro ⟨ha, hl, h, hp, hc⟩; exact ⟨h.amount_ne, ha, hl, _, ⟨h, rfl⟩, _, hp, hc, rfl⟩

theorem liquidate_ext_eq_ok : liquidate erc sender token user x w = .ok w' ↔
    x ≠ 0 ∧ w.Listed token ∧ w.Idle ∧ w.Valued user ∧ ¬ w.Healthy user ∧
      w.Convertible token x.toNat ∧ ∃ s : UInt256, s.toNat = w.seized token x.toNat ∧
        ∃ w₁, _pullCollateral erc user sender token s (w.setStatus .entered) = .ok w₁ ∧
          ∃ h : w₁.CanBurn user sender x, (w₁.burned h).Valued user ∧
            w.factor user < (w₁.burned h).factor user ∧ (w₁.burned h).Checked sender ∧
              w' = (w₁.burned h).setStatus .notEntered := by
  have hmin : minimumHealthFactor.toNat = 10 ^ 18 := rfl
  have hcv : (w.setStatus .entered).Convertible token x.toNat ↔ w.Convertible token x.toNat :=
    ⟨fun h => ⟨h.fresh, h.usd, h.price, h.pos⟩, fun h => ⟨h.fresh, h.usd, h.price, h.pos⟩⟩
  simp only [liquidate, bind_eq_ok, greaterThanZero_eq_ok, exists_const, protocolAllowedToken_eq_ok,
    nonReentrant_eq_ok, healthFactor_eq_ok, revertIf_eq_ok, checkHealth_eq_ok, pure_eq_ok,
    burn_eq_ok, exists_seized_iff, ge_iff_le, BitVec.le_def, hmin, World.valued_setStatus, hcv,
    World.healthy_iff, Nat.not_le]
  refine and_congr_right fun _ => and_congr_right fun _ => and_congr_right fun _ => ?_
  constructor
  · rintro ⟨_, ⟨v, ⟨hV, hv⟩, hlt, hcv, s, hs, w₁, hp, _, ⟨h, rfl⟩, v', ⟨hV', hv'⟩, hup, hc, rfl⟩, rfl⟩
    rw [hv, hv'] at hup
    exact ⟨hV, hv ▸ hlt, hcv, s, hs, w₁, hp, h, hV', hup, hc, rfl⟩
  · rintro ⟨hV, hlt, hcv, s, hs, w₁, hp, h, hV', hup, hc, rfl⟩
    obtain ⟨v, hv⟩ := hV.exists_factor
    obtain ⟨v', hv'⟩ := hV'.exists_factor
    exact ⟨_, ⟨v, ⟨hV, hv⟩, hv ▸ hlt, hcv, s, hs, w₁, hp, _, ⟨h, rfl⟩, v', ⟨hV', hv'⟩,
      by rw [hv, hv']; exact hup, hc, rfl⟩, rfl⟩

/-! ### For the exact token -/

theorem pullCollateral_eq_ok : pullCollateral .exact sender token amount w = .ok w' ↔
    amount ≠ 0 ∧ w.Idle ∧ ∃ h : w.CanPull sender sender token amount,
      (w.pulled h).Checked sender ∧ w' = w.pulled h := by
  rw [pullCollateral_ext_eq_ok]
  refine and_congr_right fun _ => and_congr_right fun hidle => ?_
  have hset (h : w.CanPull sender sender token amount) :
      (w.pulled h).setStatus .notEntered = w.pulled h := World.setStatus_of_eq _ _ hidle
  constructor
  · rintro ⟨_, hp, hc, rfl⟩
    obtain ⟨h, rfl⟩ := pull_eq_ok.1 hp
    exact ⟨World.canPull_setStatus.1 h, World.checked_setStatus.1 hc, hset _⟩
  · rintro ⟨h, hc, rfl⟩
    exact ⟨(w.pulled h).setStatus .entered, pull_eq_ok.2 ⟨World.canPull_setStatus.2 h, rfl⟩,
      World.checked_setStatus.2 hc, (hset h).symm⟩

theorem pullCollateralAndBurnBUSC_eq_ok :
    pullCollateralAndBurnBUSC .exact sender token amount b w = .ok w' ↔
      amount ≠ 0 ∧ w.Listed token ∧ ∃ h : w.CanBurn sender sender b,
        ∃ h' : (w.burned h).CanPull sender sender token amount,
          ((w.burned h).pulled h').Checked sender ∧ w' = (w.burned h).pulled h' := by
  rw [pullCollateralAndBurnBUSC_ext_eq_ok]
  refine and_congr_right fun _ => and_congr_right fun _ => exists_congr fun h => ?_
  rw [pull_eq_ok]
  constructor
  · rintro ⟨⟨h', rfl⟩, hc⟩; exact ⟨h', hc, rfl⟩
  · rintro ⟨h', hc, rfl⟩; exact ⟨⟨h', rfl⟩, hc⟩

theorem burnBUSC_eq_ok : burnBUSC sender b w = .ok w' ↔
    ∃ h : w.CanBurn sender sender b, (w.burned h).Checked sender ∧ w' = w.burned h := by
  simp only [burnBUSC, bind_eq_ok, greaterThanZero_eq_ok, exists_const, checkHealth_eq_ok, pure_eq_ok,
    burn_eq_ok]
  constructor
  · rintro ⟨-, _, ⟨h, rfl⟩, hc, rfl⟩; exact ⟨h, hc, rfl⟩
  · rintro ⟨h, hc, rfl⟩; exact ⟨h.amount_ne, _, ⟨h, rfl⟩, hc, rfl⟩

theorem mintBUSC_eq_ok : mintBUSC sender m w = .ok w' ↔
    m ≠ 0 ∧ w.Idle ∧ w.Checked sender ∧ ∃ h : w.CanMint sender m,
      (w.minted h).Checked sender ∧ w' = w.minted h := by
  simp only [mintBUSC, bind_eq_ok, greaterThanZero_eq_ok, exists_const, nonReentrant_eq_ok,
    checkHealth_eq_ok, checkedAdd_eq_ok, BUSC.mint_eq_ok, revertIf_not_eq_ok, pure_eq_ok, Prod.exists,
    and_assoc, exists_and_left, exists_eq_left, World.checked_setStatus]
  refine and_congr_right fun hm => and_congr_right fun hidle => ?_
  have hset (h : w.CanMint sender m) : (w.minted h).setStatus .notEntered = w.minted h :=
    World.setStatus_of_eq _ _ hidle
  have hcheck (h : w.CanMint sender m) : ((w.setStatus .entered).setDebt sender
      (w.debt sender + m)).Checked sender ↔ (w.minted h).Checked sender :=
    (World.checked_setStatus (s := .entered) (w := w.setDebt sender (w.debt sender + m))).trans
      World.checked_setToken.symm
  constructor
  · rintro ⟨hc, hroom, hc', ho, -, hs, _, ⟨_, ⟨hsup, rfl⟩, -, rfl⟩, rfl⟩
    exact ⟨hc, ⟨hroom, ho, hs, hsup⟩, (hcheck _).1 hc', hset _⟩
  · rintro ⟨hc, h, hc', rfl⟩
    exact ⟨hc, h.room, (hcheck h).2 hc', h.owner, hm, h.user_ne, _,
      ⟨_, ⟨h.supply, rfl⟩, trivial, rfl⟩, (hset h).symm⟩

theorem depositCollateralAndMintBUSC_eq_ok :
    depositCollateralAndMintBUSC .exact sender token amount m w = .ok w' ↔
      amount ≠ 0 ∧ w.Listed token ∧ w.Idle ∧ m ≠ 0 ∧ ∃ h : w.CanDeposit sender token amount,
        (w.deposited h).Checked sender ∧ ∃ h' : (w.deposited h).CanMint sender m,
          ((w.deposited h).minted h').Checked sender ∧ w' = (w.deposited h).minted h' := by
  simp only [depositCollateralAndMintBUSC, bind_eq_ok, depositCollateral_eq_ok, mintBUSC_eq_ok]
  constructor
  · rintro ⟨_, ⟨ha, hl, hi, h, rfl⟩, hm, -, hc, h', hc', rfl⟩; exact ⟨ha, hl, hi, hm, h, hc, h', hc', rfl⟩
  · rintro ⟨ha, hl, hi, hm, h, hc, h', hc', rfl⟩
    exact ⟨_, ⟨ha, hl, hi, h, rfl⟩, hm, hi, hc, h', hc', rfl⟩

theorem liquidate_eq_ok : liquidate .exact sender token user x w = .ok w' ↔
    x ≠ 0 ∧ w.Listed token ∧ w.Idle ∧ w.Valued user ∧ ¬ w.Healthy user ∧
      w.Convertible token x.toNat ∧ ∃ s : UInt256, s.toNat = w.seized token x.toNat ∧
        ∃ h : w.CanPull user sender token s, ∃ h' : (w.pulled h).CanBurn user sender x,
          ((w.pulled h).burned h').Valued user ∧
            w.factor user < ((w.pulled h).burned h').factor user ∧
              ((w.pulled h).burned h').Checked sender ∧ w' = (w.pulled h).burned h' := by
  rw [liquidate_ext_eq_ok]
  refine and_congr_right fun _ => and_congr_right fun _ => and_congr_right fun hidle =>
    and_congr_right fun _ => and_congr_right fun _ => and_congr_right fun _ =>
      exists_congr fun s => and_congr_right fun _ => ?_
  have hset (h : w.CanPull user sender token s) (h' : (w.pulled h).CanBurn user sender x) :
      ((w.pulled h).burned h').setStatus .notEntered = (w.pulled h).burned h' :=
    World.setStatus_of_eq _ _ hidle
  constructor
  · rintro ⟨_, hp, h', hV, hup, hc, rfl⟩
    obtain ⟨h, rfl⟩ := pull_eq_ok.1 hp
    exact ⟨World.canPull_setStatus.1 h, World.canBurn_setStatus.1 h', World.valued_setStatus.1 hV, hup,
      World.checked_setStatus.1 hc, hset _ _⟩
  · rintro ⟨h, h', hV, hup, hc, rfl⟩
    exact ⟨(w.pulled h).setStatus .entered, pull_eq_ok.2 ⟨World.canPull_setStatus.2 h, rfl⟩,
      World.canBurn_setStatus.2 h', World.valued_setStatus.2 hV, hup, World.checked_setStatus.2 hc,
      (hset h h').symm⟩

end spec

end Busc
