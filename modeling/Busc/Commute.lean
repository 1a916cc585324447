import Busc.Isolation
import Busc.Words

/-!
# Operations of different accounts commute

The operations share the motor's token balances and the supply of `BUSC`, but what one account does
another sees nothing of: its position and its wallet stay, and by custody the motor's balance never
decides whether a payout goes through. So each operation is blind to the other's, and what either
adds to the words is the same in both orders.
-/

namespace Busc
open Solidity WordMap Machine BUSCmotor Diamond

namespace MotorOp

def minted : MotorOp → UInt256
  | .depositCollateralAndMintBUSC _ _ m | .mintBUSC m => m
  | _ => 0

/-- Any operation but `liquidate`, which changes the account of another. -/
def Own : MotorOp → Prop
  | .liquidate .. => False
  | _ => True

end MotorOp

namespace World
variable {w : World} {user token : Address} {amount : UInt256}

/-- The account has the same position and the same wallet in both states, at the same prices. -/
structure Alike (v : Address) (w w' : World) : Prop where
  frame : w.Frame w'
  account : w.SameAccount w' v
  wallet : w.SameWallet w' v

namespace Alike
variable {v : Address} {w' w₁ w₁' : World}

theorem symm (h : Alike v w w') : Alike v w' w :=
  ⟨h.frame.symm, ⟨h.account.deposit.symm, h.account.debt.symm⟩,
    ⟨fun t => (h.wallet.balances t).symm, fun t => (h.wallet.allowances t).symm⟩⟩

/-- Two states the account cannot tell apart stay so when the same is added to both. -/
theorem step (h : Alike v w w') (hf : w.Frame w₁) (hf' : w'.Frame w₁')
    (he : w₁'.words - w'.words = w₁.words - w.words) : Alike v w₁ w₁' := by
  obtain ⟨hd, hD, ht⟩ := parts_of_words he
  refine ⟨(hf.symm.trans h.frame).trans hf', ⟨?_, ?_⟩, ⟨?_, ?_⟩⟩
  · exact eq_of_sub_eq h.account.deposit (congrFun hd v)
  · exact eq_of_sub_eq h.account.debt (congrFun hD v)
  · intro t
    exact eq_of_sub_eq (h.wallet.balances t) (congrFun (ht t).1 v)
  · intro t
    exact eq_of_sub_eq (h.wallet.allowances t) (congrFun (ht t).2 v)

theorem canSpend (h : Alike v w w') : (w'.erc20 token).CanSpend v w'.self amount ↔
    (w.erc20 token).CanSpend v w.self amount := by
  unfold ERC20.CanSpend
  rw [h.wallet.allowances, h.frame.self]

theorem deposited (ha : Alike v w w') (h : w.CanDeposit v token amount) :
    ∃ h' : w'.CanDeposit v token amount,
      (w'.deposited h').words - w'.words = (w.deposited h).words - w.words := by
  refine ⟨⟨?_, ha.canSpend.2 h.allowed, h.user_ne, ?_, ?_⟩, ?_⟩
  · rw [ha.account.deposit]; exact h.room
  · rw [ha.frame.self]; exact h.self_ne
  · rw [ha.wallet.balances]; exact h.funds
  · rw [words_deposited, words_deposited, ha.frame.self, ha.wallet.allowances]

/-- The payout is covered by the deposit alone, whatever the other account put in or took out. -/
theorem pulled (ha : Alike v w w') (hi' : Inv w') (h : w.CanPull v v token amount) :
    ∃ h' : w'.CanPull v v token amount,
      (w'.pulled h').words - w'.words = (w.pulled h).words - w.words := by
  have hd : amount ≤ w'.deposit v token := by rw [ha.account.deposit]; exact h.deposit
  have h' : w'.CanPull v v token amount := hi'.canPull h.dst_ne hd
  exact ⟨h', by rw [words_pulled, words_pulled, ha.frame.self]⟩

theorem minted (ha : Alike v w w')
    (hs : (w'.erc20 w'.motor.iBUSC).totalSupply.toNat + amount.toNat < 2 ^ 256)
    (h : w.CanMint v amount) : ∃ h' : w'.CanMint v amount,
      (w'.minted h').words - w'.words = (w.minted h).words - w.words := by
  refine ⟨⟨?_, ?_, h.user_ne, hs⟩, ?_⟩
  · rw [ha.account.debt]; exact h.room
  · rw [ha.frame.owner, ha.frame.self]; exact h.owner
  · rw [words_minted, words_minted, ha.frame.iBUSC]

theorem burned (ha : Alike v w w') (h : w.CanBurn v v amount) : ∃ h' : w'.CanBurn v v amount,
    (w'.burned h').words - w'.words = (w.burned h).words - w.words := by
  have hb : w'.motor.iBUSC = w.motor.iBUSC := ha.frame.iBUSC
  refine ⟨⟨?_, ?_, h.payer_ne, ?_, ?_, ?_, h.amount_ne⟩, ?_⟩
  · rw [ha.account.debt]; exact h.debt
  · rw [ha.canSpend, hb]; exact h.allowed
  · rw [ha.frame.self]; exact h.self_ne
  · rw [ha.wallet.balances, hb]; exact h.funds
  · rw [ha.frame.owner, ha.frame.self]; exact h.owner
  · rw [words_burned, words_burned, ha.frame.self, hb, ha.wallet.allowances]

theorem listed (h : Alike v w w') : w'.Listed token ↔ w.Listed token := by
  unfold Listed
  rw [h.frame.tokenToPriceFeed]

theorem checked (h : Alike v w w') : w'.Checked v ↔ w.Checked v :=
  h.frame.checked h.account.deposit h.account.debt

end Alike

/-- `BUSC` can be minted without the supply leaving `uint256`. -/
def MintFits (w : World) (op : MotorOp) : Prop :=
  (w.erc20 w.motor.iBUSC).totalSupply.toNat + op.minted.toNat < 2 ^ 256

instance {op : MotorOp} : Decidable (w.MintFits op) := inferInstanceAs (Decidable (_ < _))

/-- Whatever separates the two states, an operation of the account does not see it. -/
structure Unseen (op : MotorOp) (v : Address) (w w' : World) : Prop where
  alike : Alike v w w'
  inv : Inv w
  inv' : Inv w'
  fits : w.MintFits op
  fits' : w'.MintFits op

theorem Unseen.symm {op : MotorOp} {v : Address} {w w' : World} (h : Unseen op v w w') :
    Unseen op v w' w :=
  ⟨h.alike.symm, h.inv', h.inv, h.fits', h.fits⟩

end World

open World

theorem MotorOp.call_blind {op : MotorOp} {v : Address} (hop : op.Own) :
    Blind World.words (Unseen op v) (op.call .exact v) := by
  intro w w' w₁ hu h
  have hne := hu.inv.sender_ne h
  obtain ⟨ha, hi, hi', -, hfit'⟩ := hu
  cases op with
  | depositCollateralAndMintBUSC t a m =>
    obtain ⟨ha0, hl, -, hm0, hd, hcd, hm, hcm, rfl⟩ := depositCollateralAndMintBUSC_eq_ok.1 h
    obtain ⟨hd', ed⟩ := ha.deposited hd
    have had := ha.step (w.frame_deposited hd) (w'.frame_deposited hd') ed
    have hfit : ((w'.deposited hd').erc20 w'.motor.iBUSC).totalSupply.toNat + m.toNat < 2 ^ 256 := by
      rw [totalSupply_deposited]; exact hfit'
    obtain ⟨hm', em⟩ := had.minted hfit hm
    have ham := had.step (frame_minted hm) (frame_minted hm') em
    exact ⟨_, depositCollateralAndMintBUSC_eq_ok.2 ⟨ha0, ha.listed.2 hl, hi'.idle, hm0, hd',
      had.checked.2 hcd, hm', ham.checked.2 hcm, rfl⟩, sub_eq_sub_trans ed em⟩
  | depositCollateral t a =>
    obtain ⟨ha0, hl, -, hd, rfl⟩ := depositCollateral_eq_ok.1 h
    obtain ⟨hd', ed⟩ := ha.deposited hd
    exact ⟨_, depositCollateral_eq_ok.2 ⟨ha0, ha.listed.2 hl, hi'.idle, hd', rfl⟩, ed⟩
  | mintBUSC m =>
    obtain ⟨hm0, -, hc, hm, hcm, rfl⟩ := mintBUSC_eq_ok.1 h
    obtain ⟨hm', em⟩ := ha.minted hfit' hm
    have ham := ha.step (frame_minted hm) (frame_minted hm') em
    exact ⟨_, mintBUSC_eq_ok.2 ⟨hm0, hi'.idle, ha.checked.2 hc, hm', ham.checked.2 hcm, rfl⟩, em⟩
  | burnBUSC b =>
    obtain ⟨hb, hc, rfl⟩ := burnBUSC_eq_ok.1 h
    obtain ⟨hb', eb⟩ := ha.burned hb
    have hab := ha.step (frame_burned hb) (frame_burned hb') eb
    exact ⟨_, burnBUSC_eq_ok.2 ⟨hb', hab.checked.2 hc, rfl⟩, eb⟩
  | pullCollateralAndBurnBUSC t a b =>
    obtain ⟨ha0, hl, hb, hp, hc, rfl⟩ := pullCollateralAndBurnBUSC_eq_ok.1 h
    obtain ⟨hb', eb⟩ := ha.burned hb
    have hab := ha.step (frame_burned hb) (frame_burned hb') eb
    have hib : Inv (w'.burned hb') := (Leg.burned hb').inv (ha.frame.self.symm ▸ hne) hi'
    obtain ⟨hp', ep⟩ := hab.pulled hib hp
    have hap := hab.step (frame_pulled hp) (frame_pulled hp') ep
    exact ⟨_, pullCollateralAndBurnBUSC_eq_ok.2 ⟨ha0, ha.listed.2 hl, hb', hp', hap.checked.2 hc, rfl⟩,
      sub_eq_sub_trans eb ep⟩
  | pullCollateral t a =>
    obtain ⟨ha0, -, hp, hc, rfl⟩ := pullCollateral_eq_ok.1 h
    obtain ⟨hp', ep⟩ := ha.pulled hi' hp
    have hap := ha.step (frame_pulled hp) (frame_pulled hp') ep
    exact ⟨_, pullCollateral_eq_ok.2 ⟨ha0, hi'.idle, hp', hap.checked.2 hc, rfl⟩, ep⟩
  | liquidate t u x => exact hop.elim

def SupplyFits (w : World) : Action → Prop
  | .motor _ op => w.MintFits op
  | _ => True

instance {w : World} {a : Action} : Decidable (SupplyFits w a) := by
  cases a <;> unfold SupplyFits <;> infer_instance

section commute
variable {w w₁ : World} {u v : Address} {opu opv : MotorOp}

theorem unseen_of_call (hi : Inv w) (huv : u ≠ v) (hv : v ≠ w.self) (hou : opu.Own)
    (hfit : Along exec SupplyFits w [.motor u opu, .motor v opv])
    (hfit' : Along exec SupplyFits w [.motor v opv, .motor u opu])
    (h : opu.call .exact u w = .ok w₁) : Unseen opv v w w₁ := by
  have htouch : ¬ opu.Touches u v := by
    rintro (e | ⟨t, x, rfl⟩)
    · exact huv e.symm
    · exact hou.elim
  have hex : exec w (.motor u opu) = w₁ := outcome_ok h
  obtain ⟨-, hfit₁, -⟩ := hfit
  rw [hex] at hfit₁
  exact {
    alike := ⟨MotorOp.call_frame h, MotorOp.call_sameAccount h htouch,
      MotorOp.call_sameWallet h huv.symm hv⟩
    inv := hi
    inv' := MotorOp.call_inv hi h
    fits := hfit'.1
    fits' := hfit₁ }

theorem eq_of_calls {w₂ t₁ t₂ : World} (h₁ : opu.call .exact u w = .ok w₁)
    (h₁' : opv.call .exact v w₁ = .ok t₁) (h₂ : opv.call .exact v w = .ok w₂)
    (h₂' : opu.call .exact u w₂ = .ok t₂) (hw : t₁.words = t₂.words) : t₁ = t₂ := by
  have hf₁ : w.Frame t₁ := (MotorOp.call_frame h₁).trans (MotorOp.call_frame h₁')
  have hf₂ : w.Frame t₂ := (MotorOp.call_frame h₂).trans (MotorOp.call_frame h₂')
  refine eq_of_words (hf₂.symm.trans hf₁) ?_ hw
  rw [MotorOp.call_status h₁', MotorOp.call_status h₁, MotorOp.call_status h₂', MotorOp.call_status h₂]

/-- Operations of two accounts commute: one order succeeds if the other does, with the same end, and
the first has no say in whether the second succeeds. -/
theorem operations_commute (hr : Reachable w) (huv : u ≠ v) (hu : u ≠ w.self) (hv : v ≠ w.self)
    (hou : opu.Own) (hov : opv.Own) (hfit : Along exec SupplyFits w [.motor u opu, .motor v opv])
    (hfit' : Along exec SupplyFits w [.motor v opv, .motor u opu]) :
    (∀ w', (opu.call .exact u w >>= opv.call .exact v) = .ok w' ↔
        (opv.call .exact v w >>= opu.call .exact u) = .ok w') ∧
      ∀ w₁, opu.call .exact u w = .ok w₁ →
        ((∃ w', opv.call .exact v w₁ = .ok w') ↔ ∃ w', opv.call .exact v w = .ok w') := by
  have hbu := MotorOp.call_blind (v := u) hou
  have hbv := MotorOp.call_blind (v := v) hov
  have hsu (w₁ : World) (h : opu.call .exact u w = .ok w₁) : Unseen opv v w w₁ :=
    unseen_of_call hr.inv huv hv hou hfit hfit' h
  have hsv (w₂ : World) (h : opv.call .exact v w = .ok w₂) : Unseen opu u w w₂ :=
    unseen_of_call hr.inv huv.symm hu hov hfit' hfit h
  constructor
  · intro w'
    rw [bind_eq_ok, bind_eq_ok]
    constructor
    · exact hbu.comm hbv (fun _ _ => Unseen.symm) hsu hsv
        fun _ _ _ _ => eq_of_calls
    · exact hbv.comm hbu (fun _ _ => Unseen.symm) hsv hsu
        fun _ _ _ _ => eq_of_calls
  · intro w₁ h
    exact hbv.ok_iff (fun _ _ => Unseen.symm) (hsu w₁ h).symm

end commute

/-- Account 7 has 50 units of WETH deposited, and account 8 has 20 which the motor may take. -/
def Anvil.shared : World := run exec world (approvals ++ [.motor 7 (.depositCollateral 1 50),
  .token 7 1 (.transfer 8 20), .token 8 1 (.approve 6 20)])

theorem operations_commute_shared :
    ((MotorOp.pullCollateral 1 50).call .exact 7 Anvil.shared >>=
        (MotorOp.depositCollateral 1 20).call .exact 8) = .ok (run exec Anvil.shared
          [.motor 8 (.depositCollateral 1 20), .motor 7 (.pullCollateral 1 50)]) := by
  have hr : Reachable Anvil.shared := Anvil.reachable (by decide +kernel)
  have hpull : (MotorOp.pullCollateral 1 50).Own := trivial
  have hdeposit : (MotorOp.depositCollateral 1 20).Own := trivial
  have huv : (7 : Address) ≠ 8 := by decide
  refine ((operations_commute hr huv (by decide) (by decide) hpull hdeposit (by decide +kernel)
    (by decide +kernel)).1 _).2 ?_
  rfl

end Busc
