import Busc.Interleaving
import Busc.Limits
import Busc.Paper

/-!
# The motor is the lender on paper

As long as the feeds are fresh and the amounts the lender deals in fit, the contracts do in words, in
checked steps and over three contracts what the lender does on paper: they answer every call alike, and
leave the same positions, purses and prices. The clock and the ownership of `BUSC` are not on paper; the
first matters only for the feeds, and nobody can change the second.
-/

namespace Busc
open Solidity Machine BUSCmotor Cdp Diamond

/-! ### Where words are no limit -/

namespace World
variable {w : World} {l : Lender Address Address Address}

/-- What the lender deals in fits, with the tokens and the decimals of `w`: at most `2 ^ 16` tokens, of at
most 18 decimals, prices below `2 ^ 64`, and supplies, with 18 decimals, below `2 ^ 128`. -/
@[mk_iff] structure Fits (w : World) (l : Lender Address Address Address) : Prop where
  tokens : w.motor.collateralTokens.length ≤ 2 ^ 16
  decimals : ∀ t ∈ w.motor.collateralTokens, (w.decimals t).toNat ≤ 18
  price : ∀ t ∈ w.motor.collateralTokens, l.price (w.motor.tokenToPriceFeed t) < 2 ^ 64
  held : ∀ t ∈ w.motor.collateralTokens, w.scaled t (l.purse t).supply < 2 ^ 128
  coin : (l.purse w.motor.iBUSC).supply < 2 ^ 128

/-- The feeds of all listed tokens were updated within the last two hours. -/
def FreshFeeds (w : World) : Prop := ∀ t ∈ w.motor.collateralTokens, w.Fresh t

theorem SameSetup.fits {w' : World} (h : w.SameSetup w') : w'.Fits l ↔ w.Fits l := by
  simp only [fits_iff, World.scaled, h.decimals, h.iBUSC, h.tokenToPriceFeed, h.collateralTokens]

theorem Fits.bounded (hi : Inv w) (hfresh : w.FreshFeeds) (h : w.Fits w.lender) (u : Address) :
    w.Bounded u where
  tokens := h.tokens
  decimals := h.decimals
  fresh := hfresh
  answer t ht := by
    have hlt : (w.round t).answer.toNat < 2 ^ 64 := h.price t ht
    have hint : (w.round t).answer.toInt = (w.round t).answer.toNat := by
      rw [BitVec.toInt_eq_toNat_cond, if_pos (by omega)]
    omega
  deposit t ht := by
    have hdep := w.deposit_le_totalDeposits u t
    have hcus := hi.custody t
    have hbal := (w.erc20 t).balance_le_supply w.self
    unfold slack at hcus
    have hle : (w.deposit u t).toNat ≤ (w.erc20 t).totalSupply.toNat := by omega
    exact (Nat.mul_le_mul_right _ hle).trans_lt (h.held t ht)
  supply := h.coin

end World

/-! ### Requests -/

section requests
variable {w : World} {sender token user : Address} {a m b x : UInt256}
  {l : Lender Address Address Address}

theorem draw_iff (hr : Reachable w) (hb : w.Bounded sender) :
    w.terms.request sender w.lender (.draw m.toNat) = some l ↔
      ∃ w', mintBUSC sender m w = .ok w' ∧ w'.lender = l := by
  have hi := hr.inv
  have hcv := hb.collateralValue_lt
  have hsup := hb.supply
  simp only [Terms.request, Option.bind_eq_bind, Option.bind_eq_some_iff, Option.guard_eq_some',
    exists_const, Option.pure_def, Option.some_inj]
  constructor
  · rintro ⟨l', hlend, hsafe, rfl⟩
    obtain ⟨⟨hm, -⟩, rfl⟩ := Terms.lend_eq_some.1 hlend
    have hle : 2 * ((w.debt sender).toNat + m.toNat) ≤ w.collateralValue sender := by
      have hdebt : (w.lender.book.charge sender m.toNat).debt sender =
          (w.debt sender).toNat + m.toNat := congrArg _ (if_pos rfl)
      rw [Terms.Safe, World.market_eq, Book.Safe, hdebt] at hsafe
      exact hsafe.resolve_left (by omega)
    obtain ⟨h', hlender⟩ := ((World.lend_iff hi.owner (by omega) (by omega)).1 hlend).2
    obtain ⟨w', hok⟩ := (mintBUSC_iff hr hb m).2 ⟨hm, hle⟩
    obtain ⟨-, -, -, h, -, rfl⟩ := mintBUSC_eq_ok.1 hok
    exact ⟨_, hok, hlender⟩
  · rintro ⟨w', hok, rfl⟩
    obtain ⟨hm, -, -, h, hc, rfl⟩ := mintBUSC_eq_ok.1 hok
    refine ⟨_, (World.lend_iff hi.owner h.room h.supply).2 ⟨hm, h, rfl⟩, ?_, rfl⟩
    rw [← (World.frame_minted h).terms]
    exact World.lender_safe.2 hc.2

theorem withdraw_iff (hi : Inv w) (hb : w.Bounded sender) :
    w.terms.request sender w.lender (.withdraw token a.toNat) = some l ↔
      ∃ w', pullCollateral .exact sender token a w = .ok w' ∧ w'.lender = l := by
  simp only [Terms.request, Option.bind_eq_bind, Option.bind_eq_some_iff, Option.guard_eq_some',
    exists_const, Option.pure_def, Option.some_inj, World.leave_iff hi, pullCollateral_eq_ok]
  constructor
  · rintro ⟨ha, _, ⟨s, hs, h, rfl⟩, hsafe, rfl⟩
    obtain rfl := BitVec.eq_of_toNat_eq hs
    rw [← (World.frame_pulled h).terms, World.lender_safe] at hsafe
    exact ⟨_, ⟨ne_zero_of_toNat_pos ha, hi.idle, h,
      ⟨hb.valued (World.frame_pulled h) (World.deposit_pulled_le h sender), hsafe⟩, rfl⟩, rfl⟩
  · rintro ⟨_, ⟨ha, -, h, hc, rfl⟩, rfl⟩
    refine ⟨toNat_pos_of_ne ha, _, ⟨a, rfl, h, rfl⟩, ?_, rfl⟩
    rw [← (World.frame_pulled h).terms]
    exact World.lender_safe.2 hc.2

theorem repay_iff (hi : Inv w) (hb : w.Bounded sender) :
    w.terms.request sender w.lender (.repay b.toNat) = some l ↔
      ∃ w', burnBUSC sender b w = .ok w' ∧ w'.lender = l := by
  simp only [Terms.request, Option.bind_eq_bind, Option.bind_eq_some_iff, Option.guard_eq_some',
    exists_const, Option.pure_def, Option.some_inj, World.payBack_iff hi.owner hi.self_ne,
    burnBUSC_eq_ok]
  constructor
  · rintro ⟨_, ⟨h, rfl⟩, hsafe, rfl⟩
    rw [← (World.frame_burned h).terms, World.lender_safe] at hsafe
    exact ⟨_, ⟨h, ⟨hb.valued (World.frame_burned h) fun _ => le_rfl, hsafe⟩, rfl⟩, rfl⟩
  · rintro ⟨_, ⟨h, hc, rfl⟩, rfl⟩
    refine ⟨_, ⟨h, rfl⟩, ?_, rfl⟩
    rw [← (World.frame_burned h).terms]
    exact World.lender_safe.2 hc.2

theorem repayAndWithdraw_iff (hi : Inv w) (hb : w.Bounded sender) :
    w.terms.request sender w.lender (.repayAndWithdraw token a.toNat b.toNat) = some l ↔
      ∃ w', pullCollateralAndBurnBUSC .exact sender token a b w = .ok w' ∧ w'.lender = l := by
  have hburned (h : w.CanBurn sender sender b) : Inv (w.burned h) := by
    refine Leg.inv (.burned h) ?_ hi
    rintro rfl
    exact h.amount_ne ((hi.closed _).canSpend h.allowed)
  have hframe {t : Address} {s : UInt256} (h : w.CanBurn sender sender b)
      (h' : (w.burned h).CanPull sender sender t s) : w.Frame ((w.burned h).pulled h') :=
    (World.frame_burned h).trans (World.frame_pulled h')
  simp only [Terms.request, Option.bind_eq_bind, Option.bind_eq_some_iff, Option.guard_eq_some',
    exists_const, Option.pure_def, Option.some_inj, World.payBack_iff hi.owner hi.self_ne,
    pullCollateralAndBurnBUSC_eq_ok]
  constructor
  · rintro ⟨⟨ha, ht⟩, _, ⟨h, rfl⟩, _, hleave, hsafe, rfl⟩
    rw [← (World.frame_burned h).terms, World.leave_iff (hburned h)] at hleave
    obtain ⟨s, hs, h', rfl⟩ := hleave
    obtain rfl := BitVec.eq_of_toNat_eq hs
    rw [← (hframe h h').terms, World.lender_safe] at hsafe
    exact ⟨_, ⟨ne_zero_of_toNat_pos ha, (hi.listed token).2 ht, h, h',
      ⟨hb.valued (hframe h h') (World.deposit_pulled_le h' sender), hsafe⟩, rfl⟩, rfl⟩
  · rintro ⟨_, ⟨ha, ht, h, h', hc, rfl⟩, rfl⟩
    refine ⟨⟨toNat_pos_of_ne ha, (hi.listed token).1 ht⟩, _, ⟨h, rfl⟩, _, ?_, ?_, rfl⟩
    · rw [← (World.frame_burned h).terms]
      exact (World.leave_iff (hburned h)).2 ⟨a, rfl, h', rfl⟩
    · rw [← (hframe h h').terms]
      exact World.lender_safe.2 hc.2

theorem deposit_iff (hi : Inv w) :
    w.terms.request sender w.lender (.deposit token a.toNat) = some l ↔
      ∃ w', depositCollateral .exact sender token a w = .ok w' ∧ w'.lender = l := by
  rw [Terms.request, World.enter_iff hi]
  simp only [depositCollateral_eq_ok]
  constructor
  · rintro ⟨ha, ht, h, rfl⟩
    exact ⟨_, ⟨ha, ht, hi.idle, h, rfl⟩, rfl⟩
  · rintro ⟨_, ⟨ha, ht, -, h, rfl⟩, rfl⟩
    exact ⟨ha, ht, h, rfl⟩

theorem depositAndDraw_iff (hr : Reachable w) (hfresh : w.FreshFeeds) (hfit : w.Fits w.lender) :
    w.terms.request sender w.lender (.depositAndDraw token a.toNat m.toNat) = some l ↔
      ∃ w', depositCollateralAndMintBUSC .exact sender token a m w = .ok w' ∧ w'.lender = l := by
  have hdraw {w₁ : World} (h : depositCollateral .exact sender token a w = .ok w₁) :
      w.terms.request sender w₁.lender (.draw m.toNat) = some l ↔
        ∃ w', mintBUSC sender m w₁ = .ok w' ∧ w'.lender = l := by
    have hr₁ : Reachable (run exec w [.motor sender (.depositCollateral token a)]) :=
      hr.run ⟨trivial, trivial⟩
    have hexec : exec w (.motor sender (.depositCollateral token a)) = w₁ := exec_of_call h
    rw [run_cons, run_nil, hexec] at hr₁
    obtain ⟨-, -, -, hcan, rfl⟩ := depositCollateral_eq_ok.1 h
    have hf := World.frame_deposited hcan
    have hsup (t : Address) : ((w.deposited hcan).lender.purse t).supply = (w.lender.purse t).supply :=
      congrArg BitVec.toNat (World.totalSupply_deposited t hcan)
    have hfit₁ : (w.deposited hcan).Fits (w.deposited hcan).lender :=
      hf.sameSetup.fits.2 { hfit with
        held := fun t ht => by
          rw [hsup]
          exact hfit.held t ht
        coin := by
          rw [hsup]
          exact hfit.coin }
    rw [← hf.terms]
    exact draw_iff hr₁ (hfit₁.bounded hr₁.inv (fun t ht => hf.fresh.2 (hfresh t ht)) sender)
  have hseq : w.terms.request sender w.lender (.depositAndDraw token a.toNat m.toNat) =
      (w.terms.request sender w.lender (.deposit token a.toNat)).bind fun l =>
        w.terms.request sender l (.draw m.toNat) := rfl
  rw [hseq, Option.bind_eq_some_iff]
  simp only [deposit_iff hr.inv, depositCollateralAndMintBUSC, bind_eq_ok]
  constructor
  · rintro ⟨_, ⟨w₁, h, rfl⟩, hl⟩
    obtain ⟨w', hok, rfl⟩ := (hdraw h).1 hl
    exact ⟨w', ⟨w₁, h, hok⟩, rfl⟩
  · rintro ⟨w', ⟨w₁, h, hok⟩, rfl⟩
    exact ⟨_, ⟨w₁, h, rfl⟩, (hdraw h).2 ⟨w', hok, rfl⟩⟩

theorem convertible_of_funds (hb : w.Bounded user) (ht : token ∈ w.motor.collateralTokens)
    (hpos : 0 < w.price token) (hx : x.toNat ≤ w.supply) : w.Convertible token x.toNat := by
  have hp := hb.price_lt ht
  have hsup : w.supply < 2 ^ 128 := hb.supply
  exact ⟨hb.fresh token ht, by omega, by omega, hpos⟩

theorem liquidate_request_iff (hi : Inv w) (hb : ∀ u, w.Bounded u) :
    w.terms.request sender w.lender (.liquidate token user x.toNat) = some l ↔
      ∃ w', liquidate .exact sender token user x w = .ok w' ∧ w'.lender = l := by
  have hframe {t : Address} {s : UInt256} (h : w.CanPull user sender t s)
      (h' : (w.pulled h).CanBurn user sender x) : w.Frame ((w.pulled h).burned h') :=
    (World.frame_pulled h).trans (World.frame_burned h')
  have hvalued {t : Address} {s : UInt256} (h : w.CanPull user sender t s)
      (h' : (w.pulled h).CanBurn user sender x) (u : Address) : ((w.pulled h).burned h').Valued u :=
    (hb u).valued (hframe h h') (World.deposit_pulled_le h u)
  have hrepaid {t : Address} {s : UInt256} (h : w.CanPull user sender t s)
      {l₂ : Lender Address Address Address} :
      w.terms.repaid user sender x.toNat (w.pulled h).lender = some l₂ ↔
        ∃ h' : (w.pulled h).CanBurn user sender x, ((w.pulled h).burned h').lender = l₂ := by
    rw [← (World.frame_pulled h).terms]
    exact World.payBack_iff hi.owner hi.self_ne
  simp only [Terms.request, Option.bind_eq_bind, Option.bind_eq_some_iff, Option.guard_eq_some',
    exists_const, Option.pure_def, Option.some_inj, World.lender_safe, liquidate_eq_ok]
  rw [World.seized_eq]
  constructor
  · rintro ⟨⟨ht, hpos, hlow⟩, _, hleave, l₂, hrep, ⟨hbetter, hsafe⟩, rfl⟩
    obtain ⟨s, hs, h, rfl⟩ := (World.leave_iff hi).1 hleave
    obtain ⟨h', rfl⟩ := (hrepaid h).1 hrep
    have hx : x.toNat ≤ w.supply := by
      rw [← World.supply_pulled h]
      exact (BitVec.le_def.1 h'.funds).trans (ERC20.balance_le_supply _ _)
    have hup := (World.lender_better (hframe h h') hlow).1 hbetter
    rw [← (hframe h h').terms, World.lender_safe] at hsafe
    exact ⟨_, ⟨h'.amount_ne, (hi.listed token).2 ht, hi.idle, (hb user).valued (.refl w) fun _ => le_rfl,
      hlow, convertible_of_funds (hb user) ht hpos hx, s, hs, h, h', hvalued h h' user, hup,
      ⟨hvalued h h' sender, hsafe⟩, rfl⟩, rfl⟩
  · rintro ⟨_, ⟨hx, ht, -, -, hlow, hcv, s, hs, h, h', -, hup, hc, rfl⟩, rfl⟩
    refine ⟨⟨(hi.listed token).1 ht, hcv.pos, hlow⟩, _, (World.leave_iff hi).2 ⟨s, hs, h, rfl⟩, _,
      (hrepaid h).2 ⟨h', rfl⟩, ⟨(World.lender_better (hframe h h') hlow).2 hup, ?_⟩, rfl⟩
    rw [← (hframe h h').terms]
    exact World.lender_safe.2 hc.2

end requests

/-! ### Runs -/

/-- The motor is asked only while the feeds are fresh. -/
def Timely (w : World) : Action → Prop
  | .motor .. => w.FreshFeeds
  | _ => True

/-- The lender is asked only while what it deals in fits. -/
def World.FitsAt (w : World) (l : Lender Address Address Address) :
    Cdp.Event Address Address Address → Prop
  | .request .. => w.Fits l
  | _ => True

section run
variable {w : World} {sender token : Address} {op : MotorOp} {call : TokenCall} {act : Action}
  {l : Lender Address Address Address} {e : Cdp.Event Address Address Address}

theorem request_iff (hr : Reachable w) (hfresh : w.FreshFeeds) (hfit : w.Fits w.lender) :
    w.terms.request sender w.lender op.request = some l ↔
      ∃ w', op.call .exact sender w = .ok w' ∧ w'.lender = l := by
  have hi := hr.inv
  have hb := hfit.bounded hi hfresh
  cases op with
  | depositCollateralAndMintBUSC t a m => exact depositAndDraw_iff hr hfresh hfit
  | depositCollateral t a => exact deposit_iff hi
  | mintBUSC m => exact draw_iff hr (hb sender)
  | pullCollateralAndBurnBUSC t a b => exact repayAndWithdraw_iff hi (hb sender)
  | pullCollateral t a => exact withdraw_iff hi (hb sender)
  | burnBUSC b => exact repay_iff hi (hb sender)
  | liquidate t user x => exact liquidate_request_iff hi hb

theorem payment_reserved : call.payment.Reserved ↔ call.Reserved := by
  cases call <;> exact Iff.rfl

theorem payment_iff (hi : Inv w) (hne : sender ≠ w.self) :
    w.terms.act w.lender (.pay sender token call.payment) = some l ↔
      ∃ w', call.call sender token w = .ok w' ∧ w'.lender = l := by
  have hlender (t : ERC20) : (w.setToken token t).lender = { w.lender with
      purse := Function.update w.lender.purse token t.purse } := Lender.ext rfl rfl World.purse_setToken
  have hpay : ∀ p, w.terms.pay sender (w.lender.purse token) call.payment = some p ↔
      ∃ t', call.ledger sender (w.erc20 token) = .ok t' ∧ t'.purse = p := fun _ => pay_iff
  simp only [Terms.act, Option.bind_eq_bind, Option.bind_eq_some_iff, Option.guard_eq_some',
    exists_const, Option.pure_def, Option.some_inj, hpay, payment_reserved,
    TokenCall.call_eq_ok (hi.owner ▸ Ne.symm hne)]
  constructor
  · rintro ⟨hres, _, ⟨t, h, rfl⟩, rfl⟩
    exact ⟨_, ⟨hres, t, h, rfl⟩, hlender t⟩
  · rintro ⟨_, ⟨hres, t, h, rfl⟩, rfl⟩
    exact ⟨hres, _, ⟨t, h, rfl⟩, (hlender t).symm⟩

theorem quote_lender (w : World) (feed : Address) (round : RoundData) :
    World.lender { w with feeds := Function.update w.feeds feed round } =
      { w.lender with price := Function.update w.lender.price feed round.answer.toNat } := by
  refine Lender.ext (funext fun f => ?_) rfl rfl
  show (Function.update w.feeds feed round f).answer.toNat = Function.update w.lender.price feed _ f
  rw [Function.update_apply, Function.update_apply]
  split <;> rfl

/-- What the lender sees of an action, it answers as the contracts do. -/
theorem act_iff (hr : Reachable w) (hl : Legal w act) (ht : Timely w act) (he : act.event = some e)
    (hfit : w.FitsAt w.lender e) :
    w.terms.act w.lender e = some l ↔ ∃ w', act.call w = .ok w' ∧ w'.lender = l := by
  cases act with
  | motor sender op =>
    obtain rfl := Option.some.inj he
    exact request_iff hr ht hfit
  | token sender token call =>
    obtain rfl := Option.some.inj he
    exact payment_iff hr.inv hl
  | updateFeed feed round =>
    obtain rfl := Option.some.inj he
    show some _ = some l ↔ ∃ w', Except.ok _ = Except.ok w' ∧ _
    rw [← quote_lender]
    simp only [Option.some_inj, Except.ok.injEq, exists_eq_left']
  | owner => cases he
  | passTime => cases he

/-- What the lender does not see does not concern it. -/
theorem unseen_lender (hi : Inv w) (hl : Legal w act) (he : act.event = none) :
    (exec w act).lender = w.lender := by
  cases act with
  | owner sender call =>
    cases h : call.call sender w with
    | error e => rw [exec, outcome_error h]
    | ok w' => exact absurd h (OwnerCall.call_ne_ok (hi.owner ▸ Ne.symm hl))
  | passTime seconds => rfl
  | motor => cases he
  | token => cases he
  | updateFeed => cases he

theorem refines_step (hr : Reachable w) (hl : Legal w act) (ht : Timely w act)
    (hfit : ∀ e, act.event = some e → w.FitsAt w.lender e) :
    (exec w act).lender = act.event.elim w.lender (w.terms.exec w.lender) ∧
      act.event.map (fun _ => act.Succeeds w) =
        act.event.bind fun e => some (w.terms.act w.lender e).isSome := by
  cases he : act.event with
  | none => exact ⟨unseen_lender hr.inv hl he, rfl⟩
  | some e =>
    have hiff (l : Lender Address Address Address) := act_iff (l := l) hr hl ht he (hfit e he)
    show (exec w act).lender = (w.terms.act w.lender e).getD w.lender ∧
      some (act.Succeeds w) = some (w.terms.act w.lender e).isSome
    rw [exec_eq_settle, Action.Succeeds]
    cases hact : w.terms.act w.lender e with
    | none =>
      have hno : ¬ ∃ w', act.call w = .ok w' := fun ⟨w', h⟩ => by
        have := (hiff w'.lender).2 ⟨w', h, rfl⟩
        rw [hact] at this
        cases this
      rw [settle_of_not_ok hno]
      cases hcall : act.call w with
      | ok w' => exact absurd ⟨w', hcall⟩ hno
      | error err => exact ⟨rfl, rfl⟩
    | some l =>
      obtain ⟨w', hok, rfl⟩ := (hiff l).1 hact
      rw [settle_ok hok, hok]
      exact ⟨rfl, rfl⟩

/-- Along every run in which the feeds are fresh and the amounts on paper fit whenever the motor is asked
for something, the contracts give the answers of the lender on paper and stay where it is. -/
theorem refinement {as : List Action} (hr : Reachable w)
    (hl : Along exec (fun w act => Legal w act ∧ Timely w act) w as)
    (hfit : Along w.terms.exec w.FitsAt w.lender (as.filterMap Action.event)) :
    (run exec w as).lender = run w.terms.exec w.lender (as.filterMap Action.event) ∧
      readings exec (fun w act => act.event.map fun _ => act.Succeeds w) w as =
        readings w.terms.exec (fun l e => some (w.terms.act l e).isSome) w.lender
          (as.filterMap Action.event) := by
  have hsteps := hl.inv (I := fun v => Reachable v ∧ w.SameSetup v) ⟨hr, .refl w⟩
    fun v act ⟨hv, hs⟩ ha => ⟨hv.run (show Along exec Legal v [act] from ⟨ha.1, trivial⟩),
      hs.trans (hv.inv.exec_change ha.1).sameSetup⟩
  refine hsteps.2.refines hfit fun v act ⟨⟨hv, hs⟩, hlegal, htimely⟩ hfits => ?_
  have hfits (e) (he : act.event = some e) : v.FitsAt v.lender e := by
    have h := hfits e he
    cases e with
    | request => exact hs.fits.2 h
    | _ => trivial
  rw [← hs.terms]
  exact refines_step hv hlegal htimely hfits

-- over the list of tokens, not over all addresses
instance (w : World) : Decidable w.FreshFeeds := List.decidableBAll _ _

instance (w : World) : DecidablePred (Timely w)
  | .motor .. => inferInstanceAs (Decidable w.FreshFeeds)
  | .token .. | .owner .. | .passTime _ | .updateFeed .. => inferInstanceAs (Decidable True)

instance (w : World) (l : Lender Address Address Address) : Decidable (w.Fits l) :=
  have : Decidable (∀ t ∈ w.motor.collateralTokens, (w.decimals t).toNat ≤ 18) := List.decidableBAll _ _
  have : Decidable (∀ t ∈ w.motor.collateralTokens, l.price (w.motor.tokenToPriceFeed t) < 2 ^ 64) :=
    List.decidableBAll _ _
  have : Decidable (∀ t ∈ w.motor.collateralTokens, w.scaled t (l.purse t).supply < 2 ^ 128) :=
    List.decidableBAll _ _
  decidable_of_iff' _ (World.fits_iff w l)

instance (w : World) (l : Lender Address Address Address) : DecidablePred (w.FitsAt l)
  | .request .. => inferInstanceAs (Decidable (w.Fits l))
  | .pay .. | .quote .. => inferInstanceAs (Decidable True)

/-- Account 8 pays 1000 of the debt of account 7, which draws to the limit and a wei beyond; the price of
WETH recovers, and account 8 pays again. -/
def Anvil.recovery : List Action := [.motor 8 (.liquidate 1 7 1000000000000000000000),
  .motor 7 (.mintBUSC 200000000000000000000), .motor 7 (.mintBUSC 1), .passTime 3600,
  .updateFeed 3 (HelperConfig.mockRound 3601 400000000000), .motor 8 (.liquidate 1 7 1)]

theorem refinement_recovery :
    readings exec (fun w act => act.event.map fun _ => act.Succeeds w) Anvil.wethFalls Anvil.recovery =
      [true, true, false, true, false] := by
  have hr : Reachable Anvil.wethFalls := Anvil.reachable (by decide +kernel)
  have hl : Along exec (fun w act => Legal w act ∧ Timely w act) Anvil.wethFalls Anvil.recovery := by
    decide +kernel
  have hfit : Along Anvil.wethFalls.terms.exec Anvil.wethFalls.FitsAt Anvil.wethFalls.lender
      (Anvil.recovery.filterMap Action.event) := by decide +kernel
  rw [(refinement hr hl hfit).2]
  decide +kernel

end run

end Busc
