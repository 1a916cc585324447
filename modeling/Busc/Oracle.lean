import Busc.Isolation

/-!
# What the feeds decide

Every operation but a plain deposit values its caller's account over the whole list of tokens, so it
needs every listed feed, whoever holds what. A feed that is stale, or dated in the future, stops them
all. So does a negative answer: cast to `uint256` it overflows the multiplication by 1e10 even for a
deposit of zero. Nothing tests for an answer of zero: it stops the liquidations paid in that token,
where it is a divisor, and otherwise the token counts as worthless.
-/

namespace Busc
open Solidity Machine BUSCmotor

/-- The feed of the token is older than two hours, or dated in the future. -/
def World.Unusable (w : World) (token : Address) : Prop :=
  w.timestamp.toNat < (w.round token).updatedAt.toNat ∨
    7200 < w.timestamp.toNat - (w.round token).updatedAt.toNat

instance (w : World) (token : Address) : Decidable (w.Unusable token) :=
  inferInstanceAs (Decidable (_ ∨ _))

def MotorOp.IsDeposit : MotorOp → Prop
  | .depositCollateral .. => True
  | _ => False

section one
variable {w w' : World} {sender token : Address} {op : MotorOp}

theorem World.Unusable.not_fresh (h : w.Unusable token) : ¬ w.Fresh token := by
  rintro ⟨-, hle, htime⟩
  unfold World.Unusable at h
  omega

theorem exists_error {t : Tx World} (h : ∀ w', t ≠ .ok w') : ∃ e, t = .error e := by
  cases t with
  | error e => exact ⟨e, rfl⟩
  | ok w' => exact absurd rfl (h w')

/-- An operation that is not a plain deposit has priced every listed token. -/
theorem MotorOp.call_quotable (h : op.call .exact sender w = .ok w') (hop : ¬ op.IsDeposit)
    (ht : token ∈ w.motor.collateralTokens) : ∃ amount, w.Quotable token amount := by
  have hf := call_frame h
  have hc := call_checked h fun t a e => hop (by rw [e]; trivial)
  exact ⟨_, hf.quotable.1 (hc.1.quotable token (hf.collateralTokens ▸ ht))⟩

theorem MotorOp.reverts_of_unusable (ht : token ∈ w.motor.collateralTokens) (hu : w.Unusable token)
    (hop : ¬ op.IsDeposit) : ∃ e, op.call .exact sender w = .error e :=
  exists_error fun _ h => by
    obtain ⟨_, hq⟩ := call_quotable h hop ht
    exact hu.not_fresh hq.fresh

theorem MotorOp.reverts_of_negative (ht : token ∈ w.motor.collateralTokens)
    (hneg : (w.round token).answer.toInt < 0) (hop : ¬ op.IsDeposit) :
    ∃ e, op.call .exact sender w = .error e :=
  exists_error fun _ h => by
    obtain ⟨_, hq⟩ := call_quotable h hop ht
    have hp := hq.price
    have hbig := le_toNat_of_toInt_neg hneg
    unfold World.price at hp
    omega

/-- A deposit lowers no deposit, and touches neither debt nor the supply of `BUSC`. -/
theorem deposit_keeps {amount : UInt256} (h : depositCollateral .exact sender token amount w = .ok w') :
    w'.debt = w.debt ∧ (∀ t, (w'.erc20 t).totalSupply = (w.erc20 t).totalSupply) ∧
      ∀ u t, (w.deposit u t).toNat ≤ (w'.deposit u t).toNat := by
  obtain ⟨-, -, -, hd, rfl⟩ := depositCollateral_eq_ok.1 h
  refine ⟨rfl, fun t => World.totalSupply_deposited t hd, ?_⟩
  intro u t
  rw [World.deposit_deposited]
  split
  · next e =>
    rcases e with ⟨rfl, rfl⟩
    rw [BitVec.toNat_add_of_lt hd.room]
    exact Nat.le_add_right _ _
  · exact le_rfl

end one

/-! ### A stale feed -/

/-- What a step does to the motor while a listed feed is unusable. -/
structure Frozen (w : World) (a : Action) : Prop where
  reverts : ∀ sender (op : MotorOp), ¬ op.IsDeposit → ∃ e, op.call .exact sender w = .error e
  debt : (exec w a).debt = w.debt
  deposit : ∀ u t, (w.deposit u t).toNat ≤ ((exec w a).deposit u t).toNat
  /-- The motor neither mints nor burns. -/
  supply : a.IsMotor → ∀ t, ((exec w a).erc20 t).totalSupply = (w.erc20 t).totalSupply
  /-- Only a deposit changes anything. -/
  moves : ∀ sender op, a = .motor sender op → exec w a ≠ w → op.IsDeposit

theorem Frozen.of_motor {w : World} {a : Action} (hm : (exec w a).motor = w.motor)
    (ha : ¬ a.IsMotor)
    (hrev : ∀ sender (op : MotorOp), ¬ op.IsDeposit → ∃ e, op.call .exact sender w = .error e) :
    Frozen w a where
  reverts := hrev
  debt := by unfold World.debt; rw [hm]
  deposit := by
    intro u t
    unfold World.deposit
    rw [hm]
  supply := fun h => absurd h ha
  moves := by
    rintro sender op rfl
    exact absurd trivial ha

theorem frozen_exec {w : World} {a : Action} {token : Address} (ht : token ∈ w.motor.collateralTokens)
    (hu : w.Unusable token) : Frozen w a := by
  have hrev (sender : Address) (op : MotorOp) (hop : ¬ op.IsDeposit) :
      ∃ e, op.call .exact sender w = .error e := MotorOp.reverts_of_unusable ht hu hop
  cases a with
  | motor sender op =>
    by_cases hop : op.IsDeposit
    · cases op with
      | depositCollateral t amount =>
        obtain ⟨hdebt, hsupply, hdeposit⟩ := outcome_cases
          (t := depositCollateral .exact sender t amount w)
          (P := fun w' => w'.debt = w.debt ∧ (∀ t, (w'.erc20 t).totalSupply = (w.erc20 t).totalSupply) ∧
            ∀ u t, (w.deposit u t).toNat ≤ (w'.deposit u t).toNat)
          ⟨rfl, fun _ => rfl, fun _ _ => le_rfl⟩ fun _ h => deposit_keeps h
        refine ⟨hrev, hdebt, hdeposit, fun _ => hsupply, ?_⟩
        rintro _ _ ⟨rfl, rfl⟩ -
        exact hop
      | _ => exact hop.elim
    · obtain ⟨e, he⟩ := hrev sender op hop
      have hex : exec w (.motor sender op) = w := outcome_error he
      refine ⟨hrev, by rw [hex], fun u t => by rw [hex], fun _ t => by rw [hex], ?_⟩
      intro _ _ _ hne
      exact absurd hex hne
  | token sender token call =>
    refine .of_motor (outcome_cases (P := fun w' => w'.motor = w.motor) rfl ?_) id hrev
    exact fun _ h => TokenCall.call_motor h
  | owner sender call =>
    refine .of_motor (outcome_cases (P := fun w' => w'.motor = w.motor) rfl ?_) id hrev
    exact fun _ h => OwnerCall.call_motor h
  | passTime | updateFeed => exact .of_motor rfl id hrev

/-- While at every step some listed feed is unusable, the motor takes deposits and does nothing
else, whatever state it started in. -/
theorem frozen_run {w₀ : World} {as : List Action}
    (hl : Along exec (fun w _ => ∃ t ∈ w.motor.collateralTokens, w.Unusable t) w₀ as) :
    Along exec Frozen w₀ as ∧ (run exec w₀ as).debt = w₀.debt ∧
      ∀ u t, (w₀.deposit u t).toNat ≤ ((run exec w₀ as).deposit u t).toNat := by
  have hsteps : Along exec Frozen w₀ as := hl.mono fun _ _ ⟨_, ht, hu⟩ => frozen_exec ht hu
  refine ⟨hsteps, ?_, ?_⟩
  · exact hsteps.rel (R := fun w w' : World => w'.debt = w.debt) (fun _ => rfl)
      fun _ _ _ hf h => Eq.trans h hf.debt
  · exact hsteps.rel (R := fun w w' : World => ∀ u t, (w.deposit u t).toNat ≤ (w'.deposit u t).toNat)
      (fun _ _ _ => le_rfl) fun _ _ _ hf h u t => (hf.deposit u t).trans (h u t)

def Anvil.stale : World := run exec world [.passTime 86400]

theorem frozen_stale :
    (run exec Anvil.stale (Anvil.approvals ++ [.motor 7 (.depositCollateral 1 50),
      .motor 7 (.mintBUSC 1)])).debt = Anvil.stale.debt := by
  have hl : Along exec (fun w _ => 1 ∈ w.motor.collateralTokens ∧ w.Unusable 1)
      Anvil.stale (Anvil.approvals ++ [.motor 7 (.depositCollateral 1 50), .motor 7 (.mintBUSC 1)]) := by
    decide +kernel
  exact (frozen_run (hl.mono fun _ _ h => ⟨1, h⟩)).2.1

/-! ### An answer that is not positive -/

/-- The value of the account's deposits of the other tokens. -/
def World.otherValue (w : World) (token user : Address) : Nat :=
  ((w.motor.collateralTokens.filter (· ≠ token)).map
    fun t => w.valueInUSD t (w.deposit user t).toNat).sum

theorem World.collateralValue_of_price_zero {w : World} {token user : Address}
    (h : (w.round token).answer = 0) : w.collateralValue user = w.otherValue token user := by
  have hzero (a : Nat) : w.valueInUSD token a = 0 := by
    unfold World.valueInUSD World.price; rw [h]; simp
  unfold World.collateralValue World.otherValue
  generalize w.motor.collateralTokens = l
  induction l with
  | nil => rfl
  | cons t l ih =>
    rcases eq_or_ne t token with rfl | ht
    · rw [List.filter_cons_of_neg (by simp), List.map_cons, List.sum_cons, hzero, Nat.zero_add, ih]
    · rw [List.filter_cons_of_pos (by simpa using ht), List.map_cons, List.map_cons, List.sum_cons,
        List.sum_cons, ih]

/-- What goes through while the feed of a listed token answers with zero: nobody is liquidated in the
token, and nobody in another token who is healthy without it. -/
structure World.ZeroAnswer (w : World) (token : Address) : Prop where
  reverts : ∀ sender user x, ∃ e, liquidate .exact sender token user x w = .error e
  spares : ∀ sender t user x, w.debt user = 0 ∨ 2 * (w.debt user).toNat ≤ w.otherValue token user →
    ∃ e, liquidate .exact sender t user x w = .error e
  /-- A liquidation leaves every deposit of the token alone. -/
  untouched : ∀ sender t user x w', liquidate .exact sender t user x w = .ok w' →
    t ≠ token ∧ ∀ v, w'.deposit v token = w.deposit v token
  caller : ∀ sender (op : MotorOp) w', ¬ op.IsDeposit → op.call .exact sender w = .ok w' →
    w'.debt sender = 0 ∨ 2 * (w'.debt sender).toNat ≤ w'.otherValue token sender

section zero
variable {w w' : World} {sender token t user : Address} {x : UInt256}

theorem liquidate_deposit_ne (h : liquidate .exact sender t user x w = .ok w') {s : Address} (hs : s ≠ t)
    (v : Address) : w'.deposit v s = w.deposit v s := by
  obtain ⟨-, -, -, -, -, -, _, -, hp, hb, -, -, -, rfl⟩ := liquidate_eq_ok.1 h
  rw [World.deposit_burned, World.deposit_pulled, if_neg fun e => hs e.2]

variable (h0 : (w.round token).answer = 0)
include h0

theorem World.healthy_of_price_zero :
    w.Healthy user ↔ w.debt user = 0 ∨ 2 * (w.debt user).toNat ≤ w.otherValue token user := by
  unfold World.Healthy
  rw [World.collateralValue_of_price_zero h0, ← BitVec.toNat_inj]
  rfl

/-- The price is a divisor of the amount to seize. -/
theorem ne_of_liquidate (h : liquidate .exact sender t user x w = .ok w') : t ≠ token := by
  rintro rfl
  obtain ⟨-, -, -, -, -, hcv, -⟩ := liquidate_eq_ok.1 h
  have hpos := hcv.pos
  unfold World.price at hpos
  rw [h0] at hpos
  exact absurd hpos (by decide)

theorem zeroAnswer : w.ZeroAnswer token where
  reverts _ _ _ := exists_error fun _ h => ne_of_liquidate h0 h rfl
  spares _ _ _ _ hsafe := exists_error fun _ h => by
    obtain ⟨-, -, -, -, hunsafe, -⟩ := liquidate_eq_ok.1 h
    exact hunsafe ((World.healthy_of_price_zero h0).2 hsafe)
  untouched _ _ _ _ _ h := by
    have hne := ne_of_liquidate h0 h
    exact ⟨hne, liquidate_deposit_ne h hne.symm⟩
  caller sender op w' hop h := by
    have hz : (w'.round token).answer = 0 := by rw [(MotorOp.call_frame h).round]; exact h0
    have hc := MotorOp.call_checked h fun t a e => hop (by rw [e]; trivial)
    exact (World.healthy_of_price_zero hz).1 hc.2

end zero

/-- A negative answer of a listed feed stops every operation but a deposit. An answer of zero makes the
token worthless: it is never seized, the others are only from an account that is unhealthy without it,
and the caller of any other operation ends healthy without it. -/
theorem nonpositive_answer {w : World} {token : Address} (ht : token ∈ w.motor.collateralTokens) :
    ((w.round token).answer.toInt < 0 → ∀ sender (op : MotorOp), ¬ op.IsDeposit →
      ∃ e, op.call .exact sender w = .error e) ∧
    ((w.round token).answer = 0 → w.ZeroAnswer token) :=
  ⟨fun hneg _ _ hop => MotorOp.reverts_of_negative ht hneg hop, zeroAnswer⟩

theorem negative_answer_stops : ∃ e, (MotorOp.mintBUSC 1).call .exact 7
    (run exec Anvil.lent [.updateFeed 4 (HelperConfig.mockRound 1 (-1))]) = .error e :=
  (nonpositive_answer (.tail _ (.head _))).1 (by decide) 7 _ id

def Anvil.zeroed : World := run exec lent [.updateFeed 4 (HelperConfig.mockRound 1 0)]

/-- Account 7 was healthy, and is liquidated in WETH because WBTC answers with zero. -/
theorem zeroed_liquidated : Reachable Anvil.zeroed ∧ 2 ∈ Anvil.zeroed.motor.collateralTokens ∧
    Anvil.zeroed.Fresh 2 ∧ (Anvil.zeroed.round 2).answer.toInt ≤ 0 ∧ Anvil.lent.Healthy 7 ∧
      ∃ w', liquidate .exact 8 1 7 1000000000000000000000 Anvil.zeroed = .ok w' ∧
        w'.deposit 7 1 < Anvil.zeroed.deposit 7 1 := by
  have hl : Along exec Legal Anvil.lent [.updateFeed 4 (HelperConfig.mockRound 1 0)] := by decide
  refine ⟨Reachable.run (Anvil.reachable (by decide +kernel)) hl, .tail _ (.head _),
    by decide +kernel, by decide +kernel, by decide +kernel, _, rfl, by decide +kernel⟩

end Busc
