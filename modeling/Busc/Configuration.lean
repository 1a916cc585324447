import Busc.Invariant

/-!
# The configuration

What the constructor records, the i-th feed for the i-th token and each token once, no operation
changes, and only listed tokens are ever deposited. So in every state after a construction the loop
over the token list meets every deposit exactly once, and its sum is the sum over all addresses. This
holds of any run, whoever owns `BUSC` and whatever is listed.
-/

namespace Busc
open Solidity WordMap Machine BUSCmotor

namespace BUSCmotor
variable {ps : List (Address × Address)} {f : Address → Address} {t : Address}

theorem feedMap_of_not_mem (ht : t ∉ ps.map Prod.fst) : feedMap ps f t = f t := by
  induction ps generalizing f with
  | nil => rfl
  | cons q ps ih =>
    simp only [List.map_cons, List.mem_cons, not_or] at ht
    exact (ih ht.2).trans (Function.update_of_ne ht.1 _ _)

theorem feedMap_of_mem (hnd : (ps.map Prod.fst).Nodup) {p : Address × Address} (hp : p ∈ ps) :
    feedMap ps f p.1 = p.2 := by
  induction ps generalizing f with
  | nil => simp at hp
  | cons q ps ih =>
    obtain ⟨hq, hnd⟩ := List.nodup_cons.1 hnd
    rcases List.mem_cons.1 hp with rfl | hp
    · exact (feedMap_of_not_mem hq).trans (Function.update_self ..)
    · exact ih hnd hp

theorem WellFormed.feed_getElem {tokens feeds : List Address} {busc : Address}
    (h : WellFormed tokens feeds busc) (i : Nat) (hi : i < tokens.length) :
    feeds[i]? = some ((initial tokens feeds busc).tokenToPriceFeed tokens[i]) := by
  have hi' : i < feeds.length := h.length ▸ hi
  have hmem : (tokens[i], feeds[i]) ∈ tokens.zip feeds := by
    have hz : i < (tokens.zip feeds).length := by simp; omega
    have hget := List.getElem_mem hz
    rwa [List.getElem_zip] at hget
  have hnd : ((tokens.zip feeds).map Prod.fst).Nodup := by
    rw [List.map_fst_zip h.length.le]
    exact h.nodup
  rw [List.getElem?_eq_getElem hi']
  exact congrArg some (feedMap_of_mem hnd hmem).symm

end BUSCmotor

/-- Only an operation of the motor writes the motor's storage. -/
theorem exec_motor (w : World) (a : Action) :
    (∃ sender, ∃ op : MotorOp, op.call .exact sender w = .ok (exec w a)) ∨ (exec w a).motor = w.motor := by
  cases a with
  | motor sender op =>
    cases h : op.call .exact sender w with
    | error e => exact .inr (by rw [exec, outcome_error h])
    | ok w' => exact .inl ⟨sender, op, by rw [exec, outcome_ok h, h]⟩
  | token sender token call =>
    exact .inr (outcome_cases (P := fun v => v.motor = w.motor) rfl fun _ h => TokenCall.call_motor h)
  | owner sender call =>
    exact .inr (outcome_cases (P := fun v => v.motor = w.motor) rfl fun _ h => OwnerCall.call_motor h)
  | passTime | updateFeed => exact .inr rfl

/-- The lists are as recorded at the construction, and nothing but listed tokens is deposited. -/
structure World.Recorded (m : BUSCmotor) (w : World) : Prop where
  tokenToPriceFeed : w.motor.tokenToPriceFeed = m.tokenToPriceFeed
  collateralTokens : w.motor.collateralTokens = m.collateralTokens
  deposit_unlisted : ∀ u t, ¬ w.Listed t → w.deposit u t = 0

section recorded
variable {m : BUSCmotor} {w w' : World}

theorem Leg.recorded {sender : Address} (h : Leg sender w w') (hw : w.Recorded m) : w'.Recorded m := by
  have hf := h.frame
  refine ⟨hf.tokenToPriceFeed.trans hw.tokenToPriceFeed,
    hf.collateralTokens.trans hw.collateralTokens, fun u t ht => ?_⟩
  rw [World.Listed, hf.tokenToPriceFeed] at ht
  exact h.deposit_eq_zero (hw.deposit_unlisted u t ht) fun e => ht e.2.2

theorem World.Recorded.exec (hw : w.Recorded m) (a : Action) : (exec w a).Recorded m := by
  rcases exec_motor w a with ⟨sender, op, h⟩ | h
  · exact MotorOp.call_legs (P := World.Recorded m) h hw fun _ _ => Leg.recorded
  · have hd : (Busc.exec w a).deposit = w.deposit := by unfold World.deposit; rw [h]
    refine ⟨h ▸ hw.tokenToPriceFeed, h ▸ hw.collateralTokens, fun u t ht => ?_⟩
    rw [World.Listed, h] at ht
    rw [hd]
    exact hw.deposit_unlisted u t ht

theorem World.Recorded.run (hw : w.Recorded m) (as : List Action) :
    (Machine.run Busc.exec w as).Recorded m := by
  induction as generalizing w with
  | nil => exact hw
  | cons a as ih => exact ih (hw.exec a)

end recorded

/-- The token list, the allow-list, the feeds and the valuation loop agree on the given lists. -/
structure World.Configured (tokens feeds : List Address) (w : World) : Prop where
  list : w.motor.collateralTokens = tokens
  feed : ∀ i (h : i < tokens.length), feeds[i]? = some (w.motor.tokenToPriceFeed tokens[i])
  allowed : ∀ t, protocolAllowedToken t w = .ok () ↔ t ∈ tokens
  /-- The loop meets every token that anybody has deposited once. -/
  visited : ∀ u t, w.deposit u t ≠ 0 → w.motor.collateralTokens.count t = 1
  /-- It returns where every listed token can be quoted and the sum is a word, and what it returns counts
  every deposit, whatever the token, once. -/
  total : ∀ u v, getCollateralValueOfTheAccountInUSD u w = .ok v ↔
    (∀ t ∈ tokens, w.Quotable t (w.deposit u t).toNat) ∧
      v.toNat = ∑ t, w.valueInUSD t (w.deposit u t).toNat

theorem World.Recorded.configured {tokens feeds : List Address} {busc : Address} {w : World}
    (hwf : WellFormed tokens feeds busc) (hw : w.Recorded (initial tokens feeds busc)) :
    w.Configured tokens feeds := by
  have htokens : w.motor.collateralTokens = tokens := hw.collateralTokens
  have hlisted (t : Address) : w.Listed t ↔ t ∈ tokens := by
    rw [World.Listed, hw.tokenToPriceFeed]
    exact hwf.feed_ne_zero
  have htotal (u : Address) : w.collateralValue u = ∑ t, w.valueInUSD t (w.deposit u t).toNat := by
    rw [World.collateralValue, htokens, ← List.sum_toFinset _ hwf.nodup]
    refine Finset.sum_subset (Finset.subset_univ _) fun t _ ht => ?_
    rw [List.mem_toFinset, ← hlisted] at ht
    rw [hw.deposit_unlisted u t ht]
    simp [World.valueInUSD, World.scaled]
  refine ⟨htokens, fun i hi => ?_, fun t => ?_, fun u t ht => ?_, fun u v => ?_⟩
  · rw [hw.tokenToPriceFeed]
    exact hwf.feed_getElem i hi
  · rw [protocolAllowedToken_eq_ok, hlisted]
  · have hmem : t ∈ tokens := by
      by_contra hnot
      exact ht (hw.deposit_unlisted u t ((hlisted t).not.2 hnot))
    rw [htokens]
    exact List.count_eq_one_of_mem hwf.nodup hmem
  · rw [getCollateralValue_eq_ok, htokens, htotal]

/-- The constructor takes exactly the well-formed configurations, and every state after it is
configured as given. -/
theorem configuration {tokens feeds : List Address} {busc : Address} :
    ((∃ m, constructor tokens feeds busc = .ok m) ↔ WellFormed tokens feeds busc) ∧
    ∀ m, constructor tokens feeds busc = .ok m → ∀ (w : World) (as : List Action), w.motor = m →
      (run exec w as).Configured tokens feeds := by
  constructor
  · constructor
    · rintro ⟨m, h⟩
      exact (constructor_eq_ok.1 h).1
    · intro h
      exact ⟨_, constructor_eq_ok.2 ⟨h, rfl⟩⟩
  · intro m h w as hm
    obtain ⟨hwf, rfl⟩ := constructor_eq_ok.1 h
    refine (World.Recorded.run ⟨by rw [hm], by rw [hm], fun u t _ => ?_⟩ as).configured hwf
    show w.motor.userCollateralDeposits u t = 0
    rw [hm]
    rfl

theorem configuration_anvil : (run exec Anvil.world (Anvil.approvals ++
    [.motor 7 (.depositCollateral 2 100000000), .motor 7 (.pullCollateral 2 1)])).Configured
      [1, 2] [3, 4] := by
  have hm : constructor [1, 2] [3, 4] 5 = .ok Anvil.world.motor := by rfl
  exact configuration.2 _ hm _ _ rfl

end Busc
