import Busc.Conserve

/-!
# The deployment

The constructor's loop keeps the price feed map and the token list in step: a token has a feed
exactly when it has been pushed, which is what its duplicate check relies on. From that follows when
the constructor returns and what it leaves, and then the same for the whole deployment.
-/

namespace Busc
open Solidity WordMap BUSCmotor

namespace BUSCmotor

def feedMap (ps : List (Address × Address)) (f : Address → Address) : Address → Address :=
  ps.foldl (fun f p => Function.update f p.1 p.2) f

theorem feedMap_ne_zero {ps : List (Address × Address)} (hps : ∀ p ∈ ps, p.2 ≠ 0) {f : Address → Address}
    {t : Address} : feedMap ps f t ≠ 0 ↔ t ∈ ps.map Prod.fst ∨ f t ≠ 0 := by
  induction ps generalizing f with
  | nil => simp [feedMap]
  | cons p ps ih =>
    have hp := hps p List.mem_cons_self
    refine (ih (fun q hq => hps q (List.mem_cons_of_mem p hq))).trans ?_
    rw [List.map_cons, List.mem_cons]
    show _ ∨ Function.update f p.1 p.2 t ≠ 0 ↔ _
    rw [Function.update_apply]
    by_cases ht : t = p.1
    · rw [if_pos ht]
      exact ⟨fun _ => .inl (.inl ht), fun _ => .inr hp⟩
    · rw [if_neg ht, or_iff_right ht]

def withTokens (m : BUSCmotor) (ps : List (Address × Address)) : BUSCmotor :=
  { m with
    tokenToPriceFeed := feedMap ps m.tokenToPriceFeed
    collateralTokens := m.collateralTokens ++ ps.map Prod.fst }

theorem addToken_eq_ok {m m' : BUSCmotor} {p : Address × Address} :
    addToken m p.1 p.2 = .ok m' ↔
      (p.1 ≠ 0 ∧ p.2 ≠ 0) ∧ m.tokenToPriceFeed p.1 = 0 ∧ m' = m.withTokens [p] := by
  simp only [addToken, bind_eq_ok, revertIf_eq_ok, exists_const, pure_eq_ok, not_or, ne_eq, not_not]
  exact Iff.rfl

/-- The loop goes through when no pair has a zero and no token repeats. -/
theorem addTokens_eq_ok {ps : List (Address × Address)} {m m' : BUSCmotor} :
    ps.foldlM (fun m p => addToken m p.1 p.2) m = .ok m' ↔
      (∀ p ∈ ps, p.1 ≠ 0 ∧ p.2 ≠ 0) ∧ (∀ p ∈ ps, m.tokenToPriceFeed p.1 = 0) ∧
        (ps.map Prod.fst).Nodup ∧ m' = m.withTokens ps := by
  induction ps generalizing m with
  | nil => simp [pure_eq_ok, withTokens, feedMap]
  | cons p ps ih =>
    simp only [List.foldlM_cons, bind_eq_ok, addToken_eq_ok, ih, List.forall_mem_cons, List.map_cons,
      List.nodup_cons, and_assoc, exists_and_left, exists_eq_left]
    have hwith : (m.withTokens [p]).withTokens ps = m.withTokens (p :: ps) := by
      simp only [withTokens, feedMap, List.map_cons, List.map_nil, List.append_assoc,
        List.singleton_append, List.foldl_cons, List.foldl_nil]
    have hfeed (q : Address) : (m.withTokens [p]).tokenToPriceFeed q =
        if q = p.1 then p.2 else m.tokenToPriceFeed q := Function.update_apply ..
    -- a token that repeats `p.1` would find the feed `p.2` in its place
    have hstep (hp : p.2 ≠ 0) : (∀ q ∈ ps, (m.withTokens [p]).tokenToPriceFeed q.1 = 0) ↔
        (∀ q ∈ ps, m.tokenToPriceFeed q.1 = 0) ∧ p.1 ∉ ps.map Prod.fst := by
      simp only [hfeed, List.mem_map, not_exists, not_and, ← forall_and]
      refine forall_congr' fun q => forall_congr' fun _ => ?_
      by_cases hq : q.1 = p.1
      · rw [if_pos hq]
        exact ⟨fun h => absurd h hp, fun h => absurd hq h.2⟩
      · rw [if_neg hq]
        exact ⟨fun h => ⟨h, hq⟩, And.left⟩
    rw [hwith]
    constructor
    · rintro ⟨h1, h2, h0, hps, hf, hnd, rfl⟩
      obtain ⟨hf, hnot⟩ := (hstep h2).1 hf
      exact ⟨h1, h2, hps, h0, hf, hnot, hnd, rfl⟩
    · rintro ⟨h1, h2, hps, h0, hf, hnot, hnd, rfl⟩
      exact ⟨h1, h2, h0, hps, (hstep h2).2 ⟨hf, hnot⟩, hnd, rfl⟩

def initial (tokenAddresses tokenPriceFeedAddresses : List Address) (busc : Address) : BUSCmotor where
  iBUSC := busc
  tokenToPriceFeed := feedMap (tokenAddresses.zip tokenPriceFeedAddresses) fun _ => 0
  userCollateralDeposits _ _ := 0
  buscAmountMintedByUser _ := 0
  collateralTokens := tokenAddresses
  status := .notEntered

/-- Lists of the same length, without zero addresses and without a token twice. -/
structure WellFormed (tokenAddresses tokenPriceFeedAddresses : List Address) (busc : Address) :
    Prop where
  length : tokenAddresses.length = tokenPriceFeedAddresses.length
  tokens_ne : 0 ∉ tokenAddresses
  feeds_ne : 0 ∉ tokenPriceFeedAddresses
  nodup : tokenAddresses.Nodup
  busc_ne : busc ≠ 0

theorem constructor_eq_ok {tokens feeds : List Address} {busc : Address} {m : BUSCmotor} :
    constructor tokens feeds busc = .ok m ↔
      WellFormed tokens feeds busc ∧ m = initial tokens feeds busc := by
  simp only [constructor, bind_eq_ok, revertIf_eq_ok, exists_const, addTokens_eq_ok, pure_eq_ok,
    ne_eq, not_not, implies_true, true_and]
  constructor
  · rintro ⟨hlen, m, ⟨hne, hnd, rfl⟩, hb, rfl⟩
    have hfst : (tokens.zip feeds).map Prod.fst = tokens := List.map_fst_zip hlen.le
    have hsnd : (tokens.zip feeds).map Prod.snd = feeds := List.map_snd_zip hlen.ge
    refine ⟨⟨hlen, ?_, ?_, hfst ▸ hnd, hb⟩, ?_⟩
    · intro h
      rw [← hfst] at h
      obtain ⟨p, hp, h0⟩ := List.mem_map.1 h
      exact (hne p hp).1 h0
    · intro h
      rw [← hsnd] at h
      obtain ⟨p, hp, h0⟩ := List.mem_map.1 h
      exact (hne p hp).2 h0
    · simp only [withTokens, initial, List.nil_append, hfst]
  · rintro ⟨h, rfl⟩
    have hfst : (tokens.zip feeds).map Prod.fst = tokens := List.map_fst_zip h.length.le
    refine ⟨h.length, _, ⟨?_, by rw [hfst]; exact h.nodup, rfl⟩, h.busc_ne, ?_⟩
    · intro p hp
      obtain ⟨ht, hf⟩ := List.of_mem_zip hp
      exact ⟨fun h0 => h.tokens_ne (h0 ▸ ht), fun h0 => h.feeds_ne (h0 ▸ hf)⟩
    · simp only [withTokens, initial, List.nil_append, hfst]

theorem WellFormed.feed_ne_zero {tokens feeds : List Address} {busc t : Address}
    (h : WellFormed tokens feeds busc) :
    (initial tokens feeds busc).tokenToPriceFeed t ≠ 0 ↔ t ∈ tokens := by
  have hps : ∀ p ∈ tokens.zip feeds, p.2 ≠ 0 := fun p hp h0 =>
    h.feeds_ne (h0 ▸ (List.of_mem_zip hp).2)
  refine (feedMap_ne_zero hps).trans ?_
  rw [List.map_fst_zip h.length.le]
  simp

end BUSCmotor

def Chain.deployed (c : Chain) (tokens feeds : List Address) : World where
  timestamp := c.timestamp
  feeds := c.feeds
  decimals := c.decimals
  erc20 := Function.update c.erc20 c.busc .empty
  owner := c.motor
  self := c.motor
  motor := BUSCmotor.initial tokens feeds c.busc

theorem deploy_eq_ok {c : Chain} {tokens feeds : List Address} {w : World} :
    deploy c tokens feeds = .ok w ↔
      WellFormed tokens feeds c.busc ∧ c.motor ≠ 0 ∧ w = c.deployed tokens feeds := by
  simp only [deploy, bind_eq_ok, constructor_eq_ok, BUSC.transferOwnership, BUSC.onlyOwner,
    require_eq_ok, exists_const, pure_eq_ok]
  constructor
  · rintro ⟨_, ⟨h, rfl⟩, _, ⟨-, hm, rfl⟩, rfl⟩; exact ⟨h, hm, rfl⟩
  · rintro ⟨h, hm, rfl⟩; exact ⟨_, ⟨h, rfl⟩, _, ⟨rfl, hm, rfl⟩, rfl⟩

end Busc
