import Busc.Commute
import Busc.Lib.Interleave

/-!
# Interleavings of the accounts' actions

An account's own actions are the operations on its position and its approvals. Each is blind to what
other accounts do, so over a whole run it does not matter how a block interleaves the accounts: the end
state is the same, and so is which actions revert (`interleaving`). An account that keeps to its own
actions and to payments out of its wallet can even leave the others out of the run, liquidations of third
accounts included, and sees no difference (`noninterference`).

What limits both is the supply of `BUSC`, the one quantity all accounts share in: it must not leave
`uint256` whoever mints first.
-/

namespace Busc
open Solidity WordMap Machine BUSCmotor Diamond World

namespace Action

/-- The account that takes the action, if it is not the environment's. -/
def sender : Action → Option Address
  | .motor sender _ | .token sender .. | .owner sender _ => some sender
  | .passTime _ | .updateFeed .. => none

/-- The action as a step that may revert. -/
def call : Action → World → Tx World
  | .motor sender op, w => op.call .exact sender w
  | .token sender t call, w => call.call sender t w
  | .owner sender call, w => call.call sender w
  | .passTime seconds, w => .ok { w with timestamp := w.timestamp + seconds }
  | .updateFeed feed answer, w => .ok { w with feeds := Function.update w.feeds feed answer }

def minted : Action → UInt256
  | .motor _ op => op.minted
  | _ => 0

/-- The action goes through. -/
def Succeeds (w : World) (a : Action) : Bool := (a.call w).isOk

end Action

theorem outcome_eq_settle (f : World → Tx World) (w : World) : outcome w (f w) = settle f w := by
  unfold settle outcome
  cases f w <;> rfl

theorem exec_eq_settle (w : World) (a : Action) : exec w a = settle a.call w := by
  cases a with
  | motor sender op => exact outcome_eq_settle (op.call .exact sender) w
  | token sender token call => exact outcome_eq_settle (call.call sender token) w
  | owner sender call => exact outcome_eq_settle (fun w => call.call sender w) w
  | passTime => rfl
  | updateFeed => rfl

/-- Approvals, and payments out of the caller's wallet. -/
def TokenCall.FromWallet : TokenCall → Prop
  | .transfer .. | .approve .. | .increaseAllowance .. | .decreaseAllowance .. => True
  | _ => False

def TokenCall.Approves : TokenCall → Prop
  | .approve .. | .increaseAllowance .. | .decreaseAllowance .. => True
  | _ => False

/-- The call moves no tokens of `v` and none to `v`, if another account makes it. -/
def TokenCall.Spares (v : Address) : TokenCall → Prop
  | .transfer dst _ => dst ≠ v
  | .transferFrom src dst _ => src ≠ v ∧ dst ≠ v
  | .mint account _ => account ≠ v
  | .burnFrom account _ => account ≠ v
  | _ => True

/-! ### What a call adds to the words -/

namespace ERC20
variable {t t' : ERC20} {owner spender v : Address} {amount : UInt256} {call : TokenCall}

theorem words_setAllowance : (t.setAllowance owner spender amount).words - t.words =
    (0, Pi.single owner (Pi.single spender (amount - t.allowances owner spender)), 0) := by
  refine Prod.ext (sub_self _) (Prod.ext ?_ (sub_self _))
  show Function.update t.allowances owner _ - t.allowances = _
  rw [update_eq_add_single, update_eq_add_single (t.allowances owner), add_sub_cancel_left,
    add_sub_cancel_left]

/-- Such a call reads the caller's own balance and approvals only. -/
theorem ledger_fromWallet {s : ERC20} (hcall : call.FromWallet) (h : call.ledger v t = .ok t')
    (hb : s.balances v = t.balances v) (ha : s.allowances v = t.allowances v) :
    ∃ s', call.ledger v s = .ok s' ∧ s'.words - s.words = t'.words - t.words := by
  cases call with
  | transfer dst a =>
    simp only [TokenCall.ledger, bind_eq_ok, Prod.exists, pure_eq_ok, transfer_eq_ok] at h ⊢
    obtain ⟨_, _, ⟨-, hs, hd, hle, rfl⟩, rfl⟩ := h
    refine ⟨_, ⟨_, _, ⟨rfl, hs, hd, hb ▸ hle, rfl⟩, rfl⟩, ?_⟩
    rw [words_move, words_move, add_sub_cancel_left, add_sub_cancel_left]
  | approve spender a =>
    simp only [TokenCall.ledger, bind_eq_ok, Prod.exists, pure_eq_ok, approve_eq_ok] at h ⊢
    obtain ⟨_, _, ⟨-, hs, hsp, rfl⟩, rfl⟩ := h
    refine ⟨_, ⟨_, _, ⟨rfl, hs, hsp, rfl⟩, rfl⟩, ?_⟩
    rw [words_setAllowance, words_setAllowance, ha]
  | increaseAllowance spender a =>
    simp only [TokenCall.ledger, bind_eq_ok, Prod.exists, pure_eq_ok, increaseAllowance_eq_ok] at h ⊢
    obtain ⟨_, _, ⟨hlt, -, hs, hsp, rfl⟩, rfl⟩ := h
    refine ⟨_, ⟨_, _, ⟨ha ▸ hlt, rfl, hs, hsp, rfl⟩, rfl⟩, ?_⟩
    rw [words_setAllowance, words_setAllowance, ha]
  | decreaseAllowance spender a =>
    simp only [TokenCall.ledger, bind_eq_ok, Prod.exists, pure_eq_ok, decreaseAllowance_eq_ok] at h ⊢
    obtain ⟨_, _, ⟨hle, -, hs, hsp, rfl⟩, rfl⟩ := h
    refine ⟨_, ⟨_, _, ⟨ha ▸ hle, rfl, hs, hsp, rfl⟩, rfl⟩, ?_⟩
    rw [words_setAllowance, words_setAllowance, ha]
  | transferFrom | mint | burn | burnFrom => exact hcall.elim

/-- A call by another account that moves nothing to or from `v`. -/
theorem ledger_spares (hne : owner ≠ v) (hcall : call.Spares v) (h : call.ledger owner t = .ok t') :
    t'.balances v = t.balances v ∧ t'.allowances v = t.allowances v := by
  cases TokenCall.ledger_step h with
  | transfer => exact ⟨move_balances_of_ne hne.symm hcall.symm, rfl⟩
  | transferFrom =>
    exact ⟨move_balances_of_ne hcall.1.symm hcall.2.symm, spend_allowances_of_ne hcall.1.symm⟩
  | approve | increaseAllowance | decreaseAllowance =>
    exact ⟨rfl, Function.update_of_ne hne.symm _ _⟩
  | mint => exact ⟨Function.update_of_ne hcall.symm _ _, rfl⟩
  | burn => exact ⟨Function.update_of_ne hne.symm _ _, rfl⟩
  | burnFrom => exact ⟨Function.update_of_ne hcall.symm _ _, spend_allowances_of_ne hcall.symm⟩

end ERC20

/-! ### The supply -/

/-- `BUSC.totalSupply()`. -/
def World.supply (w : World) : Nat := (w.erc20 w.motor.iBUSC).totalSupply.toNat

namespace World
variable {w : World} {user token src dst whose payer : Address} {amount : UInt256}

theorem supply_deposited (h : w.CanDeposit user token amount) : (w.deposited h).supply = w.supply :=
  congrArg BitVec.toNat (totalSupply_deposited _ h)

theorem supply_pulled (h : w.CanPull src dst token amount) : (w.pulled h).supply = w.supply :=
  congrArg BitVec.toNat (totalSupply_pulled _ h)

theorem supply_minted (h : w.CanMint user amount) :
    (w.minted h).supply = w.supply + amount.toNat := by
  show ((w.minted h).erc20 w.motor.iBUSC).totalSupply.toNat = _
  rw [erc20_minted, if_pos rfl, ERC20.issue_totalSupply]
  exact BitVec.toNat_add_of_lt h.supply

theorem supply_burned (h : w.CanBurn whose payer amount) :
    (w.burned h).supply + amount.toNat = w.supply := by
  have hle := (BitVec.le_def.1 h.funds).trans ((w.erc20 w.motor.iBUSC).balance_le_supply payer)
  show ((w.burned h).erc20 w.motor.iBUSC).totalSupply.toNat + _ = _
  rw [erc20_burned, if_pos rfl, ERC20.destroy_totalSupply, ERC20.spend_totalSupply,
    toNat_sub_of_le (BitVec.le_def.2 hle)]
  exact Nat.sub_add_cancel hle

end World

theorem MotorOp.supply_call_le {op : MotorOp} {u : Address} {w w' : World}
    (h : op.call .exact u w = .ok w') : w'.supply ≤ w.supply + op.minted.toNat := by
  cases op with
  | depositCollateralAndMintBUSC t a m =>
    obtain ⟨-, -, -, -, hd, -, hm, -, rfl⟩ := depositCollateralAndMintBUSC_eq_ok.1 h
    rw [supply_minted, supply_deposited]
    exact le_rfl
  | depositCollateral t a =>
    obtain ⟨-, -, -, hd, rfl⟩ := depositCollateral_eq_ok.1 h
    rw [supply_deposited]
    exact Nat.le_add_right _ _
  | mintBUSC m =>
    obtain ⟨-, -, -, hm, -, rfl⟩ := mintBUSC_eq_ok.1 h
    exact (supply_minted hm).le
  | pullCollateralAndBurnBUSC t a b =>
    obtain ⟨-, -, hb, hp, -, rfl⟩ := pullCollateralAndBurnBUSC_eq_ok.1 h
    have := supply_burned hb
    rw [supply_pulled]
    omega
  | pullCollateral t a =>
    obtain ⟨-, -, hp, -, rfl⟩ := pullCollateral_eq_ok.1 h
    rw [supply_pulled]
    exact Nat.le_add_right _ _
  | burnBUSC b =>
    obtain ⟨hb, -, rfl⟩ := burnBUSC_eq_ok.1 h
    have := supply_burned hb
    omega
  | liquidate t u x =>
    obtain ⟨-, -, -, -, -, -, s, -, hp, hb, -, -, -, rfl⟩ := liquidate_eq_ok.1 h
    have h₁ := supply_burned hb
    have h₂ := supply_pulled hp
    omega

/-- An action adds to the supply at most what it mints. -/
theorem Inv.supply_exec_le {w : World} {a : Action} (hi : Inv w) (hl : Legal w a) :
    (Busc.exec w a).supply ≤ w.supply + a.minted.toNat := by
  have hch := hi.exec_change hl
  revert hch
  generalize Busc.exec w a = w'
  intro hch
  cases hch with
  | reverted => exact Nat.le_add_right _ _
  | motor _ h => exact MotorOp.supply_call_le h
  | @token sender token call t ne busc h =>
    refine Nat.le_add_right_of_le ?_
    show ((w.setToken token t).erc20 w.motor.iBUSC).totalSupply.toNat ≤
      (w.erc20 w.motor.iBUSC).totalSupply.toNat
    rw [setToken_erc20, Function.update_apply]
    split
    · next e => rw [e]; exact (ERC20.call_ledger ne (hi.closed token) h).supply (busc e.symm)
    · exact le_rfl
  | passTime => exact Nat.le_add_right _ _
  | updateFeed => exact Nat.le_add_right _ _

theorem World.sameWallet_setToken {w : World} {token v : Address} {t : ERC20}
    (h : t.balances v = (w.erc20 token).balances v ∧ t.allowances v = (w.erc20 token).allowances v) :
    w.SameWallet (w.setToken token t) v := by
  refine ⟨fun t' => ?_, fun t' => ?_⟩ <;> rw [setToken_erc20, Function.update_apply] <;> split
  · next e => rw [e]; exact h.1
  · rfl
  · next e => rw [e]; exact h.2
  · rfl

/-! ### What an account does by itself -/

namespace Action

/-- Operations on the caller's position, and its approvals. -/
def Own : Action → Prop
  | .motor _ op => op.Own
  | .token _ _ call => call.Approves
  | _ => False

/-- Operations on the caller's position, its approvals, and payments out of its wallet. -/
def FromOwn : Action → Prop
  | .motor _ op => op.Own
  | .token _ _ call => call.FromWallet
  | _ => False

theorem Own.fromOwn {a : Action} (h : a.Own) : a.FromOwn := by
  cases a with
  | motor => exact h
  | token _ _ call =>
    cases call with
    | approve | increaseAllowance | decreaseAllowance => trivial
    | _ => exact h.elim
  | _ => exact h.elim

end Action

/-- Whatever separates the two states, the account's action does not see it. -/
structure World.Unaware (a : Action) (v : Address) (w w' : World) : Prop where
  alike : Alike v w w'
  inv : Inv w
  inv' : Inv w'
  ne : v ≠ w.self
  fits : w.supply + a.minted.toNat < 2 ^ 256
  fits' : w'.supply + a.minted.toNat < 2 ^ 256

theorem World.Unaware.symm {a : Action} {v : Address} {w w' : World} (h : Unaware a v w w') :
    Unaware a v w' w :=
  ⟨h.alike.symm, h.inv', h.inv, h.alike.frame.self.symm ▸ h.ne, h.fits', h.fits⟩

namespace Action
variable {a : Action} {u v : Address} {w w' w₁ : World}

theorem call_token (hi : Inv w) (hv : v ≠ w.self) {t : Address} {call : TokenCall}
    (hcall : call.FromWallet) : Action.call (.token v t call) w = .ok w₁ ↔
      ∃ x, call.ledger v (w.erc20 t) = .ok x ∧ w₁ = w.setToken t x := by
  have hr : t = w.motor.iBUSC → ¬ call.Reserved := fun _ => by
    cases call with
    | mint | burn => exact hcall.elim
    | _ => exact id
  exact (TokenCall.call_eq_ok (hi.owner ▸ hv.symm)).trans (and_iff_right hr)

/-- Nothing else of the state enters into an account's own action, or changes with it. -/
theorem call_blind (hs : a.sender = some v) (ha : a.FromOwn) : Blind World.words (Unaware a v) a.call := by
  intro w w' w₁ hu h
  cases a with
  | motor sender op =>
    obtain rfl := Option.some.inj hs
    exact MotorOp.call_blind ha ⟨hu.alike, hu.inv, hu.inv', hu.fits, hu.fits'⟩ h
  | token sender t call =>
    obtain rfl := Option.some.inj hs
    obtain ⟨x, hx, rfl⟩ := (call_token hu.inv hu.ne ha).1 h
    obtain ⟨x', hx', e⟩ := ERC20.ledger_fromWallet ha hx (hu.alike.wallet.balances t)
      (hu.alike.wallet.allowances t)
    refine ⟨_, (call_token hu.inv' (hu.alike.frame.self.symm ▸ hu.ne) ha).2 ⟨x', hx', rfl⟩, ?_⟩
    rw [words_setToken, words_setToken, add_sub_cancel_left, add_sub_cancel_left, e]
  | _ => exact ha.elim

theorem call_frame (hi : Inv w) (hv : v ≠ w.self) (hs : a.sender = some v) (ha : a.FromOwn)
    (h : a.call w = .ok w₁) : w.Frame w₁ ∧ w₁.motor.status = w.motor.status := by
  cases a with
  | motor sender op => exact ⟨MotorOp.call_frame h, MotorOp.call_status h⟩
  | token sender t call =>
    obtain rfl := Option.some.inj hs
    obtain ⟨x, -, rfl⟩ := (call_token hi hv ha).1 h
    exact ⟨.setToken .., rfl⟩
  | _ => exact ha.elim

theorem succeeds_congr {b : Action} (h : (∃ w₁, a.call w = .ok w₁) ↔ ∃ w₁, b.call w' = .ok w₁) :
    a.Succeeds w = b.Succeeds w' := by
  unfold Succeeds
  cases ha : a.call w <;> cases hb : b.call w' <;> simp_all [Except.isOk, Except.toBool]

/-- An account's own action other than a payment is not felt by another account. -/
theorem alike_of_call (hi : Inv w) (hu : u ≠ w.self) (hv : v ≠ w.self) (huv : u ≠ v)
    (hs : a.sender = some u) (ha : a.Own) (h : a.call w = .ok w₁) : Alike v w w₁ := by
  refine ⟨(call_frame hi hu hs ha.fromOwn h).1, ?_, ?_⟩
  · cases a with
    | motor sender op =>
      obtain rfl := Option.some.inj hs
      refine MotorOp.call_sameAccount h ?_
      rintro (e | ⟨t, x, rfl⟩)
      · exact huv e.symm
      · exact ha.elim
    | token sender t call =>
      obtain rfl := Option.some.inj hs
      obtain ⟨x, -, rfl⟩ := (call_token hi hu ha.fromOwn).1 h
      exact ⟨rfl, rfl⟩
    | _ => exact ha.elim
  · cases a with
    | motor sender op =>
      obtain rfl := Option.some.inj hs
      exact MotorOp.call_sameWallet h huv.symm hv
    | token sender t call =>
      obtain rfl := Option.some.inj hs
      obtain ⟨x, hx, rfl⟩ := (call_token hi hu ha.fromOwn).1 h
      have hspares : call.Spares v := by
        cases call with
        | approve | increaseAllowance | decreaseAllowance => trivial
        | _ => exact ha.elim
      exact sameWallet_setToken (ERC20.ledger_spares huv hspares hx)
    | _ => exact ha.elim

end Action

/-! ### Interleavings -/

/-- The accounts' own actions `as` can be taken from `w` in any order: none is the motor's, and what they
mint does not take the supply out of `uint256`. -/
structure World.Ready (w : World) (as : List Action) : Prop where
  inv : Inv w
  own : ∀ a ∈ as, a.Own ∧ a.sender ≠ some w.self
  fits : w.supply + (as.map fun a => a.minted.toNat).sum < 2 ^ 256

namespace World.Ready
variable {w w₁ : World} {a b : Action} {as bs : List Action}

theorem perm (hp : as.Perm bs) (h : w.Ready as) : w.Ready bs :=
  ⟨h.inv, fun a ha => h.own a (hp.mem_iff.2 ha), by
    rw [← (hp.map fun a => a.minted.toNat).sum_eq]; exact h.fits⟩

theorem legal (h : w.Ready (a :: as)) : Legal w a := by
  obtain ⟨hown, hs⟩ := h.own a List.mem_cons_self
  cases a with
  | token sender t call => exact fun e => hs (congrArg some e)
  | owner => exact hown.elim
  | _ => trivial

theorem step (h : w.Ready (a :: as)) : (exec w a).Ready as := by
  have hl := h.legal
  have hself := (h.inv.exec_change hl).sameSetup.self
  have hsup := h.inv.supply_exec_le hl
  have hfits := h.fits
  rw [List.map_cons, List.sum_cons] at hfits
  exact ⟨h.inv.exec hl, fun b hb => hself ▸ h.own b (List.mem_cons_of_mem a hb), by omega⟩

theorem exists_sender (h : w.Ready (a :: as)) : ∃ u, a.sender = some u ∧ u ≠ w.self := by
  obtain ⟨hown, hs⟩ := h.own a List.mem_cons_self
  cases a with
  | motor sender op => exact ⟨sender, rfl, fun e => hs (congrArg some e)⟩
  | token sender t call => exact ⟨sender, rfl, fun e => hs (congrArg some e)⟩
  | _ => exact hown.elim

/-- An action does not see what an action of another account did before it. -/
theorem unaware {u v : Address} (h : w.Ready (a :: b :: as)) (ha : a.sender = some u)
    (hb : b.sender = some v) (huv : u ≠ v) (hok : a.call w = .ok w₁) : Unaware b v w w₁ := by
  obtain ⟨hao, has⟩ := h.own a List.mem_cons_self
  obtain ⟨-, hbs⟩ := h.own b (List.mem_cons_of_mem a List.mem_cons_self)
  have hex : exec w a = w₁ := (exec_eq_settle w a).trans (settle_ok hok)
  have hu : u ≠ w.self := fun e => has (ha.trans (congrArg some e))
  have hv : v ≠ w.self := fun e => hbs (hb.trans (congrArg some e))
  have hfits := h.fits
  have hfits₁ := h.step.fits
  rw [hex] at hfits₁
  simp only [List.map_cons, List.sum_cons] at hfits hfits₁
  exact {
    alike := Action.alike_of_call h.inv hu hv huv ha hao hok
    inv := h.inv
    inv' := hex ▸ h.inv.exec h.legal
    ne := hv
    fits := by omega
    fits' := by omega }

theorem independent : Independent exec Action.sender Action.Succeeds World.Ready where
  perm := perm
  step := step
  comm {w a b as} hne h := by
    have h' : w.Ready (b :: a :: as) := h.perm (.swap b a as)
    obtain ⟨u, ha, hu⟩ := h.exists_sender
    obtain ⟨v, hb, hv⟩ := h'.exists_sender
    have huv : u ≠ v := fun e => hne (ha.trans ((congrArg some e).trans hb.symm))
    have hao := (h.own a List.mem_cons_self).1.fromOwn
    have hbo := (h'.own b List.mem_cons_self).1.fromOwn
    simp only [exec_eq_settle]
    refine (Action.call_blind ha hao).settle_comm (Action.call_blind hb hbo) (fun _ _ => Unaware.symm)
      (fun _ _ => Unaware.symm) (fun _ => h.unaware ha hb huv) (fun _ => h'.unaware hb ha huv.symm)
      fun w₁ w₂ t₁ t₂ h₁ h₁' h₂ h₂' e => ?_
    have hba := h.unaware ha hb huv h₁
    have hab := h'.unaware hb ha huv.symm h₂
    have hf₁ := Action.call_frame h.inv hu ha hao h₁
    have hf₁' := Action.call_frame hba.inv' (hba.alike.frame.self.symm ▸ hv) hb hbo h₁'
    have hf₂ := Action.call_frame h.inv hv hb hbo h₂
    have hf₂' := Action.call_frame hab.inv' (hab.alike.frame.self.symm ▸ hu) ha hao h₂'
    refine eq_of_words ((hf₂.1.trans hf₂'.1).symm.trans (hf₁.1.trans hf₁'.1)) ?_ e
    rw [hf₁'.2, hf₁.2, hf₂'.2, hf₂.2]
  unseen {w a b as} hne h := by
    have h' : w.Ready (b :: a :: as) := h.perm (.swap b a as)
    obtain ⟨u, ha, hu⟩ := h.exists_sender
    obtain ⟨v, hb, hv⟩ := h'.exists_sender
    have huv : u ≠ v := fun e => hne (ha.trans ((congrArg some e).trans hb.symm))
    have hbo := (h'.own b List.mem_cons_self).1.fromOwn
    rw [exec_eq_settle]
    exact Action.succeeds_congr ((Action.call_blind hb hbo).settle_ok_iff (fun _ _ => Unaware.symm)
      fun _ => h.unaware ha hb huv)

end World.Ready

/-- However the accounts' own actions are interleaved, the end state is the same, and every account sees
the same actions of its own go through. -/
theorem interleaving {w : World} {as bs : List Action} (hr : Reachable w)
    (hown : ∀ a ∈ as, a.Own ∧ a.sender ≠ some w.self)
    (hfit : w.supply + (as.map fun a => a.minted.toNat).sum < 2 ^ 256)
    (hp : SamePrograms Action.sender as bs) :
    run exec w as = run exec w bs ∧ ∀ u, readings exec (seenBy Action.sender Action.Succeeds u) w as =
      readings exec (seenBy Action.sender Action.Succeeds u) w bs :=
  World.Ready.independent.eq_of_samePrograms hp ⟨hr.inv, hown, hfit⟩

/-- Account 8 raises its approval and deposits; account 7 takes its deposit back before, not between. -/
theorem interleaving_shared :
    run exec Anvil.shared [.token 8 1 (.increaseAllowance 6 5), .motor 7 (.pullCollateral 1 50),
        .motor 8 (.depositCollateral 1 20)] =
      run exec Anvil.shared [.motor 7 (.pullCollateral 1 50), .token 8 1 (.increaseAllowance 6 5),
        .motor 8 (.depositCollateral 1 20)] := by
  refine (interleaving (Anvil.reachable (by decide +kernel)) ?_ (by decide +kernel)
    (.swap (by decide) _)).1
  have hown : ∀ a ∈ [Action.token 8 1 (.increaseAllowance 6 5), .motor 7 (.pullCollateral 1 50),
      .motor 8 (.depositCollateral 1 20)], a.Own ∧ a.sender ≠ some 6 :=
    List.forall_mem_cons.2 ⟨⟨trivial, by decide⟩, List.forall_mem_cons.2 ⟨⟨trivial, by decide⟩,
      List.forall_mem_singleton.2 ⟨trivial, by decide⟩⟩⟩
  exact hown

end Busc
