import Busc.Interleaving

/-!
# An account does not notice the others

Leave out of a run all that other accounts do, operations, liquidations of third accounts and token
calls alike, and keep the clock and the feeds. An account that nobody liquidates and nobody sends tokens
to ends with the same position and the same wallet, and at every action of its own the same happens. Two
runs are compared that stay `Twin` for the account: what the others do moves one of them, to a state the
account cannot tell apart; what the account does moves both by the same amount.
-/

namespace Busc
open Solidity WordMap Machine BUSCmotor World

namespace World.Alike
variable {v : Address} {w w₁ w₂ : World} {a : Action}

theorem refl (v : Address) (w : World) : Alike v w w := ⟨.refl w, ⟨rfl, rfl⟩, .refl w v⟩

theorem trans (h₁ : Alike v w w₁) (h₂ : Alike v w₁ w₂) : Alike v w w₂ :=
  ⟨h₁.frame.trans h₂.frame, h₁.account.trans h₂.account, h₁.wallet.trans h₂.wallet⟩

/-- The clock and the feeds run on in both states alike. -/
theorem environment (h : Alike v w w₁) (ha : a.sender = none) : Alike v (exec w a) (exec w₁ a) := by
  obtain ⟨hf, ha', hw⟩ := h
  cases a with
  | passTime seconds =>
    have ht : w₁.timestamp + seconds = w.timestamp + seconds := by rw [hf.timestamp]
    exact ⟨{ hf with timestamp := ht }, ⟨ha'.deposit, ha'.debt⟩, ⟨hw.balances, hw.allowances⟩⟩
  | updateFeed feed round =>
    have hfeeds : Function.update w₁.feeds feed round = Function.update w.feeds feed round := by
      rw [hf.feeds]
    exact ⟨{ hf with feeds := hfeeds }, ⟨ha'.deposit, ha'.debt⟩, ⟨hw.balances, hw.allowances⟩⟩
  | motor | token | owner => exact absurd ha (Option.some_ne_none _)

end World.Alike

namespace Action

/-- The action is `v`'s or the environment's. -/
def Concerns (v : Address) (a : Action) : Bool := a.sender = some v ∨ a.sender = none

/-- `v` keeps to its position and to payments out of its wallet; others do not liquidate it, and move no
tokens from or to it. -/
def Apart (v : Address) : Action → Prop
  | .motor sender op => if sender = v then op.Own else ∀ t x, op ≠ .liquidate t v x
  | .token sender _ call => if sender = v then call.FromWallet else call.Spares v
  | .owner sender _ => sender ≠ v
  | .passTime _ | .updateFeed .. => True

variable {v : Address} {w w' : World} {a : Action}

theorem Apart.fromOwn (h : a.Apart v) (hs : a.sender = some v) : a.FromOwn := by
  cases a with
  | motor sender op => exact (if_pos (Option.some.inj hs)).mp h
  | token sender t call => exact (if_pos (Option.some.inj hs)).mp h
  | owner sender call => exact absurd (Option.some.inj hs) h
  | passTime | updateFeed => exact absurd hs.symm (Option.some_ne_none _)

theorem legal_congr (h : w'.self = w.self) : Legal w' a ↔ Legal w a := by
  cases a <;> simp only [Legal, h]

/-- What another account does leaves `v` in a state it cannot tell apart. -/
theorem alike_of_apart (hi : Inv w) (hv : v ≠ w.self) (hl : Legal w a) (h : a.Apart v)
    (hc : ¬ a.Concerns v) : Alike v w (exec w a) := by
  obtain ⟨hs, hn⟩ : a.sender ≠ some v ∧ a.sender ≠ none := by simpa [Concerns] using hc
  have hch := hi.exec_change hl
  revert hch
  generalize exec w a = w'
  intro hch
  cases hch with
  | reverted => exact .refl v w
  | @motor sender op _ ne hok =>
    have hne : v ≠ sender := fun e => hs (congrArg some e.symm)
    have hliq : ∀ t x, op ≠ .liquidate t v x := (if_neg hne.symm).mp h
    refine ⟨MotorOp.call_frame hok, MotorOp.call_sameAccount hok ?_, MotorOp.call_sameWallet hok hne hv⟩
    rintro (e | ⟨t, x, e⟩)
    · exact hne e
    · exact hliq t x e
  | @token sender token call t ne busc hok =>
    have hne : sender ≠ v := fun e => hs (congrArg some e)
    have hspares : call.Spares v := (if_neg hne).mp h
    exact ⟨.setToken .., ⟨rfl, rfl⟩, sameWallet_setToken (ERC20.ledger_spares hne hspares hok)⟩
  | passTime | updateFeed => exact absurd rfl hn

end Action

/-- Two states that are the same to `v`, each of which may take the actions `as`. -/
structure World.Twin (v : Address) (as : List Action) (w w' : World) : Prop where
  alike : Alike v w w'
  inv : Inv w
  inv' : Inv w'
  ne : v ≠ w.self
  apart : ∀ a ∈ as, Legal w a ∧ a.Apart v
  fits : w.supply + (as.map fun a => a.minted.toNat).sum < 2 ^ 256
  fits' : w'.supply + (as.map fun a => a.minted.toNat).sum < 2 ^ 256

namespace World.Twin
variable {v : Address} {w w' : World} {a : Action} {as : List Action}

theorem legal (h : Twin v (a :: as) w w') : Legal w a ∧ Legal w' a :=
  ⟨(h.apart a List.mem_cons_self).1,
    (Action.legal_congr h.alike.frame.self).2 (h.apart a List.mem_cons_self).1⟩

theorem supply_lt {w : World} (hi : Inv w) (hl : Legal w a)
    (hfit : w.supply + ((a :: as).map fun a => a.minted.toNat).sum < 2 ^ 256) :
    (exec w a).supply + (as.map fun a => a.minted.toNat).sum < 2 ^ 256 := by
  have hsup := hi.supply_exec_le hl
  rw [List.map_cons, List.sum_cons] at hfit
  omega

/-- Both states take the action. -/
theorem both (h : Twin v (a :: as) w w') (halike : Alike v (exec w a) (exec w' a)) :
    Twin v as (exec w a) (exec w' a) := by
  obtain ⟨hl, hl'⟩ := h.legal
  have hself := (h.inv.exec_change hl).sameSetup.self
  exact {
    alike := halike
    inv := h.inv.exec hl
    inv' := h.inv'.exec hl'
    ne := hself ▸ h.ne
    apart := fun b hb => by
      obtain ⟨hlb, hab⟩ := h.apart b (List.mem_cons_of_mem a hb)
      exact ⟨(Action.legal_congr hself).2 hlb, hab⟩
    fits := supply_lt h.inv hl h.fits
    fits' := supply_lt h.inv' hl' h.fits' }

/-- One state takes the action, and the other leaves it out. -/
theorem one (h : Twin v (a :: as) w w') (halike : Alike v (exec w a) w') :
    Twin v as (exec w a) w' := by
  obtain ⟨hl, -⟩ := h.legal
  have hself := (h.inv.exec_change hl).sameSetup.self
  have hfits := h.fits'
  rw [List.map_cons, List.sum_cons] at hfits
  exact {
    alike := halike
    inv := h.inv.exec hl
    inv' := h.inv'
    ne := hself ▸ h.ne
    apart := fun b hb => by
      obtain ⟨hlb, hab⟩ := h.apart b (List.mem_cons_of_mem a hb)
      exact ⟨(Action.legal_congr hself).2 hlb, hab⟩
    fits := supply_lt h.inv hl h.fits
    fits' := by omega }

theorem unaware (h : Twin v (a :: as) w w') : Unaware a v w w' := by
  have hfits := h.fits
  have hfits' := h.fits'
  rw [List.map_cons, List.sum_cons] at hfits hfits'
  exact ⟨h.alike, h.inv, h.inv', h.ne, by omega, by omega⟩

/-- An action of `v` goes through in both states or in neither, and keeps them alike. -/
theorem own (h : Twin v (a :: as) w w') (hs : a.sender = some v) :
    Alike v (exec w a) (exec w' a) ∧ a.Succeeds w = a.Succeeds w' := by
  have ha := (h.apart a List.mem_cons_self).2.fromOwn hs
  have hblind := Action.call_blind hs ha
  have hiff := hblind.ok_iff (fun _ _ => Unaware.symm) h.unaware
  refine ⟨?_, Action.succeeds_congr hiff⟩
  rw [exec_eq_settle, exec_eq_settle]
  by_cases hok : ∃ w₁, a.call w = .ok w₁
  · obtain ⟨w₁, h₁⟩ := hok
    obtain ⟨w₁', h₁', e⟩ := hblind h.unaware h₁
    have hf := (Action.call_frame h.inv h.ne hs ha h₁).1
    have hf' := (Action.call_frame h.inv' (h.alike.frame.self.symm ▸ h.ne) hs ha h₁').1
    rw [Diamond.settle_ok h₁, Diamond.settle_ok h₁']
    exact h.alike.step hf hf' e
  · rw [Diamond.settle_of_not_ok hok, Diamond.settle_of_not_ok (hiff.not.1 hok)]
    exact h.alike

end World.Twin

/-- Without the others' actions the account ends in the same position, with the same wallet, and each of
its own actions goes through or reverts as it did with them. -/
theorem noninterference {w : World} {v : Address} {as : List Action} (hr : Reachable w)
    (hv : v ≠ w.self) (has : ∀ a ∈ as, Legal w a ∧ a.Apart v)
    (hfit : w.supply + (as.map fun a => a.minted.toNat).sum < 2 ^ 256) :
    Alike v (run exec w as) (run exec w (as.filter (Action.Concerns v))) ∧
      readings exec (seenBy Action.sender Action.Succeeds (some v)) w as =
        readings exec (seenBy Action.sender Action.Succeeds (some v)) w
          (as.filter (Action.Concerns v)) := by
  have step : ∀ w w' a as, a.Concerns v → Twin v (a :: as) w w' → Twin v as (exec w a) (exec w' a) ∧
      seenBy Action.sender Action.Succeeds (some v) w a =
        seenBy Action.sender Action.Succeeds (some v) w' a := by
    intro w w' a as hc h
    obtain hs | hn : a.sender = some v ∨ a.sender = none := by simpa [Action.Concerns] using hc
    · obtain ⟨halike, hsucc⟩ := h.own hs
      exact ⟨h.both halike, by simp only [seenBy, hsucc]⟩
    · have hnot : ¬ a.sender = some v := fun e => Option.some_ne_none v (e.symm.trans hn)
      exact ⟨h.both (h.alike.environment hn), by rw [seenBy, seenBy, if_neg hnot, if_neg hnot]⟩
  have skip : ∀ w w' a as, ¬ a.Concerns v → Twin v (a :: as) w w' → Twin v as (exec w a) w' ∧
      seenBy Action.sender Action.Succeeds (some v) w a = none := by
    intro w w' a as hc h
    have hnot : ¬ a.sender = some v := fun e => hc (by simp [Action.Concerns, e])
    obtain ⟨hl, hap⟩ := h.apart a List.mem_cons_self
    exact ⟨h.one ((Action.alike_of_apart h.inv h.ne hl hap hc).symm.trans h.alike), if_neg hnot⟩
  have hstart : Twin v as w w := ⟨.refl v w, hr.inv, hr.inv, hv, has, hfit, hfit⟩
  obtain ⟨htwin, hread⟩ := unwinding step skip hstart
  exact ⟨htwin.alike, hread⟩

/-- Account 8 deposits 20 units of WETH and takes 5 back; account 7 takes its deposit back and gives it
away in between. -/
def Anvil.bystander : List Action := [.motor 7 (.pullCollateral 1 50),
  .motor 8 (.depositCollateral 1 20), .passTime 10, .token 7 1 (.transfer 9 50),
  .motor 8 (.pullCollateral 1 5)]

theorem noninterference_bystander :
    (run exec Anvil.shared [.motor 8 (.depositCollateral 1 20), .passTime 10,
        .motor 8 (.pullCollateral 1 5)]).deposit 8 1 = (run exec Anvil.shared Anvil.bystander).deposit 8 1 ∧
      (run exec Anvil.shared Anvil.bystander).deposit 8 1 = 15 := by
  have hap : ∀ a ∈ Anvil.bystander, Legal Anvil.shared a ∧ a.Apart 8 :=
    List.forall_mem_cons.2 ⟨⟨trivial, nofun⟩, List.forall_mem_cons.2 ⟨⟨trivial, trivial⟩,
      List.forall_mem_cons.2 ⟨⟨trivial, trivial⟩, List.forall_mem_cons.2
        ⟨⟨(by decide : (7 : Address) ≠ 6), (by decide : (9 : Address) ≠ 8)⟩,
          List.forall_mem_singleton.2 ⟨trivial, trivial⟩⟩⟩⟩⟩
  have hr : Reachable Anvil.shared := Anvil.reachable (by decide +kernel)
  have h := (noninterference hr (by decide) hap (by decide +kernel)).1
  exact ⟨congrFun h.account.deposit 1, by decide +kernel⟩

end Busc
