import Busc.World

/-!
# The BUSC token

`BUSCstablecoin.sol`: an `ERC20Burnable` whose `mint` and `burn` are reserved to its owner, with the
`Ownable` functions it inherits. `burnFrom` is inherited as it stands.
-/

namespace Busc
open Solidity

namespace BUSC

def constructor (deployer : Address) : BUSC := { ERC20.empty with owner := deployer }

def onlyOwner (sender : Address) (b : BUSC) : Tx Unit :=
  require (b.owner = sender) (.require "Ownable: caller is not the owner")

def mint (sender dst : Address) (mintAmount : UInt256) (b : BUSC) : Tx (Bool × BUSC) := do
  b.onlyOwner sender
  revertIf (mintAmount ≤ 0) (.error .mintMintAmountMustBeAboveZero)
  revertIf (dst = 0) (.error .mintCannotMintToInavlidOrZeroAddress)
  let t ← b.toERC20._mint dst mintAmount
  return (true, { b with toERC20 := t })

def burn (sender : Address) (burnAmount : UInt256) (b : BUSC) : Tx BUSC := do
  b.onlyOwner sender
  let balance := b.balances sender
  revertIf (burnAmount > balance) (.error .burnBurnRequestExceedsAvailableBalance)
  revertIf (burnAmount ≤ 0) (.error .burnBurnAmountMustBeMoreThan0ToBurn)
  let t ← b.toERC20.burn sender burnAmount
  return { b with toERC20 := t }

def transferOwnership (sender newOwner : Address) (b : BUSC) : Tx BUSC := do
  b.onlyOwner sender
  require (newOwner ≠ 0) (.require "Ownable: new owner is the zero address")
  return { b with owner := newOwner }

def renounceOwnership (sender : Address) (b : BUSC) : Tx BUSC := do
  b.onlyOwner sender
  return { b with owner := 0 }

section spec
variable {b b' : BUSC} {sender dst : Address} {amount : UInt256} {ok : Bool}

theorem mint_eq_ok : b.mint sender dst amount = .ok (ok, b') ↔
    b.owner = sender ∧ amount ≠ 0 ∧ dst ≠ 0 ∧ ok = true ∧
      ∃ h, b' = { b with toERC20 := b.toERC20.issue dst amount h } := by
  simp only [mint, onlyOwner, bind_eq_ok, require_eq_ok, revertIf_eq_ok, ERC20._mint_eq_ok,
    exists_const, pure_eq_ok, Prod.mk.injEq, not_le_zero]
  constructor
  · rintro ⟨ho, ha, hd, _, ⟨-, h, rfl⟩, rfl, rfl⟩; exact ⟨ho, ha, hd, rfl, h, rfl⟩
  · rintro ⟨ho, ha, hd, rfl, h, rfl⟩; exact ⟨ho, ha, hd, _, ⟨hd, h, rfl⟩, rfl, rfl⟩

theorem burn_eq_ok : b.burn sender amount = .ok b' ↔
    b.owner = sender ∧ amount ≠ 0 ∧ sender ≠ 0 ∧
      ∃ h, b' = { b with toERC20 := b.toERC20.destroy sender amount h } := by
  simp only [burn, onlyOwner, bind_eq_ok, require_eq_ok, revertIf_eq_ok, ERC20.burn,
    ERC20._burn_eq_ok, exists_const, pure_eq_ok, not_le_zero]
  constructor
  · rintro ⟨ho, -, ha, _, ⟨hs, h, rfl⟩, rfl⟩; exact ⟨ho, ha, hs, h, rfl⟩
  · rintro ⟨ho, ha, hs, h, rfl⟩
    exact ⟨ho, BitVec.not_lt.2 h, ha, _, ⟨hs, h, rfl⟩, rfl⟩

end spec

end BUSC

end Busc
