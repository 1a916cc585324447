import Mathlib.Algebra.Group.Basic
import Mathlib.Algebra.Group.Pi.Basic

/-!
# Steps that commute

Two partial steps of one system, whose states are read in a commutative group. A step is blind to a
relation when from related states it succeeds alike and adds the same amount to the reading. Where
each of two steps stays within a relation the other is blind to, their order makes no difference, also
when a step that fails counts as one that does nothing.
-/

namespace Diamond
variable {S G ε : Type} [AddCommGroup G] {cell : S → G} {R Q : S → S → Prop} {f g : S → Except ε S}
  {s s₁ s₂ t : S}

theorem update_eq_add_single {ι : Type} [DecidableEq ι] (f : ι → G) (i : ι) (x : G) :
    Function.update f i x = f + Pi.single i (x - f i) := by
  funext k
  rw [Pi.add_apply, Pi.single_apply, Function.update_apply]
  split
  · next e => rw [e, add_sub_cancel]
  · exact (add_zero _).symm

theorem sub_eq_sub_trans {a a' b b' c c' : G} (h₁ : b' - a' = b - a)
    (h₂ : c' - b' = c - b) : c' - a' = c - a := by
  rw [← sub_add_sub_cancel c' b' a', h₁, h₂, sub_add_sub_cancel]

theorem eq_of_sub_eq {a a' b b' : G} (h : a' = a) (e : b' - a' = b - a) : b' = b := by
  rwa [h, sub_left_inj] at e

/-- From related states the step succeeds alike, with the same effect. -/
def Blind (cell : S → G) (R : S → S → Prop) (f : S → Except ε S) : Prop :=
  ∀ ⦃s t s'⦄, R s t → f s = .ok s' → ∃ t', f t = .ok t' ∧ cell t' - cell t = cell s' - cell s

namespace Blind

theorem ok_iff (hf : Blind cell R f) (hR : ∀ s t, R s t → R t s) (h : R s t) :
    (∃ s', f s = .ok s') ↔ ∃ t', f t = .ok t' := by
  constructor
  · rintro ⟨s', hs⟩
    obtain ⟨t', ht, -⟩ := hf h hs
    exact ⟨t', ht⟩
  · rintro ⟨t', ht⟩
    obtain ⟨s', hs, -⟩ := hf (hR _ _ h) ht
    exact ⟨s', hs⟩

/-- Two steps from one state, neither seen by the other, can each be followed by the other, and the
readings agree. -/
theorem diamond (hf : Blind cell R f) (hg : Blind cell Q g) (h₁ : f s = .ok s₁) (h₂ : g s = .ok s₂)
    (hQ : Q s s₁) (hR : R s s₂) :
    ∃ t₁ t₂, g s₁ = .ok t₁ ∧ f s₂ = .ok t₂ ∧ cell t₁ = cell t₂ := by
  obtain ⟨t₁, ht₁, e₁⟩ := hg hQ h₂
  obtain ⟨t₂, ht₂, e₂⟩ := hf hR h₁
  refine ⟨t₁, t₂, ht₁, ht₂, ?_⟩
  calc cell t₁ = cell s₂ - cell s + cell s₁ := eq_add_of_sub_eq e₁
    _ = cell s₁ - cell s + cell s₂ := by rw [sub_add_eq_add_sub, sub_add_eq_add_sub, add_comm]
    _ = cell t₂ := (eq_add_of_sub_eq e₂).symm

/-- Where the reading tells the end states apart, one order leads to a state if the other does. -/
theorem comm (hf : Blind cell R f) (hg : Blind cell Q g) (hQ : ∀ s t, Q s t → Q t s)
    (hfQ : ∀ s₁, f s = .ok s₁ → Q s s₁) (hgR : ∀ s₂, g s = .ok s₂ → R s s₂)
    (hcell : ∀ s₁ s₂ t₁ t₂, f s = .ok s₁ → g s₁ = .ok t₁ → g s = .ok s₂ → f s₂ = .ok t₂ →
      cell t₁ = cell t₂ → t₁ = t₂)
    (h : ∃ s₁, f s = .ok s₁ ∧ g s₁ = .ok t) : ∃ s₂, g s = .ok s₂ ∧ f s₂ = .ok t := by
  obtain ⟨s₁, h₁, ht⟩ := h
  obtain ⟨s₂, h₂⟩ := (hg.ok_iff hQ (hfQ s₁ h₁)).2 ⟨t, ht⟩
  obtain ⟨t₁, t₂, ht₁, ht₂, e⟩ := hf.diamond hg h₁ h₂ (hfQ s₁ h₁) (hgR s₂ h₂)
  rw [hcell s₁ s₂ t₁ t₂ h₁ ht₁ h₂ ht₂ e, ← ht₂] at ht₁
  exact ⟨s₂, h₂, by rw [← ht₁, ht]⟩

end Blind

/-! ### Steps that fail leave the state -/

/-- The state after the step, or the same state if it fails. -/
def settle (f : S → Except ε S) (s : S) : S :=
  match f s with
  | .ok s' => s'
  | .error _ => s

theorem settle_ok (h : f s = .ok s₁) : settle f s = s₁ := by rw [settle, h]

theorem settle_of_not_ok (h : ¬ ∃ s₁, f s = .ok s₁) : settle f s = s := by
  cases hf : f s with
  | ok s₁ => exact absurd ⟨s₁, hf⟩ h
  | error e => rw [settle, hf]

/-- What a step does not see has no say in whether it succeeds. -/
theorem Blind.settle_ok_iff (hg : Blind cell Q g) (hQ : ∀ s t, Q s t → Q t s)
    (hfQ : ∀ s₁, f s = .ok s₁ → Q s s₁) :
    (∃ t, g (settle f s) = .ok t) ↔ ∃ t, g s = .ok t := by
  by_cases hf : ∃ s₁, f s = .ok s₁
  · obtain ⟨s₁, h₁⟩ := hf
    rw [settle_ok h₁]
    exact (hg.ok_iff hQ (hfQ s₁ h₁)).symm
  · rw [settle_of_not_ok hf]

/-- Steps that may fail commute as well: neither has a say in whether the other fails. -/
theorem Blind.settle_comm (hf : Blind cell R f) (hg : Blind cell Q g) (hR : ∀ s t, R s t → R t s)
    (hQ : ∀ s t, Q s t → Q t s) (hfQ : ∀ s₁, f s = .ok s₁ → Q s s₁)
    (hgR : ∀ s₂, g s = .ok s₂ → R s s₂)
    (hcell : ∀ s₁ s₂ t₁ t₂, f s = .ok s₁ → g s₁ = .ok t₁ → g s = .ok s₂ → f s₂ = .ok t₂ →
      cell t₁ = cell t₂ → t₁ = t₂) :
    settle g (settle f s) = settle f (settle g s) := by
  have hgiff := hg.settle_ok_iff hQ hfQ
  have hfiff := hf.settle_ok_iff hR hgR
  by_cases h₁ : ∃ s₁, f s = .ok s₁
  · by_cases h₂ : ∃ s₂, g s = .ok s₂
    · obtain ⟨s₁, h₁⟩ := h₁
      obtain ⟨s₂, h₂⟩ := h₂
      obtain ⟨t₁, t₂, ht₁, ht₂, e⟩ := hf.diamond hg h₁ h₂ (hfQ s₁ h₁) (hgR s₂ h₂)
      rw [settle_ok h₁, settle_ok h₂, settle_ok ht₁, settle_ok ht₂]
      exact hcell s₁ s₂ t₁ t₂ h₁ ht₁ h₂ ht₂ e
    · rw [settle_of_not_ok (hgiff.not.2 h₂), settle_of_not_ok h₂]
  · rw [settle_of_not_ok (hfiff.not.2 h₁), settle_of_not_ok h₁]

end Diamond
