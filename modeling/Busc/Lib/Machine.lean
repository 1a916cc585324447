import Mathlib.Tactic.Common

/-!
# Runs of a deterministic machine

`run exec s as` performs the actions `as` one after the other from state `s`. `Along exec P s as`
says that every action of the run satisfies `P` in the state it is taken in: it states both what is
assumed of the steps of a run and what is proved of each of them. `tally` and `readings` collect what
the steps of a run yield. `Leads exec P s Q` says that some run of steps satisfying `P` gets from `s`
to a state of which `Q` holds.
-/

namespace Machine
variable {σ α : Type} (exec : σ → α → σ)

def run (s : σ) (as : List α) : σ := as.foldl exec s

/-- `P` holds of every step of the run, at the state the step is taken in. -/
def Along (P : σ → α → Prop) : σ → List α → Prop
  | _, [] => True
  | s, a :: as => P s a ∧ Along P (exec s a) as

/-- What `f` counts at the steps of the run, added up. -/
def tally (f : σ → α → Nat) : σ → List α → Nat
  | _, [] => 0
  | s, a :: as => f s a + tally f (exec s a) as

/-- What `f` reads off the steps of the run, in order. -/
def readings {β : Type} (f : σ → α → Option β) : σ → List α → List β
  | _, [] => []
  | s, a :: as => (f s a).toList ++ readings f (exec s a) as

/-- Some run whose steps satisfy `P` leads to a state of which `R` holds. -/
def Leads (P : σ → α → Prop) (s : σ) (R : σ → Prop) : Prop :=
  ∃ as, Along exec P s as ∧ R (run exec s as)

variable {exec} {P Q : σ → α → Prop} {I : σ → Prop} {s : σ} {a : α} {as bs : List α}

@[simp] theorem run_nil : run exec s [] = s := rfl

@[simp] theorem run_cons : run exec s (a :: as) = run exec (exec s a) as := rfl

theorem run_append : run exec s (as ++ bs) = run exec (run exec s as) bs :=
  List.foldl_append

@[simp] theorem along_nil : Along exec P s [] := trivial

@[simp] theorem along_cons :
    Along exec P s (a :: as) ↔ P s a ∧ Along exec P (exec s a) as := Iff.rfl

instance Along.decidable [∀ s a, Decidable (P s a)] : ∀ s as, Decidable (Along exec P s as)
  | _, [] => inferInstanceAs (Decidable True)
  | s, a :: as =>
    have := Along.decidable (exec s a) as
    inferInstanceAs (Decidable (P s a ∧ Along exec P (exec s a) as))

theorem along_append :
    Along exec P s (as ++ bs) ↔ Along exec P s as ∧ Along exec P (run exec s as) bs := by
  induction as generalizing s with
  | nil => simp
  | cons a as ih => simp [ih, and_assoc]

namespace Along

theorem mono (h : Along exec P s as) (hPQ : ∀ s a, P s a → Q s a) : Along exec Q s as := by
  induction as generalizing s with
  | nil => trivial
  | cons a as ih => exact ⟨hPQ _ _ h.1, ih h.2⟩

theorem and (hP : Along exec P s as) (hQ : Along exec Q s as) :
    Along exec (fun s a => P s a ∧ Q s a) s as := by
  induction as generalizing s with
  | nil => trivial
  | cons a as ih => exact ⟨⟨hP.1, hQ.1⟩, ih hP.2 hQ.2⟩

theorem of_prefix (h : Along exec P s as) (hpre : bs <+: as) : Along exec P s bs := by
  obtain ⟨post, rfl⟩ := hpre
  exact (along_append.1 h).1

/-- An invariant kept by every step that satisfies `P` holds at the end of the run, and at every
step on the way. -/
theorem inv (h : Along exec P s as) (hI : I s) (step : ∀ s a, I s → P s a → I (exec s a)) :
    I (run exec s as) ∧ Along exec (fun s a => I s ∧ P s a) s as := by
  induction as generalizing s with
  | nil => exact ⟨hI, trivial⟩
  | cons a as ih =>
    obtain ⟨hrun, halong⟩ := ih h.2 (step _ _ hI h.1)
    exact ⟨hrun, ⟨hI, h.1⟩, halong⟩

/-- A quantity that grows at every step by what the step counts grows by the tally. -/
theorem eq_add_tally {m : σ → Int} {f : σ → α → Nat} (h : Along exec P s as)
    (step : ∀ s a, P s a → m (exec s a) = m s + f s a) :
    m (run exec s as) = m s + tally exec f s as := by
  induction as generalizing s with
  | nil => simp [tally]
  | cons a as ih =>
    have h1 := ih h.2
    have h2 := step s a h.1
    simp only [run_cons, tally]
    omega

/-- A quantity that every step raises by what `f` counts and lowers by what `g` counts. -/
theorem add_tally_eq {m : σ → Int} {f g : σ → α → Nat} (h : Along exec P s as)
    (step : ∀ s a, P s a → m (exec s a) + g s a = m s + f s a) :
    m (run exec s as) + tally exec g s as = m s + tally exec f s as := by
  induction as generalizing s with
  | nil => simp [tally]
  | cons a as ih =>
    have h1 := ih h.2
    have h2 := step s a h.1
    simp only [run_cons, tally]
    omega

/-- A quantity that falls at every step by at most `k` for each the step counts falls by at most `k`
for each of the tally. -/
theorem le_add_mul_tally {m : σ → Int} {f : σ → α → Nat} {k : Int} (h : Along exec P s as)
    (step : ∀ s a, P s a → m s ≤ m (exec s a) + k * f s a) :
    m s ≤ m (run exec s as) + k * tally exec f s as := by
  induction as generalizing s with
  | nil => simp [tally]
  | cons a as ih =>
    have h1 := ih h.2
    have h2 := step s a h.1
    simp only [run_cons, tally, Int.natCast_add, Int.mul_add]
    omega

/-- Readings that correspond at every step correspond along the run. -/
theorem readings_eq_map {β γ : Type} {f : σ → α → Option β} {g : σ → α → Option γ} {φ : β → γ}
    (h : Along exec P s as) (step : ∀ s a, P s a → g s a = (f s a).map φ) :
    readings exec g s as = (readings exec f s as).map φ := by
  induction as generalizing s with
  | nil => rfl
  | cons a as ih =>
    simp only [readings, List.map_append, ih h.2, step s a h.1]
    cases f s a <;> rfl

/-- A relation to the first state that is reflexive and extended by every step holds at the end. -/
theorem rel {R : σ → σ → Prop} (h : Along exec P s as) (refl : ∀ s, R s s)
    (step : ∀ s a t, P s a → R (exec s a) t → R s t) : R s (run exec s as) := by
  induction as generalizing s with
  | nil => exact refl s
  | cons a as ih => exact step _ _ _ h.1 (ih h.2)

/-- A machine that does to what `abs` sees of it what another machine does, and nothing to it by the
actions `tr` drops, does so along whole runs; what `f` reads off the one, `g` reads off the other. -/
theorem refines {τ β γ : Type} {exec' : τ → β → τ} {Q : τ → β → Prop} {abs : σ → τ}
    {tr : α → Option β} {f : σ → α → Option γ} {g : τ → β → Option γ} (hP : Along exec P s as)
    (hQ : Along exec' Q (abs s) (as.filterMap tr))
    (step : ∀ s a, P s a → (∀ b, tr a = some b → Q (abs s) b) →
      abs (exec s a) = (tr a).elim (abs s) (exec' (abs s)) ∧ f s a = (tr a).bind (g (abs s))) :
    abs (run exec s as) = run exec' (abs s) (as.filterMap tr) ∧
      readings exec f s as = readings exec' g (abs s) (as.filterMap tr) := by
  induction as generalizing s with
  | nil => exact ⟨rfl, rfl⟩
  | cons a as ih =>
    cases ha : tr a with
    | none =>
      rw [List.filterMap_cons_none ha] at hQ ⊢
      obtain ⟨hs, hf⟩ := step s a hP.1 fun b hb => by rw [ha] at hb; cases hb
      rw [ha] at hs hf
      obtain ⟨hrun, hread⟩ := ih hP.2 (by rw [hs]; exact hQ)
      rw [hs] at hrun hread
      refine ⟨hrun, ?_⟩
      simp only [readings, hf, hread]
      rfl
    | some b =>
      rw [List.filterMap_cons_some ha] at hQ ⊢
      obtain ⟨hs, hf⟩ := step s a hP.1 fun b' hb => by
        rw [ha] at hb
        cases hb
        exact hQ.1
      rw [ha] at hs hf
      obtain ⟨hrun, hread⟩ := ih hP.2 (by rw [hs]; exact hQ.2)
      rw [hs] at hrun hread
      refine ⟨hrun, ?_⟩
      simp only [readings, hf, hread]
      rfl

theorem iff_prefix : Along exec P s as ↔
    ∀ pre a post, as = pre ++ a :: post → P (run exec s pre) a := by
  induction as generalizing s with
  | nil => simp
  | cons b as ih =>
    rw [along_cons, ih]
    constructor
    · rintro ⟨hb, h⟩ pre a post heq
      cases pre with
      | nil =>
        rw [List.nil_append, List.cons.injEq] at heq
        exact heq.1 ▸ hb
      | cons c pre =>
        rw [List.cons_append, List.cons.injEq] at heq
        obtain ⟨rfl, heq⟩ := heq
        exact h pre a post heq
    · intro h
      exact ⟨h [] b as rfl, fun pre a post heq => h (b :: pre) a post (by rw [heq]; rfl)⟩

end Along

namespace Leads
variable {R R' : σ → Prop}

theorem here (h : R s) : Leads exec P s R := ⟨[], trivial, h⟩

theorem step (a : α) (hP : P s a) (h : R (exec s a)) : Leads exec P s R := ⟨[a], ⟨hP, trivial⟩, h⟩

theorem trans (h : Leads exec P s R) (hnext : ∀ t, R t → Leads exec P t R') : Leads exec P s R' := by
  obtain ⟨as, has, ht⟩ := h
  obtain ⟨bs, hbs, hR⟩ := hnext _ ht
  exact ⟨as ++ bs, along_append.2 ⟨has, hbs⟩, run_append.symm ▸ hR⟩

theorem mono (h : Leads exec P s R) (hP : ∀ s a, P s a → Q s a) (hR : ∀ t, R t → R' t) :
    Leads exec Q s R' := by
  obtain ⟨as, has, ht⟩ := h
  exact ⟨as, has.mono hP, hR _ ht⟩

/-- What can be settled for one element at a time, without unsettling another, can be settled for a
list of them. -/
theorem forall_mem {ι : Type} {J : σ → Prop} {D : ι → σ → Prop} {l : List ι} (hJ : J s)
    (step : ∀ i ∈ l, ∀ t, J t → Leads exec P t fun t' => J t' ∧ D i t' ∧ ∀ j, D j t → D j t') :
    Leads exec P s fun t => J t ∧ (∀ i ∈ l, D i t) ∧ ∀ j, D j s → D j t := by
  induction l generalizing s with
  | nil => exact here ⟨hJ, nofun, fun _ => id⟩
  | cons i l ih =>
    refine (step i List.mem_cons_self s hJ).trans fun t ⟨ht, hi, hkeep⟩ => ?_
    refine (ih ht fun j hj => step j (List.mem_cons_of_mem i hj)).mono (fun _ _ => id) ?_
    rintro t' ⟨ht', hl, hkeep'⟩
    exact ⟨ht', List.forall_mem_cons.2 ⟨hkeep' i hi, hl⟩, fun j hj => hkeep' j (hkeep j hj)⟩

end Leads

end Machine
