import Busc.Lib.Machine

/-!
# Interleavings

Every action has an owner, and two runs are interleavings of the same programs if each owner takes the
same actions in the same order in both. Where actions of different owners commute and none changes what
another yields, such runs end in the same state and yield the same to every owner: the first action of
one run is brought to the front of the other, past actions of other owners only. What an owner sees
nothing of can even be left out (`unwinding`).
-/

namespace Machine
variable {σ α β ω : Type} {exec : σ → α → σ} {s t : σ} {a b : α} {as bs pre post : List α}

section interleave
variable [DecidableEq ω] {owner : α → ω}

/-- Every owner takes the same actions in the same order. -/
def SamePrograms (owner : α → ω) (as bs : List α) : Prop :=
  ∀ o, as.filter (owner · = o) = bs.filter (owner · = o)

/-- What `o` gets to see of a step: its own actions, with what they yield. -/
def seenBy (owner : α → ω) (obs : σ → α → β) (o : ω) (s : σ) (a : α) : Option (α × β) :=
  if owner a = o then some (a, obs s a) else none

/-- `Ready s as` says that the actions `as` may be taken from `s`, in any order; while it holds, those of
different owners do not get in each other's way. -/
structure Independent (exec : σ → α → σ) (owner : α → ω) (obs : σ → α → β)
    (Ready : σ → List α → Prop) : Prop where
  perm : ∀ {s as bs}, as.Perm bs → Ready s as → Ready s bs
  step : ∀ {s a as}, Ready s (a :: as) → Ready (exec s a) as
  comm : ∀ {s a b as}, owner a ≠ owner b → Ready s (a :: b :: as) →
    exec (exec s a) b = exec (exec s b) a
  unseen : ∀ {s a b as}, owner a ≠ owner b → Ready s (a :: b :: as) → obs (exec s a) b = obs s b

theorem SamePrograms.swap (hne : owner a ≠ owner b) (as : List α) :
    SamePrograms owner (a :: b :: as) (b :: a :: as) := fun o => by
  rcases eq_or_ne (owner a) o with rfl | ha
  · simp [hne.symm]
  · simp [List.filter_cons, ha]

theorem SamePrograms.cons (h : SamePrograms owner (a :: as) bs) : ∃ pre post, bs = pre ++ a :: post ∧
    (∀ b ∈ pre, owner b ≠ owner a) ∧ SamePrograms owner as (pre ++ post) := by
  have ha := h (owner a)
  rw [List.filter_cons_of_pos (by simp)] at ha
  obtain ⟨pre, post, rfl, hpre, -, -⟩ := List.filter_eq_cons_iff.1 ha.symm
  have hne : ∀ b ∈ pre, owner b ≠ owner a := fun b hb => by simpa using hpre b hb
  refine ⟨pre, post, rfl, hne, fun o => ?_⟩
  have ho := h o
  by_cases hao : owner a = o
  · subst hao
    have hnil : pre.filter (owner · = owner a) = [] :=
      List.filter_eq_nil_iff.2 fun b hb => by simpa using hne b hb
    simpa [List.filter_append, hnil] using ho
  · simpa [List.filter_append, hao] using ho

theorem SamePrograms.perm (h : SamePrograms owner as bs) : as.Perm bs := by
  induction as generalizing bs with
  | nil =>
    cases bs with
    | nil => exact .nil
    | cons b bs => simpa using (h (owner b)).symm
  | cons a as ih =>
    obtain ⟨pre, post, rfl, -, hrest⟩ := h.cons
    exact ((ih hrest).cons a).trans List.perm_middle.symm

namespace Independent
variable {obs : σ → α → β} {Ready : σ → List α → Prop} (h : Independent exec owner obs Ready)
include h

theorem swap (hne : owner b ≠ owner a) (hr : Ready s (b :: a :: as)) (o : ω) :
    run exec s (b :: a :: as) = run exec s (a :: b :: as) ∧
      readings exec (seenBy owner obs o) s (b :: a :: as) =
        readings exec (seenBy owner obs o) s (a :: b :: as) := by
  have hcomm := h.comm hne hr
  have hb := h.unseen hne.symm (h.perm (.swap a b as) hr)
  have ha := h.unseen hne hr
  refine ⟨by rw [run_cons, run_cons, run_cons, run_cons, hcomm], ?_⟩
  simp only [readings, seenBy, hcomm, ha, hb]
  -- only one of the two is seen
  by_cases hbo : owner b = o
  · have hao : ¬ owner a = o := fun e => hne (hbo.trans e.symm)
    rw [if_neg hao]
    rfl
  · rw [if_neg hbo]
    rfl

theorem front (hpre : ∀ b ∈ pre, owner b ≠ owner a) (hr : Ready s (pre ++ a :: post)) (o : ω) :
    run exec s (pre ++ a :: post) = run exec s (a :: (pre ++ post)) ∧
      readings exec (seenBy owner obs o) s (pre ++ a :: post) =
        readings exec (seenBy owner obs o) s (a :: (pre ++ post)) := by
  induction pre generalizing s with
  | nil => exact ⟨rfl, rfl⟩
  | cons b pre ih =>
    obtain ⟨hb, hpre⟩ := List.forall_mem_cons.1 hpre
    obtain ⟨hrun, hseen⟩ := ih hpre (h.step hr)
    have hr' : Ready s (b :: a :: (pre ++ post)) := h.perm (List.perm_middle.cons b) hr
    obtain ⟨hrun', hseen'⟩ := h.swap hb hr' o
    refine ⟨?_, ?_⟩
    · calc run exec s (b :: pre ++ a :: post) = run exec s (b :: a :: (pre ++ post)) := hrun
        _ = run exec s (a :: (b :: pre ++ post)) := hrun'
    · calc readings exec (seenBy owner obs o) s (b :: pre ++ a :: post)
          = readings exec (seenBy owner obs o) s (b :: a :: (pre ++ post)) :=
            congrArg (_ ++ ·) hseen
        _ = readings exec (seenBy owner obs o) s (a :: (b :: pre ++ post)) := hseen'

/-- Runs that interleave the same programs end in the same state, and every owner sees the same. -/
theorem eq_of_samePrograms (hp : SamePrograms owner as bs) (hr : Ready s as) :
    run exec s as = run exec s bs ∧ ∀ o, readings exec (seenBy owner obs o) s as =
      readings exec (seenBy owner obs o) s bs := by
  induction as generalizing s bs with
  | nil =>
    cases bs with
    | nil => exact ⟨rfl, fun _ => rfl⟩
    | cons b bs => simpa using hp (owner b)
  | cons a as ih =>
    have hr' := h.perm hp.perm hr
    obtain ⟨pre, post, rfl, hpre, hrest⟩ := hp.cons
    obtain ⟨hrun, hseen⟩ := ih hrest (h.step hr)
    refine ⟨?_, fun o => ?_⟩
    · exact hrun.trans (h.front hpre hr' (owner a)).1.symm
    · exact (congrArg (_ ++ ·) (hseen o)).trans (h.front hpre hr' o).2.symm

end Independent

end interleave

/-- Two runs stay related, and yield the same, when one leaves out what does not break the relation to
the other. `R as` relates the states with `as` still to come. -/
theorem unwinding {R : List α → σ → σ → Prop} {sees : α → Bool} {f : σ → α → Option β}
    (step : ∀ s t a as, sees a → R (a :: as) s t → R as (exec s a) (exec t a) ∧ f s a = f t a)
    (skip : ∀ s t a as, ¬ sees a → R (a :: as) s t → R as (exec s a) t ∧ f s a = none)
    (h : R as s t) : R [] (run exec s as) (run exec t (as.filter sees)) ∧
      readings exec f s as = readings exec f t (as.filter sees) := by
  induction as generalizing s t with
  | nil => exact ⟨h, rfl⟩
  | cons a as ih =>
    by_cases ha : sees a
    · obtain ⟨hR, hf⟩ := step s t a as ha h
      obtain ⟨hrun, hread⟩ := ih hR
      rw [List.filter_cons_of_pos ha]
      refine ⟨hrun, ?_⟩
      rw [readings, readings, hread, hf]
    · obtain ⟨hR, hf⟩ := skip s t a as ha h
      obtain ⟨hrun, hread⟩ := ih hR
      rw [List.filter_cons_of_neg ha]
      refine ⟨hrun, ?_⟩
      rw [readings, hread, hf]
      rfl

end Machine
