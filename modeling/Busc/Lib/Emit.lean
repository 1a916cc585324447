import Mathlib.Tactic.Common

/-!
# Computations that emit

A computation in `Emit ν ε` fails with an `ε` or returns, and on the way appends entries of type `ν` to
a log; a failure leaves no log. `Emits m x es` says that `m` is the plain computation `x` with the
emission of `es` added: it fails as `x` does, and returns what `x` returns. The rules follow the shape of
`do` blocks, so the entries a program emits are read off its text.
-/

abbrev Emit (ν ε : Type) := StateT (List ν) (Except ε)

namespace Emit
variable {ν ε α β : Type}

def emit (e : ν) : Emit ν ε Unit := modify (· ++ [e])

/-- A part that emits nothing. -/
def lift (x : Except ε α) : Emit ν ε α := StateT.lift x

def Emits (m : Emit ν ε α) (x : Except ε α) (es : List ν) : Prop :=
  ∀ l, m.run l = x.map fun a => (a, l ++ es)

/-- The state and the log a call leaves; a call that fails leaves both as they were. -/
def commit (s : α × List ν) (m : Emit ν ε α) : α × List ν :=
  match m.run s.2 with
  | .ok s' => s'
  | .error _ => s

namespace Emits
variable {m : Emit ν ε α} {x : Except ε α} {es es' : List ν} {e : ν} {l : List ν} {s : α × List ν}

theorem pure (a : α) : Emits (Pure.pure a : Emit ν ε α) (Pure.pure a) [] := fun l => by
  rw [List.append_nil]; rfl

theorem lift (x : Except ε α) : Emits (Emit.lift x : Emit ν ε α) x [] := fun l => by
  rw [Emit.lift, StateT.run_lift]
  cases x with
  | error => rfl
  | ok a => rw [List.append_nil]; rfl

theorem bind {f : α → Emit ν ε β} {g : α → Except ε β} (h : Emits m x es)
    (hf : ∀ a, x = .ok a → Emits (f a) (g a) es') : Emits (m >>= f) (x >>= g) (es ++ es') := fun l => by
  rw [StateT.run_bind, h l]
  cases x with
  | error => rfl
  | ok a =>
    show (f a).run (l ++ es) = (g a).map _
    rw [hf a rfl, List.append_assoc]

/-- A part after which nothing is emitted. -/
theorem bind_nil {f : α → Emit ν ε β} {g : α → Except ε β} (h : Emits m x es)
    (hf : ∀ a, x = .ok a → Emits (f a) (g a) []) : Emits (m >>= f) (x >>= g) es := by
  have hb := h.bind hf
  rwa [List.append_nil] at hb

theorem lift_bind {x : Except ε α} {f : α → Emit ν ε β} {g : α → Except ε β}
    (hf : ∀ a, x = .ok a → Emits (f a) (g a) es) :
    Emits ((Emit.lift x : Emit ν ε α) >>= f) (x >>= g) es :=
  (lift x).bind hf

theorem emit_bind {f : Unit → Emit ν ε α} (h : Emits (f ()) x es) : Emits (emit e >>= f) x (e :: es) :=
  fun l => by
    show (f ()).run (l ++ [e]) = _
    rw [h, List.append_assoc]; rfl

/-- A part that ends with its emission. -/
theorem lift_emit (x : Except ε α) :
    Emits (Emit.lift x >>= fun a => Emit.emit e >>= fun _ => Pure.pure a) x [e] := fun l => by
  rw [StateT.run_bind, lift x l]
  cases x with
  | error => rfl
  | ok a => rw [List.append_nil]; rfl

theorem ite {c : Prop} [Decidable c] {m' : Emit ν ε α} {x' : Except ε α} (h : c → Emits m x es)
    (h' : ¬ c → Emits m' x' es') :
    Emits (if c then m else m') (if c then x else x') (if c then es else es') := by
  by_cases hc : c
  · simpa only [if_pos hc] using h hc
  · simpa only [if_neg hc] using h' hc

theorem commit_ok {a : α} (h : Emits m x es) (hx : x = .ok a) : commit s m = (a, s.2 ++ es) := by
  unfold commit
  rw [h, hx]; rfl

theorem commit_error {e : ε} (h : Emits m x es) (hx : x = .error e) : commit s m = s := by
  unfold commit
  rw [h, hx]; rfl

end Emits

end Emit
