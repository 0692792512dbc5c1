import Mathlib

/-!
# Programs with a state and exceptions

A program reads and updates a state, may raise an exception and keeps the state it had
reached when it does. `exec` runs one; an equation for each construct lets a proof run a
program step by step. A bounded loop models `while`.
-/
namespace LedgerKeePass.Program

abbrev Prog (ε σ α : Type) := ExceptT ε (StateM σ) α

variable {ε σ α β ρ : Type}

/-- The outcome of a program and the state it leaves, whether or not it raised. -/
def exec (p : Prog ε σ α) (s : σ) : Except ε α × σ := p.run.run s

def read (f : σ → α) : Prog ε σ α := do return f (← get)

def update (f : σ → σ) : Prog ε σ Unit := modify f

/-- The value of a checked operation, or the exception `e` when the check fails. -/
def demand (e : ε) : Option α → Prog ε σ α
  | some a => pure a
  | none => throw e

/-- `while`: the body returns either the next loop variables or the result. The loop
raises `stuck` when it is still going after `fuel` rounds. -/
def loop (stuck : ε) : ℕ → (ρ → Prog ε σ (ρ ⊕ α)) → ρ → Prog ε σ α
  | 0, _, _ => throw stuck
  | fuel + 1, body, r => do
    match ← body r with
    | .inl r' => loop stuck fuel body r'
    | .inr a => pure a

@[simp] theorem exec_pure (a : α) (s : σ) : exec (pure a : Prog ε σ α) s = (.ok a, s) := rfl

@[simp] theorem exec_throw (e : ε) (s : σ) :
    exec (throw e : Prog ε σ α) s = (.error e, s) := rfl

@[simp] theorem exec_read (f : σ → α) (s : σ) :
    exec (read f : Prog ε σ α) s = (.ok (f s), s) := rfl

@[simp] theorem exec_update (f : σ → σ) (s : σ) :
    exec (update f : Prog ε σ Unit) s = (.ok (), f s) := rfl

@[simp] theorem exec_demand_some (e : ε) (a : α) (s : σ) :
    exec (demand e (some a) : Prog ε σ α) s = (.ok a, s) := rfl

theorem exec_bind (p : Prog ε σ α) (f : α → Prog ε σ β) (s : σ) :
    exec (p >>= f) s = match exec p s with
      | (.ok a, t) => exec (f a) t
      | (.error e, t) => (.error e, t) := by
  simp only [exec, ExceptT.run_bind, StateT.run_bind]
  generalize StateT.run (ExceptT.run p) s = r
  rcases r with ⟨_ | _, _⟩ <;> rfl

theorem exec_tryCatch (p : Prog ε σ α) (h : ε → Prog ε σ α) (s : σ) :
    exec (tryCatch p h) s = match exec p s with
      | (.ok a, t) => (.ok a, t)
      | (.error e, t) => exec (h e) t := by
  simp only [exec, ExceptT.run_tryCatch, StateT.run_bind]
  generalize StateT.run (ExceptT.run p) s = r
  rcases r with ⟨_ | _, _⟩ <;> rfl

@[simp] theorem exec_ite (c : Prop) [Decidable c] (p q : Prog ε σ α) (s : σ) :
    exec (if c then p else q) s = if c then exec p s else exec q s := by
  split <;> rfl

/-- Running a bind whose first part is known to return. -/
theorem exec_bind_ok {p : Prog ε σ α} {f : α → Prog ε σ β} {s t : σ} {a : α}
    (h : exec p s = (.ok a, t)) : exec (p >>= f) s = exec (f a) t := by
  rw [exec_bind, h]

theorem exec_bind_error {p : Prog ε σ α} {f : α → Prog ε σ β} {s t : σ} {e : ε}
    (h : exec p s = (.error e, t)) : exec (p >>= f) s = (.error e, t) := by
  rw [exec_bind, h]

/-- A bind that returned: its first part did. -/
theorem exec_bind_inv {p : Prog ε σ α} {f : α → Prog ε σ β} {s u : σ} {b : β}
    (h : exec (p >>= f) s = (.ok b, u)) :
    ∃ a t, exec p s = (.ok a, t) ∧ exec (f a) t = (.ok b, u) := by
  rcases hp : exec p s with ⟨_ | a, t⟩
  · rw [exec_bind_error hp] at h
    cases h
  · exact ⟨a, t, rfl, (exec_bind_ok hp).symm.trans h⟩

/-- A program on another state, which is made of this one and gives it back. -/
def within {τ : Type} (enter : σ → τ) (leave : σ → τ → σ) (p : Prog ε τ α) : Prog ε σ α :=
  ExceptT.mk fun s => ((exec p (enter s)).1, leave s (exec p (enter s)).2)

theorem exec_within {τ : Type} {enter : σ → τ} {leave : σ → τ → σ} {p : Prog ε τ α} {s : σ}
    {res : Except ε α} {t : τ} (h : exec p (enter s) = (res, t)) :
    exec (within enter leave p) s = (res, leave s t) := by
  change ((exec p (enter s)).1, leave s (exec p (enter s)).2) = _
  rw [h]

/-- A program that leaves the state alone. -/
def Keeps (p : Prog ε σ α) : Prop := ∀ s, (exec p s).2 = s

theorem keeps_pure (a : α) : Keeps (pure a : Prog ε σ α) := fun _ => rfl

theorem keeps_demand (e : ε) (o : Option α) : Keeps (demand e o : Prog ε σ α) := by
  intro s
  cases o with
  | none => rfl
  | some a => rfl

/-- What follows a program without changing the state leaves its state. -/
theorem exec_bind_keeps {p : Prog ε σ α} {f : α → Prog ε σ β} (hf : ∀ a, Keeps (f a)) (s : σ) :
    (exec (p >>= f) s).2 = (exec p s).2 := by
  rw [exec_bind]
  rcases exec p s with ⟨_ | a, t⟩
  · rfl
  · exact hf a t

theorem Keeps.bind {p : Prog ε σ α} {f : α → Prog ε σ β} (hp : Keeps p) (hf : ∀ a, Keeps (f a)) :
    Keeps (p >>= f) := by
  intro s
  rw [exec_bind_keeps hf, hp]

theorem Keeps.ite {c : Prop} [Decidable c] {p q : Prog ε σ α} (hp : Keeps p) (hq : Keeps q) :
    Keeps (if c then p else q) := by
  split
  · exact hp
  · exact hq

theorem exec_loop_next {stuck : ε} {fuel : ℕ} {body : ρ → Prog ε σ (ρ ⊕ α)} {r r' : ρ} {s t : σ}
    (h : exec (body r) s = (.ok (.inl r'), t)) :
    exec (loop stuck (fuel + 1) body r) s = exec (loop stuck fuel body r') t := by
  rw [loop, exec_bind_ok h]

theorem exec_loop_done {stuck : ε} {fuel : ℕ} {body : ρ → Prog ε σ (ρ ⊕ α)} {r : ρ} {a : α}
    {s t : σ} (h : exec (body r) s = (.ok (.inr a), t)) :
    exec (loop stuck (fuel + 1) body r) s = (.ok a, t) := by
  rw [loop, exec_bind_ok h]
  rfl

end LedgerKeePass.Program
