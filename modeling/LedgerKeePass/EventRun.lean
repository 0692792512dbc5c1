import LedgerKeePass.ProgramRun

/-!
# Runs of event-driven programs

A program that reacts to inputs one at a time runs through the states its reactions
leave. `Run` collects the inputs and outputs of such a run, each input meeting a guard
in the state that receives it. `Observed` is a run watched by a history variable, and
`Lockstep` relates two runs of the same inputs.
-/
namespace LedgerKeePass.Program

variable {ε σ ι ο α β ω : Type}

inductive Run (step : ι → Prog ε σ ο) (A : σ → ι → Prop) : σ → List (ι × ο) → σ → Prop
  | nil (s : σ) : Run step A s [] s
  | snoc {s t u : σ} {tr : List (ι × ο)} {i : ι} {o : ο} (prior : Run step A s tr t)
      (guard : A t i) (last : exec (step i) t = (.ok o, u)) : Run step A s (tr ++ [(i, o)]) u

variable {step : ι → Prog ε σ ο} {A B : σ → ι → Prop}

/-- What holds at the start and survives every guarded step holds at the end. -/
theorem Run.invariant {I : σ → Prop} {s t : σ} {tr : List (ι × ο)} (h : Run step A s tr t)
    (hs : I s) (hstep : ∀ t i o u, I t → A t i → exec (step i) t = (.ok o, u) → I u) : I t := by
  induction h with
  | nil => exact hs
  | snoc _ hA he ih => exact hstep _ _ _ _ ih hA he

/-- A run meets a guard all along, or it has gone wrong: while the guard holds `I` is kept, a
step against it leads to `B`, and `B` stays. -/
theorem Run.guarded_or {G : σ → ι → Prop} {I B : σ → Prop} {s t : σ} {tr : List (ι × ο)}
    (h : Run step A s tr t) (hs : I s)
    (hI : ∀ t i o u, I t → G t i → exec (step i) t = (.ok o, u) → I u)
    (hbad : ∀ t i o u, I t → ¬ G t i → exec (step i) t = (.ok o, u) → B u)
    (hB : ∀ t i o u, B t → exec (step i) t = (.ok o, u) → B u) : Run step G s tr t ∨ B t := by
  induction h with
  | nil => exact .inl (.nil _)
  | @snoc t u tr i o _ _ he ih =>
    rcases ih with hr | hb
    · have ht := hr.invariant hs hI
      by_cases hg : G t i
      · exact .inl (.snoc hr hg he)
      · exact .inr (hbad _ _ _ _ ht hg he)
    · exact .inr (hB _ _ _ _ hb he)

/-- The run that goes on with what the program computes. -/
theorem Run.next {s t : σ} {tr : List (ι × ο)} (h : Run step A s tr t) {i : ι} {o : ο}
    (hA : A t i) (he : (exec (step i) t).1 = .ok o) :
    Run step A s (tr ++ [(i, o)]) (exec (step i) t).2 :=
  .snoc h hA (Prod.ext he rfl)

/-- A run with a step in front of it. -/
theorem Run.cons {s t u : σ} {tr : List (ι × ο)} {i : ι} {o : ο} (hA : A s i)
    (he : exec (step i) s = (.ok o, t)) (h : Run step A t tr u) : Run step A s ((i, o) :: tr) u := by
  induction h with
  | nil => exact .snoc (.nil s) hA he
  | snoc _ hA' he' ih => exact .snoc ih hA' he'

/-- A run together with a history variable, which `watch` updates from the state and
the input of each step. -/
inductive Observed (step : ι → Prog ε σ ο) (A : σ → ι → Prop) (watch : ω → σ → ι → ω) :
    σ → ω → List (ι × ο) → σ → ω → Prop
  | nil (s : σ) (w : ω) : Observed step A watch s w [] s w
  | snoc {s t u : σ} {v w : ω} {tr : List (ι × ο)} {i : ι} {o : ο}
      (prior : Observed step A watch s v tr t w) (guard : A t i)
      (last : exec (step i) t = (.ok o, u)) :
      Observed step A watch s v (tr ++ [(i, o)]) u (watch w t i)

variable {watch : ω → σ → ι → ω}

theorem Observed.next {s t : σ} {v w : ω} {tr : List (ι × ο)}
    (h : Observed step A watch s v tr t w) {i : ι} {o : ο} (hA : A t i)
    (he : (exec (step i) t).1 = .ok o) :
    Observed step A watch s v (tr ++ [(i, o)]) (exec (step i) t).2 (watch w t i) :=
  .snoc h hA (Prod.ext he rfl)

/-- A watched run with a step in front of it. -/
theorem Observed.cons {s t u : σ} {v w : ω} {tr : List (ι × ο)} {i : ι} {o : ο} (hA : A s i)
    (he : exec (step i) s = (.ok o, t)) (h : Observed step A watch t (watch v s i) tr u w) :
    Observed step A watch s v ((i, o) :: tr) u w := by
  generalize hv : watch v s i = v' at h
  induction h with
  | nil =>
    subst hv
    exact .snoc (.nil s v) hA he
  | snoc _ hA' he' ih => exact .snoc (ih hv) hA' he'

theorem Run.observed {s t : σ} {tr : List (ι × ο)} (h : Run step A s tr t) (watch : ω → σ → ι → ω)
    (v : ω) : ∃ w, Observed step A watch s v tr t w := by
  induction h with
  | nil => exact ⟨v, .nil _ v⟩
  | snoc _ hA he ih =>
    obtain ⟨w, hw⟩ := ih
    exact ⟨_, .snoc hw hA he⟩

/-- A relation between state and history that every guarded step maintains. -/
theorem Observed.invariant {R : σ → ω → Prop} {s t : σ} {v w : ω} {tr : List (ι × ο)}
    (h : Observed step A watch s v tr t w) (hs : R s v)
    (hstep : ∀ t w i o u, R t w → A t i → exec (step i) t = (.ok o, u) → R u (watch w t i)) :
    R t w := by
  induction h with
  | nil => exact hs
  | snoc _ hA he ih => exact hstep _ _ _ _ _ (ih hs) hA he

/-- Two programs that, from states related by `P`, have the same outcome and end in
states related by `Q`. -/
def Lockstep (P : σ → σ → Prop) (p q : Prog ε σ α) (Q : σ → σ → Prop) : Prop :=
  ∀ s t, P s t → (exec p s).1 = (exec q t).1 ∧ Q (exec p s).2 (exec q t).2

namespace Lockstep

variable {P Q R : σ → σ → Prop}

theorem pure (a : α) : Lockstep P (Pure.pure a : Prog ε σ α) (Pure.pure a) P :=
  fun _ _ h => ⟨rfl, h⟩

theorem throw (e : ε) : Lockstep P (MonadExcept.throw e : Prog ε σ α) (MonadExcept.throw e) P :=
  fun _ _ h => ⟨rfl, h⟩

theorem read {f : σ → α} (hf : ∀ s t, P s t → f s = f t) :
    Lockstep P (Program.read f : Prog ε σ α) (Program.read f) P :=
  fun s t h => ⟨congrArg Except.ok (hf s t h), h⟩

theorem update {f : σ → σ} (hf : ∀ s t, P s t → Q (f s) (f t)) :
    Lockstep P (Program.update f : Prog ε σ Unit) (Program.update f) Q :=
  fun s t h => ⟨rfl, hf s t h⟩

theorem demand (e : ε) (o : Option α) :
    Lockstep P (Program.demand e o : Prog ε σ α) (Program.demand e o) P := by
  cases o with
  | none => exact Lockstep.throw e
  | some a => exact Lockstep.pure a

theorem bind {p q : Prog ε σ α} {f g : α → Prog ε σ β} (hp : Lockstep P p q R)
    (hf : ∀ a, Lockstep R (f a) (g a) R) : Lockstep P (p >>= f) (q >>= g) R := by
  intro s t h
  obtain ⟨h₁, h₂⟩ := hp s t h
  simp only [exec_bind]
  rcases hs : exec p s with ⟨e | a, s'⟩ <;> rcases ht : exec q t with ⟨e' | a', t'⟩ <;>
    simp only [hs, ht, Except.error.injEq, Except.ok.injEq, reduceCtorEq] at h₁ h₂
  · exact ⟨congrArg Except.error h₁, h₂⟩
  · subst h₁
    exact hf a _ _ h₂

/-- What was read is known afterwards. -/
theorem read_bind {f : σ → α} {g : α → Prog ε σ β} (hf : ∀ s t, P s t → f s = f t)
    (hg : ∀ a, Lockstep (fun s t => P s t ∧ f s = a) (g a) (g a) R) :
    Lockstep P (Program.read f >>= g) (Program.read f >>= g) R := by
  intro s t h
  rw [exec_bind_ok (exec_read f s), exec_bind_ok (exec_read f t), ← hf s t h]
  exact hg (f s) s t ⟨h, rfl⟩

theorem weaken {p q : Prog ε σ α} (h : Lockstep P p q R) (hQ : ∀ s t, Q s t → P s t) :
    Lockstep Q p q R :=
  fun s t hs => h s t (hQ s t hs)

theorem tryCatch {p q : Prog ε σ α} {f g : ε → Prog ε σ α} (hp : Lockstep P p q R)
    (hf : ∀ e, Lockstep R (f e) (g e) R) :
    Lockstep P (MonadExcept.tryCatch p f) (MonadExcept.tryCatch q g) R := by
  intro s t h
  obtain ⟨h₁, h₂⟩ := hp s t h
  simp only [exec_tryCatch]
  rcases hs : exec p s with ⟨e | a, s'⟩ <;> rcases ht : exec q t with ⟨e' | a', t'⟩ <;>
    simp only [hs, ht, Except.error.injEq, Except.ok.injEq, reduceCtorEq] at h₁ h₂
  · subst h₁
    exact hf e _ _ h₂
  · exact ⟨congrArg Except.ok h₁, h₂⟩

theorem ite {c : Prop} [Decidable c] {p q p' q' : Prog ε σ α} (h : Lockstep P p q R)
    (h' : Lockstep P p' q' R) :
    Lockstep P (if c then p else p') (if c then q else q') R := by
  split
  · exact h
  · exact h'

end Lockstep

/-- Two runs of the same inputs from related states give the same outputs. -/
theorem Run.lockstep {R : σ → σ → Prop} {s s' t : σ} {tr : List (ι × ο)}
    (h : Run step A s tr s') (hR : R s t)
    (hstep : ∀ i, Lockstep (fun s t => R s t ∧ A s i) (step i) (step i) R) :
    ∃ t', Run step (fun _ _ => True) t tr t' ∧ R s' t' := by
  induction h with
  | nil => exact ⟨t, .nil t, hR⟩
  | @snoc u s' tr i o _ hA he ih =>
    obtain ⟨t₁, ht, hR₁⟩ := ih
    obtain ⟨h₁, h₂⟩ := hstep i u t₁ ⟨hR₁, hA⟩
    simp only [he] at h₁ h₂
    have he' : exec (step i) t₁ = (.ok o, (exec (step i) t₁).2) := Prod.ext h₁.symm rfl
    exact ⟨_, .snoc ht trivial he', h₂⟩

end LedgerKeePass.Program
