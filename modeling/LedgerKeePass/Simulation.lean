import LedgerKeePass.ProgramRun

/-!
# Programs that compute on an abstract state

`Simulates R p f` says that the program `p` returns what `f` returns on the abstract state and
keeps the relation `R`. It is proved by the structure of the program, and a sequence of steps
that simulate is a run of the abstract ones. `Follows` are the sequences whose steps come in the
phases that they need. `Permits R f p` is the same for an abstract step that may end in several ways.
-/
namespace LedgerKeePass.Program

variable {ε σ τ ι α β : Type}

/-- From related states `p` returns, as `f` does, and the states that they leave are related. -/
def Simulates (R : σ → τ → Prop) (p : Prog ε σ α) (f : τ → α × τ) : Prop :=
  ∀ s t, R s t → ∃ s', exec p s = (.ok (f t).1, s') ∧ R s' (f t).2

/-- A sequence of steps on an abstract state. -/
def runAll (f : ι → τ → α × τ) : List ι → τ → List α × τ
  | [], t => ([], t)
  | i :: is, t =>
    let (a, t) := f i t
    let (as, t) := runAll f is t
    (a :: as, t)

/-- A fold of steps that all return, and keep `I`. -/
theorem exec_foldlM {step : β → ι → Prog ε σ β} {I : β → σ → Prop} {is : List ι}
    (h : ∀ i ∈ is, ∀ b s, I b s → ∃ b' s', exec (step b i) s = (.ok b', s') ∧ I b' s') {b : β} {s : σ}
    (hb : I b s) : ∃ b' s', exec (is.foldlM step b) s = (.ok b', s') ∧ I b' s' := by
  induction is generalizing b s with
  | nil => exact ⟨b, s, rfl, hb⟩
  | cons i is ih =>
    obtain ⟨b₁, s₁, he, h₁⟩ := h i List.mem_cons_self b s hb
    obtain ⟨b₂, s₂, he', h₂⟩ := ih (fun j hj => h j (List.mem_cons_of_mem _ hj)) h₁
    exact ⟨b₂, s₂, by rw [List.foldlM_cons, exec_bind_ok he, he'], h₂⟩

variable {R : σ → τ → Prop} {p q : Prog ε σ α} {f g : τ → α × τ}

namespace Simulates

theorem pure (a : α) : Simulates R (Pure.pure a : Prog ε σ α) fun t => (a, t) :=
  fun s _ h => ⟨s, rfl, h⟩

theorem bind {k : α → Prog ε σ β} {l : α → τ → β × τ} (hp : Simulates R p f)
    (hk : ∀ a, Simulates R (k a) (l a)) : Simulates R (p >>= k) fun t => l (f t).1 (f t).2 := by
  intro s t h
  obtain ⟨s₁, he, h₁⟩ := hp s t h
  obtain ⟨s₂, he', h₂⟩ := hk _ _ _ h₁
  exact ⟨s₂, (exec_bind_ok he).trans he', h₂⟩

theorem congr (hp : Simulates R p f) (h : ∀ t, f t = g t) : Simulates R p g :=
  funext h ▸ hp

/-- Steps that simulate, one after the other. -/
theorem mapM {step : ι → Prog ε σ α} {f : ι → τ → α × τ} {is : List ι}
    (h : ∀ i ∈ is, Simulates R (step i) (f i)) : Simulates R (is.mapM step) (runAll f is) := by
  induction is with
  | nil => exact fun s _ hs => ⟨s, rfl, hs⟩
  | cons i is ih =>
    intro s t hs
    obtain ⟨s₁, he, h₁⟩ := h i List.mem_cons_self s t hs
    obtain ⟨s₂, he', h₂⟩ := ih (fun j hj => h j (List.mem_cons_of_mem _ hj)) _ _ h₁
    refine ⟨s₂, ?_, h₂⟩
    rw [List.mapM_cons, exec_bind_ok he, exec_bind_ok he']
    rfl

/-- A fold whose steps only read the abstract state. -/
theorem foldlM {step : β → ι → Prog ε σ β} {f : τ → β → ι → β} {is : List ι}
    (h : ∀ i ∈ is, ∀ b, Simulates R (step b i) fun t => (f t b i, t)) (b : β) :
    Simulates R (is.foldlM step b) fun t => (is.foldl (f t) b, t) := by
  induction is generalizing b with
  | nil => exact fun s _ hs => ⟨s, rfl, hs⟩
  | cons i is ih =>
    intro s t hs
    obtain ⟨s₁, he, h₁⟩ := h i List.mem_cons_self b s t hs
    obtain ⟨s₂, he', h₂⟩ := ih (fun j hj => h j (List.mem_cons_of_mem _ hj)) _ _ _ h₁
    exact ⟨s₂, by rw [List.foldlM_cons, exec_bind_ok he, he']; rfl, h₂⟩

/-- A program on a part of the state that is related as the state is. -/
theorem within {υ : Type} {R' : υ → τ → Prop} {p : Prog ε υ α} {enter : σ → υ} {leave : σ → υ → σ}
    (hp : Simulates R' p f) (henter : ∀ s t, R s t → R' (enter s) t)
    (hleave : ∀ s t u v, R s t → R' u v → R (leave s u) v) :
    Simulates R (Program.within enter leave p) f := by
  intro s t h
  obtain ⟨u, he, hu⟩ := hp (enter s) t (henter s t h)
  exact ⟨leave s u, exec_within he, hleave s t u _ h hu⟩

end Simulates

section Phases
variable {γ κ : Type} {allowed : γ → ι → Prop} {next : γ → ι → γ}

/-- Each step is allowed in the phase that the steps before it have led to. -/
def Follows (allowed : γ → ι → Prop) (next : γ → ι → γ) : γ → List ι → Prop
  | _, [] => True
  | g, i :: is => allowed g i ∧ Follows allowed next (next g i) is

theorem follows_append {g : γ} {is js : List ι} :
    Follows allowed next g (is ++ js) ↔
      Follows allowed next g is ∧ Follows allowed next (is.foldl next g) js := by
  induction is generalizing g with
  | nil => simp [Follows]
  | cons i is ih => simp [Follows, ih, and_assoc]

theorem follows_map {f : κ → ι} {g : γ} {is : List κ} :
    Follows allowed next g (is.map f) ↔
      Follows (fun g i => allowed g (f i)) (fun g i => next g (f i)) g is := by
  induction is generalizing g with
  | nil => rfl
  | cons i is ih => exact and_congr_right fun _ => ih

/-- Steps that simulate from phase to phase, where each comes in a phase that it needs. -/
theorem exec_mapM_follows {R : γ → σ → τ → Prop} {step : ι → Prog ε σ α} {f : ι → τ → α × τ} {is : List ι}
    (h : ∀ g, ∀ i ∈ is, allowed g i → ∀ s t, R g s t →
      ∃ s', exec (step i) s = (.ok (f i t).1, s') ∧ R (next g i) s' (f i t).2)
    {g : γ} (hf : Follows allowed next g is) {s : σ} {t : τ} (hs : R g s t) :
    ∃ s', exec (is.mapM step) s = (.ok (runAll f is t).1, s') ∧ R (is.foldl next g) s' (runAll f is t).2 := by
  induction is generalizing g s t with
  | nil => exact ⟨s, rfl, hs⟩
  | cons i is ih =>
    obtain ⟨s₁, he, h₁⟩ := h g i List.mem_cons_self hf.1 s t hs
    obtain ⟨s₂, he', h₂⟩ := ih (fun g j hj => h g j (List.mem_cons_of_mem _ hj)) hf.2 h₁
    refine ⟨s₂, ?_, h₂⟩
    rw [List.mapM_cons, exec_bind_ok he, exec_bind_ok he']
    rfl

end Phases

/-- From related states `p` returns, in a way that the abstract step `f` permits. -/
def Permits (R : σ → τ → Prop) (f : τ → α → τ → Prop) (p : Prog ε σ α) : Prop :=
  ∀ s t, R s t → ∃ a s' t', exec p s = (.ok a, s') ∧ f t a t' ∧ R s' t'

section Steps
variable {κ : Type*} {f : κ → τ → α → τ → Prop} {step : κ → Prog ε σ α}

/-- A sequence of abstract steps, each with what it returned. -/
inductive RunsTo (f : κ → τ → α → τ → Prop) : τ → List κ → List α → τ → Prop
  | nil (t : τ) : RunsTo f t [] [] t
  | cons {t u v : τ} {i : κ} {is : List κ} {a : α} {as : List α} (first : f i t a u)
      (rest : RunsTo f u is as v) : RunsTo f t (i :: is) (a :: as) v

theorem Permits.mapM {is : List κ} (h : ∀ i ∈ is, Permits R (f i) (step i)) :
    Permits R (fun t as t' => RunsTo f t is as t') (is.mapM step) := by
  induction is with
  | nil => exact fun s t hs => ⟨[], s, t, rfl, .nil t, hs⟩
  | cons i is ih =>
    intro s t hs
    obtain ⟨a, s₁, t₁, he, hf, h₁⟩ := h i List.mem_cons_self s t hs
    obtain ⟨as, s₂, t₂, he', hr, h₂⟩ := ih (fun j hj => h j (List.mem_cons_of_mem _ hj)) s₁ t₁ h₁
    refine ⟨a :: as, s₂, t₂, ?_, .cons hf hr, h₂⟩
    rw [List.mapM_cons, exec_bind_ok he, exec_bind_ok he']
    rfl

/-- What every step keeps, a sequence of steps keeps. -/
theorem RunsTo.invariant {I : τ → Prop} {is : List κ} {as : List α} {t u : τ} (h : RunsTo f t is as u)
    (ht : I t) (hstep : ∀ i ∈ is, ∀ t a t', I t → f i t a t' → I t') : I u := by
  induction h with
  | nil => exact ht
  | cons first rest ih =>
    exact ih (hstep _ List.mem_cons_self _ _ _ ht first) fun j hj => hstep j (List.mem_cons_of_mem _ hj)

end Steps

end LedgerKeePass.Program
