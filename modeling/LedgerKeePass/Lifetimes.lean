import Mathlib

/-!
# Lifetimes of objects

A log of constructions and destructions of objects, which have identities of their own. It
is sound when no destructor ran on an object that was not alive, so that none ran twice.
-/
namespace LedgerKeePass.Lifetimes

inductive Event
  | constructed (p : ℕ)
  | destroyed (p : ℕ)
  deriving DecidableEq

/-- An object between its constructor and its destructor. -/
def Alive (log : List Event) (p : ℕ) : Prop := .constructed p ∈ log ∧ .destroyed p ∉ log

/-- No destructor ran on an object that was not alive. -/
def Sound (log : List Event) : Prop :=
  ∀ pre p post, log = pre ++ .destroyed p :: post → Alive pre p

/-- Every object was destroyed exactly once, and only while it was alive. -/
structure EachOnce (log : List Event) : Prop where
  once : ∀ p, .constructed p ∈ log → log.count (.destroyed p) = 1
  sound : Sound log

variable {log l : List Event} {p q : ℕ}

theorem sound_nil : Sound [] := by
  intro pre p post h
  simp at h

theorem Sound.of_append (h : Sound (log ++ l)) : Sound log := by
  intro pre p post he
  exact h pre p (post ++ l) (by simp [he])

theorem sound_append_iff {e : Event} :
    Sound (log ++ [e]) ↔ Sound log ∧ ∀ p, e = .destroyed p → Alive log p := by
  constructor
  · intro h
    refine ⟨h.of_append, ?_⟩
    rintro p rfl
    exact h log p [] rfl
  · rintro ⟨h, he⟩ pre p post heq
    rcases post.eq_nil_or_concat with rfl | ⟨post, e', rfl⟩
    · obtain ⟨rfl, hp⟩ := List.append_inj' heq rfl
      exact he p (by simpa using hp)
    · have hs : log ++ [e] = (pre ++ .destroyed p :: post) ++ [e'] := by simp [heq]
      exact h pre p post (List.append_inj' hs rfl).1

theorem Sound.constructed (h : Sound log) (p : ℕ) : Sound (log ++ [.constructed p]) :=
  sound_append_iff.mpr ⟨h, by simp⟩

theorem Sound.destroyed (h : Sound log) (hp : Alive log p) : Sound (log ++ [.destroyed p]) := by
  refine sound_append_iff.mpr ⟨h, ?_⟩
  rintro q ⟨⟩
  exact hp

theorem Sound.of_destroyed (h : Sound log) (hp : .destroyed p ∈ log) : .constructed p ∈ log := by
  obtain ⟨pre, post, rfl⟩ := List.append_of_mem hp
  exact List.mem_append_left _ (h pre p post rfl).1

theorem Sound.count_le (h : Sound log) (p : ℕ) : log.count (.destroyed p) ≤ 1 := by
  induction log using List.reverseRecOn with
  | nil => simp
  | append_singleton log e ih =>
    obtain ⟨hl, he⟩ := sound_append_iff.mp h
    rw [List.count_append]
    by_cases hp : e = .destroyed p
    · have hn := (he p hp).2
      simp [List.count_eq_zero_of_not_mem hn, hp]
    · have hle := ih hl
      simpa [hp] using hle

/-- A second destructor on an object is not sound. -/
theorem not_sound_twice (h : .destroyed p ∈ log) (h' : .destroyed p ∈ l) : ¬ Sound (log ++ l) := by
  intro hs
  have hc := hs.count_le p
  rw [List.count_append] at hc
  have h₁ := List.one_le_count_iff.mpr h
  have h₂ := List.one_le_count_iff.mpr h'
  omega

/-- A sound log in which nothing is left alive. -/
theorem Sound.eachOnce (h : Sound log) (he : ∀ p, ¬ Alive log p) : EachOnce log := by
  refine ⟨fun p hc => ?_, h⟩
  have hd : .destroyed p ∈ log := by
    by_contra hd
    exact he p ⟨hc, hd⟩
  have hle := h.count_le p
  have hge := List.one_le_count_iff.mpr hd
  omega

theorem alive_constructed :
    Alive (log ++ [.constructed q]) p ↔ Alive log p ∨ p = q ∧ .destroyed p ∉ log := by
  simp only [Alive, List.mem_append, List.mem_singleton, Event.constructed.injEq, reduceCtorEq, or_false]
  tauto

theorem alive_destroyed : Alive (log ++ [.destroyed q]) p ↔ Alive log p ∧ p ≠ q := by
  simp only [Alive, List.mem_append, List.mem_singleton, Event.destroyed.injEq, reduceCtorEq, or_false]
  tauto

end LedgerKeePass.Lifetimes
