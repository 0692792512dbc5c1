import LedgerKeePass.ErrorOr

/-!
# Payloads are destroyed once unless they are moved

`reset` runs the destructor of a payload and leaves the flag set. An object that a payload was
moved out of will therefore destroy it again, and only then does that happen.
-/
namespace LedgerKeePass.Kpl
open Program Lifetimes

section Effect
variable {α : Type} {move : α → Option (α × α)} {m u : Objects α} {op : Op α} {x y p : ℕ} {v w : α}
  {o : ErrorOr α}

/-- While no payload is moved out of an object, the live payloads are those that the objects
hold, each in one of them. -/
structure Tidy (m : Objects α) : Prop where
  sound : Sound m.log
  fresh : ∀ p, m.next ≤ p → .constructed p ∉ m.log
  alive : ∀ x p v, m.held x = some (p, v) → Alive m.log p
  single : ∀ x y p v w, m.held x = some (p, v) → m.held y = some (p, w) → x = y
  covered : ∀ p, Alive m.log p → ∃ x v, m.held x = some (p, v)

theorem tidy_start : Tidy (Objects.start : Objects α) where
  sound := sound_nil
  fresh _ _ := by simp [Objects.start]
  alive _ _ _ h := by cases h
  single _ _ _ _ _ h := by cases h
  covered _ h := by cases h.1

theorem put_held {o : Option (ErrorOr α)} (ho : o.bind ErrorOr.get = none) (z : ℕ) :
    (m.put x o).held z = if z = x then none else m.held z := by
  by_cases hz : z = x
  · simp [Objects.held, Objects.put, hz, ho]
  · simp [Objects.held, Objects.put, hz]

theorem make_held (z : ℕ) : (m.make x v).held z = if z = x then some (m.next, v) else m.held z := by
  by_cases hz : z = x
  · simp [Objects.held, Objects.make, hz]
  · simp [Objects.held, Objects.make, hz]

theorem put_held_iff {o : Option (ErrorOr α)} (ho : o.bind ErrorOr.get = none) {z : ℕ} :
    (m.put x o).held z = some (p, v) ↔ z ≠ x ∧ m.held z = some (p, v) := by
  rw [put_held ho]
  split
  · next hz => simp [hz]
  · next hz => simp [hz]

theorem make_held_old {z : ℕ} (hx : m.held x = none) (hz : m.held z = some (p, w)) :
    (m.make x v).held z = some (p, w) := by
  rw [make_held, if_neg, hz]
  rintro rfl
  rw [hx] at hz
  cases hz

theorem taken_held {rest : α} {next : ℕ} {log : List Event} (hxy : x ≠ y) (ho : o.get = some (p, v)) :
    (⟨Function.update (Function.update m.objects y (some (o.setValue p rest))) x
      (some (.ofValue m.next w)), next, log⟩ : Objects α).held y = some (p, rest) := by
  simp [Objects.held, hxy.symm, ErrorOr.setValue_get ho]

theorem Tidy.put {o : Option (ErrorOr α)} (h : Tidy m) (ho : o.bind ErrorOr.get = none) :
    Tidy (m.put x o) := by
  cases hx : m.held x with
  | none =>
    have hlog : (m.put x o).log = m.log := by simp [Objects.put, released_none hx]
    have hsame : (m.put x o).held = m.held := by
      funext z
      rw [put_held ho]
      split
      · next hz => rw [hz, hx]
      · rfl
    exact ⟨by rw [hlog]; exact h.sound, by rw [hlog]; exact h.fresh, by rw [hlog, hsame]; exact h.alive,
      by rw [hsame]; exact h.single, by rw [hlog, hsame]; exact h.covered⟩
  | some pv =>
    obtain ⟨p, v⟩ := pv
    have hlog : (m.put x o).log = m.log ++ [.destroyed p] := by simp [Objects.put, released_some hx]
    constructor
    · rw [hlog]
      exact h.sound.destroyed (h.alive x p v hx)
    · intro q hq
      rw [hlog]
      simpa using h.fresh q hq
    · intro z q w hz
      obtain ⟨hne, hz⟩ := (put_held_iff ho).mp hz
      rw [hlog, alive_destroyed]
      refine ⟨h.alive z q w hz, ?_⟩
      rintro rfl
      exact hne (h.single z x q w v hz hx)
    · intro y z q w w' hy hz
      exact h.single y z q w w' ((put_held_iff ho).mp hy).2 ((put_held_iff ho).mp hz).2
    · intro q hq
      rw [hlog, alive_destroyed] at hq
      obtain ⟨z, w, hz⟩ := h.covered q hq.1
      refine ⟨z, w, (put_held_iff ho).mpr ⟨?_, hz⟩⟩
      rintro rfl
      rw [hx] at hz
      cases hz
      exact hq.2 rfl

theorem Tidy.make (h : Tidy m) (hx : m.held x = none) : Tidy (m.make x v) := by
  have hheld := fun z => @make_held α m x v z
  have hlog : (m.make x v).log = m.log ++ [.constructed m.next] := rfl
  have hnew : .constructed m.next ∉ m.log := h.fresh _ le_rfl
  have hold : .destroyed m.next ∉ m.log := fun hd => hnew (h.sound.of_destroyed hd)
  have hmem : ∀ z q w, (m.make x v).held z = some (q, w) →
      z = x ∧ q = m.next ∨ z ≠ x ∧ q ≠ m.next ∧ m.held z = some (q, w) := by
    intro z q w hz
    rw [hheld] at hz
    split at hz
    · next he =>
      cases hz
      exact .inl ⟨he, rfl⟩
    · next hne =>
      refine .inr ⟨hne, ?_, hz⟩
      rintro rfl
      exact hnew (h.alive z _ w hz).1
  constructor
  · rw [hlog]
    exact h.sound.constructed _
  · intro q hq
    have hlt : m.next < q := hq
    rw [hlog]
    simpa [hlt.ne'] using h.fresh q hlt.le
  · intro z q w hz
    rw [hlog, alive_constructed]
    rcases hmem z q w hz with ⟨-, rfl⟩ | ⟨-, -, hz⟩
    · exact .inr ⟨rfl, hold⟩
    · exact .inl (h.alive z q w hz)
  · intro y z q w w' hy hz
    rcases hmem y q w hy with ⟨hyx, he⟩ | ⟨-, hne, hy⟩
    · rcases hmem z q w' hz with ⟨hzx, -⟩ | ⟨-, hne, -⟩
      · rw [hyx, hzx]
      · exact absurd he hne
    · rcases hmem z q w' hz with ⟨-, he⟩ | ⟨-, -, hz⟩
      · exact absurd he hne
      · exact h.single y z q w w' hy hz
  · intro q hq
    rw [hlog, alive_constructed] at hq
    rcases hq with hq | ⟨rfl, -⟩
    · obtain ⟨z, w, hz⟩ := h.covered q hq
      exact ⟨z, w, make_held_old hx hz⟩
    · exact ⟨x, v, by rw [hheld, if_pos rfl]⟩

/-- The invariant survives every operation that moves no payload out of an object. -/
theorem Effect.tidy (he : Effect move m op u) (h : Tidy m) (hk : KeepsPayload move m op) : Tidy u := by
  cases he with
  | idle => exact h
  | put _ ho => exact h.put ho
  | make _ hx => exact h.make hx
  | taken hn => exact absurd hk hn
  | broken hn => exact absurd hk hn

/-- A payload whose flag is set stays in its object until a destructor runs on it. -/
theorem Effect.held_or_destroyed (he : Effect move m op u) (hx : m.held x = some (p, v)) :
    ∃ l, u.log = m.log ++ l ∧ (.destroyed p ∈ l ∨ ∃ w, u.held x = some (p, w)) := by
  cases he with
  | idle => exact ⟨[], by simp, .inr ⟨v, hx⟩⟩
  | @put y o hk ho =>
    refine ⟨m.released y, rfl, ?_⟩
    by_cases hxy : x = y
    · rw [← hxy, released_some hx]
      exact .inl (List.mem_singleton_self _)
    · exact .inr ⟨v, (put_held_iff ho).mpr ⟨hxy, hx⟩⟩
  | @make y w hk hy => exact ⟨[.constructed m.next], rfl, .inr ⟨v, make_held_old hy hx⟩⟩
  | @taken y z q o w rest w' hk hyz hz ho =>
    refine ⟨_, rfl, ?_⟩
    by_cases hxy : x = y
    · rw [← hxy, released_some hx]
      exact .inl (by simp)
    by_cases hxz : x = z
    · subst hxz
      rw [held_eq hz, ho] at hx
      cases hx
      exact .inr ⟨rest, taken_held hyz ho⟩
    · refine .inr ⟨v, ?_⟩
      rw [← hx]
      simp [Objects.held, hxy, hxz]
  | @broken y q w hk hy => exact ⟨_, rfl, .inr ⟨v, hx⟩⟩

/-- A destructor ran on a payload that was not alive, or on one whose flag is still set, so that
another will run. -/
def Doomed (m : Objects α) : Prop :=
  ¬ Sound m.log ∨ ∃ x p v, m.held x = some (p, v) ∧ .destroyed p ∈ m.log

theorem Effect.doomed (he : Effect move m op u) (h : Doomed m) : Doomed u := by
  rcases h with hs | ⟨x, p, v, hx, hp⟩
  · left
    have hlog : ∃ l, u.log = m.log ++ l := by
      cases he with
      | idle => exact ⟨[], by simp⟩
      | put hk ho => exact ⟨_, rfl⟩
      | make hk hx => exact ⟨_, rfl⟩
      | taken hk hxy hy ho => exact ⟨_, rfl⟩
      | broken hk hx => exact ⟨_, rfl⟩
    obtain ⟨l, hl⟩ := hlog
    rw [hl]
    exact fun h => hs h.of_append
  · obtain ⟨l, hl, hd | ⟨w, hw⟩⟩ := he.held_or_destroyed hx
    · left
      rw [hl]
      exact not_sound_twice hp hd
    · refine .inr ⟨x, p, w, hw, ?_⟩
      rw [hl]
      exact List.mem_append_left _ hp

/-- Moving a payload out of an object. -/
theorem Effect.dooms (he : Effect move m op u) (hk : ¬ KeepsPayload move m op) : Doomed u := by
  cases he with
  | idle h => exact absurd h hk
  | put h => exact absurd h hk
  | make h => exact absurd h hk
  | @taken x y p o v rest w _ hxy hy ho => exact .inr ⟨y, p, rest, taken_held hxy ho, by simp⟩
  | @broken x p v _ hx => exact .inr ⟨x, p, v, hx, by simp⟩

theorem Objects.Ended.held (h : m.Ended) (x : ℕ) : m.held x = none := held_none (h x)

end Effect

/-- While a program moves no payload out of an object, its destructors are sound and what is
alive is held by an object. When the life of every object has ended, each payload was
destroyed exactly once if and only if the program never did. -/
theorem eachOnce_iff {α : Type} {move : α → Option (α × α)} {tr : List (Op α × Unit)} {m : Objects α}
    (h : Run (operate move) (fun _ _ => True) .start tr m) :
    (Run (operate move) (KeepsPayload move) .start tr m →
      Sound m.log ∧ ∀ p, Alive m.log p → ∃ x v, m.held x = some (p, v)) ∧
    (m.Ended → (EachOnce m.log ↔ Run (operate move) (KeepsPayload move) .start tr m)) := by
  have htidy : Run (operate move) (KeepsPayload move) .start tr m → Tidy m := fun hr =>
    hr.invariant tidy_start fun t op _ u ht hk he => (operate_effect he).tidy ht hk
  refine ⟨fun hr => ⟨(htidy hr).sound, (htidy hr).covered⟩, fun hend => ⟨fun hlog => ?_, fun hr => ?_⟩⟩
  · have hor := h.guarded_or (G := KeepsPayload move) (I := Tidy) (B := Doomed) tidy_start
      (fun t op _ u ht hk he => (operate_effect he).tidy ht hk)
      (fun t op _ u _ hk he => (operate_effect he).dooms hk)
      fun t op _ u hb he => (operate_effect he).doomed hb
    rcases hor with hr | hs | ⟨x, p, v, hx, -⟩
    · exact hr
    · exact absurd hlog.sound hs
    · rw [hend.held] at hx
      cases hx
  · refine (htidy hr).sound.eachOnce fun p hp => ?_
    obtain ⟨x, v, hx⟩ := (htidy hr).covered p hp
    rw [hend.held] at hx
    cases hx

/-- A payload whose move constructor does not throw. -/
def plainMove (v : Unit) : Option (Unit × Unit) := some (v, v)

/-- The payload of an object that another one was constructed from is destroyed twice. -/
theorem moved_destroyed_twice :
    ∃ m, Run (operate plainMove) (fun _ _ => True) .start
        [(.value 0 (some ()), ()), (.moveConstruct 1 0, ()), (.destroy 0, ()), (.destroy 1, ())] m ∧
      m.Ended ∧
      m.log = [.constructed 0, .constructed 1, .destroyed 0, .destroyed 0, .destroyed 1] ∧
      ¬ EachOnce m.log := by
  have h₀ : Run (operate plainMove) (fun _ _ => True) .start [] .start := .nil _
  have h₁ := h₀.next (i := .value 0 (some ())) trivial rfl
  have h₂ := h₁.next (i := .moveConstruct 1 0) trivial rfl
  have h₃ := h₂.next (i := .destroy 0) trivial rfl
  have h₄ := h₃.next (i := .destroy 1) trivial rfl
  refine ⟨_, h₄, fun x => ?_, rfl, fun h => ?_⟩
  · rcases x with _ | _ | x <;> rfl
  · have hc := h.once 0 (by decide)
    revert hc
    decide

/-- An object that is assigned an error loses its payload once. -/
theorem eachOnce_assigned :
    ∃ m, Run (operate plainMove) (fun _ _ => True) .start
        [(.value 0 (some ()), ()), (.error 1 (some .transportTimeout), ()), (.moveAssign 0 1, ()),
          (.destroy 0, ()), (.destroy 1, ())] m ∧ EachOnce m.log := by
  have hrun (A : Objects Unit → Op Unit → Prop) (hA : ∀ m op, KeepsPayload plainMove m op → A m op) := by
    have h₀ : Run (operate plainMove) A .start [] .start := .nil _
    have h₁ := h₀.next (i := .value 0 (some ())) (hA _ _ trivial) rfl
    have h₂ := h₁.next (i := .error 1 (some .transportTimeout)) (hA _ _ trivial) rfl
    have h₃ := h₂.next (i := .moveAssign 0 1) (hA _ _ fun _ _ _ hv => by cases hv) rfl
    have h₄ := h₃.next (i := .destroy 0) (hA _ _ trivial) rfl
    exact h₄.next (i := .destroy 1) (hA _ _ trivial) rfl
  have h := hrun (fun _ _ => True) fun _ _ _ => trivial
  refine ⟨_, h, ((eachOnce_iff h).2 fun x => ?_).mpr (hrun _ fun _ _ hk => hk)⟩
  rcases x with _ | _ | x <;> rfl

end LedgerKeePass.Kpl
