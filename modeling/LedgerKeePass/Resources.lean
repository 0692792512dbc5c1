import LedgerKeePass.Lifetimes

/-!
# Accounts of resources

`Resources` numbers what a program acquires and logs what it releases. `Accounts r live` says
that the log is sound and that what is alive is what `live` lists, each resource once. As
`live` is a multiset, holders can be split off and put together again; `holdings` adds up a table of them.
-/
namespace LedgerKeePass.Lifetimes

structure Resources where
  log : List Event
  next : ℕ
  deriving DecidableEq

namespace Resources

def start : Resources := ⟨[], 0⟩

/-- The new resource is the old `next`. -/
def acquire (r : Resources) : Resources := ⟨r.log ++ [.constructed r.next], r.next + 1⟩

def release (r : Resources) (p : ℕ) : Resources := { r with log := r.log ++ [.destroyed p] }

end Resources

structure Accounts (r : Resources) (live : Multiset ℕ) : Prop where
  sound : Sound r.log
  fresh : ∀ p, r.next ≤ p → .constructed p ∉ r.log
  nodup : live.Nodup
  alive : ∀ p, p ∈ live ↔ Alive r.log p

variable {r : Resources} {live : Multiset ℕ} {p : ℕ}

theorem accounts_start : Accounts .start 0 where
  sound := sound_nil
  fresh _ _ := by simp [Resources.start]
  nodup := Multiset.nodup_zero
  alive p := by simp [Resources.start, Alive]

theorem Accounts.next_notMem (h : Accounts r live) : r.next ∉ live := fun hm =>
  h.fresh _ le_rfl ((h.alive _).mp hm).1

theorem Accounts.acquire (h : Accounts r live) : Accounts r.acquire (r.next ::ₘ live) where
  sound := h.sound.constructed _
  fresh p hp := by
    have hlt : r.next < p := hp
    simpa [Resources.acquire, hlt.ne'] using h.fresh p hlt.le
  nodup := Multiset.nodup_cons.mpr ⟨h.next_notMem, h.nodup⟩
  alive p := by
    have hold : .destroyed r.next ∉ r.log := fun hd => h.fresh _ le_rfl (h.sound.of_destroyed hd)
    rw [Multiset.mem_cons, Resources.acquire, alive_constructed, h.alive]
    constructor
    · rintro (rfl | hp)
      · exact .inr ⟨rfl, hold⟩
      · exact .inl hp
    · rintro (hp | ⟨rfl, -⟩)
      · exact .inr hp
      · exact .inl rfl

theorem Accounts.release (h : Accounts r (p ::ₘ live)) : Accounts (r.release p) live where
  sound := h.sound.destroyed ((h.alive p).mp (Multiset.mem_cons_self p live))
  fresh q hq := by simpa [Resources.release] using h.fresh q hq
  nodup := (Multiset.nodup_cons.mp h.nodup).2
  alive q := by
    have hp := (Multiset.nodup_cons.mp h.nodup).1
    rw [Resources.release, alive_destroyed, ← h.alive, Multiset.mem_cons]
    constructor
    · intro hq
      refine ⟨.inr hq, ?_⟩
      rintro rfl
      exact hp hq
    · rintro ⟨hq | hq, hne⟩
      · exact absurd hq hne
      · exact hq

/-- What was acquired and is not held any more was released once. -/
theorem Accounts.released (h : Accounts r live) (hc : .constructed p ∈ r.log) (hp : p ∉ live) :
    r.log.count (.destroyed p) = 1 := by
  have hd : .destroyed p ∈ r.log := by
    by_contra hd
    exact hp ((h.alive p).mpr ⟨hc, hd⟩)
  have hle := h.sound.count_le p
  have hge := List.one_le_count_iff.mpr hd
  omega

section Tables
variable {β : Type} {f : ℕ → β → Multiset ℕ} {s : AList fun _ : ℕ => β} {a : ℕ} {b : β}

/-- What the entries of a table hold together. -/
def holdings (f : ℕ → β → Multiset ℕ) (s : AList fun _ : ℕ => β) : Multiset ℕ :=
  (s.entries.map fun e => f e.1 e.2).sum

@[simp] theorem holdings_empty : holdings f ∅ = 0 := rfl

theorem holdings_insert : holdings f (s.insert a b) = f a b + holdings f (s.erase a) := by
  rw [holdings, AList.entries_insert, List.map_cons, List.sum_cons]
  rfl

theorem holdings_insert_new (h : a ∉ s) : holdings f (s.insert a b) = f a b + holdings f s := by
  rw [holdings, AList.entries_insert_of_notMem h, List.map_cons, List.sum_cons]
  rfl

theorem holdings_erase (h : s.lookup a = some b) : holdings f s = f a b + holdings f (s.erase a) := by
  have ha : a ∈ s := AList.lookup_isSome.mp (by rw [h]; rfl)
  obtain ⟨b', l₁, l₂, hn, he, hk⟩ := List.exists_of_kerase (AList.mem_keys.mp ha)
  have hb : b' = b := by
    have hl : s.entries.dlookup a = some b' := by
      rw [he, List.dlookup_append, List.dlookup_eq_none.mpr hn]
      simp
    exact Option.some.inj (hl.symm.trans h)
  have hs : (s.erase a).entries = l₁ ++ l₂ := hk
  rw [holdings, holdings, hs, he, hb]
  simp only [List.map_append, List.map_cons, List.sum_append, List.sum_cons]
  exact add_left_comm _ _ _

theorem le_holdings (h : s.lookup a = some b) : f a b ≤ holdings f s := by
  rw [holdings_erase h]
  exact Multiset.le_add_right _ _

end Tables

end LedgerKeePass.Lifetimes
