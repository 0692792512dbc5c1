import LedgerKeePass.AppCrash
import LedgerKeePass.AppNames

/-!
# The life of a device

A device is used, loses power and starts again, any number of times. `lifeStep` serves an event or
loses power in the middle of one. The abstract store does not know whether an event that was cut took
place, so its state is the set of stores that the device may hold; whatever that was, every key in a
slot came from a `STORE_KEY` for this slot.
-/
namespace LedgerKeePass.App
open Bytes Program

/-- An event that is served, or one during which the power goes off. -/
inductive LifeEvent
  | served (i : Input)
  | powerLoss (i : Input) (boot : Sdk)

/-- The power goes off during an event, and `main` starts from the storage that is left. -/
def powerCycle (i : Input) (boot : Sdk) : AppM Output := do
  let seed ← read fun d => d.seed
  tryCatch (do let _ ← step i) fun _ => pure ()
  update fun d => powerUp d.nStorage seed
  mainBody boot
  return ⟨none, ← read Device.display⟩

def lifeStep : LifeEvent → AppM Output
  | .served i => step i
  | .powerLoss i boot => powerCycle i boot

def LifeEvent.input : LifeEvent → Input
  | .served i => i
  | .powerLoss i _ => i

/-- Persistent writes are done, until the power goes off. -/
def LifeEvent.Allowed : LifeEvent → Prop
  | .served i => i.sdk.WritesNv
  | .powerLoss i _ => i.sdk.WritesUntilCut

/-- The stores that an event may leave: one that was cut took place or did not, and the prompt on
display is gone. -/
def SlotSpec.after (m : SlotSpec) (d : Device) : LifeEvent → Set SlotSpec
  | .served i => {m.next d i}
  | .powerLoss i _ => {m.dismiss, (m.next d i).dismiss}

/-- The slot and the key of a `STORE_KEY` in an APDU buffer. -/
def keySent (f : Buf ioApduBufferSize) : Option (Fin kplSlotCount × Key) :=
  if f.byteAt 0 = 0xE0 ∧ f.byteAt 1 = 1 ∧ (f.byteAt 4).toNat = 32 then
    if h : (f.byteAt 2).toNat < 8 then some (⟨(f.byteAt 2).toNat, h⟩, f.window 5 32) else none
  else none

def Device.keySent (d : Device) : Event → Option (Fin kplSlotCount × Key)
  | .apdu apdu => if apdu.bytes = [] then none else App.keySent (d.receive apdu).gIoApduBuffer
  | _ => none

/-- The stores that a device may hold, and the keys that were sent for its slots. -/
structure Past where
  stores : Set SlotSpec
  sent : Set (Fin kplSlotCount × Key)

def Past.next (p : Past) (d : Device) (e : LifeEvent) : Past where
  stores := {n | ∃ m ∈ p.stores, n ∈ m.after d e}
  sent := p.sent ∪ {x | d.keySent e.input.event = some x}

/-- Every key of a store, and every key that is to replace one, is among these. -/
structure SlotSpec.Within (m : SlotSpec) (keys : Set (Fin kplSlotCount × Key)) : Prop where
  slots : ∀ slot key, m.slots slot = some key → (slot, key) ∈ keys
  prompt : ∀ slot key, m.prompt = some (.overwrite slot key) → (slot, key) ∈ keys

section Within
variable {m : SlotSpec} {keys : Set (Fin kplSlotCount × Key)} {slot : Fin kplSlotCount} {key : Key}

theorem SlotSpec.Within.dismiss (h : m.Within keys) : m.dismiss.Within keys :=
  ⟨h.slots, fun _ _ hp => by cases hp⟩

theorem update_within (h : ∀ slot key, m.slots slot = some key → (slot, key) ∈ keys)
    (hk : (slot, key) ∈ keys) :
    ∀ slot' key', Function.update m.slots slot (some key) slot' = some key' → (slot', key') ∈ keys := by
  intro slot' key' hu
  by_cases hs : slot' = slot
  · subst hs
    rw [Function.update_self] at hu
    cases hu
    exact hk
  · rw [Function.update_of_ne hs] at hu
    exact h _ _ hu

theorem SlotSpec.Within.approve (h : m.Within keys) : m.approve.Within keys := by
  obtain ⟨slots, prompt⟩ := m
  rcases prompt with _ | ⟨slot, key⟩ | _ | _
  · exact h.dismiss
  · exact ⟨update_within h.slots (h.prompt slot key rfl), fun _ _ hp => by cases hp⟩
  · exact ⟨fun _ _ hs => (by cases hs), fun _ _ hp => (by cases hp)⟩
  · exact h.dismiss

theorem SlotSpec.Within.askOther (h : m.Within keys) (asked : Prop) [Decidable asked] :
    (m.askOther asked).Within keys := by
  rw [SlotSpec.askOther]
  split
  · exact ⟨h.slots, fun _ _ hp => by cases hp⟩
  · exact h

theorem SlotSpec.Within.mono {keys' : Set (Fin kplSlotCount × Key)} (h : m.Within keys)
    (hk : keys ⊆ keys') : m.Within keys' :=
  ⟨fun _ _ hs => hk (h.slots _ _ hs), fun _ _ hp => hk (h.prompt _ _ hp)⟩

theorem SlotSpec.Within.storeKey {p1 lc : UInt8} (h : m.Within keys)
    (hk : ∀ hlt : p1.toNat < 8 ∧ lc.toNat = 32, (⟨p1.toNat, hlt.1⟩, key) ∈ keys) :
    (m.storeKey p1 lc key).Within keys := by
  rw [SlotSpec.storeKey]
  split
  · next hlt =>
    split
    · exact ⟨update_within h.slots (hk hlt), h.prompt⟩
    · refine ⟨h.slots, fun slot key' hp => ?_⟩
      cases hp
      exact hk hlt
  · exact h

theorem SlotSpec.Within.receive {f : Buf ioApduBufferSize} (h : m.Within keys)
    (hf : ∀ x, keySent f = some x → x ∈ keys) : (m.receive f).Within keys := by
  rw [SlotSpec.receive]
  split_ifs with h₀
  · exact h
  split
  · next h₁ =>
    refine h.storeKey fun hlt => hf _ ?_
    rw [keySent, if_pos ⟨not_not.mp h₀, UInt8.toNat_inj.mp h₁, hlt.2⟩, dif_pos hlt.1]
  · exact h.askOther _
  · exact h.askOther _
  · exact ⟨h.slots, fun _ _ hp => by cases hp⟩
  · exact h

/-- An event puts into a slot only what was sent for it. -/
theorem SlotSpec.Within.next {d : Device} {i : Input} (h : m.Within keys)
    (hf : ∀ x, d.keySent i.event = some x → x ∈ keys) : (m.next d i).Within keys := by
  rw [SlotSpec.next]
  split
  · next apdu he =>
    split_ifs with hne
    · exact h
    · refine h.receive fun x hx => hf x ?_
      rw [he, Device.keySent, if_neg hne]
      exact hx
  · exact h.approve
  · exact h.dismiss
  · exact h.dismiss

theorem SlotSpec.Within.after {d : Device} {e : LifeEvent} {n : SlotSpec} (h : m.Within keys)
    (hn : n ∈ m.after d e) : n.Within (keys ∪ {x | d.keySent e.input.event = some x}) := by
  have hu : m.Within (keys ∪ {x | d.keySent e.input.event = some x}) := h.mono Set.subset_union_left
  have hnext : (m.next d e.input).Within _ := hu.next fun x hx => .inr hx
  cases e with
  | served i =>
    cases hn
    exact hnext
  | powerLoss i boot =>
    rcases hn with rfl | rfl
    · exact hu.dismiss
    · exact hnext.dismiss

end Within

section Life
variable {d t u : Device} {m : SlotSpec} {e : LifeEvent} {o : Output}

theorem exec_powerCycle {i : Input} {boot : Sdk} {res : Except Abort Output}
    (hu : exec (step i) d = (res, u)) (hi : u.nStorage.initialized = 0x01) :
    exec (powerCycle i boot) d =
      (.ok ⟨none, none⟩, powerUp u.nStorage d.seed) := by
  have hcut : exec (tryCatch (do let _ ← step i) fun _ => pure () : AppM Unit) d = (.ok (), u) := by
    rw [exec_tryCatch, exec_bind, hu]
    rcases res with a | out <;> rfl
  rw [powerCycle, exec_bind_ok (exec_read _ _), exec_bind_ok hcut, exec_bind_ok (exec_update _ _),
    exec_bind_ok (exec_restart hi boot d.seed)]
  rfl

/-- One event of a life: the device goes on to hold one of the stores that it may hold then. -/
theorem Implements.life (hi : Implements d m) (he : e.Allowed) :
    ∃ o u, exec (lifeStep e) d = (.ok o, u) ∧ u.seed = d.seed ∧ ∃ n ∈ m.after d e, Implements u n := by
  cases e with
  | served i =>
    obtain ⟨o, u, hs⟩ := step_total hi.ready he i.event
    exact ⟨o, u, hs, step_seed hi.ready hs, _, rfl, hi.step he hs⟩
  | powerLoss i boot =>
    rcases hs : exec (App.step i) d with ⟨res, u⟩
    have hcut := hi.cut he hs
    refine ⟨_, _, exec_powerCycle hs hcut.initialized, rfl, ?_⟩
    have hstart : Started (powerUp u.nStorage d.seed) :=
      ⟨plainSdk, u.nStorage, d.seed, fun _ => rfl, exec_restart hcut.initialized _ _⟩
    have himp := started_implements hstart
    change Implements _ ⟨u.nStorage.slotMap, none⟩ at himp
    rcases hcut.slots with hm | hm
    · exact ⟨m.dismiss, .inl rfl, by rw [hm] at himp; exact himp⟩
    · exact ⟨(m.next d i).dismiss, .inr rfl, by rw [hm] at himp; exact himp⟩

end Life

/-- However often a device loses power, before, between or after the writes of an event, it holds one
of the stores that the events which took place and those that were cut may have left, shows it, and
can serve whatever comes next. Every key in it was there at the start or was sent for its slot, and
the seed of the name keys stays the same. -/
theorem life_consistent {d t : Device} {tr : List (LifeEvent × Output)} {past : Past} (hd : Started d)
    (h : Observed lifeStep (fun _ e => e.Allowed) Past.next d ⟨{⟨d.nStorage.slotMap, none⟩}, ∅⟩ tr t past) :
    t.seed = d.seed ∧ (∃ m ∈ past.stores, t.Visible m.slots ∧
      (t.screen = .approval → ∃ r, t.Armed r ∧ m.prompt = some r.prompt) ∧
      ∀ slot key, m.slots slot = some key →
        d.nStorage.slotMap slot = some key ∨ (slot, key) ∈ past.sent) ∧
    ∀ e : LifeEvent, e.Allowed → ∃ o u, exec (lifeStep e) t = (.ok o, u) := by
  let initial : Set (Fin kplSlotCount × Key) := {x | d.nStorage.slotMap x.1 = some x.2}
  have hinv : t.seed = d.seed ∧ ∃ m ∈ past.stores, Implements t m ∧ m.Within (initial ∪ past.sent) := by
    refine h.invariant (R := fun t past => t.seed = d.seed ∧ ∃ m ∈ past.stores, Implements t m ∧
      m.Within (initial ∪ past.sent)) ?_ ?_
    · refine ⟨rfl, _, rfl, started_implements hd, fun slot key hs => .inl hs, fun _ _ hp => by cases hp⟩
    · rintro t past e o u ⟨hseed, m, hm, hi, hw⟩ hA he
      obtain ⟨o', u', he', hseed', n, hn, hi'⟩ := hi.life hA
      rw [he'] at he
      cases he
      refine ⟨hseed'.trans hseed, n, ⟨m, hm, hn⟩, hi', ?_⟩
      rw [Past.next, ← Set.union_assoc]
      exact hw.after hn
  obtain ⟨hseed, m, hm, hi, hw⟩ := hinv
  refine ⟨hseed, ⟨m, hm, ?_, hi.shown, fun slot key hs => hw.slots slot key hs⟩, fun e he => ?_⟩
  · have hv := hi.ready.visible
    rw [hi.slots] at hv
    exact hv
  · obtain ⟨o, u, he', -⟩ := hi.life he
    exact ⟨o, u, he'⟩

/-- Twice the power goes off between the writes of a `STORE_KEY`. -/
theorem life_consistent_cutTwice :
    let cut : LifeEvent := .powerLoss ⟨cutSdk, .apdu wholeStore⟩ plainSdk
    let once := (exec (lifeStep cut) freshDevice).2
    let past := Past.next ⟨{⟨freshDevice.nStorage.slotMap, none⟩}, ∅⟩ freshDevice cut
    ∃ m ∈ (past.next once cut).stores, (exec (lifeStep cut) once).2.Visible m.slots := by
  intro cut once past
  have hcut : cut.Allowed := cutSdk_cut
  have honce : Observed lifeStep (fun _ e => e.Allowed) Past.next freshDevice _ _ once past :=
    (Observed.nil freshDevice _).next (i := cut) (o := ⟨none, none⟩) hcut (by decide +kernel)
  have htwice := honce.next (i := cut) (o := ⟨none, none⟩) hcut (by decide +kernel)
  obtain ⟨-, ⟨m, hm, hv, -⟩, -⟩ := life_consistent freshDevice_started htwice
  exact ⟨m, hm, hv⟩

end LedgerKeePass.App
