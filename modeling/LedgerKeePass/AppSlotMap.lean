import LedgerKeePass.AppApproval

/-!
# The slots as a partial map

`SlotSpec` is the store in the abstract: a partial map from slots to keys and the prompt
on display. Every run of the app refines it.
-/
namespace LedgerKeePass.App
open Bytes Program

abbrev SlotMap := Fin kplSlotCount → Option Key

def InternalStorage.slotMap (nv : InternalStorage) : SlotMap := fun slot =>
  if nv.valid slot.val then some (nv.keys slot) else none

/-- What a prompt means for the slots. -/
inductive Prompt
  | overwrite (slot : Fin kplSlotCount) (key : Key)
  | eraseAllSlots
  | other
  deriving DecidableEq

structure SlotSpec where
  slots : SlotMap
  prompt : Option Prompt
  deriving DecidableEq

namespace SlotSpec

/-- Storing into slot `p1` the 32 bytes behind the header, or asking first. -/
def storeKey (m : SlotSpec) (p1 lc : UInt8) (key : Key) : SlotSpec :=
  if h : p1.toNat < 8 ∧ lc.toNat = 32 then
    match m.slots ⟨p1.toNat, h.1⟩ with
    | none => { m with slots := Function.update m.slots ⟨p1.toNat, h.1⟩ (some key) }
    | some _ => { m with prompt := some (.overwrite ⟨p1.toNat, h.1⟩ key) }
  else m

/-- Prompts of the commands that do not touch the slots. -/
def askOther (m : SlotSpec) (asked : Prop) [Decidable asked] : SlotSpec :=
  if asked then { m with prompt := some .other } else m

/-- The command in an APDU buffer. -/
def receive (m : SlotSpec) (f : Buf ioApduBufferSize) : SlotSpec :=
  if f.byteAt 0 ≠ 0xE0 then m
  else match (f.byteAt 1).toNat with
    | 1 => m.storeKey (f.byteAt 2) (f.byteAt 4) (f.window 5 32)
    | 2 => m.askOther (∃ h : (f.byteAt 2).toNat < 8 ∧ (f.byteAt 4).toNat = 32,
      m.slots ⟨(f.byteAt 2).toNat, h.1⟩ ≠ none)
    | 3 => m.askOther (32 < (f.byteAt 4).toNat ∧ (f.byteAt 4).toNat ≤ 52 ∧
      isNameValid (f.window 37 ((f.byteAt 4).toNat - 32)).toList = true)
    | 5 => { m with prompt := some .eraseAllSlots }
    | _ => m

def approve (m : SlotSpec) : SlotSpec :=
  match m.prompt with
  | some (.overwrite slot key) => ⟨Function.update m.slots slot (some key), none⟩
  | some .eraseAllSlots => ⟨fun _ => none, none⟩
  | _ => ⟨m.slots, none⟩

def dismiss (m : SlotSpec) : SlotSpec := ⟨m.slots, none⟩

/-- The abstract step for an event at a device. -/
def next (m : SlotSpec) (d : Device) (i : Input) : SlotSpec :=
  match i.event with
  | .apdu apdu => if apdu.bytes = [] then m else m.receive (d.receive apdu).gIoApduBuffer
  | .approve => m.approve
  | .deny => m.dismiss
  | .ioReset => m.dismiss

end SlotSpec

def Request.prompt : Request → Prompt
  | .storeKey slot key => .overwrite slot key
  | .eraseAllSlots => .eraseAllSlots
  | _ => .other

section Storage
variable {nv : InternalStorage}

theorem bit_toNat (slot : Fin kplSlotCount) : (UInt8.ofNat (1 <<< slot.val)).toNat = 2 ^ slot.val := by
  revert slot
  decide

theorem store_valid (slot : Fin kplSlotCount) (key : Key) (j : ℕ) :
    (nv.store slot key).valid j = (nv.valid j || decide (slot.val = j)) := by
  rw [InternalStorage.valid, InternalStorage.store, UInt8.toNat_or, Nat.testBit_or, bit_toNat,
    Nat.testBit_two_pow]
  rfl

theorem store_slotMap (slot : Fin kplSlotCount) (key : Key) :
    (nv.store slot key).slotMap = Function.update nv.slotMap slot (some key) := by
  funext j
  rw [InternalStorage.slotMap, store_valid]
  by_cases hj : j = slot
  · subst hj
    simp [InternalStorage.store]
  · have hv : ¬ slot.val = j.val := fun h => hj (Fin.ext h.symm)
    rw [Function.update_of_ne hj, decide_eq_false hv, Bool.or_false]
    simp [InternalStorage.store, InternalStorage.slotMap, Function.update_of_ne hj]

theorem cleared_slotMap : InternalStorage.cleared.slotMap = fun _ => none := by
  funext j
  have hv : InternalStorage.cleared.valid j.val = false := Nat.zero_testBit _
  rw [InternalStorage.slotMap, hv]
  rfl

theorem slotMap_eq_none {slot : Fin kplSlotCount} (h : nv.valid slot.val = false) :
    nv.slotMap slot = none := by
  rw [InternalStorage.slotMap, h]
  rfl

theorem slotMap_eq_some {slot : Fin kplSlotCount} (h : nv.valid slot.val = true) :
    nv.slotMap slot = some (nv.keys slot) := by
  rw [InternalStorage.slotMap, h]
  rfl

end Storage

/-- What a command is to the abstract store. -/
def Command.slots (m : SlotSpec) : Command → SlotSpec
  | .store slot key => { m with slots := Function.update m.slots slot (some key) }
  | .ask r => { m with prompt := some r.prompt }
  | _ => m

section Command
variable {m : SlotSpec} {nv : InternalStorage} {f : Buf ioApduBufferSize}

theorem storeKey_command (hm : nv.slotMap = m.slots) (p1 lc : UInt8) (key : Key) :
    m.storeKey p1 lc key = (storeCommand nv p1 lc key).slots m := by
  obtain ⟨slots, prompt⟩ := m
  obtain rfl : nv.slotMap = slots := hm
  unfold SlotSpec.storeKey storeCommand
  by_cases h : p1.toNat < kplSlotCount ∧ lc.toNat = kplKeySize
  · rw [dif_pos h, dif_pos h]
    dsimp only
    cases hv : nv.valid p1.toNat with
    | true =>
      have hs : nv.slotMap ⟨p1.toNat, h.1⟩ = _ := slotMap_eq_some hv
      rw [hs, if_pos rfl]
      rfl
    | false =>
      have hs : nv.slotMap ⟨p1.toNat, h.1⟩ = _ := slotMap_eq_none hv
      rw [hs, if_neg (by simp)]
      rfl
  · rw [dif_neg h, dif_neg h]
    rfl

theorem getKey_command (hm : nv.slotMap = m.slots) (p1 lc : UInt8) (callerPub : Point) :
    m.askOther (∃ h : p1.toNat < 8 ∧ lc.toNat = 32, m.slots ⟨p1.toNat, h.1⟩ ≠ none) =
      (getKeyCommand nv p1 lc callerPub).slots m := by
  obtain ⟨slots, prompt⟩ := m
  obtain rfl : nv.slotMap = slots := hm
  unfold SlotSpec.askOther getKeyCommand
  by_cases h : p1.toNat < kplSlotCount ∧ lc.toNat = x25519PtSize
  · rw [dif_pos h]
    cases hv : nv.valid p1.toNat with
    | true =>
      have hs : nv.slotMap ⟨p1.toNat, h.1⟩ = _ := slotMap_eq_some hv
      rw [if_pos ⟨h, by simp [hs]⟩, if_pos rfl]
      rfl
    | false =>
      rw [if_neg, if_neg (by simp)]
      · rfl
      · rintro ⟨h', hn⟩
        exact hn (slotMap_eq_none hv)
  · rw [dif_neg h, if_neg fun ⟨h', _⟩ => h h']
    rfl

theorem getKeyFromName_command (lc : UInt8) (callerPub : Point) (name : List UInt8) :
    m.askOther (32 < lc.toNat ∧ lc.toNat ≤ 52 ∧ isNameValid name = true) =
      (getKeyFromNameCommand lc callerPub name).slots m := by
  unfold SlotSpec.askOther getKeyFromNameCommand
  by_cases h : x25519PtSize < lc.toNat ∧ lc.toNat ≤ x25519PtSize + kplMaxNameSize
  · rw [if_pos h]
    cases hv : isNameValid name with
    | true =>
      rw [if_pos ⟨h.1, h.2, rfl⟩]
      rfl
    | false =>
      rw [if_neg (by simp), if_neg (by simp)]
      rfl
  · rw [if_neg h, if_neg fun h' => h ⟨h'.1, h'.2.1⟩]
    rfl

/-- The abstract store and the code read the same command in a buffer. -/
theorem receive_command (hm : nv.slotMap = m.slots) : m.receive f = (command nv f).slots m := by
  unfold SlotSpec.receive command
  by_cases hc : f.byteAt 0 = 0xE0
  · have hcla : ¬ f.byteAt 0 ≠ cla := not_not.mpr hc
    rw [if_neg (not_not.mpr hc), if_neg hcla]
    split
    case h_1 h =>
      rw [h]
      exact storeKey_command hm _ _ _
    case h_2 h =>
      rw [h]
      exact getKey_command hm _ _ _
    case h_3 h =>
      rw [h]
      exact getKeyFromName_command _ _ _
    case h_4 h =>
      rw [h]
      rfl
    case h_5 h₁ h₂ h₃ h₅ =>
      split <;> first | rfl | contradiction
  · have hcla : f.byteAt 0 ≠ cla := hc
    rw [if_pos hc, if_pos hcla]
    rfl

end Command

/-- What a request does to the storage once it is approved. -/
def Request.store (nv : InternalStorage) : Request → InternalStorage
  | .storeKey slot key => nv.store slot key
  | .eraseAllSlots => .cleared
  | _ => nv

section Step
variable {sdk : Sdk} {event : Event} {d t u : Device} {m : SlotSpec} {r : Request} {i : Input}
  {o : Output} {ret : Except Abort (Option (List UInt8))}

theorem approved_storage (hnv : sdk.WritesNv) (ha : d.Armed r)
    (ht : exec (touchOkay sdk) d = (ret, t)) : t.nStorage = r.store d.nStorage := by
  cases hk : r.isKey with
  | true =>
    obtain ⟨t', hf, h⟩ := @touchOkay_frame sdk d r ha
    have hs : r.store d.nStorage = d.nStorage := by
      cases r with
      | storeKey slot key => cases hk
      | eraseAllSlots => cases hk
      | _ => rfl
    have htt : t = t' := by
      rcases h with ⟨reply, h, -⟩ | ⟨a, h, -⟩ <;> rw [ht] at h <;> cases h <;> rfl
    rw [htt, hf.storage hk, hs]
  | false =>
    cases r with
    | storeKey slot key =>
      rw [exec_touchOkay_storeKey hnv ha] at ht
      cases ht
      rfl
    | eraseAllSlots =>
      rw [exec_touchOkay_eraseAllSlots hnv ha] at ht
      cases ht
      rfl
    | _ => cases hk

/-- The device implements the abstract store. -/
structure Implements (d : Device) (m : SlotSpec) : Prop where
  ready : d.Ready
  slots : d.nStorage.slotMap = m.slots
  shown : d.screen = .approval → ∃ r, d.Armed r ∧ m.prompt = some r.prompt
  idle : d.screen = .idle → m.prompt = none

theorem approve_slots {nv : InternalStorage} (hm : nv.slotMap = m.slots)
    (hp : m.prompt = some r.prompt) : (r.store nv).slotMap = m.approve.slots := by
  unfold SlotSpec.approve
  rw [hp]
  cases r with
  | storeKey slot key =>
    change (nv.store slot key).slotMap = _
    rw [store_slotMap, hm]
    rfl
  | eraseAllSlots =>
    change InternalStorage.cleared.slotMap = _
    rw [cleared_slotMap]
    rfl
  | _ => exact hm

theorem approve_prompt (m : SlotSpec) : m.approve.prompt = none := by
  obtain ⟨slots, _ | prompt⟩ := m
  · rfl
  · cases prompt <;> rfl

theorem Implements.dismiss (hi : Implements d m) (hu : u.Ready) (hs : u.screen = .idle)
    (hn : u.nStorage = d.nStorage) : Implements u m.dismiss := by
  refine ⟨hu, ?_, fun h => ?_, fun _ => rfl⟩
  · rw [hn]
    exact hi.slots
  · rw [hs] at h
    cases h

theorem Implements.approve (hi : Implements d m) (hs : d.screen = .approval) (hnv : sdk.WritesNv)
    (ht : exec (touchOkay sdk) d = (ret, t)) (hu : u.Ready) (hus : u.screen = .idle)
    (hn : u.nStorage = t.nStorage) : Implements u m.approve := by
  obtain ⟨r, ha, hp⟩ := hi.shown hs
  refine ⟨hu, ?_, fun h => ?_, fun _ => approve_prompt m⟩
  · rw [hn, approved_storage hnv ha ht]
    exact approve_slots hi.slots hp
  · rw [hus] at h
    cases h

theorem Implements.command (hi : Implements d m) (apdu : Apdu) (data : List UInt8) :
    Implements (((d.commandOf apdu).effect (d.receive apdu)).answer data)
      (m.receive (d.receive apdu).gIoApduBuffer) := by
  have hready := hi.ready.command apdu data
  rw [receive_command hi.slots]
  change Implements _ ((d.commandOf apdu).slots m)
  generalize hc : d.commandOf apdu = c at hready ⊢
  cases c with
  | ask r =>
    obtain ⟨hp, hv⟩ := command_ask hc
    have ha := @answer_samePrompt ((d.receive apdu).ask r) data
    refine ⟨hready, ?_, fun _ => ⟨r, ha.armed (.refl _) (ask_armed hp hv), rfl⟩, nofun⟩
    cases r <;> exact hi.slots
  | store slot key =>
    refine ⟨hready, ?_, fun hs => ?_, hi.idle⟩
    · rw [Command.slots, ← hi.slots]
      exact store_slotMap slot key
    · obtain ⟨r, ha, hp⟩ := hi.shown hs
      have hsame : SamePrompt d (((Command.store slot key).effect (d.receive apdu)).answer data) :=
        ⟨rfl, rfl, rfl, rfl, rfl, rfl⟩
      exact ⟨r, hsame.armed (store_grows _ slot key) ha, hp⟩
  | badName callerPub =>
    refine ⟨hready, hi.slots, fun hs => ?_, hi.idle⟩
    obtain ⟨r, ha, hp⟩ := hi.shown hs
    refine ⟨r.setCallerPub callerPub, ?_, ?_⟩
    · have hb := badName_armed callerPub ((receive_samePrompt apdu).armed (.refl _) ha)
      exact (answer_samePrompt data).armed (.refl _) hb
    · change m.prompt = _
      rw [hp]
      cases r <;> rfl
  | _ => exact ⟨hready, hi.slots, hi.shown, hi.idle⟩

theorem Implements.step (hi : Implements d m) (hnv : i.sdk.WritesNv)
    (h : exec (step i) d = (.ok o, u)) : Implements u (m.next d i) := by
  have hready := step_ready hi.ready h
  obtain ⟨sdk, event⟩ := i
  obtain ⟨reply, -, hr⟩ := step_reacts hi.ready h
  cases hr with
  | empty he =>
    have hn : m.next d ⟨sdk, .apdu _⟩ = m := if_pos he
    rw [hn]
    exact ⟨hready, hi.slots, hi.shown, hi.idle⟩
  | command hne _ =>
    have hn : m.next d ⟨sdk, .apdu _⟩ = _ := if_neg hne
    rw [hn]
    exact hi.command _ _
  | faultyStore sw hne hc hn hg => exact absurd hnv hn
  | resetStore hne hc hn hg => exact absurd hnv hn
  | ignored hs he =>
    have hidle : d.screen = .idle := by
      cases hd : d.screen with
      | idle => rfl
      | approval => exact absurd hd hs
    have hp := hi.idle hidle
    have hn : m.next d ⟨sdk, event⟩ = m := by
      obtain ⟨slots, prompt⟩ := m
      obtain rfl : prompt = none := hp
      rcases he with rfl | rfl <;> rfl
    rw [hn]
    exact hi
  | approved hs ha hf ht hidle => exact hi.approve hs hnv ht hready hidle rfl
  | resetApproval hs ha hf ht => exact hi.approve hs hnv ht hready rfl rfl
  | denied hs => exact hi.dismiss hready rfl rfl
  | reset => exact hi.dismiss hready rfl rfl

end Step

theorem started_implements {d : Device} (hd : Started d) :
    Implements d ⟨d.nStorage.slotMap, none⟩ := by
  obtain ⟨nv, seed, hi, rfl⟩ := started_eq hd
  exact ⟨⟨rfl, hi, nofun⟩, rfl, nofun, fun _ => rfl⟩

/-- Every run of a started app refines the abstract store: its slots are those of the
abstract run, and each event can be taken and changes them as the abstract step does. -/
theorem slotMap_refines {d t : Device} {tr : List (Input × Output)} {m : SlotSpec}
    (hd : Started d)
    (h : Observed step (fun _ i => i.sdk.WritesNv) SlotSpec.next d ⟨d.nStorage.slotMap, none⟩ tr t m) :
    t.nStorage.slotMap = m.slots ∧ (t.screen = .idle → m.prompt = none) ∧
      (t.screen = .approval → ∃ r, t.Armed r ∧ m.prompt = some r.prompt) ∧
      ∀ i, i.sdk.WritesNv → ∃ o u, exec (step i) t = (.ok o, u) ∧
        u.nStorage.slotMap = (m.next t i).slots := by
  have hi : Implements t m :=
    h.invariant (started_implements hd) fun _ _ _ _ _ hi hnv he => hi.step hnv he
  refine ⟨hi.slots, hi.idle, hi.shown, fun i hnv => ?_⟩
  obtain ⟨o, u, hs⟩ := step_total hi.ready hnv i.event
  exact ⟨o, u, hs, (hi.step hnv hs).slots⟩

/-- The app and the abstract store after `STORE_KEY` for slot 3 and a key of 32 fives. -/
theorem slotMap_refines_store :
    let i : Input := ⟨plainSdk, .apdu ⟨[0xE0, 1, 3, 0, 32] ++ List.replicate 32 5, by decide⟩⟩
    (exec (step i) freshDevice).2.nStorage.slotMap =
      (SlotSpec.next ⟨freshDevice.nStorage.slotMap, none⟩ freshDevice i).slots :=
  (slotMap_refines freshDevice_started
    (Observed.next (o := ⟨some [0x90, 0x00], none⟩) (.nil _ _) (fun _ => rfl) (by decide +kernel))).1

/-- The two assertions of `handleGetKeyAfterApprove`, which the build leaves out. -/
def Device.GetKeyAsserts (d : Device) : Prop :=
  d.getKeyArgs.slot.toNat < kplSlotCount ∧ d.nStorage.valid d.getKeyArgs.slot.toNat = true

section Asserts
variable {d : Device} {m : SlotSpec} {r : Request}

theorem Device.Armed.getKey (ha : d.Armed r) (hcb : d.approveCb = some .handleGetKeyAfterApprove) :
    ∃ slot, r = .getKey slot d.getKeyArgs.callerPub ∧ d.getKeyArgs.slot = UInt8.ofNat slot.val ∧
      d.nStorage.valid slot.val = true := by
  have h := ha.callback.symm.trans hcb
  cases r with
  | getKey slot callerPub =>
    obtain ⟨-, hargs, hv⟩ := ha
    exact ⟨slot, by rw [hargs], by rw [hargs], hv⟩
  | _ => cases h

/-- What an approve press delivers is in the abstract store. -/
theorem Implements.getKey (hi : Implements d m) (hs : d.screen = .approval)
    (hcb : d.approveCb = some .handleGetKeyAfterApprove) :
    ∃ slot key, d.getKeyArgs.slot = UInt8.ofNat slot.val ∧ m.slots slot = some key ∧
      ∀ sdk own cipher, sealKey sdk key d.getKeyArgs.callerPub = .ok (some (own, cipher)) →
        (exec (App.step ⟨sdk, .approve⟩) d).1 =
          .ok ⟨some (own.toList ++ cipher.toList ++ statusBytes kplSwSuccess), none⟩ := by
  obtain ⟨r, ha, -⟩ := hi.shown hs
  obtain ⟨slot, rfl, hslot, hv⟩ := ha.getKey hcb
  refine ⟨slot, d.nStorage.keys slot, hslot, ?_, fun sdk own cipher hc => ?_⟩
  · rw [← hi.slots]
    exact slotMap_eq_some hv
  · have hr : (Request.getKey slot d.getKeyArgs.callerPub).sealed sdk d.nStorage d.seed = _ := hc
    rw [exec_step_approve hs ha hr]

end Asserts

/-- The assertions of `handleGetKeyAfterApprove` hold whenever an approve press runs it, and
where persistent writes take effect it delivers a key that the slot holds in the abstract
store. -/
theorem getKey_asserts {d : Device} (hd : Started d) :
    (∀ tr t, Run step (fun _ _ => True) d tr t → t.screen = .approval →
      t.approveCb = some .handleGetKeyAfterApprove → t.GetKeyAsserts) ∧
    ∀ tr t m, Observed step (fun _ i => i.sdk.WritesNv) SlotSpec.next d
        ⟨d.nStorage.slotMap, none⟩ tr t m →
      t.screen = .approval → t.approveCb = some .handleGetKeyAfterApprove →
      ∃ slot key, t.getKeyArgs.slot = UInt8.ofNat slot.val ∧ m.slots slot = some key ∧
        ∀ sdk own cipher, sealKey sdk key t.getKeyArgs.callerPub = .ok (some (own, cipher)) →
          (exec (step ⟨sdk, .approve⟩) t).1 =
            .ok ⟨some (own.toList ++ cipher.toList ++ statusBytes kplSwSuccess), none⟩ := by
  constructor
  · intro tr t h hs hcb
    obtain ⟨r, ha, -⟩ := (run_ready h (started_ready hd)).pending hs
    obtain ⟨slot, -, hslot, hv⟩ := ha.getKey hcb
    rw [Device.GetKeyAsserts, hslot, ofNat_slot_toNat]
    exact ⟨slot.isLt, hv⟩
  · intro tr t m h hs hcb
    have hi : Implements t m :=
      h.invariant (started_implements hd) fun _ _ _ _ _ hi hnv he => hi.step hnv he
    exact hi.getKey hs hcb

/-- `GET_KEY` for slot 3 and the public key of 32 zeros. -/
def askSlot : Apdu := ⟨[0xE0, 2, 3, 0, 32] ++ List.replicate 32 0, by decide⟩

/-- A started device whose slot 3 holds a key. -/
def filledDevice : Device := powerUp (InternalStorage.cleared.store ⟨3, by decide⟩ (Buf.zeros _)) []

theorem filledDevice_started : Started filledDevice :=
  ⟨plainSdk, filledDevice.nStorage, [], fun _ => rfl, exec_mainBody rfl⟩

theorem getKey_asserts_askSlot :
    (exec (step ⟨plainSdk, .apdu askSlot⟩) filledDevice).2.GetKeyAsserts :=
  (getKey_asserts filledDevice_started).1 _ _
    (Run.next (o := ⟨none, some (ascii "Database open slot", ascii "Slot #3")⟩) (.nil _) trivial
      (by decide +kernel))
    (by decide +kernel) (by decide +kernel)

end LedgerKeePass.App
