import LedgerKeePass.AppApproval
import LedgerKeePass.AppReceived
import LedgerKeePass.AppUser

/-!
# Power losses

A step may be cut by a power loss before, between or after its persistent writes. What
`main` then starts from shows the slots from before the step or those from after it.
-/
namespace LedgerKeePass.App
open Bytes Program

/-- Persistent writes take effect until the power goes off. -/
def Sdk.WritesUntilCut (sdk : Sdk) : Prop :=
  ∀ w, sdk.nvmWrite w = .written ∨ sdk.nvmWrite w = .powerLoss

section Storage
variable {sdk : Sdk} {nv : InternalStorage} {slot : Fin kplSlotCount} {key : Key}

theorem write_cut (h : sdk.WritesUntilCut) (w : NvWrite) (nv : InternalStorage) :
    sdk.write w nv = (.ok (), w.apply nv) ∨ sdk.write w nv = (.error .powerLoss, nv) := by
  rcases h w with h | h
  · exact .inl (by rw [Sdk.write, h])
  · exact .inr (by rw [Sdk.write, h])

/-- The bytes of a key alone do not show in a slot that is not valid. -/
theorem keys_slotMap_empty (h : nv.valid slot.val = false) :
    { nv with keys := Function.update nv.keys slot key }.slotMap = nv.slotMap := by
  funext j
  by_cases hj : j = slot
  · subst hj
    rw [slotMap_eq_none h]
    exact slotMap_eq_none h
  · change (if nv.valid j.val then some (Function.update nv.keys slot key j) else none) = _
    rw [Function.update_of_ne hj]
    rfl

/-- In a slot that is valid already they are the new key. -/
theorem keys_slotMap_valid (h : nv.valid slot.val = true) :
    { nv with keys := Function.update nv.keys slot key }.slotMap =
      Function.update nv.slotMap slot (some key) := by
  funext j
  by_cases hj : j = slot
  · subst hj
    rw [Function.update_self]
    have hs : { nv with keys := Function.update nv.keys j key }.slotMap j = _ := slotMap_eq_some h
    rw [hs]
    exact congrArg some (Function.update_self _ _ _)
  · rw [Function.update_of_ne hj]
    change (if nv.valid j.val then some (Function.update nv.keys slot key j) else none) = _
    rw [Function.update_of_ne hj]
    rfl

/-- Wherever the writes of a key are cut, the slots are the old ones or the new ones. -/
theorem storeKey_cut (h : sdk.WritesUntilCut) (slot : Fin kplSlotCount) (key : Key)
    (nv : InternalStorage) :
    (sdk.storeKey slot key nv).2.slotMap = nv.slotMap ∨
      (sdk.storeKey slot key nv).2.slotMap = (nv.store slot key).slotMap := by
  have hbit (nv') : sdk.write (.keyValids (nv'.keyValids ||| UInt8.ofNat (1 <<< slot.val))) nv' = _ ∨ _ :=
    write_cut h _ nv'
  rcases write_cut h (.key slot key) nv with hk | hk
  · rw [Sdk.storeKey, hk]
    rcases hbit (NvWrite.apply (.key slot key) nv) with hb | hb
    · right
      dsimp only
      rw [hb]
      rfl
    · -- the power went off between the two writes
      dsimp only
      rw [hb, store_slotMap]
      cases hv : nv.valid slot.val with
      | false => exact .inl (keys_slotMap_empty hv)
      | true => exact .inr (keys_slotMap_valid hv)
  · left
    rw [Sdk.storeKey, hk]

theorem Request.write_cut (h : sdk.WritesUntilCut) (r : Request) (nv : InternalStorage) :
    (r.write sdk nv).2.slotMap = nv.slotMap ∨
      (r.write sdk nv).2.slotMap = (r.store nv).slotMap := by
  cases r with
  | storeKey slot key => exact storeKey_cut h slot key nv
  | eraseAllSlots =>
    rcases App.write_cut h (.storage .cleared) nv with he | he <;> rw [Request.write, he]
    · exact .inr rfl
    · exact .inl rfl
  | _ => exact .inl rfl

end Storage

section Step
variable {sdk : Sdk} {event : Event} {d t u : Device} {m : SlotSpec} {apdu : Apdu}
  {res : Except Abort Output} {ret : Except Abort (Option (List UInt8))}

/-- However a step ends, the storage is what its reaction has left. -/
theorem step_storage (h : exec (react sdk event) d = (ret, t)) (hi : t.nStorage.initialized = 0x01)
    (hret : ∀ a, ret = .error a → a = .thrown exceptionIoReset ∨ a = .powerLoss)
    (hs : exec (step ⟨sdk, event⟩) d = (res, u)) : u.nStorage = t.nStorage := by
  rcases ret with a | reply
  · rcases hret a rfl with rfl | rfl
    · rw [exec_step_reset h hi] at hs
      cases hs
      rfl
    · rw [exec_step_powerLoss h] at hs
      cases hs
      rfl
  · rw [exec_step_ok h] at hs
    cases hs
    rfl

/-- What a step has left of the storage when it is cut. -/
structure Halfway (u : Device) (before after : SlotMap) : Prop where
  initialized : u.nStorage.initialized = 0x01
  slots : u.nStorage.slotMap = before ∨ u.nStorage.slotMap = after

theorem cut_store {slot : Fin kplSlotCount} {key : Key} (hd : d.Ready) (hsdk : sdk.WritesUntilCut)
    (hne : apdu.bytes ≠ []) (hc : d.commandOf apdu = .store slot key)
    (hs : exec (step ⟨sdk, .apdu apdu⟩) d = (res, u)) :
    Halfway u d.nStorage.slotMap (d.nStorage.store slot key).slotMap := by
  have hr := @exec_receiveApdu_store sdk d apdu _ _ hne hd.tx hc
  have he := fun a => @caught_error _ a (@storeKey_ne_undefined sdk slot key d.nStorage)
  have hi := (@storeKey_grows sdk slot key d.nStorage).initialized.trans hd.initialized
  have hcut := storeKey_cut hsdk slot key d.nStorage
  have hu : u.nStorage = (sdk.storeKey slot key d.nStorage).2 := by
    generalize caught (sdk.storeKey slot key d.nStorage).1 = c at hr he
    rcases c with a | sw
    · refine @step_storage sdk (.apdu apdu) d _ u res _ hr hi ?_ hs
      rintro _ ⟨⟩
      exact (he a rfl).2
    · exact @step_storage sdk (.apdu apdu) d _ u res _ hr hi (by simp) hs
  exact ⟨by rw [hu]; exact hi, by rw [hu]; exact hcut⟩

theorem cut_approve {r : Request} (hd : d.Ready) (hsdk : sdk.WritesUntilCut)
    (hs : d.screen = .approval) (ha : d.Armed r)
    (hu : exec (step ⟨sdk, .approve⟩) d = (res, u)) :
    Halfway u d.nStorage.slotMap (r.store d.nStorage).slotMap := by
  have hreact := @exec_react_approve sdk d hs
  cases hr : r.isKey with
  | true =>
    obtain ⟨t, hf, h⟩ := @touchOkay_frame sdk d r ha
    have hst : u.nStorage = t.nStorage := by
      rcases h with ⟨reply, ht, -⟩ | ⟨a, ht, hab⟩
      · exact step_storage (hreact.trans ht) (hf.initialized hd.initialized) (by simp) hu
      · refine step_storage (hreact.trans ht) (hf.initialized hd.initialized) ?_ hu
        rintro _ ⟨⟩
        exact hab
    rw [hf.storage hr] at hst
    exact ⟨by rw [hst]; exact hd.initialized, .inl (by rw [hst])⟩
  | false =>
    have ht := hreact.trans (@exec_touchOkay_write sdk d r ha hr)
    have he := fun a => @caught_error _ a (@Request.write_ne_undefined sdk r d.nStorage)
    have hi := @Request.write_initialized sdk d.nStorage r hd.initialized
    have hcut := r.write_cut hsdk d.nStorage
    have hst : u.nStorage = (r.write sdk d.nStorage).2 := by
      generalize caught (r.write sdk d.nStorage).1 = c at ht he
      rcases c with a | sw
      · refine step_storage ht hi ?_ hu
        rintro _ ⟨⟩
        exact (he a rfl).2
      · exact step_storage ht hi (by simp) hu
    exact ⟨by rw [hst]; exact hi, by rw [hst]; exact hcut⟩

/-- A step that leaves the storage as it is. -/
theorem Implements.kept {t : Device} {ret : Except Abort (Option (List UInt8))} (hi : Implements d m)
    (hr : exec (react sdk event) d = (ret, t)) (hn : t.nStorage = d.nStorage)
    (hret : ∀ a, ret = .error a → a = .thrown exceptionIoReset ∨ a = .powerLoss)
    (hu : exec (App.step ⟨sdk, event⟩) d = (res, u)) (after : SlotMap) : Halfway u m.slots after := by
  have hst := step_storage hr (by rw [hn]; exact hi.ready.initialized) hret hu
  rw [hn] at hst
  refine ⟨?_, .inl ?_⟩
  · rw [hst]
    exact hi.ready.initialized
  · rw [hst]
    exact hi.slots

/-- Wherever a step is cut, the storage holds the slots from before it or from after it. -/
theorem Implements.cut (hi : Implements d m) (hsdk : sdk.WritesUntilCut)
    (hu : exec (App.step ⟨sdk, event⟩) d = (res, u)) :
    Halfway u m.slots (m.next d ⟨sdk, event⟩).slots := by
  have hd := hi.ready
  cases event with
  | apdu apdu =>
    by_cases he : apdu.bytes = []
    · have hr : exec (react sdk (.apdu apdu)) d = _ := exec_receiveApdu_nil he hd.tx
      exact hi.kept hr rfl (by simp) hu _
    have hn : m.next d ⟨sdk, .apdu apdu⟩ = m.receive (d.receive apdu).gIoApduBuffer := if_neg he
    rw [hn]
    by_cases hc : (d.commandOf apdu).isStore = true
    · obtain ⟨slot, key, hc⟩ := isStore_eq hc
      have h := cut_store hd hsdk he hc hu
      have hcmd : App.command d.nStorage (d.receive apdu).gIoApduBuffer = .store slot key := hc
      rw [receive_command hi.slots, hcmd, Command.slots, ← hi.slots, ← store_slotMap]
      exact h
    · have hr := @exec_receiveApdu sdk d apdu he hd.tx fun h => absurd h hc
      have hs := @exec_step_ok sdk (.apdu apdu) _ _ _ hr
      rw [hs] at hu
      cases hu
      have h := hi.command apdu ((d.commandOf apdu).response d.nStorage)
      exact ⟨h.ready.initialized, .inr h.slots⟩
  | approve =>
    by_cases hs : d.screen = .approval
    · obtain ⟨r, ha, hp⟩ := hi.shown hs
      have h := cut_approve hd hsdk hs ha hu
      rw [approve_slots hi.slots hp, hi.slots] at h
      exact h
    · exact hi.kept (exec_react_ignored hs (.inl rfl)) rfl (by simp) hu _
  | deny =>
    by_cases hs : d.screen = .approval
    · exact hi.kept ((exec_react_deny hs).trans exec_touchDeny) rfl (by simp) hu _
    · exact hi.kept (exec_react_ignored hs (.inr rfl)) rfl (by simp) hu _
  | ioReset =>
    have hr : exec (react sdk .ioReset) d = (.error (.thrown exceptionIoReset), d) := rfl
    refine hi.kept hr rfl ?_ hu _
    rintro _ ⟨⟩
    exact .inl rfl

end Step

/-- The slots that `GET_VALID_SLOTS` and `GET_KEY` show of a device: the one reports which
are filled, the other delivers the key of a filled slot once it is approved. -/
structure Device.Visible (d : Device) (slots : SlotMap) : Prop where
  reported : ∀ sdk (apdu : Apdu), apdu.bytes.take 2 = [cla, 4] →
    ∃ keyValids display u, exec (step ⟨sdk, .apdu apdu⟩) d =
        (.ok ⟨some ([keyValids] ++ statusBytes kplSwSuccess), display⟩, u) ∧
      ∀ slot : Fin kplSlotCount, keyValids.toNat.testBit slot.val = (slots slot).isSome
  delivered : ∀ sdk sdk' (apdu : Apdu) slot p2 callerPub key own cipher,
    apdu.bytes = [cla, 2, UInt8.ofNat slot.val, p2, 32] ++ callerPub.toList →
    slots slot = some key → sealKey sdk' key callerPub = .ok (some (own, cipher)) →
    ∃ o u, exec (step ⟨sdk, .apdu apdu⟩) d = (.ok o, u) ∧ o.reply = none ∧
      (exec (step ⟨sdk', .approve⟩) u).1 =
        .ok ⟨some (own.toList ++ cipher.toList ++ statusBytes kplSwSuccess), none⟩

section Visible
variable {d : Device} {apdu : Apdu} {slot : Fin kplSlotCount} {p2 : UInt8} {callerPub : Point}

theorem commandOf_getValidSlots (h : apdu.bytes.take 2 = [cla, 4]) :
    apdu.bytes ≠ [] ∧ d.commandOf apdu = .getValidSlots := by
  obtain ⟨hne, h₀, h₁⟩ := @received_header d _ _ _ h
  refine ⟨hne, ?_⟩
  rw [Device.commandOf, command_of_cla h₀, h₁]
  rfl

theorem commandOf_getKey (h : apdu.bytes = [cla, 2, UInt8.ofNat slot.val, p2, 32] ++ callerPub.toList)
    (hv : d.nStorage.valid slot.val = true) :
    apdu.bytes ≠ [] ∧ d.commandOf apdu = .ask (.getKey slot callerPub) := by
  have hlen : apdu.bytes.length = 37 := by simp [h]
  have hb : ∀ i < 5, (d.receive apdu).gIoApduBuffer.byteAt i =
      [cla, 2, UInt8.ofNat slot.val, p2, 32].getD i 0 := by
    intro i hi
    have hr : (d.receive apdu).gIoApduBuffer.byteAt i = apdu.bytes.getD i 0 :=
      frame_received (by omega)
    rw [hr, h, List.getD_append _ _ _ _ (by simpa using hi)]
  have hdata : (d.receive apdu).gIoApduBuffer.window 5 32 = callerPub := by
    change (d.gIoApduBuffer.overwrite 0 apdu.bytes).window 5 32 = callerPub
    rw [h, ← Buf.overwrite_append]
    exact Buf.window_overwrite _ 5 callerPub (by decide)
  refine ⟨by simp [h], ?_⟩
  rw [Device.commandOf, command_of_cla (hb 0 (by omega)), hb 1 (by omega)]
  change getKeyCommand d.nStorage _ _ _ = _
  rw [hb 2 (by omega), hb 4 (by omega), hdata]
  have hs : (UInt8.ofNat slot.val).toNat = slot.val := ofNat_slot_toNat slot
  have hp : (UInt8.ofNat slot.val).toNat < kplSlotCount ∧ (32 : UInt8).toNat = x25519PtSize :=
    ⟨by rw [hs]; exact slot.isLt, rfl⟩
  have he : (⟨(UInt8.ofNat slot.val).toNat, hp.1⟩ : Fin kplSlotCount) = slot := Fin.ext hs
  change getKeyCommand d.nStorage (UInt8.ofNat slot.val) 32 callerPub = _
  rw [getKeyCommand, dif_pos hp, he, hs, if_pos hv]

/-- A device that waits for an event shows the slots of its storage. -/
theorem Device.Ready.visible (hd : d.Ready) : d.Visible d.nStorage.slotMap where
  reported sdk apdu h := by
    obtain ⟨hne, hc⟩ := commandOf_getValidSlots (d := d) h
    refine ⟨d.nStorage.keyValids, _, _, exec_step_command hd hne hc (by simp [Command.isStore]),
      fun slot => ?_⟩
    change d.nStorage.valid slot.val = _
    cases hv : d.nStorage.valid slot.val with
    | true => rw [slotMap_eq_some hv, Option.isSome_some]
    | false => rw [slotMap_eq_none hv, Option.isSome_none]
  delivered sdk sdk' apdu slot p2 callerPub key own cipher h hk hs := by
    have hv : d.nStorage.valid slot.val = true := by
      by_contra hv
      rw [slotMap_eq_none (by simpa using hv)] at hk
      cases hk
    rw [slotMap_eq_some hv] at hk
    cases hk
    obtain ⟨hne, hc⟩ := commandOf_getKey h hv
    refine ⟨_, _, exec_step_ask hd hne hc, rfl, ?_⟩
    have hseal : (Request.getKey slot callerPub).sealed sdk'
        (d.asking apdu (.getKey slot callerPub)).nStorage
        (d.asking apdu (.getKey slot callerPub)).seed = .ok (some (own, cipher)) := by
      rw [asking_storage]
      exact hs
    rw [exec_step_approve rfl (asking_armed hc) hseal]

end Visible

/-- The restart of `main` writes nothing to a storage that is set up. -/
theorem exec_restart {nv : InternalStorage} (hi : nv.initialized = 0x01) (sdk : Sdk) (seed : List UInt8) :
    exec (mainBody sdk) (powerUp nv seed) = (.ok (), powerUp nv seed) := by
  rw [exec_mainBody hi]
  rfl

/-- A step of a run is cut by a power loss and `main` starts again: the slots that show are
those from before the step or those from after it, and no prompt is pending. -/
theorem crash_consistent {d t u : Device} {tr : List (Input × Output)} {m : SlotSpec} {i : Input}
    {res : Except Abort Output} (hd : Started d)
    (h : Observed step (fun _ i => i.sdk.WritesNv) SlotSpec.next d ⟨d.nStorage.slotMap, none⟩ tr t m)
    (hi : i.sdk.WritesUntilCut) (hu : exec (step i) t = (res, u)) (sdk : Sdk) :
    ∃ v, exec (mainBody sdk) (powerUp u.nStorage t.seed) = (.ok (), v) ∧
      (v.Visible m.slots ∨ v.Visible (m.next t i).slots) ∧
      Started v ∧ v.screen = .idle ∧ v.approveCb = none ∧
      ∀ sdk, exec (step ⟨sdk, .approve⟩) v = (.ok ⟨none, none⟩, v) := by
  have himp : Implements t m :=
    h.invariant (started_implements hd) fun _ _ _ _ _ hi hnv he => hi.step hnv he
  have hcut := himp.cut hi hu
  refine ⟨_, exec_restart hcut.initialized sdk t.seed, ?_, ?_, rfl, rfl, fun sdk => ?_⟩
  · have hready : (powerUp u.nStorage t.seed).Ready := ⟨rfl, hcut.initialized, by simp [powerUp]⟩
    have hv := hready.visible
    change Device.Visible _ u.nStorage.slotMap at hv
    rcases hcut.slots with hs | hs <;> rw [hs] at hv
    · exact .inl hv
    · exact .inr hv
  · exact ⟨plainSdk, u.nStorage, t.seed, fun _ => rfl, exec_restart hcut.initialized _ _⟩
  · exact exec_step_ok (exec_react_ignored (by simp [powerUp]) (.inl rfl))

/-- The power goes off between the two writes of `STORE_KEY` into an empty slot. -/
def cutSdk : Sdk :=
  { plainSdk with nvmWrite := fun
      | .key _ _ => .written
      | _ => .powerLoss }

theorem cutSdk_cut : cutSdk.WritesUntilCut := by
  intro w
  cases w with
  | key slot key => exact .inl rfl
  | keyValids keyValids => exact .inr rfl
  | storage storage => exact .inr rfl

theorem crash_consistent_store :
    let i : Input := ⟨cutSdk, .apdu wholeStore⟩
    (exec (step i) freshDevice).1 = .error .powerLoss ∧
      ∃ v, exec (mainBody plainSdk) (powerUp (exec (step i) freshDevice).2.nStorage []) = (.ok (), v) ∧
        (v.Visible freshDevice.nStorage.slotMap ∨
          v.Visible (SlotSpec.next ⟨freshDevice.nStorage.slotMap, none⟩ freshDevice i).slots) ∧
        Started v ∧ v.screen = .idle ∧ v.approveCb = none ∧
        ∀ sdk, exec (step ⟨sdk, .approve⟩) v = (.ok ⟨none, none⟩, v) :=
  ⟨by decide +kernel, crash_consistent (i := ⟨cutSdk, .apdu wholeStore⟩) freshDevice_started
    (.nil _ _) cutSdk_cut (Prod.ext rfl rfl) plainSdk⟩

end LedgerKeePass.App
