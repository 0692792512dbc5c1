import LedgerKeePass.AppDispatch

/-!
# What a received APDU does

Equations for `receiveApdu` and for the restart of `main`. They hold for every behaviour
of the SDK; where a persistent write may fail, the equation says what it leaves behind.
-/
namespace LedgerKeePass.App
open Bytes Program

def Device.setStorage (d : Device) (nv : InternalStorage) : Device := { d with nStorage := nv }

def Device.setBuffer (d : Device) (b : Buf ioApduBufferSize) : Device := { d with gIoApduBuffer := b }

/-- The device when `handleApdu` starts on a received APDU. -/
def Device.receive (d : Device) (apdu : Apdu) : Device :=
  { d with gIoApduBuffer := d.gIoApduBuffer.overwrite 0 apdu.bytes, asynchReply := false }

/-- The device with a reply at the start of the APDU buffer, about to be transmitted. -/
def Device.respond (d : Device) (reply : List UInt8) : Device :=
  { d with gIoApduBuffer := d.gIoApduBuffer.overwrite 0 reply, tx := reply.length }

/-- The device back in `io_exchange`. -/
def Device.answer (d : Device) (reply : List UInt8) : Device :=
  { d with gIoApduBuffer := d.gIoApduBuffer.overwrite 0 reply, tx := 0 }

def Device.restart (d : Device) : Device :=
  { d with screen := .idle, tx := 0, asynchReply := false }

def InternalStorage.store (nv : InternalStorage) (slot : Fin kplSlotCount) (key : Key) :
    InternalStorage :=
  { nv with keys := Function.update nv.keys slot key
            keyValids := nv.keyValids ||| UInt8.ofNat (1 <<< slot.val) }

/-- What faulty writes of a key keep: slots are set valid, never invalid. -/
structure InternalStorage.Grows (nv nv' : InternalStorage) : Prop where
  initialized : nv'.initialized = nv.initialized
  valid : ∀ slot, nv.valid slot = true → nv'.valid slot = true

def InternalStorage.cleared : InternalStorage := ⟨fun _ => Buf.zeros kplKeySize, 0, 0x01⟩

namespace Command

/-- The bytes a command puts at the start of the APDU buffer. -/
def response (nv : InternalStorage) : Command → List UInt8
  | .fail code => statusBytes (statusWord code)
  | .getAppConfiguration =>
    [ledgerMajorVersion, ledgerMinorVersion, ledgerPatchVersion] ++ statusBytes kplSwSuccess
  | .getValidSlots => [nv.keyValids] ++ statusBytes kplSwSuccess
  | .store _ _ => statusBytes kplSwSuccess
  | .badName _ => statusBytes kplSwInvalidName
  | .ask _ => statusBytes kplSwSuccess

/-- What is sent at once: everything but the response of a prompt. -/
def sent (nv : InternalStorage) : Command → Option (List UInt8)
  | .ask _ => none
  | c => some (c.response nv)

/-- What a command changes besides the APDU buffer. -/
def effect : Command → Device → Device
  | .store slot key, d => d.setStorage (d.nStorage.store slot key)
  | .badName callerPub, d =>
    { d with getKeyFromNameArgs := { d.getKeyFromNameArgs with callerPub := callerPub } }
  | .ask r, d => d.ask r
  | _, d => d

def isStore : Command → Bool
  | .store _ _ => true
  | _ => false

end Command

/-- What becomes of a program and of the storage in a persistent write. -/
def Sdk.write (sdk : Sdk) (w : NvWrite) (nv : InternalStorage) : Except Abort Unit × InternalStorage :=
  match sdk.nvmWrite w with
  | .written => (.ok (), w.apply nv)
  | .lost => (.ok (), nv)
  | .thrown e => (.error (.thrown e), nv)
  | .powerLoss => (.error .powerLoss, nv)

/-- The two writes of `storeKeySlot`: the key, then the bit that makes it valid. -/
def Sdk.storeKey (sdk : Sdk) (slot : Fin kplSlotCount) (key : Key) (nv : InternalStorage) :
    Except Abort Unit × InternalStorage :=
  match sdk.write (.key slot key) nv with
  | (.ok _, nv) => sdk.write (.keyValids (nv.keyValids ||| UInt8.ofNat (1 <<< slot.val))) nv
  | (.error a, nv) => (.error a, nv)

/-- The status word of a command whose writes ended so, or why the app leaves it. -/
def caught : Except Abort Unit → Except Abort UInt16
  | .ok _ => .ok kplSwSuccess
  | .error (.thrown e) =>
    if e = exceptionIoReset then .error (.thrown e) else .ok (statusWord e)
  | .error a => .error a

theorem isStore_eq {c : Command} (h : c.isStore = true) : ∃ slot key, c = .store slot key := by
  cases c with
  | store slot key => exact ⟨slot, key, rfl⟩
  | _ => cases h

section Storage
variable {sdk : Sdk} {d : Device}

theorem exec_nvmWrite (w : NvWrite) :
    exec (nvmWrite sdk w) d = ((sdk.write w d.nStorage).1, d.setStorage (sdk.write w d.nStorage).2) := by
  unfold nvmWrite Sdk.write
  cases sdk.nvmWrite w <;> rfl

theorem write_eq (h : sdk.WritesNv) (w : NvWrite) (nv : InternalStorage) :
    sdk.write w nv = (.ok (), w.apply nv) := by
  rw [Sdk.write, h w]

theorem ofNat_slot_toNat (slot : Fin kplSlotCount) : (UInt8.ofNat slot.val).toNat = slot.val := by
  have h : slot.val < 8 := slot.isLt
  rw [UInt8.toNat_ofNat']
  omega

theorem ofNat_slot_lt (slot : Fin kplSlotCount) : (UInt8.ofNat slot.val).toNat < kplSlotCount := by
  rw [ofNat_slot_toNat]
  exact slot.isLt

/-- Storing a key touches the storage only and never leaves an array. -/
theorem exec_storeKeySlot (slot : Fin kplSlotCount) (key : Key) :
    exec (storeKeySlot sdk (UInt8.ofNat slot.val) key) d =
      ((sdk.storeKey slot key d.nStorage).1, d.setStorage (sdk.storeKey slot key d.nStorage).2) := by
  have hs := ofNat_slot_toNat slot
  have hlt := ofNat_slot_lt slot
  have he : (⟨(UInt8.ofNat slot.val).toNat, hlt⟩ : Fin kplSlotCount) = slot := Fin.ext hs
  rw [storeKeySlot, dif_pos hlt, he, Sdk.storeKey]
  have hw := @exec_nvmWrite sdk d (.key slot key)
  generalize sdk.write (.key slot key) d.nStorage = w at hw ⊢
  rcases w with ⟨a | _, nv⟩
  · exact exec_bind_error hw
  · rw [exec_bind_ok hw, setKeyAsValid, exec_bind_ok (exec_read _ _), exec_nvmWrite, hs]
    rfl

theorem storeKey_eq (h : sdk.WritesNv) (slot : Fin kplSlotCount) (key : Key) (nv : InternalStorage) :
    sdk.storeKey slot key nv = (.ok (), nv.store slot key) := by
  rw [Sdk.storeKey, write_eq h]
  dsimp only
  rw [write_eq h]
  rfl

/-- Every way a write can go. -/
theorem write_cases (sdk : Sdk) (w : NvWrite) (nv : InternalStorage) :
    sdk.write w nv = (.ok (), w.apply nv) ∨ sdk.write w nv = (.ok (), nv) ∨
      (∃ e, sdk.nvmWrite w = .thrown e ∧ sdk.write w nv = (.error (.thrown e), nv)) ∨
      sdk.nvmWrite w = .powerLoss ∧ sdk.write w nv = (.error .powerLoss, nv) := by
  unfold Sdk.write
  cases sdk.nvmWrite w with
  | written => exact .inl rfl
  | lost => exact .inr (.inl rfl)
  | thrown e => exact .inr (.inr (.inl ⟨e, rfl, rfl⟩))
  | powerLoss => exact .inr (.inr (.inr ⟨rfl, rfl⟩))

theorem grows_or (nv : InternalStorage) (v : UInt8) (keys : Fin kplSlotCount → Key) :
    nv.Grows { nv with keys := keys, keyValids := nv.keyValids ||| v } := by
  refine ⟨rfl, fun slot h => ?_⟩
  rw [InternalStorage.valid, UInt8.toNat_or, Nat.testBit_or]
  rw [InternalStorage.valid] at h
  rw [h, Bool.true_or]

theorem grows_keys (nv : InternalStorage) (keys : Fin kplSlotCount → Key) :
    nv.Grows { nv with keys := keys } :=
  ⟨rfl, fun _ h => h⟩

theorem write_grows {w : NvWrite} {nv nv' : InternalStorage} (h : nv.Grows nv')
    (hw : nv.Grows (w.apply nv')) : nv.Grows (sdk.write w nv').2 := by
  rcases write_cases sdk w nv' with he | he | ⟨e, -, he⟩ | ⟨-, he⟩ <;> rw [he]
  · exact hw
  · exact h
  · exact h
  · exact h

/-- Whatever the writes of a key do, they keep the slots that are valid. -/
theorem storeKey_grows (slot : Fin kplSlotCount) (key : Key) (nv : InternalStorage) :
    nv.Grows (sdk.storeKey slot key nv).2 := by
  have hkey : ∃ keys, (sdk.write (.key slot key) nv).2 = { nv with keys := keys } := by
    rcases write_cases sdk (.key slot key) nv with he | he | ⟨e, -, he⟩ | ⟨-, he⟩ <;> rw [he]
    · exact ⟨_, rfl⟩
    · exact ⟨nv.keys, rfl⟩
    · exact ⟨nv.keys, rfl⟩
    · exact ⟨nv.keys, rfl⟩
  obtain ⟨keys, hk⟩ := hkey
  rw [Sdk.storeKey]
  generalize sdk.write (.key slot key) nv = w at hk ⊢
  rcases w with ⟨a | _, nv'⟩ <;> obtain rfl : nv' = _ := hk
  · exact grows_keys _ keys
  · exact write_grows (grows_keys _ keys) (grows_or _ _ keys)

/-- The writes of a command never leave an array. -/
theorem write_ne_undefined (w : NvWrite) (nv : InternalStorage) :
    (sdk.write w nv).1 ≠ .error .undefined := by
  rcases write_cases sdk w nv with he | he | ⟨e, -, he⟩ | ⟨-, he⟩ <;> rw [he] <;> simp

theorem storeKey_ne_undefined (slot : Fin kplSlotCount) (key : Key) (nv : InternalStorage) :
    (sdk.storeKey slot key nv).1 ≠ .error .undefined := by
  have hw := @write_ne_undefined sdk (.key slot key) nv
  rw [Sdk.storeKey]
  generalize sdk.write (.key slot key) nv = w at hw ⊢
  rcases w with ⟨a | _, nv'⟩
  · simpa using hw
  · exact write_ne_undefined _ _

/-- What leaves the app is an IO reset or a power loss. -/
theorem caught_error {r : Except Abort Unit} {a : Abort} (hr : r ≠ .error .undefined)
    (h : caught r = .error a) : r = .error a ∧ (a = .thrown exceptionIoReset ∨ a = .powerLoss) := by
  rcases r with (e | _ | _) | _
  · simp only [caught] at h
    split at h
    · cases h
      exact ⟨rfl, .inl (by simp_all)⟩
    · cases h
  · exact absurd rfl hr
  · cases h
    exact ⟨rfl, .inr rfl⟩
  · cases h

end Storage

section Receive
variable {sdk : Sdk} {d : Device} {data : List UInt8} {sw : UInt16} {apdu : Apdu}

/-- A status word behind the data of a reply. -/
theorem exec_writeStatus (hlen : data.length ≤ 64) :
    exec (writeStatus sw) (d.respond data) = (.ok (), d.respond (data ++ statusBytes sw)) := by
  have hw : (d.respond data).tx + (statusBytes sw).length ≤ ioApduBufferSize := by
    change data.length + 2 ≤ 260
    omega
  rw [writeStatus, exec_bind_ok (exec_read _ _), exec_bind_ok (exec_writeBuffer hw), setTx,
    exec_update]
  have h := Buf.overwrite_append d.gIoApduBuffer 0 data (statusBytes sw)
  rw [Nat.zero_add] at h
  simp only [Device.respond, h, List.length_append]
  rfl

theorem exec_writeStatus_start (htx : d.tx = 0) :
    exec (writeStatus sw) d = (.ok (), d.respond (statusBytes sw)) := by
  have hw : d.tx + (statusBytes sw).length ≤ ioApduBufferSize := by
    change d.tx + 2 ≤ 260
    omega
  rw [writeStatus, exec_bind_ok (exec_read _ _), exec_bind_ok (exec_writeBuffer hw), htx]
  rfl

/-- The error codes of rejected commands. None is an IO reset. -/
theorem command_code {nv : InternalStorage} {f : Buf ioApduBufferSize} {code : UInt16}
    (h : command nv f = .fail code) :
    code = kplSwInvalidCls ∨ code = invalidParameter ∨ code = kplSwEmptySlot ∨
      code = kplSwUnknownInstr := by
  unfold command at h
  split at h
  · cases h
    exact .inl rfl
  · split at h
    · cases h
    · unfold storeCommand at h
      split at h
      · split at h <;> cases h
      · cases h
        exact .inr (.inl rfl)
    · unfold getKeyCommand at h
      split at h
      · split at h
        · cases h
        · cases h
          exact .inr (.inr (.inl rfl))
      · cases h
        exact .inr (.inl rfl)
    · unfold getKeyFromNameCommand at h
      split at h
      · split at h <;> cases h
      · cases h
        exact .inr (.inl rfl)
    · cases h
    · cases h
    · cases h
      exact .inr (.inr (.inr rfl))

theorem exec_catchOther {α : Type} {p : AppM α} {handler : UInt16 → AppM α} {t : Device}
    {e : UInt16} (h : exec p d = (.error (.thrown e), t)) (he : e ≠ exceptionIoReset) :
    exec (catchOther p handler) d = exec (handler e) t := by
  rw [catchOther, exec_tryCatch, h]
  simp only [if_neg he]

/-- What is not a caught exception goes through. -/
theorem exec_catchOther_pass {α : Type} {p : AppM α} {handler : UInt16 → AppM α} {t : Device}
    {r : Except Abort α} (h : exec p d = (r, t))
    (hr : ∀ e, r = .error (.thrown e) → e = exceptionIoReset) :
    exec (catchOther p handler) d = (r, t) := by
  rw [catchOther, exec_tryCatch, h]
  cases r with
  | ok a => rfl
  | error a =>
    cases a with
    | thrown e => simp only [hr e rfl, if_true, exec_throw]
    | undefined => rfl
    | powerLoss => rfl

theorem exec_handleApdu (htx : d.tx = 0)
    (hnv : (command d.nStorage d.gIoApduBuffer).isStore = true → sdk.WritesNv) :
    exec (handleApdu sdk) d = (.ok (),
      ((command d.nStorage d.gIoApduBuffer).effect d).respond
        ((command d.nStorage d.gIoApduBuffer).response d.nStorage)) := by
  generalize hc : command d.nStorage d.gIoApduBuffer = c at hnv ⊢
  have hd := @exec_dispatch sdk d
  rw [hc] at hd
  cases c with
  | fail code =>
    have hcode : code ≠ exceptionIoReset := by
      rcases command_code hc with rfl | rfl | rfl | rfl <;> decide
    rw [handleApdu, exec_catchOther hd hcode]
    exact exec_writeStatus_start htx
  | getAppConfiguration =>
    rw [handleApdu, exec_catchOther hd (by decide)]
    exact @exec_writeStatus d [ledgerMajorVersion, ledgerMinorVersion, ledgerPatchVersion] _
      (by decide)
  | getValidSlots =>
    rw [handleApdu, exec_catchOther hd (by decide)]
    exact @exec_writeStatus d [d.nStorage.keyValids] _ (by simp)
  | store slot key =>
    rw [perform, exec_storeKeySlot, storeKey_eq (hnv rfl)] at hd
    rw [handleApdu, exec_catchOther hd (by decide)]
    exact exec_writeStatus_start rfl
  | badName callerPub =>
    rw [handleApdu, exec_catchOther hd (by decide)]
    exact exec_writeStatus_start (d := (Command.badName callerPub).effect d) htx
  | ask r =>
    have hask : (d.ask r).tx = 0 := by
      cases r <;> exact htx
    rw [handleApdu, exec_catchOther hd (by decide)]
    exact exec_writeStatus_start hask

theorem response_length (nv : InternalStorage) (c : Command) :
    0 < (c.response nv).length ∧ (c.response nv).length ≤ 64 := by
  cases c <;> simp [Command.response, statusBytes]

/-- The reply goes out unless it is to come from a button press. -/
theorem exec_ioExchange (hlen : data.length ≤ 64) :
    exec ioExchange (d.respond data) =
      (.ok (if data.length = 0 ∨ d.asynchReply then none else some data), d.answer data) := by
  have hr : 0 + (d.respond data).tx ≤ ioApduBufferSize := by
    change 0 + data.length ≤ 260
    omega
  have hw := d.gIoApduBuffer.window_overwrite 0 (k := data.length) ⟨data, rfl⟩
    (by change 0 + data.length ≤ 260; omega)
  simp (disch := exact hr) only [ioExchange, exec_bind, exec_read, setTx, exec_update,
    exec_readBuffer, exec_pure]
  simp only [Device.respond] at hw ⊢
  rw [List.Vector.toList_mk] at hw
  rw [hw]
  rfl

theorem exec_appMainBody {r : Except Abort Unit} {t : Device} (hne : apdu.bytes ≠ [])
    (hh : exec (handleApdu sdk) (d.receive apdu) = (r, t))
    (hr : ∀ e, r = .error (.thrown e) → e = exceptionIoReset) :
    exec (appMainBody sdk apdu.bytes.length)
      { d with gIoApduBuffer := d.gIoApduBuffer.overwrite 0 apdu.bytes } = (r, t) := by
  have hlen : apdu.bytes.length ≠ 0 := by
    rwa [ne_eq, List.length_eq_zero_iff]
  refine exec_catchOther_pass ?_ hr
  rw [exec_bind_ok (exec_update _ _), exec_ite, if_neg hlen]
  exact hh

theorem exec_receiveApdu (hne : apdu.bytes ≠ []) (htx : d.tx = 0)
    (hnv : (command d.nStorage (d.receive apdu).gIoApduBuffer).isStore = true → sdk.WritesNv) :
    exec (receiveApdu sdk apdu) d =
      (.ok ((command d.nStorage (d.receive apdu).gIoApduBuffer).sent d.nStorage),
        ((command d.nStorage (d.receive apdu).gIoApduBuffer).effect (d.receive apdu)).answer
          ((command d.nStorage (d.receive apdu).gIoApduBuffer).response d.nStorage)) := by
  have hbody := exec_appMainBody hne (exec_handleApdu (d := d.receive apdu) htx hnv) (by simp)
  rw [receiveApdu, exec_bind_ok (exec_update _ _), exec_bind_ok hbody]
  change exec ioExchange (Device.respond (Command.effect (command d.nStorage _) _)
    (Command.response d.nStorage (command d.nStorage _))) = _
  generalize command d.nStorage (d.receive apdu).gIoApduBuffer = c
  obtain ⟨hl₁, hl₂⟩ := response_length d.nStorage c
  rw [exec_ioExchange hl₂]
  cases c with
  | ask r => cases r <;> rfl
  | _ => rfl

/-- Whatever the persistent writes do, a storing command is answered with their outcome, or
leaves the loop by an IO reset or a power loss. -/
theorem exec_handleApdu_store {slot : Fin kplSlotCount} {key : Key} (htx : d.tx = 0)
    (hc : command d.nStorage d.gIoApduBuffer = .store slot key) :
    exec (handleApdu sdk) d = match caught (sdk.storeKey slot key d.nStorage).1 with
      | .ok sw =>
        (.ok (), (d.setStorage (sdk.storeKey slot key d.nStorage).2).respond (statusBytes sw))
      | .error a => (.error a, d.setStorage (sdk.storeKey slot key d.nStorage).2) := by
  have hd := @exec_dispatch sdk d
  have hr := @storeKey_ne_undefined sdk slot key d.nStorage
  rw [hc, perform, exec_storeKeySlot] at hd
  generalize sdk.storeKey slot key d.nStorage = w at hd hr ⊢
  rcases w with ⟨(e | _ | _) | _, nv⟩
  · by_cases he : e = exceptionIoReset
    · simp only [caught, if_pos he]
      refine exec_catchOther_pass hd ?_
      rintro _ ⟨⟩
      exact he
    · simp only [caught, if_neg he]
      rw [handleApdu, exec_catchOther hd he]
      exact exec_writeStatus_start htx
  · exact absurd rfl hr
  · exact exec_catchOther_pass hd (by simp)
  · rw [handleApdu, exec_catchOther hd (by decide)]
    exact exec_writeStatus_start rfl

theorem exec_receiveApdu_store {slot : Fin kplSlotCount} {key : Key} (hne : apdu.bytes ≠ [])
    (htx : d.tx = 0) (hc : command d.nStorage (d.receive apdu).gIoApduBuffer = .store slot key) :
    exec (receiveApdu sdk apdu) d = match caught (sdk.storeKey slot key d.nStorage).1 with
      | .ok sw => (.ok (some (statusBytes sw)),
        ((d.receive apdu).setStorage (sdk.storeKey slot key d.nStorage).2).answer (statusBytes sw))
      | .error a =>
        (.error a, (d.receive apdu).setStorage (sdk.storeKey slot key d.nStorage).2) := by
  have hh := @exec_handleApdu_store sdk (d.receive apdu) _ _ htx hc
  have he := fun a => @caught_error (sdk.storeKey slot key d.nStorage).1 a
    (storeKey_ne_undefined _ _ _)
  have hnv : (d.receive apdu).nStorage = d.nStorage := rfl
  rw [hnv] at hh
  generalize caught (sdk.storeKey slot key d.nStorage).1 = c at he hh ⊢
  rcases c with a | sw
  · rw [receiveApdu, exec_bind_ok (exec_update _ _)]
    refine exec_bind_error (exec_appMainBody hne hh ?_)
    rintro e ⟨⟩
    rcases (he _ rfl).2 with h | h <;> cases h
    rfl
  · rw [receiveApdu, exec_bind_ok (exec_update _ _),
      exec_bind_ok (exec_appMainBody hne hh (by simp))]
    exact exec_ioExchange (d := (d.receive apdu).setStorage _) (by simp [statusBytes])

theorem exec_receiveApdu_nil (he : apdu.bytes = []) (htx : d.tx = 0) :
    exec (receiveApdu sdk apdu) d =
      (.ok (some (statusBytes 0x6982)), (d.receive apdu).answer (statusBytes 0x6982)) := by
  have hbody : exec (appMainBody sdk apdu.bytes.length)
      { d with gIoApduBuffer := d.gIoApduBuffer.overwrite 0 apdu.bytes } =
      (.ok (), (d.receive apdu).respond (statusBytes 0x6982)) := by
    have hthrow : ∀ t : Device, exec (do
        update fun d => { d with asynchReply := false }
        if apdu.bytes.length = 0 then throw (.thrown 0x6982)
        else handleApdu sdk : AppM Unit) t =
        (.error (.thrown 0x6982), { t with asynchReply := false }) := by
      intro t
      rw [exec_bind_ok (exec_update _ _), he]
      rfl
    have hclear : exec (if (0x6982 : UInt16) ≠ 0x9000 then
        update fun d : Device => { d with asynchReply := false } else pure () : AppM Unit)
        (d.receive apdu) = (.ok (), d.receive apdu) := by
      rw [if_pos (by decide)]
      rfl
    have hsw : statusWord 0x6982 = 0x6982 := by decide
    rw [appMainBody, exec_catchOther (hthrow _) (by decide), hsw]
    exact (exec_bind_ok hclear).trans (exec_writeStatus_start htx)
  rw [receiveApdu, exec_bind_ok (exec_update _ _), exec_bind_ok hbody]
  exact exec_ioExchange (d := d.receive apdu) (by simp [statusBytes])

/-- The restart of `main` on a device whose storage is already set up. -/
theorem exec_mainBody (hi : d.nStorage.initialized = 0x01) :
    exec (mainBody sdk) d = (.ok (), d.restart) := by
  have hinit : exec (nvAppStateInit sdk false) d = (.ok (), d) := by
    rw [nvAppStateInit, exec_bind_ok (exec_read _ _), hi]
    rfl
  rw [mainBody, exec_bind_ok hinit]
  rfl

end Receive

end LedgerKeePass.App
