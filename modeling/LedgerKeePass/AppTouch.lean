import LedgerKeePass.AppReceive

/-!
# What a button press does

`Armed d r` says that the callback and its arguments are those of the request `r`. An
approval then answers `r`, whatever the cryptography does, and never leaves an array.
-/
namespace LedgerKeePass.App
open Bytes Program

/-- An approve press would serve the request `r`. -/
def Device.Armed (d : Device) : Request → Prop
  | .storeKey slot key =>
    d.approveCb = some .handleStoreKeyConfirmErase ∧ d.storeKeyArgs = ⟨key, UInt8.ofNat slot.val⟩
  | .getKey slot callerPub =>
    d.approveCb = some .handleGetKeyAfterApprove ∧
      d.getKeyArgs = ⟨callerPub, UInt8.ofNat slot.val⟩ ∧ d.nStorage.valid slot.val = true
  | .getKeyFromName name callerPub =>
    d.approveCb = some .handleGetKeyFromNameAfterApprove ∧
      d.getKeyFromNameArgs.callerPub = callerPub ∧
      d.getKeyFromNameArgs.nameLen = UInt8.ofNat (seedPrefixLen + name.length) ∧
      (d.getKeyFromNameArgs.name.window 0 (seedPrefixLen + name.length)).toList =
        seedPrefix ++ name ∧
      name.length ≤ kplMaxNameSize
  | .eraseAllSlots => d.approveCb = some .handleEraseAllSlotsApprove

theorem Device.Armed.callback {d : Device} {r : Request} (h : d.Armed r) :
    d.approveCb = some r.callback := by
  cases r with
  | eraseAllSlots => exact h
  | _ => exact h.1

/-- The length of an armed name fits its byte and its array. -/
theorem Device.Armed.nameLen_toNat {d : Device} {name : List UInt8} {callerPub : Point}
    (ha : d.Armed (.getKeyFromName name callerPub)) :
    d.getKeyFromNameArgs.nameLen.toNat = seedPrefixLen + name.length ∧
      0 + (seedPrefixLen + name.length) ≤ seedPrefixLen + kplMaxNameSize := by
  obtain ⟨-, -, hlen, -, hle⟩ := ha
  refine ⟨?_, by omega⟩
  rw [hlen, UInt8.toNat_ofNat']
  simp only [kplMaxNameSize] at hle
  simp only [seedPrefixLen]
  omega

/-- `X25519EncryptKPKey` on a key: the ephemeral public key and the encrypted key. -/
def sealKey (sdk : Sdk) (key : Key) (callerPub : Point) : Except UInt16 (Option (Point × Key)) := do
  let priv ← sdk.cxRng
  match ← x25519 sdk curve25519G priv with
  | none => return none
  | some own =>
    match ← x25519 sdk callerPub priv with
    | none => return none
    | some secret =>
      let keystream ← sdk.cxBlake2b (secret.toList ++ callerPub.toList ++ own.toList)
      return some (own, xorBytes key keystream)

theorem sealed_length (own : Point) (cipher : Key) :
    (own.toList ++ cipher.toList).length = 64 := by
  rw [List.length_append, List.Vector.toList_length, List.Vector.toList_length]
  rfl

/-- The key of a prefixed name under a seed. -/
def deriveNameKey (sdk : Sdk) (seed name : List UInt8) : Except UInt16 Key := do
  let hashName ← sdk.cxHashSha256 name
  let tmp ← sdk.osPersoDeriveNodeBip32 seed (namePath hashName)
  sdk.cxHashSha256 (tmp.1.toList ++ tmp.2.toList)

/-- What a request for a key is answered with. -/
def Request.sealed (sdk : Sdk) (nv : InternalStorage) (seed : List UInt8) :
    Request → Except UInt16 (Option (Point × Key))
  | .getKey slot callerPub => sealKey sdk (nv.keys slot) callerPub
  | .getKeyFromName name callerPub => do
    let key ← deriveNameKey sdk seed (seedPrefix ++ name)
    sealKey sdk key callerPub
  | _ => .ok none

/-- The device after a reply sent from `touch_okay` or `touch_deny`. -/
def Device.approved (d : Device) (reply : List UInt8) (touchTx : UInt8) : Device :=
  { d with gIoApduBuffer := d.gIoApduBuffer.overwrite 0 reply, touchTx := touchTx, screen := .idle }

section Crypto
variable {sdk : Sdk} {d : Device}

@[simp] theorem exec_ofSdk_ok {α : Type} (a : α) : exec (ofSdk (.ok a)) d = (.ok a, d) := rfl

/-- How encrypting the key at 32 ends, given its result `s`. -/
def SealEnds (s : Except UInt16 (Option (Point × Key))) (d : Device)
    (e : Except Abort Bool × Device) : Prop :=
  ∃ b, e = match s with
    | .ok (some (own, cipher)) =>
      (.ok true, d.setBuffer (d.gIoApduBuffer.overwrite 0 (own.toList ++ cipher.toList)))
    | .ok none => (.ok false, d.setBuffer b)
    | .error e => (.error (.thrown e), d.setBuffer b)

theorem exec_x25519EncryptKPKey {key : Key} (callerPub : Point)
    (hk : d.gIoApduBuffer.window 32 kplKeySize = key) :
    SealEnds (sealKey sdk key callerPub) d
      (exec (x25519EncryptKPKey sdk x25519PtSize 0 callerPub) d) := by
  unfold x25519EncryptKPKey sealKey
  rcases sdk.cxRng with e | priv
  · exact ⟨d.gIoApduBuffer, rfl⟩
  rw [exec_bind_ok (exec_ofSdk_ok _)]
  simp only [bind, Except.bind]
  change SealEnds _ d (exec (_ >>= _) d)
  rcases x25519 sdk curve25519G priv with e | _ | own
  · exact ⟨d.gIoApduBuffer, rfl⟩
  · exact ⟨d.gIoApduBuffer, rfl⟩
  rw [exec_bind_ok (exec_ofSdk_ok _)]
  have hown : 0 + own.toList.length ≤ ioApduBufferSize := by
    rw [List.Vector.toList_length]
    decide
  change SealEnds _ d (exec (_ >>= _) d)
  rw [exec_bind_ok (exec_writeBuffer hown)]
  change SealEnds _ d (exec (_ >>= _) _)
  rcases x25519 sdk callerPub priv with e | _ | secret
  · exact ⟨_, rfl⟩
  · exact ⟨_, rfl⟩
  rw [exec_bind_ok (exec_ofSdk_ok _)]
  change SealEnds _ d (exec (_ >>= _) _)
  rw [exec_bind_ok (exec_readBuffer (by decide))]
  simp only [Buf.window_overwrite d.gIoApduBuffer 0 own (by decide)]
  change SealEnds _ d (exec (_ >>= _) _)
  rcases sdk.cxBlake2b (secret.toList ++ callerPub.toList ++ own.toList) with e | keystream
  · exact ⟨_, rfl⟩
  have hkey : (d.gIoApduBuffer.overwrite 0 own.toList).window 32 kplKeySize = key := by
    rw [Buf.window_overwrite_of_disjoint _ (by rw [List.Vector.toList_length]; exact .inr le_rfl),
      hk]
  have hcipher : x25519PtSize + (xorBytes key keystream).toList.length ≤ ioApduBufferSize := by
    rw [List.Vector.toList_length]
    decide
  rw [exec_bind_ok (exec_ofSdk_ok _)]
  change SealEnds _ d (exec (_ >>= _) _)
  rw [exec_bind_ok (exec_readBuffer (by decide))]
  change SealEnds _ d (exec (writeBuffer 32
    (xorBytes ((d.gIoApduBuffer.overwrite 0 own.toList).window 32 kplKeySize) keystream).toList >>=
      _) _)
  rw [hkey, exec_bind_ok (exec_writeBuffer hcipher)]
  refine ⟨d.gIoApduBuffer, ?_⟩
  have happ := Buf.overwrite_append d.gIoApduBuffer 0 own.toList (xorBytes key keystream).toList
  rw [List.Vector.toList_length] at happ
  simp only [Device.setBuffer, pure, Except.pure, ← happ]
  rfl

/-- How a callback that answers a key ends, given the key's encryption `s`. On failure the
APDU buffer may still hold the key. -/
def KeyEnds (s : Except UInt16 (Option (Point × Key))) (d : Device)
    (e : Except Abort UInt16 × Device) : Prop :=
  ∃ b, e = match s with
    | .ok (some (own, cipher)) =>
      (.ok kplSwSuccess, { d with
        gIoApduBuffer := d.gIoApduBuffer.overwrite 0 (own.toList ++ cipher.toList)
        touchTx := 64 })
    | .ok none => (.ok invalidParameter, { d with gIoApduBuffer := b, screen := .idle })
    | .error e => (.error (.thrown e), { d with gIoApduBuffer := b })

/-- The common end of the two callbacks that answer a key, once it is at 32. -/
def answerKey (sdk : Sdk) (callerPub : Point) : AppM UInt16 := do
  if ← x25519EncryptKPKey sdk x25519PtSize 0 callerPub then
    setTouchTx 64
    return kplSwSuccess
  else
    uiIdle
    return invalidParameter

theorem exec_answerKey (key : Key) (callerPub : Point) :
    KeyEnds (sealKey sdk key callerPub) d
      (exec (answerKey sdk callerPub) (d.setBuffer (d.gIoApduBuffer.overwrite 32 key.toList))) := by
  have hk : (d.setBuffer (d.gIoApduBuffer.overwrite 32 key.toList)).gIoApduBuffer.window 32
      kplKeySize = key := Buf.window_overwrite _ _ _ (by decide)
  obtain ⟨b, hb⟩ := @exec_x25519EncryptKPKey sdk _ _ callerPub hk
  refine ⟨b, ?_⟩
  rw [answerKey]
  generalize sealKey sdk key callerPub = s at hb ⊢
  rcases s with e | _ | ⟨own, cipher⟩
  · exact exec_bind_error hb
  · rw [exec_bind_ok hb]
    rfl
  · rw [exec_bind_ok hb]
    have ho : (d.gIoApduBuffer.overwrite 32 key.toList).overwrite 0
        (own.toList ++ cipher.toList) =
        d.gIoApduBuffer.overwrite 0 (own.toList ++ cipher.toList) :=
      Buf.overwrite_overwrite _ (by simp)
    simp only [Device.setBuffer, ho]
    rfl

theorem exec_storedKey (slot : Fin kplSlotCount) :
    exec (storedKey (UInt8.ofNat slot.val)) d = (.ok (d.nStorage.keys slot), d) := by
  have hs := ofNat_slot_toNat slot
  have hlt := ofNat_slot_lt slot
  rw [storedKey, dif_pos hlt, exec_read]
  congr 3
  exact Fin.ext hs

theorem exec_handleGetKeyAfterApprove {slot : Fin kplSlotCount} {callerPub : Point}
    (ha : d.Armed (.getKey slot callerPub)) :
    KeyEnds (sealKey sdk (d.nStorage.keys slot) callerPub) d
      (exec (handleGetKeyAfterApprove sdk) d) := by
  obtain ⟨-, hargs, -⟩ := ha
  obtain rfl : d.getKeyArgs.callerPub = callerPub := by rw [hargs]
  have hslot : d.getKeyArgs.slot = UInt8.ofNat slot.val := by rw [hargs]
  have hlen : x25519PtSize + (d.nStorage.keys slot).toList.length ≤ ioApduBufferSize := by
    rw [List.Vector.toList_length]
    decide
  rw [handleGetKeyAfterApprove, exec_bind_ok (exec_read _ _), hslot,
    exec_bind_ok (exec_storedKey slot), exec_bind_ok (exec_writeBuffer hlen),
    exec_bind_ok (exec_read _ _)]
  exact exec_answerKey _ _

theorem exec_handleGetKeyFromNameAfterApprove {name : List UInt8} {callerPub : Point}
    (ha : d.Armed (.getKeyFromName name callerPub)) :
    KeyEnds (Request.sealed sdk d.nStorage d.seed (.getKeyFromName name callerPub)) d
      (exec (handleGetKeyFromNameAfterApprove sdk) d) := by
  obtain ⟨hn, hs⟩ := ha.nameLen_toNat
  obtain ⟨-, rfl, -, hname, -⟩ := ha
  rw [handleGetKeyFromNameAfterApprove, exec_bind_ok (exec_read _ _), hn, Buf.slice_eq hs,
    exec_bind_ok (exec_demand_some _ _ _), hname]
  simp only [Request.sealed, deriveNameKey]
  rcases sdk.cxHashSha256 (seedPrefix ++ name) with e | hashName
  · exact ⟨d.gIoApduBuffer, rfl⟩
  rw [exec_bind_ok (exec_ofSdk_ok _), exec_bind_ok (exec_read _ _)]
  simp only [bind, Except.bind]
  change KeyEnds _ d (exec (_ >>= _) _)
  rcases sdk.osPersoDeriveNodeBip32 d.seed (namePath hashName) with e | tmp
  · exact ⟨d.gIoApduBuffer, rfl⟩
  rw [exec_bind_ok (exec_ofSdk_ok _)]
  change KeyEnds _ d (exec (_ >>= _) _)
  dsimp only
  rcases sdk.cxHashSha256 (tmp.1.toList ++ tmp.2.toList) with e | key
  · exact ⟨d.gIoApduBuffer, rfl⟩
  have hkey : x25519PtSize + key.toList.length ≤ ioApduBufferSize := by
    rw [List.Vector.toList_length]
    decide
  rw [exec_bind_ok (exec_ofSdk_ok _)]
  change KeyEnds _ d (exec (_ >>= _) _)
  rw [exec_bind_ok (exec_writeBuffer hkey)]
  change KeyEnds _ d (exec (_ >>= _) _)
  rw [exec_bind_ok (exec_read _ _)]
  exact exec_answerKey _ _

end Crypto

def Request.isKey : Request → Bool
  | .getKey _ _ => true
  | .getKeyFromName _ _ => true
  | _ => false

/-- The persistent writes of an approved request. -/
def Request.write (sdk : Sdk) (nv : InternalStorage) : Request → Except Abort Unit × InternalStorage
  | .storeKey slot key => sdk.storeKey slot key nv
  | .getKey _ _ => (.ok (), nv)
  | .getKeyFromName _ _ => (.ok (), nv)
  | .eraseAllSlots => sdk.write (.storage .cleared) nv

/-- `handleStoreKeyConfirmErase` clears its arguments when both writes have returned. -/
def Request.argsAfter (writes : Except Abort Unit) (args : StoreKeyArgs) : Request → StoreKeyArgs
  | .storeKey _ _ =>
    match writes with
    | .ok _ => ⟨Buf.zeros _, 0⟩
    | .error _ => args
  | .getKey _ _ => args
  | .getKeyFromName _ _ => args
  | .eraseAllSlots => args

section Touch
variable {sdk : Sdk} {d t : Device} {cb : ApproveCallback} {data : List UInt8} {e : UInt16}

theorem statusBytes_mask (sw : UInt16) :
    [(sw >>> 8).toUInt8] ++ [(sw &&& 0xFF).toUInt8] = statusBytes sw := by
  have h : (sw &&& 0xFF).toUInt8 = sw.toUInt8 := by
    apply UInt8.toNat_inj.mp
    rw [UInt16.toNat_toUInt8, UInt16.toNat_toUInt8, UInt16.toNat_and]
    change (sw.toNat &&& 2 ^ 8 - 1) % 2 ^ 8 = _
    rw [Nat.and_two_pow_sub_one_eq_mod, Nat.mod_mod]
  rw [h]
  rfl

/-- The status goes behind the data in the buffer and both are sent. -/
theorem exec_approveStatus {b : Buf ioApduBufferSize} (hb : d.gIoApduBuffer = b.overwrite 0 data)
    (htx : d.touchTx.toNat = data.length) (hlen : data.length ≤ 64) :
    exec (approveStatus e) d = (.ok (some (data ++ statusBytes (statusWord e))),
      { d with gIoApduBuffer := b.overwrite 0 (data ++ statusBytes (statusWord e))
               touchTx := d.touchTx + 2 }) := by
  have h₁ : (d.touchTx + 1).toNat = data.length + 1 := by
    rw [UInt8.toNat_add, htx]
    change (data.length + 1) % 256 = _
    omega
  have h₂ : (d.touchTx + 2).toNat = (data ++ statusBytes (statusWord e)).length := by
    rw [UInt8.toNat_add, htx, List.length_append]
    change (data.length + 2) % 256 = data.length + 2
    omega
  generalize hhi : [(statusWord e >>> 8).toUInt8] = hi
  generalize hlo : [(statusWord e &&& 0xFF).toUInt8] = lo
  have hst : hi ++ lo = statusBytes (statusWord e) := by rw [← hhi, ← hlo, statusBytes_mask]
  have hlhi : hi.length = 1 := by rw [← hhi]; rfl
  have hllo : lo.length = 1 := by rw [← hlo]; rfl
  have hw₁ : d.touchTx.toNat + hi.length ≤ ioApduBufferSize := by
    change _ ≤ 260
    omega
  have hw₂ : (d.touchTx + 1).toNat + lo.length ≤ ioApduBufferSize := by
    change _ ≤ 260
    omega
  have hr : 0 + (d.touchTx + 2).toNat ≤ ioApduBufferSize := by
    rw [h₂, ← hst, List.length_append, List.length_append]
    change _ ≤ 260
    omega
  have hbuf : (d.gIoApduBuffer.overwrite d.touchTx.toNat hi).overwrite (d.touchTx + 1).toNat lo =
      b.overwrite 0 (data ++ statusBytes (statusWord e)) := by
    have ha := Buf.overwrite_append (b.overwrite 0 data) data.length hi lo
    have ha' := Buf.overwrite_append b 0 data (hi ++ lo)
    rw [Nat.zero_add] at ha'
    rw [hb, htx, h₁, ← hlhi, ha, ha', hst]
  have hread : ((b.overwrite 0 (data ++ statusBytes (statusWord e))).window 0
      (d.touchTx + 2).toNat).toList = data ++ statusBytes (statusWord e) := by
    rw [h₂]
    exact Buf.window_overwrite_toList b (by rw [← h₂]; exact hr)
  simp only [approveStatus, hhi, hlo]
  rw [exec_bind_ok (exec_read _ _), exec_bind_ok (exec_writeBuffer hw₁),
    exec_bind_ok (exec_writeBuffer hw₂), setTouchTx, exec_bind_ok (exec_update _ _),
    exec_bind_ok (exec_readBuffer hr)]
  simp only [hbuf, hread]
  rfl

theorem exec_callApproveCb (hcb : d.approveCb = some cb) :
    exec (callApproveCb sdk) d = exec (do
      let ret ← runCallback sdk cb
      throw (.thrown ret) : AppM (Option (List UInt8))) d := by
  have hdemand : exec (demand .undefined d.approveCb : AppM ApproveCallback) d = (.ok cb, d) := by
    rw [hcb, exec_demand_some]
  rw [callApproveCb, exec_bind_ok (exec_read _ _), exec_bind_ok hdemand]

/-- A callback that ended with `e` is answered with `e`'s status word. -/
theorem exec_touchOkay {b : Buf ioApduBufferSize} (hcb : d.approveCb = some cb)
    (h : exec (runCallback sdk cb) { d with touchTx := 0 } = (.ok e, t) ∨
      exec (runCallback sdk cb) { d with touchTx := 0 } = (.error (.thrown e), t))
    (he : e ≠ exceptionIoReset) (hb : t.gIoApduBuffer = b.overwrite 0 data)
    (htx : t.touchTx.toNat = data.length) (hlen : data.length ≤ 64) :
    exec (touchOkay sdk) d = (.ok (some (data ++ statusBytes (statusWord e))),
      { t with gIoApduBuffer := b.overwrite 0 (data ++ statusBytes (statusWord e))
               touchTx := t.touchTx + 2
               screen := .idle }) := by
  have hbody : exec (callApproveCb sdk) { d with touchTx := 0 } = (.error (.thrown e), t) := by
    rw [exec_callApproveCb (d := { d with touchTx := 0 }) hcb]
    rcases h with h | h
    · rw [exec_bind_ok h]
      rfl
    · exact exec_bind_error h
  rw [touchOkay, setTouchTx, exec_bind_ok (exec_update _ _),
    exec_bind_ok ((exec_catchOther hbody he).trans (exec_approveStatus hb htx hlen)), uiIdle,
    exec_bind_ok (exec_update _ _)]
  rfl

/-- What the callback does not return to `touch_okay` leaves it. -/
theorem exec_touchOkay_abort {a : Abort} (hcb : d.approveCb = some cb)
    (h : exec (runCallback sdk cb) { d with touchTx := 0 } = (.error a, t))
    (ha : a = .thrown exceptionIoReset ∨ a = .powerLoss) :
    exec (touchOkay sdk) d = (.error a, t) := by
  rw [touchOkay, setTouchTx, exec_bind_ok (exec_update _ _)]
  refine exec_bind_error (exec_catchOther_pass ?_ ?_)
  · rw [exec_callApproveCb (d := { d with touchTx := 0 }) hcb]
    exact exec_bind_error h
  · rintro e ⟨⟩
    rcases ha with ha | ha <;> cases ha
    rfl

theorem Device.Armed.setTouchTx {r : Request} (h : d.Armed r) :
    Device.Armed { d with touchTx := 0 } r := by
  cases r <;> exact h

theorem exec_runCallback_key {r : Request} (ha : d.Armed r) (hr : r.isKey = true) :
    KeyEnds (r.sealed sdk d.nStorage d.seed) d (exec (runCallback sdk r.callback) d) := by
  cases r with
  | getKey slot callerPub => exact exec_handleGetKeyAfterApprove ha
  | getKeyFromName name callerPub => exact exec_handleGetKeyFromNameAfterApprove ha
  | _ => simp [Request.isKey] at hr

/-- Approving a request for a key. -/
theorem exec_touchOkay_key {r : Request} (ha : d.Armed r) (hr : r.isKey = true) :
    ∃ b, exec (touchOkay sdk) d = match r.sealed sdk d.nStorage d.seed with
      | .ok (some (own, cipher)) =>
        (.ok (some (own.toList ++ cipher.toList ++ statusBytes kplSwSuccess)),
          d.approved (own.toList ++ cipher.toList ++ statusBytes kplSwSuccess) 66)
      | .ok none =>
        (.ok (some (statusBytes (statusWord invalidParameter))),
          (d.setBuffer b).approved (statusBytes (statusWord invalidParameter)) 2)
      | .error e =>
        if e = exceptionIoReset then (.error (.thrown e), { d with gIoApduBuffer := b, touchTx := 0 })
        else (.ok (some (statusBytes (statusWord e))),
          (d.setBuffer b).approved (statusBytes (statusWord e)) 2) := by
  have hcb := ha.callback
  obtain ⟨b, hk⟩ := @exec_runCallback_key sdk _ r ha.setTouchTx hr
  refine ⟨b, ?_⟩
  change exec _ _ = match r.sealed sdk d.nStorage d.seed with | _ => _ at hk
  generalize r.sealed sdk d.nStorage d.seed = s at hk ⊢
  rcases s with e | _ | ⟨own, cipher⟩
  · by_cases he : e = exceptionIoReset
    · subst he
      exact exec_touchOkay_abort hcb hk (.inl rfl)
    · simp only [if_neg he]
      exact exec_touchOkay hcb (.inr hk) he (Buf.overwrite_nil _ _).symm rfl (by simp)
  · exact exec_touchOkay hcb (.inl hk) (by decide) (Buf.overwrite_nil _ _).symm rfl (by simp)
  · have hsw : statusWord kplSwSuccess = kplSwSuccess := by decide
    have hdata := sealed_length own cipher
    have h := exec_touchOkay (e := kplSwSuccess) hcb (.inl hk) (by decide) rfl
      (by rw [hdata]; rfl) hdata.le
    rw [hsw] at h
    exact h

theorem exec_read_storeKeyArgs {slot : Fin kplSlotCount} {key : Key}
    (ha : d.Armed (.storeKey slot key)) :
    exec (Program.read fun d : Device => d.storeKeyArgs : AppM StoreKeyArgs) d =
      (.ok ⟨key, UInt8.ofNat slot.val⟩, d) :=
  Prod.ext (congrArg Except.ok ha.2) rfl

theorem exec_nvAppStateInit_force :
    exec (nvAppStateInit sdk true) d = ((sdk.write (.storage .cleared) d.nStorage).1,
      d.setStorage (sdk.write (.storage .cleared) d.nStorage).2) := by
  rw [nvAppStateInit, exec_bind_ok (exec_read _ _), Bool.true_or, if_pos rfl]
  exact exec_nvmWrite (.storage .cleared)

/-- A callback that writes to the storage, whatever becomes of its writes. -/
theorem exec_runCallback_write {r : Request} (ha : d.Armed r) (hr : r.isKey = false) :
    exec (runCallback sdk r.callback) { d with touchTx := 0 } =
      ((r.write sdk d.nStorage).1.map fun _ => kplSwSuccess,
        { d with nStorage := (r.write sdk d.nStorage).2
                 storeKeyArgs := r.argsAfter (r.write sdk d.nStorage).1 d.storeKeyArgs
                 touchTx := 0 }) := by
  cases r with
  | storeKey slot key =>
    have hs := @exec_storeKeySlot sdk { d with touchTx := 0 } slot key
    change exec (handleStoreKeyConfirmErase sdk) _ = _
    rw [handleStoreKeyConfirmErase, exec_bind_ok (exec_read_storeKeyArgs ha.setTouchTx)]
    simp only [Request.write]
    generalize sdk.storeKey slot key d.nStorage = w at hs ⊢
    rcases w with ⟨a | _, nv⟩
    · exact exec_bind_error hs
    · rw [exec_bind_ok hs]
      rfl
  | eraseAllSlots =>
    have hs := @exec_nvAppStateInit_force sdk { d with touchTx := 0 }
    change exec (handleEraseAllSlotsApprove sdk) _ = _
    rw [handleEraseAllSlotsApprove, setTouchTx, exec_bind_ok (exec_update _ _)]
    simp only [Request.write]
    generalize sdk.write (.storage .cleared) d.nStorage = w at hs ⊢
    rcases w with ⟨a | _, nv⟩
    · exact exec_bind_error hs
    · rw [exec_bind_ok hs]
      rfl
  | _ => simp [Request.isKey] at hr

theorem Request.write_ne_undefined (r : Request) (nv : InternalStorage) :
    (r.write sdk nv).1 ≠ .error .undefined := by
  cases r with
  | storeKey slot key => exact storeKey_ne_undefined slot key nv
  | eraseAllSlots => exact App.write_ne_undefined _ nv
  | _ => simp [Request.write]

theorem Request.write_initialized {nv : InternalStorage} (r : Request) (h : nv.initialized = 0x01) :
    (r.write sdk nv).2.initialized = 0x01 := by
  cases r with
  | storeKey slot key => exact (storeKey_grows slot key nv).initialized.trans h
  | eraseAllSlots =>
    rw [Request.write]
    rcases write_cases sdk (.storage .cleared) nv with he | he | ⟨e, -, he⟩ | ⟨-, he⟩ <;> rw [he]
    · rfl
    · exact h
    · exact h
    · exact h
  | _ => exact h

/-- Approving a request that writes to the storage. -/
theorem exec_touchOkay_write {r : Request} (ha : d.Armed r) (hr : r.isKey = false) :
    exec (touchOkay sdk) d = match caught (r.write sdk d.nStorage).1 with
      | .ok sw => (.ok (some (statusBytes sw)),
        Device.approved
          { d with nStorage := (r.write sdk d.nStorage).2
                   storeKeyArgs := r.argsAfter (r.write sdk d.nStorage).1 d.storeKeyArgs }
          (statusBytes sw) 2)
      | .error a => (.error a,
          { d with nStorage := (r.write sdk d.nStorage).2
                   storeKeyArgs := r.argsAfter (r.write sdk d.nStorage).1 d.storeKeyArgs
                   touchTx := 0 }) := by
  have hcb := ha.callback
  have hrun := @exec_runCallback_write sdk d r ha hr
  have hu := @Request.write_ne_undefined sdk r d.nStorage
  generalize r.write sdk d.nStorage = w at hrun hu ⊢
  rcases w with ⟨(e | _ | _) | _, nv⟩
  · by_cases he : e = exceptionIoReset
    · simp only [caught, if_pos he]
      exact exec_touchOkay_abort hcb hrun (.inl (congrArg _ he))
    · simp only [caught, if_neg he]
      exact exec_touchOkay hcb (.inr hrun) he (Buf.overwrite_nil _ _).symm rfl (by simp)
  · exact absurd rfl hu
  · exact exec_touchOkay_abort hcb hrun (.inr rfl)
  · have hsw : statusWord kplSwSuccess = kplSwSuccess := by decide
    have h := exec_touchOkay (e := kplSwSuccess) hcb (.inl hrun) (by decide)
      (Buf.overwrite_nil _ _).symm rfl (by simp)
    rw [hsw] at h
    exact h

/-- Approving the overwriting of a key. -/
theorem exec_touchOkay_storeKey {slot : Fin kplSlotCount} {key : Key} (h : sdk.WritesNv)
    (ha : d.Armed (.storeKey slot key)) :
    exec (touchOkay sdk) d = (.ok (some (statusBytes kplSwSuccess)),
      Device.approved { d with nStorage := d.nStorage.store slot key
                               storeKeyArgs := ⟨Buf.zeros _, 0⟩ }
        (statusBytes kplSwSuccess) 2) := by
  rw [exec_touchOkay_write ha rfl, Request.write, storeKey_eq h]
  rfl

/-- Approving the erasure of all slots. -/
theorem exec_touchOkay_eraseAllSlots (h : sdk.WritesNv) (ha : d.Armed .eraseAllSlots) :
    exec (touchOkay sdk) d = (.ok (some (statusBytes kplSwSuccess)),
      (d.setStorage .cleared).approved (statusBytes kplSwSuccess) 2) := by
  rw [exec_touchOkay_write ha rfl, Request.write, write_eq h]
  rfl

/-- What an approve press may change, whatever the SDK does. -/
structure TouchFrame (r : Request) (d t : Device) : Prop where
  frame : t = { d with nStorage := t.nStorage, gIoApduBuffer := t.gIoApduBuffer,
                       storeKeyArgs := t.storeKeyArgs, touchTx := t.touchTx, screen := t.screen }
  storage : r.isKey = true → t.nStorage = d.nStorage
  initialized : d.nStorage.initialized = 0x01 → t.nStorage.initialized = 0x01

/-- An armed approval is answered and clears the screen, or stops by an IO reset or a
power loss. -/
theorem touchOkay_frame {r : Request} (ha : d.Armed r) :
    ∃ t, TouchFrame r d t ∧
      ((∃ reply, exec (touchOkay sdk) d = (.ok (some reply), t) ∧ t.screen = .idle) ∨
        ∃ a, exec (touchOkay sdk) d = (.error a, t) ∧
          (a = .thrown exceptionIoReset ∨ a = .powerLoss)) := by
  cases hr : r.isKey with
  | true =>
    obtain ⟨b, hk⟩ := @exec_touchOkay_key sdk d r ha hr
    generalize r.sealed sdk d.nStorage d.seed = s at hk
    rcases s with e | _ | ⟨own, cipher⟩
    · by_cases he : e = exceptionIoReset
      · simp only [if_pos he] at hk
        refine ⟨_, ?_, .inr ⟨_, hk, .inl (congrArg _ he)⟩⟩
        exact ⟨rfl, fun _ => rfl, id⟩
      · simp only [if_neg he] at hk
        refine ⟨_, ?_, .inl ⟨_, hk, rfl⟩⟩
        exact ⟨rfl, fun _ => rfl, id⟩
    · refine ⟨_, ?_, .inl ⟨_, hk, rfl⟩⟩
      exact ⟨rfl, fun _ => rfl, id⟩
    · refine ⟨_, ?_, .inl ⟨_, hk, rfl⟩⟩
      exact ⟨rfl, fun _ => rfl, id⟩
  | false =>
    have hw := @exec_touchOkay_write sdk d r ha hr
    have he := fun a => @caught_error _ a (@Request.write_ne_undefined sdk r d.nStorage)
    have hi := @Request.write_initialized sdk d.nStorage r
    have hs : ∀ b : Device, r.isKey = true → b.nStorage = d.nStorage := by simp [hr]
    generalize caught (r.write sdk d.nStorage).1 = c at hw he
    rcases c with a | sw
    · exact ⟨_, ⟨rfl, hs _, hi⟩, .inr ⟨a, hw, (he a rfl).2⟩⟩
    · exact ⟨_, ⟨rfl, hs _, hi⟩, .inl ⟨_, hw, rfl⟩⟩

/-- Where persistent writes take effect no approval loses power. -/
theorem touchOkay_powered {r : Request} (h : sdk.WritesNv) (ha : d.Armed r) :
    exec (touchOkay sdk) d ≠ (.error .powerLoss, t) := by
  cases hr : r.isKey with
  | true =>
    obtain ⟨b, hk⟩ := @exec_touchOkay_key sdk d r ha hr
    rw [hk]
    generalize r.sealed sdk d.nStorage d.seed = s
    rcases s with e | _ | ⟨own, cipher⟩
    · by_cases he : e = exceptionIoReset <;> simp [he]
    · simp
    · simp
  | false =>
    cases r with
    | storeKey slot key =>
      rw [exec_touchOkay_storeKey h ha]
      simp
    | eraseAllSlots =>
      rw [exec_touchOkay_eraseAllSlots h ha]
      simp
    | _ => simp [Request.isKey] at hr

theorem exec_touchDeny :
    exec touchDeny d = (.ok (some (statusBytes kplSwUnauthorizedAccess)),
      d.approved (statusBytes kplSwUnauthorizedAccess) d.touchTx) := by
  have hb : (d.gIoApduBuffer.overwrite 0 [(kplSwUnauthorizedAccess >>> 8).toUInt8]).overwrite 1
      [(kplSwUnauthorizedAccess &&& 0xFF).toUInt8] =
      d.gIoApduBuffer.overwrite 0 (statusBytes kplSwUnauthorizedAccess) :=
    Buf.overwrite_append _ 0 [(kplSwUnauthorizedAccess >>> 8).toUInt8] _
  have hr : ((d.gIoApduBuffer.overwrite 0 (statusBytes kplSwUnauthorizedAccess)).window 0 2).toList =
      statusBytes kplSwUnauthorizedAccess :=
    @Buf.window_overwrite_toList _ d.gIoApduBuffer 0 (statusBytes kplSwUnauthorizedAccess) (by decide)
  rw [touchDeny, exec_bind_ok (exec_writeBuffer (by decide)),
    exec_bind_ok (exec_writeBuffer (by decide)), exec_bind_ok (exec_readBuffer (by decide))]
  simp only [hb, hr]
  rfl

end Touch

end LedgerKeePass.App
