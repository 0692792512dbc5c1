import LedgerKeePass.AppApproval

/-!
# The arrays of the app and the lengths that go with them

A program of the model stops with `.undefined` at a copy, a read or an indexed store that
leaves the APDU buffer, an approval text, the name or the stored keys. The checked programs
below stop as well at a copy into the arguments of a callback and at a store into the
derivation path that leave their array, and at a length that does not fit 8 bits. From every
state that the app reaches they do what the handlers and callbacks do.
-/
namespace LedgerKeePass.App
open Bytes Program

def checkedAdd (a b : UInt8) : AppM UInt8 :=
  if a.toNat + b.toNat < 256 then pure (a + b) else throw .undefined

def checkedSub (a b : UInt8) : AppM UInt8 :=
  if b.toNat ≤ a.toNat then pure (a - b) else throw .undefined

/-- A copy to the start of an array. -/
def copyTo {n : ℕ} (dst : Buf n) (src : List UInt8) : AppM (Buf n) :=
  demand .undefined (dst.copyAt 0 src)

def byteOf {n : ℕ} (b : Buf n) (i : ℕ) : AppM UInt8 :=
  if i < n then pure (b.byteAt i) else throw .undefined

def storeAt {α : Type} (xs : List α) (i : ℕ) (a : α) : AppM (List α) :=
  if i < xs.length then pure (xs.set i a) else throw .undefined

def checkedStoreKey (sdk : Sdk) : Handler := fun slot _ data dataLen => do
  if slot.toNat ≥ kplSlotCount then return invalidParameter
  else if dataLen.toNat ≠ kplKeySize then return invalidParameter
  else if ← isKeyValid slot then
    let src ← readBuffer data dataLen.toNat
    let args ← read fun d => d.storeKeyArgs
    let key ← copyTo args.key src.toList
    update fun d => { d with storeKeyArgs := { d.storeKeyArgs with key := key } }
    update fun d => { d with storeKeyArgs := { d.storeKeyArgs with slot := slot } }
    writeLine1 0 (← literal "Slot #X already set." 21)
    writeLine1 6 [48 + slot]
    writeLine2 0 (← literal "Erase?" 7)
    uiApproval .handleStoreKeyConfirmErase
    setAsynchReply
    return kplSwSuccess
  else
    storeKeySlot sdk slot (← readBuffer data kplKeySize)
    setTx 0
    return kplSwSuccess

def checkedGetKey : Handler := fun slot _ data dataLen => do
  if slot.toNat ≥ kplSlotCount ∨ dataLen.toNat ≠ x25519PtSize then return invalidParameter
  else if !(← isKeyValid slot) then return kplSwEmptySlot
  else
    update fun d => { d with getKeyArgs := { d.getKeyArgs with slot := slot } }
    let src ← readBuffer data x25519PtSize
    let args ← read fun d => d.getKeyArgs
    let callerPub ← copyTo args.callerPub src.toList
    update fun d => { d with getKeyArgs := { d.getKeyArgs with callerPub := callerPub } }
    writeLine1 0 (← literal "Database open slot" 19)
    writeLine2 0 (← literal "Slot #X" 8)
    writeLine2 6 [48 + slot]
    uiApproval .handleGetKeyAfterApprove
    setAsynchReply
    return kplSwSuccess

def checkedGetKeyFromName : Handler := fun _ _ data dataLen => do
  if dataLen.toNat ≤ x25519PtSize ∨ dataLen.toNat > x25519PtSize + kplMaxNameSize then
    return invalidParameter
  else
    let src ← readBuffer data x25519PtSize
    let args ← read fun d => d.getKeyFromNameArgs
    let callerPub ← copyTo args.callerPub src.toList
    update fun d =>
      { d with getKeyFromNameArgs := { d.getKeyFromNameArgs with callerPub := callerPub } }
    let data := data + x25519PtSize
    let dataLen ← checkedSub dataLen 32
    let name ← readBuffer data dataLen.toNat
    if !isNameValid name.toList then return kplSwInvalidName
    else
      let args ← read fun d => d.getKeyFromNameArgs
      let buf ← demand .undefined (args.name.copyAt 0 seedPrefix)
      let buf ← demand .undefined (buf.copyAt seedPrefixLen name.toList)
      update fun d => { d with getKeyFromNameArgs := { d.getKeyFromNameArgs with name := buf } }
      let nameLen ← checkedAdd 7 dataLen
      update fun d =>
        { d with getKeyFromNameArgs := { d.getKeyFromNameArgs with nameLen := nameLen } }
      writeLine1 0 (← literal "Database open name" 19)
      writeLine2 0 [39]
      writeLine2 1 name.toList
      writeLine2 (dataLen.toNat + 1) [39]
      writeLine2 (dataLen.toNat + 2) [0]
      uiApproval .handleGetKeyFromNameAfterApprove
      setAsynchReply
      return kplSwSuccess

def checkedFuncs (sdk : Sdk) : List Handler :=
  [handleGetAppConfiguration, checkedStoreKey sdk, checkedGetKey, checkedGetKeyFromName,
    handleGetValidSlots, handleEraseAllSlots]

def checkedHandleInstr (sdk : Sdk) (ins : UInt8) : Option Handler :=
  if ins.toNat ≥ insLast then none else (checkedFuncs sdk)[ins.toNat]?

def checkedDispatch (sdk : Sdk) : AppM Unit := do
  if (← bufferByte offsetCla) ≠ cla then throw (.thrown kplSwInvalidCls)
  else
    match checkedHandleInstr sdk (← bufferByte offsetIns) with
    | none => throw (.thrown kplSwUnknownInstr)
    | some f =>
      let len ← bufferByte offsetLc
      if len.toNat > ioApduBufferSize - offsetCdata then throw (.thrown invalidParameter)
      else
        let p1 ← bufferByte offsetP1
        let p2 ← bufferByte offsetP2
        let ret ← f p1 p2 offsetCdata len
        throw (.thrown ret)

def checkedHandleApdu (sdk : Sdk) : AppM Unit :=
  catchOther (checkedDispatch sdk) fun e => writeStatus (statusWord e)

/-- The rounds of the loop that fills `path`, from `i` on. -/
def pathLoop (hashName : Buf 32) : ℕ → ℕ → List UInt32 → AppM (List UInt32)
  | 0, _, path => pure path
  | rounds + 1, i, path => do
    let lo ← byteOf hashName (2 * i)
    let hi ← byteOf hashName (2 * i + 1)
    let path ← storeAt path (i + 1) ((0x80000000 : UInt32) ||| lo.toUInt32 ||| (hi.toUInt32 <<< 8))
    pathLoop hashName rounds (i + 1) path

def checkedNamePath (hashName : Buf 32) : AppM (List UInt32) := do
  let path ← storeAt (List.replicate 17 0) 0 kplBip39Path
  pathLoop hashName 16 0 path

def checkedGetKeyFromNameAfterApprove (sdk : Sdk) : AppM UInt16 := do
  let args ← read fun d => d.getKeyFromNameArgs
  let name ← demand .undefined (args.name.slice 0 args.nameLen.toNat)
  let hashName ← ofSdk (sdk.cxHashSha256 name.toList)
  let path ← checkedNamePath hashName
  let seed ← read fun d => d.seed
  let tmp ← ofSdk (sdk.osPersoDeriveNodeBip32 seed path)
  let key ← ofSdk (sdk.cxHashSha256 (tmp.1.toList ++ tmp.2.toList))
  writeBuffer x25519PtSize key.toList
  let callerPub ← read fun d => d.getKeyFromNameArgs.callerPub
  if ← x25519EncryptKPKey sdk x25519PtSize 0 callerPub then
    setTouchTx 64
    return kplSwSuccess
  else
    uiIdle
    return invalidParameter

def checkedRunCallback (sdk : Sdk) : ApproveCallback → AppM UInt16
  | .handleStoreKeyConfirmErase => handleStoreKeyConfirmErase sdk
  | .handleGetKeyAfterApprove => handleGetKeyAfterApprove sdk
  | .handleGetKeyFromNameAfterApprove => checkedGetKeyFromNameAfterApprove sdk
  | .handleEraseAllSlotsApprove => handleEraseAllSlotsApprove sdk

def checkedApproveStatus (e : UInt16) : AppM (Option (List UInt8)) := do
  let sw := statusWord e
  let tx ← read fun d => d.touchTx
  writeBuffer tx.toNat [(sw >>> 8).toUInt8]
  let tx ← checkedAdd tx 1
  writeBuffer tx.toNat [(sw &&& 0xFF).toUInt8]
  let tx ← checkedAdd tx 1
  setTouchTx tx
  let reply ← readBuffer 0 tx.toNat
  return some reply.toList

def checkedCallApproveCb (sdk : Sdk) : AppM (Option (List UInt8)) := do
  let cb ← demand .undefined (← read fun d => d.approveCb)
  let ret ← checkedRunCallback sdk cb
  throw (.thrown ret)

def checkedTouchOkay (sdk : Sdk) : AppM (Option (List UInt8)) := do
  setTouchTx 0
  let reply ← catchOther (checkedCallApproveCb sdk) checkedApproveStatus
  uiIdle
  return reply

/-- From `d` on a program does what its checked version does, and no check fails. -/
def InBounds {α : Type} (checked p : AppM α) (d : Device) : Prop :=
  exec checked d = exec p d ∧ (exec p d).1 ≠ .error .undefined

section Same
variable {sdk : Sdk} {d : Device} {a b : UInt8}

theorem checkedAdd_eq (h : a.toNat + b.toNat < 256) : checkedAdd a b = pure (a + b) := if_pos h

theorem checkedSub_eq (h : b.toNat ≤ a.toNat) : checkedSub a b = pure (a - b) := if_pos h

theorem copyTo_eq {n : ℕ} (dst src : Buf n) : copyTo dst src.toList = pure src := by
  rw [copyTo, Buf.copyAt_full]
  rfl

/-- Request data that overwrites an array of its length. -/
theorem copyTo_request {α β : Type} {len n : ℕ} (h : len = n) (off : ℕ) (args : Device → β)
    (dst : β → Buf n) (f : Buf n → AppM α) :
    (do
      let src ← readBuffer off len
      let a ← Program.read args
      let b ← copyTo (dst a) src.toList
      f b : AppM α) = readBuffer off n >>= f := by
  subst h
  congr 1
  funext src
  funext d
  change exec (_ >>= _) d = exec _ d
  rw [exec_bind_ok (exec_read _ _), copyTo_eq, pure_bind]

theorem checkedStoreKey_eq : checkedStoreKey sdk = handleStoreKey sdk := by
  funext slot p2 data dataLen
  rw [checkedStoreKey, handleStoreKey]
  by_cases hl : dataLen.toNat = kplKeySize
  · simp only [copyTo_request hl]
  · simp only [ne_eq, hl, not_false_eq_true, if_true]

theorem checkedGetKey_eq : checkedGetKey = handleGetKey := by
  funext slot p2 data dataLen
  simp only [checkedGetKey, handleGetKey, copyTo_request rfl]

theorem checkedGetKeyFromName_eq : checkedGetKeyFromName = handleGetKeyFromName := by
  funext p1 p2 data dataLen
  rw [checkedGetKeyFromName, handleGetKeyFromName]
  by_cases hl : dataLen.toNat ≤ x25519PtSize ∨ dataLen.toNat > x25519PtSize + kplMaxNameSize
  · rw [if_pos hl, if_pos hl]
  · have hsub : (32 : UInt8).toNat ≤ dataLen.toNat := by
      change 32 ≤ _
      simp only [x25519PtSize] at hl
      omega
    have hadd : (7 : UInt8).toNat + (dataLen - 32).toNat < 256 := by
      change 7 + _ < 256
      simp only [x25519PtSize, kplMaxNameSize] at hl
      rw [nameLength (by omega)]
      omega
    rw [if_neg hl, if_neg hl]
    simp only [copyTo_request rfl, checkedSub_eq hsub, checkedAdd_eq hadd, pure_bind]

theorem checkedHandleApdu_eq : checkedHandleApdu sdk = handleApdu sdk := by
  have hfuncs : checkedFuncs sdk = funcs sdk := by
    rw [checkedFuncs, checkedStoreKey_eq, checkedGetKey_eq, checkedGetKeyFromName_eq, funcs]
  have hinstr : checkedHandleInstr sdk = getHandleInstr sdk := by
    funext ins
    rw [checkedHandleInstr, hfuncs, getHandleInstr]
  rw [checkedHandleApdu, checkedDispatch, hinstr]
  rfl

/-- The loop has filled `i` elements and fills the rest. -/
theorem pathLoop_eq (hashName : Buf 32) (rounds i : ℕ) (h : i + rounds ≤ 16) :
    pathLoop hashName rounds i
        (kplBip39Path :: (List.range i).map (pathElement hashName) ++ List.replicate rounds 0) =
      pure (kplBip39Path :: (List.range (i + rounds)).map (pathElement hashName)) := by
  induction rounds generalizing i with
  | zero => simp [pathLoop]
  | succ rounds ih =>
    have hlen : ((List.range i).map (pathElement hashName)).length = i := by simp
    have hset : (kplBip39Path :: (List.range i).map (pathElement hashName) ++
        List.replicate (rounds + 1) 0).set (i + 1) (pathElement hashName i) =
        kplBip39Path :: (List.range (i + 1)).map (pathElement hashName) ++ List.replicate rounds 0 := by
      rw [List.cons_append, List.set_cons_succ, List.set_append_right _ _ hlen.le, hlen, Nat.sub_self,
        List.replicate_succ, List.set_cons_zero, List.range_succ, List.map_append]
      simp
    have hstore : i + 1 < (kplBip39Path :: (List.range i).map (pathElement hashName) ++
        List.replicate (rounds + 1) 0).length := by
      simp
    rw [pathLoop, byteOf, if_pos (by omega), pure_bind, byteOf, if_pos (by omega), pure_bind, storeAt,
      if_pos hstore, pure_bind]
    have hnext := ih (i + 1) (by omega)
    rw [Nat.succ_add_eq_add_succ] at hnext
    rw [← hnext, ← hset]
    rfl

theorem checkedNamePath_eq (hashName : Buf 32) : checkedNamePath hashName = pure (namePath hashName) := by
  have hloop := pathLoop_eq hashName 16 0 le_rfl
  rw [checkedNamePath, storeAt, if_pos (by decide), pure_bind]
  exact hloop

theorem checkedRunCallback_eq : checkedRunCallback sdk = runCallback sdk := by
  have hname : checkedGetKeyFromNameAfterApprove sdk = handleGetKeyFromNameAfterApprove sdk := by
    simp only [checkedGetKeyFromNameAfterApprove, handleGetKeyFromNameAfterApprove,
      checkedNamePath_eq, pure_bind]
  funext cb
  cases cb with
  | handleGetKeyFromNameAfterApprove => exact hname
  | _ => rfl

theorem exec_checkedApproveStatus (h : d.touchTx.toNat ≤ 64) (e : UInt16) :
    exec (checkedApproveStatus e) d = exec (approveStatus e) d := by
  have hnext : (d.touchTx + 1).toNat = d.touchTx.toNat + 1 := by
    rw [UInt8.toNat_add]
    change (_ + 1) % 256 = _
    omega
  have hadd : d.touchTx.toNat + (1 : UInt8).toNat < 256 := by
    change _ + 1 < 256
    omega
  have hadd' : (d.touchTx + 1).toNat + (1 : UInt8).toNat < 256 := by
    change _ + 1 < 256
    omega
  have htwo : d.touchTx + 1 + 1 = d.touchTx + 2 := by
    rw [UInt8.add_assoc]
    rfl
  rw [checkedApproveStatus, approveStatus, exec_bind_ok (exec_read _ _), exec_bind_ok (exec_read _ _)]
  simp only [checkedAdd_eq hadd, checkedAdd_eq hadd', pure_bind, htwo]

/-- The callbacks leave at most the 64 bytes of a key in front of the status. -/
theorem callApproveCb_touchTx {r : Request} (ha : d.Armed r) :
    (exec (callApproveCb sdk) { d with touchTx := 0 }).2.touchTx.toNat ≤ 64 := by
  rw [exec_callApproveCb (d := { d with touchTx := 0 }) ha.callback,
    exec_bind_keeps fun _ _ => rfl]
  cases hr : r.isKey with
  | true =>
    obtain ⟨b, hk⟩ := @exec_runCallback_key sdk _ r ha.setTouchTx hr
    rw [hk]
    rcases r.sealed sdk _ _ with e | _ | ⟨own, cipher⟩
    · exact Nat.zero_le _
    · exact Nat.zero_le _
    · exact le_rfl
  | false =>
    rw [exec_runCallback_write ha hr]
    exact Nat.zero_le _

theorem exec_checkedTouchOkay {r : Request} (ha : d.Armed r) :
    exec (checkedTouchOkay sdk) d = exec (touchOkay sdk) d := by
  have htx := @callApproveCb_touchTx sdk d r ha
  have hcall : checkedCallApproveCb sdk = callApproveCb sdk := by
    rw [checkedCallApproveCb, checkedRunCallback_eq, callApproveCb]
  have hcatch : exec (catchOther (callApproveCb sdk) checkedApproveStatus) { d with touchTx := 0 } =
      exec (catchOther (callApproveCb sdk) approveStatus) { d with touchTx := 0 } := by
    rw [catchOther, catchOther, exec_tryCatch, exec_tryCatch]
    generalize exec (callApproveCb sdk) { d with touchTx := 0 } = x at htx ⊢
    rcases x with ⟨(e | _ | _) | o, t⟩
    · by_cases he : e = exceptionIoReset
      · simp only [if_pos he]
      · simp only [if_neg he]
        exact exec_checkedApproveStatus htx e
    · rfl
    · rfl
    · rfl
  rw [checkedTouchOkay, touchOkay, hcall, setTouchTx, exec_bind_ok (exec_update _ _),
    exec_bind_ok (exec_update _ _), exec_bind, hcatch, ← exec_bind]

end Same

section Bounds
variable {sdk : Sdk} {d t : Device} {r : Request}

theorem handleApdu_inBounds (htx : d.tx = 0) : InBounds (checkedHandleApdu sdk) (handleApdu sdk) d := by
  refine ⟨by rw [checkedHandleApdu_eq], ?_⟩
  by_cases hs : (command d.nStorage d.gIoApduBuffer).isStore = true
  · obtain ⟨slot, key, hc⟩ := isStore_eq hs
    have he := fun a => @caught_error (sdk.storeKey slot key d.nStorage).1 a
      (storeKey_ne_undefined _ _ _)
    rw [exec_handleApdu_store htx hc]
    generalize caught (sdk.storeKey slot key d.nStorage).1 = c at he
    rcases c with a | sw
    · rcases (he a rfl).2 with rfl | rfl <;> simp
    · simp
  · rw [exec_handleApdu htx fun h => absurd h hs]
    simp

theorem touchOkay_inBounds (ha : d.Armed r) : InBounds (checkedTouchOkay sdk) (touchOkay sdk) d := by
  refine ⟨exec_checkedTouchOkay ha, ?_⟩
  obtain ⟨t, -, ⟨reply, ht, -⟩ | ⟨a, ht, rfl | rfl⟩⟩ := @touchOkay_frame sdk d r ha
  · simp [ht]
  · simp [ht]
  · simp [ht]

end Bounds

/-- A text that is shorter than its array has a NUL behind it. -/
theorem nul_of_cString {n : ℕ} {b : Buf n} (h : b.cString.length < n) : (0 : UInt8) ∈ b.toList := by
  by_contra hz
  have hall : b.cString = b.toList := by
    rw [Buf.cString, List.takeWhile_eq_self_iff]
    intro c hc
    exact decide_eq_true fun h0 => hz (h0 ▸ hc)
  rw [hall, List.Vector.toList_length] at h
  exact lt_irrefl _ h

/-- In every state that the app reaches and with any content of the APDU buffer, the handlers
and the callback of the prompt on display stay within their arrays and compute the lengths
that they mean, and both texts of the prompt are C strings. -/
theorem handlers_inBounds {d t : Device} {tr : List (Input × Output)} (hd : Started d)
    (h : Run step (fun _ _ => True) d tr t) (sdk : Sdk) (f : Buf ioApduBufferSize) :
    InBounds (checkedHandleApdu sdk) (handleApdu sdk) (t.setBuffer f) ∧
    (t.screen = .approval → InBounds (checkedTouchOkay sdk) (touchOkay sdk) (t.setBuffer f) ∧
      (0 : UInt8) ∈ t.approveLine1.toList ∧ (0 : UInt8) ∈ t.approveLine2.toList) := by
  have hr := run_ready h (started_ready hd)
  refine ⟨handleApdu_inBounds hr.tx, fun hs => ?_⟩
  obtain ⟨r, ha, ⟨h₁, h₂⟩, hp⟩ := hr.pending hs
  have hsame : SamePrompt t (t.setBuffer f) := ⟨rfl, rfl, rfl, rfl, rfl, rfl⟩
  refine ⟨touchOkay_inBounds (hsame.armed (.refl _) ha), nul_of_cString ?_, nul_of_cString ?_⟩
  · rw [h₁]
    exact (line1_fits r).1
  · rw [h₂]
    exact (line2_fits hp).1

/-- With the prompt for `askName` on display and any request in the APDU buffer. -/
theorem handlers_inBounds_askName :
    let t := (exec (step ⟨plainSdk, .apdu askName⟩) freshDevice).2
    ∀ sdk f, InBounds (checkedHandleApdu sdk) (handleApdu sdk) (t.setBuffer f) ∧
      (t.screen = .approval → InBounds (checkedTouchOkay sdk) (touchOkay sdk) (t.setBuffer f) ∧
        (0 : UInt8) ∈ t.approveLine1.toList ∧ (0 : UInt8) ∈ t.approveLine2.toList) :=
  handlers_inBounds freshDevice_started
    (Run.next (o := ⟨none, some (ascii "Database open name", ascii "'a'")⟩) (.nil _) trivial
      (by decide +kernel))

end LedgerKeePass.App
