import LedgerKeePass.AppCommand

/-!
# The handlers perform the command in the buffer

One lemma for each way a handler can end, then `exec_dispatch`.
-/
namespace LedgerKeePass.App
open Bytes Program

variable {sdk : Sdk} {d : Device} {p1 p2 lc : UInt8}

theorem exec_isKeyValid (slot : UInt8) :
    exec (isKeyValid slot) d = (.ok (d.nStorage.valid slot.toNat), d) := rfl

theorem exec_handleGetAppConfiguration (off : ℕ) :
    exec (handleGetAppConfiguration p1 p2 off lc) d =
      (.ok kplSwSuccess,
        { d with gIoApduBuffer := d.gIoApduBuffer.overwrite 0
                  [ledgerMajorVersion, ledgerMinorVersion, ledgerPatchVersion]
                 tx := 3 }) := by
  simp (disch := decide) only [handleGetAppConfiguration, exec_bind, exec_writeBuffer, setTx,
    exec_update, exec_pure]
  rw [show (1 : ℕ) = 0 + [ledgerMajorVersion].length from rfl, Buf.overwrite_append,
    show (2 : ℕ) = 0 + ([ledgerMajorVersion] ++ [ledgerMinorVersion]).length from rfl,
    Buf.overwrite_append]
  rfl

/-- The text `"Slot #X ..."` once its placeholder is patched with the slot's digit. -/
theorem overwrite_slotText {n : ℕ} (b : Buf n) (slot : UInt8) (rest : List UInt8) :
    (b.overwrite 0 (ascii "Slot #" ++ 88 :: rest)).overwrite 6 [48 + slot] =
      b.overwrite 0 (ascii "Slot #" ++ (48 + slot) :: rest) := by
  rw [show (6 : ℕ) = 0 + (ascii "Slot #").length from by decide]
  exact Buf.overwrite_patch _ _ _ _ _ _

theorem exec_handleStoreKey_ask (hp : p1.toNat < kplSlotCount) (hl : lc.toNat = kplKeySize)
    (hv : d.nStorage.valid p1.toNat = true) :
    exec (handleStoreKey sdk p1 p2 5 lc) d =
      (.ok kplSwSuccess,
        d.ask (.storeKey ⟨p1.toNat, hp⟩ (d.gIoApduBuffer.window 5 kplKeySize))) := by
  have h₁ : (ascii "Slot #X already set." ++ [0]).take 21 =
      ascii "Slot #" ++ 88 :: (ascii " already set." ++ [0]) := by decide
  have h₂ : (ascii "Erase?" ++ [0]).take 7 = ascii "Erase?" ++ [0] := by decide
  simp (disch := first | decide | simp) only [handleStoreKey, exec_bind, exec_ite,
    exec_isKeyValid, exec_readBuffer, exec_writeLine1, exec_writeLine2, exec_literal,
    exec_update, uiApproval, setAsynchReply, exec_pure]
  rw [if_neg (by omega), if_neg (by omega), if_pos hv, h₁, h₂, overwrite_slotText]
  simp [Device.ask, Device.setArgs, Request.line1, Request.line2, Request.callback,
    Request.digit]

theorem exec_handleGetKey_ask (hp : p1.toNat < kplSlotCount) (hl : lc.toNat = x25519PtSize)
    (hv : d.nStorage.valid p1.toNat = true) :
    exec (handleGetKey p1 p2 5 lc) d =
      (.ok kplSwSuccess,
        d.ask (.getKey ⟨p1.toNat, hp⟩ (d.gIoApduBuffer.window 5 x25519PtSize))) := by
  have h₁ : (ascii "Database open slot" ++ [0]).take 19 = ascii "Database open slot" ++ [0] := by
    decide
  have h₂ : (ascii "Slot #X" ++ [0]).take 8 = ascii "Slot #" ++ 88 :: [0] := by decide
  simp (disch := first | decide | simp) only [handleGetKey, exec_bind, exec_ite,
    exec_isKeyValid, exec_readBuffer, exec_writeLine1, exec_writeLine2, exec_literal,
    exec_update, uiApproval, setAsynchReply, exec_pure]
  rw [if_neg (by omega), if_neg (by simp [hv]), h₁, h₂, overwrite_slotText]
  simp [Device.ask, Device.setArgs, Request.line1, Request.line2, Request.callback,
    Request.digit]

theorem nameLength (h : 32 < lc.toNat) : (lc - 32).toNat = lc.toNat - 32 :=
  UInt8.toNat_sub_of_le _ _ (by rw [UInt8.le_iff_toNat_le]; exact h.le)

/-- The name of a request that is not too long lies in the APDU buffer. -/
theorem name_inBuffer (h : 32 < lc.toNat) (h' : lc.toNat ≤ 52) :
    5 + x25519PtSize + (lc - 32).toNat ≤ ioApduBufferSize := by
  have hl := nameLength h
  change 37 + (lc - 32).toNat ≤ 260
  omega

theorem exec_handleGetKeyFromName_badName (h : 32 < lc.toNat) (h' : lc.toNat ≤ 52)
    (hv : isNameValid (d.gIoApduBuffer.window 37 (lc.toNat - 32)).toList = false) :
    exec (handleGetKeyFromName p1 p2 5 lc) d =
      (.ok kplSwInvalidName,
        { d with getKeyFromNameArgs :=
          { d.getKeyFromNameArgs with callerPub := d.gIoApduBuffer.window 5 x25519PtSize } }) := by
  have hl := nameLength h
  have hb := name_inBuffer h h'
  rw [← hl] at hv
  simp (disch := first | decide | exact hb) only [handleGetKeyFromName, exec_bind, exec_ite,
    exec_readBuffer, exec_update, exec_pure]
  rw [if_neg (by simp only [x25519PtSize, kplMaxNameSize]; omega), if_pos (by
      change (!isNameValid (d.gIoApduBuffer.window 37 _).toList) = true
      rw [hv]
      rfl)]

/-- Quote, name, quote and terminator, as they are put into the second line. -/
theorem overwrite_quoted {n : ℕ} (b : Buf n) (name : List UInt8) :
    (((b.overwrite 0 [39]).overwrite 1 name).overwrite (name.length + 1) [39]).overwrite
      (name.length + 2) [0] = b.overwrite 0 ([39] ++ name ++ [39] ++ [0]) := by
  rw [show (1 : ℕ) = 0 + ([39] : List UInt8).length from rfl, Buf.overwrite_append,
    show name.length + (0 + ([39] : List UInt8).length) = 0 + ([39] ++ name).length by simp,
    Buf.overwrite_append,
    show name.length + 2 = 0 + ([39] ++ name ++ [39]).length by simp,
    Buf.overwrite_append]

theorem exec_handleGetKeyFromName_ask (h : 32 < lc.toNat) (h' : lc.toNat ≤ 52)
    (hv : isNameValid (d.gIoApduBuffer.window 37 (lc.toNat - 32)).toList = true) :
    exec (handleGetKeyFromName p1 p2 5 lc) d =
      (.ok kplSwSuccess,
        d.ask (.getKeyFromName (d.gIoApduBuffer.window 37 (lc.toNat - 32)).toList
          (d.gIoApduBuffer.window 5 x25519PtSize))) := by
  have hl := nameLength h
  have hb := name_inBuffer h h'
  have h₁ : (ascii "Database open name" ++ [0]).take 19 = ascii "Database open name" ++ [0] := by
    decide
  rw [← hl] at hv ⊢
  simp (disch := first | decide | exact hb) only [handleGetKeyFromName, exec_bind, exec_ite,
    exec_readBuffer, exec_update, exec_pure, exec_read]
  rw [if_neg (by simp only [x25519PtSize, kplMaxNameSize]; omega),
    if_neg (by rw [Bool.not_eq_true', Bool.not_eq_false]; exact hv)]
  generalize hname : (d.gIoApduBuffer.window (5 + x25519PtSize) (lc - 32).toNat).toList = name
  have hlen : name.length = (lc - 32).toNat := by rw [← hname]; simp
  have hnameLen : 7 + (lc - 32) = UInt8.ofNat (seedPrefixLen + name.length) := by
    rw [hlen, UInt8.ofNat_add, UInt8.ofNat_toNat]
    rfl
  have hc₁ : 0 + seedPrefix.length ≤ 27 := by decide
  have hc₂ : 7 + name.length ≤ 27 := by omega
  have hl₁ : 1 + name.length ≤ 32 := by omega
  have hl₂ : name.length + 1 + ([39] : List UInt8).length ≤ 32 := by simp; omega
  have hl₃ : name.length + 2 + ([0] : List UInt8).length ≤ 32 := by simp; omega
  rw [Buf.copyAt_eq hc₁]
  simp only [exec_demand_some, ← hlen]
  rw [Buf.copyAt_eq hc₂]
  simp (disch := first | decide | assumption) only [exec_literal, exec_writeLine1,
    exec_writeLine2, exec_update, exec_demand_some, h₁, uiApproval, setAsynchReply]
  have hname' := Buf.overwrite_append d.getKeyFromNameArgs.name 0 seedPrefix name
  rw [show 0 + seedPrefix.length = 7 by decide] at hname'
  rw [overwrite_quoted, hnameLen, hname']
  rfl

theorem exec_handleEraseAllSlots (off : ℕ) :
    exec (handleEraseAllSlots p1 p2 off lc) d = (.ok kplSwSuccess, d.ask .eraseAllSlots) := by
  have h₁ : (ascii "Erase all slots?" ++ [0]).take 17 = ascii "Erase all slots?" ++ [0] := by
    decide
  have h₂ : (ascii "They will be erased forever!" ++ [0]).take 29 =
      ascii "They will be erased forever!" ++ [0] := by decide
  simp (disch := decide) only [handleEraseAllSlots, exec_bind, exec_writeLine1, exec_writeLine2,
    exec_literal, exec_update, uiApproval, setAsynchReply, exec_pure, h₁, h₂]
  rfl

/-- `THROW(ret)` on the result of a handler. -/
def throwResult : Except Abort UInt16 × Device → Except Abort Unit × Device
  | (.ok ret, d) => (.error (.thrown ret), d)
  | (.error a, d) => (.error a, d)

theorem handleStoreKey_perform :
    throwResult (exec (handleStoreKey sdk p1 p2 5 lc) d) =
      perform sdk (storeCommand d.nStorage p1 lc (d.gIoApduBuffer.window 5 kplKeySize)) d := by
  by_cases hp : p1.toNat < kplSlotCount
  · by_cases hl : lc.toNat = kplKeySize
    · cases hv : d.nStorage.valid p1.toNat with
      | true => rw [exec_handleStoreKey_ask hp hl hv, storeCommand, dif_pos ⟨hp, hl⟩, if_pos hv]; rfl
      | false =>
        rw [storeCommand, dif_pos ⟨hp, hl⟩, if_neg (by simp [hv])]
        simp (disch := decide) only [handleStoreKey, exec_bind, exec_ite, exec_isKeyValid,
          exec_readBuffer, setTx, exec_update, exec_pure, perform, UInt8.ofNat_toNat]
        rw [if_neg (by omega), if_neg (by omega), if_neg (by simp [hv])]
        rcases exec (storeKeySlot sdk p1 (d.gIoApduBuffer.window 5 kplKeySize)) d with ⟨_ | _, _⟩ <;>
          rfl
    · rw [storeCommand, dif_neg (fun h => hl h.2), handleStoreKey, exec_ite, if_neg (by omega),
        exec_ite, if_pos hl]
      rfl
  · rw [storeCommand, dif_neg (fun h => hp h.1), handleStoreKey, exec_ite, if_pos (by omega)]
    rfl

theorem handleGetKey_perform :
    throwResult (exec (handleGetKey p1 p2 5 lc) d) =
      perform sdk (getKeyCommand d.nStorage p1 lc (d.gIoApduBuffer.window 5 x25519PtSize)) d := by
  by_cases h : p1.toNat < kplSlotCount ∧ lc.toNat = x25519PtSize
  · cases hv : d.nStorage.valid p1.toNat with
    | true => rw [exec_handleGetKey_ask h.1 h.2 hv, getKeyCommand, dif_pos h, if_pos hv]; rfl
    | false =>
      rw [getKeyCommand, dif_pos h, if_neg (by simp [hv]), handleGetKey, exec_ite,
        if_neg (by omega), exec_bind_ok (exec_isKeyValid _), hv]
      rfl
  · rw [getKeyCommand, dif_neg h, handleGetKey, exec_ite, if_pos (by omega)]
    rfl

theorem handleGetKeyFromName_perform :
    throwResult (exec (handleGetKeyFromName p1 p2 5 lc) d) =
      perform sdk (getKeyFromNameCommand lc (d.gIoApduBuffer.window 5 x25519PtSize)
        (d.gIoApduBuffer.window 37 (lc.toNat - 32)).toList) d := by
  by_cases h : x25519PtSize < lc.toNat ∧ lc.toNat ≤ x25519PtSize + kplMaxNameSize
  · rw [getKeyFromNameCommand, if_pos h]
    cases hv : isNameValid (d.gIoApduBuffer.window 37 (lc.toNat - 32)).toList with
    | true => rw [exec_handleGetKeyFromName_ask h.1 h.2 hv, if_pos rfl]; rfl
    | false => rw [exec_handleGetKeyFromName_badName h.1 h.2 hv, if_neg (by simp)]; rfl
  · rw [getKeyFromNameCommand, if_neg h, handleGetKeyFromName, exec_ite, if_pos (by omega)]
    rfl

theorem exec_dispatch_handler {f : Handler} (hc : d.gIoApduBuffer.byteAt 0 = cla)
    (hf : getHandleInstr sdk (d.gIoApduBuffer.byteAt 1) = some f) :
    exec (dispatch sdk) d =
      throwResult (exec (f (d.gIoApduBuffer.byteAt 2) (d.gIoApduBuffer.byteAt 3) 5
        (d.gIoApduBuffer.byteAt 4)) d) := by
  have hlc : ¬ (d.gIoApduBuffer.byteAt 4).toNat > ioApduBufferSize - offsetCdata := by
    have := (d.gIoApduBuffer.byteAt 4).toNat_lt
    simp only [ioApduBufferSize, offsetCdata]
    omega
  simp (disch := decide) only [dispatch, exec_bind, exec_ite, exec_bufferByte, hc, hf, exec_throw]
  rw [if_neg (by simp), if_neg hlc]
  rcases exec (f (d.gIoApduBuffer.byteAt 2) (d.gIoApduBuffer.byteAt 3) 5
    (d.gIoApduBuffer.byteAt 4)) d with ⟨_ | _, _⟩ <;> rfl

/-- Received commands do what their bytes ask for and nothing else. -/
theorem exec_dispatch :
    exec (dispatch sdk) d = perform sdk (command d.nStorage d.gIoApduBuffer) d := by
  by_cases hc : d.gIoApduBuffer.byteAt 0 = cla
  · rw [command, if_neg (by simp [hc])]
    split
    case h_7 n h₀ h₁ h₂ h₃ h₄ h₅ =>
      have hins : insLast ≤ (d.gIoApduBuffer.byteAt 1).toNat := by
        simp only [imp_false] at h₀ h₁ h₂ h₃ h₄ h₅
        simp only [insLast]
        omega
      have hf : getHandleInstr sdk (d.gIoApduBuffer.byteAt 1) = none := if_pos hins
      simp (disch := decide) only [dispatch, exec_bind, exec_ite, exec_bufferByte, hc, hf,
        exec_throw]
      rw [if_neg (by simp)]
      rfl
    all_goals
      rename_i h
      rw [exec_dispatch_handler hc (by rw [getHandleInstr, h]; rfl)]
    · rw [exec_handleGetAppConfiguration]; rfl
    · exact handleStoreKey_perform
    · exact handleGetKey_perform
    · exact handleGetKeyFromName_perform
    · simp (disch := simp) only [handleGetValidSlots, exec_bind, exec_read, exec_writeBuffer,
        setTx, exec_update, exec_pure]
      rfl
    · rw [exec_handleEraseAllSlots]; rfl
  · simp (disch := decide) [dispatch, exec_bind, exec_bufferByte, hc, command, perform]

end LedgerKeePass.App
