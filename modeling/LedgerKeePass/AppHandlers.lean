import LedgerKeePass.AppCrypto

/-!
# Instruction handlers and approval callbacks (`instrs.c`)

Handlers take `p1`, `p2`, the offset of the data in the APDU buffer and its length, as
`Funcs` has them. They answer a status or ask the user through `uiApproval`.
-/
namespace LedgerKeePass.App
open Bytes Program

abbrev Handler := UInt8 → UInt8 → ℕ → UInt8 → AppM UInt16

def setTx (tx : ℕ) : AppM Unit := update fun d => { d with tx := tx }

def setTouchTx (tx : UInt8) : AppM Unit := update fun d => { d with touchTx := tx }

def setAsynchReply : AppM Unit := update fun d => { d with asynchReply := true }

def handleGetAppConfiguration : Handler := fun _ _ _ _ => do
  writeBuffer 0 [ledgerMajorVersion]
  writeBuffer 1 [ledgerMinorVersion]
  writeBuffer 2 [ledgerPatchVersion]
  setTx 3
  return kplSwSuccess

def storeKeySlot (sdk : Sdk) (slot : UInt8) (data : Key) : AppM Unit := do
  if h : slot.toNat < kplSlotCount then
    nvmWrite sdk (.key ⟨slot.toNat, h⟩ data)
    setKeyAsValid sdk slot
  else throw .undefined

def handleStoreKeyConfirmErase (sdk : Sdk) : AppM UInt16 := do
  let args ← read fun d => d.storeKeyArgs
  storeKeySlot sdk args.slot args.key
  update fun d => { d with storeKeyArgs := ⟨Buf.zeros kplKeySize, 0⟩ }
  setTouchTx 0
  return kplSwSuccess

def handleStoreKey (sdk : Sdk) : Handler := fun slot _ data dataLen => do
  if slot.toNat ≥ kplSlotCount then return invalidParameter
  else if dataLen.toNat ≠ kplKeySize then return invalidParameter
  else if ← isKeyValid slot then
    let key ← readBuffer data kplKeySize
    update fun d => { d with storeKeyArgs := { d.storeKeyArgs with key := key } }
    update fun d => { d with storeKeyArgs := { d.storeKeyArgs with slot := slot } }
    writeLine1 0 (← literal "Slot #X already set." 21)
    writeLine1 6 [48 + slot]
    writeLine2 0 (← literal "Erase?" 7)
    uiApproval .handleStoreKeyConfirmErase
    setAsynchReply
    return kplSwSuccess
  else
    storeKeySlot sdk slot (← readBuffer data kplKeySize)
    setTx 0
    return kplSwSuccess

/-- The build defines `NDEBUG`, so the two assertions are not part of the callback. -/
def handleGetKeyAfterApprove (sdk : Sdk) : AppM UInt16 := do
  let slot ← read fun d => d.getKeyArgs.slot
  let key ← storedKey slot
  writeBuffer x25519PtSize key.toList
  let callerPub ← read fun d => d.getKeyArgs.callerPub
  if ← x25519EncryptKPKey sdk x25519PtSize 0 callerPub then
    setTouchTx 64
    return kplSwSuccess
  else
    uiIdle
    return invalidParameter

def handleGetKey : Handler := fun slot _ data dataLen => do
  if slot.toNat ≥ kplSlotCount ∨ dataLen.toNat ≠ x25519PtSize then return invalidParameter
  else if !(← isKeyValid slot) then return kplSwEmptySlot
  else
    update fun d => { d with getKeyArgs := { d.getKeyArgs with slot := slot } }
    let callerPub ← readBuffer data x25519PtSize
    update fun d => { d with getKeyArgs := { d.getKeyArgs with callerPub := callerPub } }
    writeLine1 0 (← literal "Database open slot" 19)
    writeLine2 0 (← literal "Slot #X" 8)
    writeLine2 6 [48 + slot]
    uiApproval .handleGetKeyAfterApprove
    setAsynchReply
    return kplSwSuccess

/-- The element of `path` that round `i` of the loop makes. -/
def pathElement (hashName : Buf 32) (i : ℕ) : UInt32 :=
  (0x80000000 : UInt32) ||| (hashName.byteAt (2 * i)).toUInt32 |||
    ((hashName.byteAt (2 * i + 1)).toUInt32 <<< 8)

/-- The seventeen elements of the derivation path of a name's digest. -/
def namePath (hashName : Buf 32) : List UInt32 :=
  kplBip39Path :: (List.range 16).map (pathElement hashName)

def handleGetKeyFromNameAfterApprove (sdk : Sdk) : AppM UInt16 := do
  let args ← read fun d => d.getKeyFromNameArgs
  let name ← demand .undefined (args.name.slice 0 args.nameLen.toNat)
  let hashName ← ofSdk (sdk.cxHashSha256 name.toList)
  let seed ← read fun d => d.seed
  let tmp ← ofSdk (sdk.osPersoDeriveNodeBip32 seed (namePath hashName))
  let key ← ofSdk (sdk.cxHashSha256 (tmp.1.toList ++ tmp.2.toList))
  writeBuffer x25519PtSize key.toList
  let callerPub ← read fun d => d.getKeyFromNameArgs.callerPub
  if ← x25519EncryptKPKey sdk x25519PtSize 0 callerPub then
    setTouchTx 64
    return kplSwSuccess
  else
    uiIdle
    return invalidParameter

/-- All characters must be printable ASCII. -/
def isNameValid (buf : List UInt8) : Bool := buf.all fun v => !(v ≤ 0x1F || v ≥ 0x7F)

def seedPrefix : List UInt8 := ascii "dbname" ++ [0]

def handleGetKeyFromName : Handler := fun _ _ data dataLen => do
  if dataLen.toNat ≤ x25519PtSize ∨ dataLen.toNat > x25519PtSize + kplMaxNameSize then
    return invalidParameter
  else
    let callerPub ← readBuffer data x25519PtSize
    update fun d =>
      { d with getKeyFromNameArgs := { d.getKeyFromNameArgs with callerPub := callerPub } }
    let data := data + x25519PtSize
    let dataLen := dataLen - 32
    let name ← readBuffer data dataLen.toNat
    if !isNameValid name.toList then return kplSwInvalidName
    else
      let args ← read fun d => d.getKeyFromNameArgs
      let buf ← demand .undefined (args.name.copyAt 0 seedPrefix)
      let buf ← demand .undefined (buf.copyAt seedPrefixLen name.toList)
      update fun d => { d with getKeyFromNameArgs := { d.getKeyFromNameArgs with name := buf } }
      update fun d =>
        { d with getKeyFromNameArgs := { d.getKeyFromNameArgs with nameLen := 7 + dataLen } }
      writeLine1 0 (← literal "Database open name" 19)
      writeLine2 0 [39]
      writeLine2 1 name.toList
      writeLine2 (dataLen.toNat + 1) [39]
      writeLine2 (dataLen.toNat + 2) [0]
      uiApproval .handleGetKeyFromNameAfterApprove
      setAsynchReply
      return kplSwSuccess

def handleGetValidSlots : Handler := fun _ _ _ _ => do
  let keyValids ← read fun d => d.nStorage.keyValids
  writeBuffer 0 [keyValids]
  setTx 1
  return kplSwSuccess

def handleEraseAllSlotsApprove (sdk : Sdk) : AppM UInt16 := do
  setTouchTx 0
  nvAppStateInit sdk true
  return kplSwSuccess

def handleEraseAllSlots : Handler := fun _ _ _ _ => do
  writeLine1 0 (← literal "Erase all slots?" 17)
  writeLine2 0 (← literal "They will be erased forever!" 29)
  uiApproval .handleEraseAllSlotsApprove
  setAsynchReply
  return kplSwSuccess

def funcs (sdk : Sdk) : List Handler :=
  [handleGetAppConfiguration, handleStoreKey sdk, handleGetKey, handleGetKeyFromName,
    handleGetValidSlots, handleEraseAllSlots]

def insLast : ℕ := 6

def getHandleInstr (sdk : Sdk) (ins : UInt8) : Option Handler :=
  if ins.toNat ≥ insLast then none else (funcs sdk)[ins.toNat]?

def runCallback (sdk : Sdk) : ApproveCallback → AppM UInt16
  | .handleStoreKeyConfirmErase => handleStoreKeyConfirmErase sdk
  | .handleGetKeyAfterApprove => handleGetKeyAfterApprove sdk
  | .handleGetKeyFromNameAfterApprove => handleGetKeyFromNameAfterApprove sdk
  | .handleEraseAllSlotsApprove => handleEraseAllSlotsApprove sdk

end LedgerKeePass.App
