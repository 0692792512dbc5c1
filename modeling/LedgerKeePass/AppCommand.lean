import LedgerKeePass.AppMain

/-!
# What a received APDU asks for

`command` reads an APDU buffer against the stored slots and `perform` is the effect of
one command. `exec_dispatch` shows that the handlers do exactly that, so what is proved
about commands later holds of the code. A prompt carries a `Request`, from which its
texts and the arguments of its callback both follow.
-/
namespace LedgerKeePass.App
open Bytes Program

inductive Request
  | storeKey (slot : Fin kplSlotCount) (key : Key)
  | getKey (slot : Fin kplSlotCount) (callerPub : Point)
  | getKeyFromName (name : List UInt8) (callerPub : Point)
  | eraseAllSlots
  deriving DecidableEq

namespace Request

def digit (slot : Fin kplSlotCount) : UInt8 := 48 + UInt8.ofNat slot.val

def line1 : Request → List UInt8
  | .storeKey slot _ => ascii "Slot #" ++ [digit slot] ++ ascii " already set."
  | .getKey _ _ => ascii "Database open slot"
  | .getKeyFromName _ _ => ascii "Database open name"
  | .eraseAllSlots => ascii "Erase all slots?"

def line2 : Request → List UInt8
  | .storeKey _ _ => ascii "Erase?"
  | .getKey slot _ => ascii "Slot #" ++ [digit slot]
  | .getKeyFromName name _ => [39] ++ name ++ [39]
  | .eraseAllSlots => ascii "They will be erased forever!"

def callback : Request → ApproveCallback
  | .storeKey _ _ => .handleStoreKeyConfirmErase
  | .getKey _ _ => .handleGetKeyAfterApprove
  | .getKeyFromName _ _ => .handleGetKeyFromNameAfterApprove
  | .eraseAllSlots => .handleEraseAllSlotsApprove

end Request

/-- The arguments of the callback of a request. -/
def Device.setArgs (d : Device) : Request → Device
  | .storeKey slot key => { d with storeKeyArgs := ⟨key, UInt8.ofNat slot⟩ }
  | .getKey slot callerPub => { d with getKeyArgs := ⟨callerPub, UInt8.ofNat slot⟩ }
  | .getKeyFromName name callerPub =>
    { d with getKeyFromNameArgs :=
      ⟨d.getKeyFromNameArgs.name.overwrite 0 (seedPrefix ++ name), callerPub,
        UInt8.ofNat (seedPrefixLen + name.length)⟩ }
  | .eraseAllSlots => d

/-- Raising the prompt of a request. -/
def Device.ask (d : Device) (r : Request) : Device :=
  { d.setArgs r with
    approveLine1 := d.approveLine1.overwrite 0 (r.line1 ++ [0])
    approveLine2 := d.approveLine2.overwrite 0 (r.line2 ++ [0])
    approveCb := some r.callback
    screen := .approval
    asynchReply := true }

inductive Command
  | fail (code : UInt16)
  | getAppConfiguration
  | getValidSlots
  | store (slot : Fin kplSlotCount) (key : Key)
  | badName (callerPub : Point)
  | ask (r : Request)
  deriving DecidableEq

def InternalStorage.valid (nv : InternalStorage) (slot : ℕ) : Bool := nv.keyValids.toNat.testBit slot

def storeCommand (nv : InternalStorage) (p1 lc : UInt8) (key : Key) : Command :=
  if h : p1.toNat < kplSlotCount ∧ lc.toNat = kplKeySize then
    if nv.valid p1.toNat then .ask (.storeKey ⟨p1.toNat, h.1⟩ key)
    else .store ⟨p1.toNat, h.1⟩ key
  else .fail invalidParameter

def getKeyCommand (nv : InternalStorage) (p1 lc : UInt8) (callerPub : Point) : Command :=
  if h : p1.toNat < kplSlotCount ∧ lc.toNat = x25519PtSize then
    if nv.valid p1.toNat then .ask (.getKey ⟨p1.toNat, h.1⟩ callerPub)
    else .fail kplSwEmptySlot
  else .fail invalidParameter

def getKeyFromNameCommand (lc : UInt8) (callerPub : Point) (name : List UInt8) : Command :=
  if x25519PtSize < lc.toNat ∧ lc.toNat ≤ x25519PtSize + kplMaxNameSize then
    if isNameValid name then .ask (.getKeyFromName name callerPub) else .badName callerPub
  else .fail invalidParameter

/-- The command in an APDU buffer, for the slots stored in `nv`. -/
def command (nv : InternalStorage) (f : Buf ioApduBufferSize) : Command :=
  if f.byteAt 0 ≠ cla then .fail kplSwInvalidCls
  else match (f.byteAt 1).toNat with
    | 0 => .getAppConfiguration
    | 1 => storeCommand nv (f.byteAt 2) (f.byteAt 4) (f.window 5 kplKeySize)
    | 2 => getKeyCommand nv (f.byteAt 2) (f.byteAt 4) (f.window 5 x25519PtSize)
    | 3 => getKeyFromNameCommand (f.byteAt 4) (f.window 5 x25519PtSize)
      (f.window 37 ((f.byteAt 4).toNat - 32)).toList
    | 4 => .getValidSlots
    | 5 => .ask .eraseAllSlots
    | _ => .fail kplSwUnknownInstr

/-- The effect of a command. It always ends in a thrown status, which `handleApdu`
turns into the reply. -/
def perform (sdk : Sdk) : Command → Device → Except Abort Unit × Device
  | .fail code, d => (.error (.thrown code), d)
  | .getAppConfiguration, d =>
    (.error (.thrown kplSwSuccess),
      { d with gIoApduBuffer := d.gIoApduBuffer.overwrite 0
                [ledgerMajorVersion, ledgerMinorVersion, ledgerPatchVersion]
               tx := 3 })
  | .getValidSlots, d =>
    (.error (.thrown kplSwSuccess),
      { d with gIoApduBuffer := d.gIoApduBuffer.overwrite 0 [d.nStorage.keyValids], tx := 1 })
  | .store slot key, d =>
    match exec (storeKeySlot sdk (UInt8.ofNat slot) key) d with
    | (.ok _, d') => (.error (.thrown kplSwSuccess), { d' with tx := 0 })
    | (.error a, d') => (.error a, d')
  | .badName callerPub, d =>
    (.error (.thrown kplSwInvalidName),
      { d with getKeyFromNameArgs := { d.getKeyFromNameArgs with callerPub := callerPub } })
  | .ask r, d => (.error (.thrown kplSwSuccess), d.ask r)

section
variable {d : Device} {off len : ℕ} {src : List UInt8}

theorem exec_readBuffer (h : off + len ≤ ioApduBufferSize) :
    exec (readBuffer off len) d = (.ok (d.gIoApduBuffer.window off len), d) := by
  rw [readBuffer, exec_bind_ok (exec_read _ _), Buf.slice_eq h]
  rfl

theorem exec_writeBuffer (h : off + src.length ≤ ioApduBufferSize) :
    exec (writeBuffer off src) d =
      (.ok (), { d with gIoApduBuffer := d.gIoApduBuffer.overwrite off src }) := by
  rw [writeBuffer, exec_bind_ok (exec_read _ _), Buf.copyAt_eq h]
  rfl

theorem exec_writeLine1 (h : off + src.length ≤ 32) :
    exec (writeLine1 off src) d =
      (.ok (), { d with approveLine1 := d.approveLine1.overwrite off src }) := by
  rw [writeLine1, exec_bind_ok (exec_read _ _), Buf.copyAt_eq h]
  rfl

theorem exec_writeLine2 (h : off + src.length ≤ 32) :
    exec (writeLine2 off src) d =
      (.ok (), { d with approveLine2 := d.approveLine2.overwrite off src }) := by
  rw [writeLine2, exec_bind_ok (exec_read _ _), Buf.copyAt_eq h]
  rfl

theorem exec_literal {text : String} {n : ℕ} (h : n ≤ (ascii text).length + 1) :
    exec (literal text n) d = (.ok ((ascii text ++ [0]).take n), d) := by
  rw [literal, if_pos h]
  rfl

theorem exec_bufferByte {i : ℕ} (h : i < ioApduBufferSize) :
    exec (bufferByte i) d = (.ok (d.gIoApduBuffer.byteAt i), d) := by
  rw [bufferByte, exec_bind_ok (exec_readBuffer h), exec_pure, Buf.byteAt_window]
  simp

end

end LedgerKeePass.App
