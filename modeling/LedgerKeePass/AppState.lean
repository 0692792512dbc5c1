import LedgerKeePass.ByteBuffer
import LedgerKeePass.EventRun

/-!
# The memory of the device app and the SDK it calls

`Device` holds the globals of `globals.h`, `approve.c` and `instrs.c`, the APDU buffer,
the locals of `app_main` and `touch_okay` that handlers write through pointers, and the
seed. `Sdk` is what the SDK does during one step: results of persistent writes, random
bytes and cryptographic primitives, any of which may throw.
-/
namespace LedgerKeePass.App
open Bytes Program

abbrev kplKeySize : ℕ := 32
abbrev kplSlotCount : ℕ := 8
abbrev kplMaxNameSize : ℕ := 20
abbrev x25519ScalarSize : ℕ := 32
abbrev x25519PtSize : ℕ := 32
abbrev seedPrefixLen : ℕ := 7

/-- SDK: `IO_APDU_BUFFER_SIZE`, a five-byte header and 255 bytes of data. -/
abbrev ioApduBufferSize : ℕ := 5 + 255

def kplSwSuccess : UInt16 := 0x9000
def kplSwUnknownInstr : UInt16 := 0x6D00
def kplSwInvalidCls : UInt16 := 0x6E00
def kplSwInvalidParameter : UInt16 := 0x6802
def kplSwExceptionSecurity : UInt16 := 0x6804
def kplSwUnauthorizedAccess : UInt16 := 0x6820
def kplSwEmptySlot : UInt16 := 0x6821
def kplSwInvalidName : UInt16 := 0x6822

/-- SDK: the exception codes the app itself uses. -/
def invalidParameter : UInt16 := 2
def exceptionIoReset : UInt16 := 0x10

def ledgerMajorVersion : UInt8 := 0
def ledgerMinorVersion : UInt8 := 3
def ledgerPatchVersion : UInt8 := 0
def kplBip39Path : UInt32 := 0x804B5041

abbrev Key := Buf kplKeySize
abbrev Point := Buf x25519PtSize

structure InternalStorage where
  keys : Fin kplSlotCount → Key
  keyValids : UInt8
  initialized : UInt8
  deriving DecidableEq

structure StoreKeyArgs where
  key : Key
  slot : UInt8
  deriving DecidableEq

structure GetKeyArgs where
  callerPub : Point
  slot : UInt8
  deriving DecidableEq

structure GetKeyFromNameArgs where
  name : Buf (seedPrefixLen + kplMaxNameSize)
  callerPub : Point
  nameLen : UInt8
  deriving DecidableEq

inductive ApproveCallback
  | handleStoreKeyConfirmErase
  | handleGetKeyAfterApprove
  | handleGetKeyFromNameAfterApprove
  | handleEraseAllSlotsApprove
  deriving DecidableEq

inductive Screen
  | idle
  | approval
  deriving DecidableEq

structure Device where
  gIoApduBuffer : Buf ioApduBufferSize
  nStorage : InternalStorage
  storeKeyArgs : StoreKeyArgs
  getKeyArgs : GetKeyArgs
  getKeyFromNameArgs : GetKeyFromNameArgs
  approveLine1 : Buf 32
  approveLine2 : Buf 32
  approveCb : Option ApproveCallback
  screen : Screen
  seed : List UInt8
  /-- `tx` of `app_main`, and whether its `flags` hold `IO_ASYNCH_REPLY`. -/
  tx : ℕ
  asynchReply : Bool
  /-- `tx` of `touch_okay`, which the approval callbacks set. -/
  touchTx : UInt8
  deriving DecidableEq

/-- The three persistent writes of the app, by destination. -/
inductive NvWrite
  | key (slot : Fin kplSlotCount) (key : Key)
  | keyValids (keyValids : UInt8)
  | storage (storage : InternalStorage)

/-- What becomes of a persistent write: it is done or lost, throws before it is done, or
the power goes off first. -/
inductive NvResult
  | written
  | lost
  | thrown (e : UInt16)
  | powerLoss

structure Sdk where
  nvmWrite : NvWrite → NvResult
  cxRng : Except UInt16 (Buf x25519ScalarSize)
  cxEcfpScalarMult : Buf (x25519PtSize + 1) → Buf x25519ScalarSize →
    Except UInt16 (Option (Buf (x25519PtSize + 1)))
  cxBlake2b : List UInt8 → Except UInt16 (Buf kplKeySize)
  cxHashSha256 : List UInt8 → Except UInt16 (Buf 32)
  osPersoDeriveNodeBip32 : List UInt8 → List UInt32 → Except UInt16 (Buf 32 × Buf 32)

/-- Persistent writes take effect, as the SDK documents. -/
def Sdk.WritesNv (sdk : Sdk) : Prop := ∀ w, sdk.nvmWrite w = .written

/-- Why a program stops: a thrown exception, a step the C standard leaves undefined, or
a power loss. -/
inductive Abort
  | thrown (e : UInt16)
  | undefined
  | powerLoss
  deriving DecidableEq

abbrev AppM := Prog Abort Device

def ofSdk {α : Type} : Except UInt16 α → AppM α
  | .ok a => pure a
  | .error e => throw (.thrown e)

def NvWrite.apply : NvWrite → InternalStorage → InternalStorage
  | .key slot k, s => { s with keys := Function.update s.keys slot k }
  | .keyValids v, s => { s with keyValids := v }
  | .storage s, _ => s

def nvmWrite (sdk : Sdk) (w : NvWrite) : AppM Unit :=
  match sdk.nvmWrite w with
  | .written => update fun d => { d with nStorage := w.apply d.nStorage }
  | .lost => pure ()
  | .thrown e => throw (.thrown e)
  | .powerLoss => throw .powerLoss

/-- `os_memcpy` out of and into the APDU buffer. -/
def readBuffer (off len : ℕ) : AppM (Buf len) := do
  demand .undefined (← read fun d => d.gIoApduBuffer.slice off len)

def writeBuffer (off : ℕ) (src : List UInt8) : AppM Unit := do
  let b ← demand .undefined (← read fun d => d.gIoApduBuffer.copyAt off src)
  update fun d => { d with gIoApduBuffer := b }

/-- `os_memcpy` and indexed stores into the approval texts. -/
def writeLine1 (off : ℕ) (src : List UInt8) : AppM Unit := do
  let b ← demand .undefined (← read fun d => d.approveLine1.copyAt off src)
  update fun d => { d with approveLine1 := b }

def writeLine2 (off : ℕ) (src : List UInt8) : AppM Unit := do
  let b ← demand .undefined (← read fun d => d.approveLine2.copyAt off src)
  update fun d => { d with approveLine2 := b }

def ascii (text : String) : List UInt8 := text.toList.map fun c => UInt8.ofNat c.toNat

/-- The first `len` bytes of a string literal and its terminator. -/
def literal (text : String) (len : ℕ) : AppM (List UInt8) :=
  if len ≤ (ascii text).length + 1 then pure ((ascii text ++ [0]).take len) else throw .undefined

/-- `N_storage.keys[slot].data`, a read outside the array being undefined. -/
def storedKey (slot : UInt8) : AppM Key := do
  if h : slot.toNat < kplSlotCount then
    read fun d => d.nStorage.keys ⟨slot.toNat, h⟩
  else throw .undefined

def isKeyValid (slot : UInt8) : AppM Bool :=
  read fun d => d.nStorage.keyValids.toNat.testBit slot.toNat

def setKeyAsValid (sdk : Sdk) (slot : UInt8) : AppM Unit := do
  let keyValids ← read fun d => d.nStorage.keyValids
  nvmWrite sdk (.keyValids (keyValids ||| UInt8.ofNat (1 <<< slot.toNat)))

def uiIdle : AppM Unit := update fun d => { d with screen := .idle }

def uiApproval (func : ApproveCallback) : AppM Unit :=
  update fun d => { d with approveCb := some func, screen := .approval }

def nvAppStateInit (sdk : Sdk) (force : Bool) : AppM Unit := do
  let initialized ← read fun d => d.nStorage.initialized
  if force || initialized != 0x01 then
    nvmWrite sdk (.storage ⟨fun _ => Buf.zeros kplKeySize, 0, 0x01⟩)
  else pure ()

end LedgerKeePass.App
