import LedgerKeePass.AppHandlers

/-!
# Command dispatch, approval buttons and the main loop (`main.c`, `approve.c`)

`step` is what happens between two waits for an event in `io_exchange`: a received APDU
goes once through the loop of `app_main`, a button press through `touch_okay` or
`touch_deny`, and an IO reset through the restart in `main`. Its result is the reply
that was transmitted and what the display shows afterwards.
-/
namespace LedgerKeePass.App
open Bytes Program

def cla : UInt8 := 0xE0
abbrev offsetCla : ℕ := 0
abbrev offsetIns : ℕ := 1
abbrev offsetP1 : ℕ := 2
abbrev offsetP2 : ℕ := 3
abbrev offsetLc : ℕ := 4
abbrev offsetCdata : ℕ := 5

def bufferByte (i : ℕ) : AppM UInt8 := do
  return (← readBuffer i 1).byteAt 0

/-- The status word of a caught exception. -/
def statusWord (e : UInt16) : UInt16 :=
  if e &&& 0xF000 = 0x6000 then e
  else if e &&& 0xF000 = 0x9000 then e
  else 0x6800 ||| (e &&& 0x7FF)

def statusBytes (sw : UInt16) : List UInt8 := [(sw >>> 8).toUInt8, sw.toUInt8]

/-- `CATCH_OTHER`: thrown codes other than an IO reset are handled, the rest goes on. -/
def catchOther {α : Type} (p : AppM α) (handler : UInt16 → AppM α) : AppM α :=
  tryCatch p fun
    | .thrown e => if e = exceptionIoReset then throw (.thrown e) else handler e
    | a => throw a

def writeStatus (sw : UInt16) : AppM Unit := do
  let tx ← read fun d => d.tx
  writeBuffer tx (statusBytes sw)
  setTx (tx + 2)

def dispatch (sdk : Sdk) : AppM Unit := do
  if (← bufferByte offsetCla) ≠ cla then throw (.thrown kplSwInvalidCls)
  else
    match getHandleInstr sdk (← bufferByte offsetIns) with
    | none => throw (.thrown kplSwUnknownInstr)
    | some f =>
      let len ← bufferByte offsetLc
      if len.toNat > ioApduBufferSize - offsetCdata then throw (.thrown invalidParameter)
      else
        let p1 ← bufferByte offsetP1
        let p2 ← bufferByte offsetP2
        let ret ← f p1 p2 offsetCdata len
        throw (.thrown ret)

def handleApdu (sdk : Sdk) : AppM Unit :=
  catchOther (dispatch sdk) fun e => writeStatus (statusWord e)

/-- The loop body of `app_main` from the return of `io_exchange` with `rx` bytes on. -/
def appMainBody (sdk : Sdk) (rx : ℕ) : AppM Unit :=
  catchOther
    (do
      update fun d => { d with asynchReply := false }
      if rx = 0 then throw (.thrown 0x6982)
      else handleApdu sdk)
    fun e => do
      if e ≠ 0x9000 then update fun d => { d with asynchReply := false }
      else pure ()
      writeStatus (statusWord e)

/-- The call of `io_exchange` at the top of the loop: `tx` bytes are transmitted unless
the reply is to come from a button press. -/
def ioExchange : AppM (Option (List UInt8)) := do
  let rx ← read fun d => d.tx
  setTx 0
  let reply ← readBuffer 0 rx
  let asynchReply ← read fun d => d.asynchReply
  return if rx = 0 ∨ asynchReply then none else some reply.toList

structure Apdu where
  bytes : List UInt8
  fits : bytes.length ≤ ioApduBufferSize

def receiveApdu (sdk : Sdk) (apdu : Apdu) : AppM (Option (List UInt8)) := do
  update fun d => { d with gIoApduBuffer := d.gIoApduBuffer.overwrite 0 apdu.bytes }
  appMainBody sdk apdu.bytes.length
  ioExchange

/-- `CATCH_OTHER` of `touch_okay`: the status after `tx` bytes of data, and both sent. -/
def approveStatus (e : UInt16) : AppM (Option (List UInt8)) := do
  let sw := statusWord e
  let tx ← read fun d => d.touchTx
  writeBuffer tx.toNat [(sw >>> 8).toUInt8]
  writeBuffer (tx + 1).toNat [(sw &&& 0xFF).toUInt8]
  setTouchTx (tx + 2)
  let reply ← readBuffer 0 (tx + 2).toNat
  return some reply.toList

/-- `THROW(approve_cb_(&tx))` -/
def callApproveCb (sdk : Sdk) : AppM (Option (List UInt8)) := do
  let cb ← demand .undefined (← read fun d => d.approveCb)
  let ret ← runCallback sdk cb
  throw (.thrown ret)

def touchOkay (sdk : Sdk) : AppM (Option (List UInt8)) := do
  setTouchTx 0
  let reply ← catchOther (callApproveCb sdk) approveStatus
  uiIdle
  return reply

def touchDeny : AppM (Option (List UInt8)) := do
  writeBuffer 0 [(kplSwUnauthorizedAccess >>> 8).toUInt8]
  writeBuffer 1 [(kplSwUnauthorizedAccess &&& 0xFF).toUInt8]
  let reply ← readBuffer 0 2
  uiIdle
  return some reply.toList

/-- The loop body of `main` up to the first wait of `app_main`. -/
def mainBody (sdk : Sdk) : AppM Unit := do
  nvAppStateInit sdk false
  uiIdle
  setTx 0
  update fun d => { d with asynchReply := false }

inductive Event
  | apdu (apdu : Apdu)
  | approve
  | deny
  | ioReset

structure Input where
  sdk : Sdk
  event : Event

structure Output where
  reply : Option (List UInt8)
  display : Option (List UInt8 × List UInt8)
  deriving DecidableEq

def Device.display (d : Device) : Option (List UInt8 × List UInt8) :=
  if d.screen = .approval then some (d.approveLine1.cString, d.approveLine2.cString) else none

/-- What the event does before a possible IO reset is caught in `main`. -/
def react (sdk : Sdk) : Event → AppM (Option (List UInt8))
  | .apdu apdu => receiveApdu sdk apdu
  | .approve => do
    if (← read fun d => d.screen) = .approval then touchOkay sdk else return none
  | .deny => do
    if (← read fun d => d.screen) = .approval then touchDeny else return none
  | .ioReset => throw (.thrown exceptionIoReset)

/-- One event. An IO reset makes `main` start over; whatever its start-up throws ends the
run, for `main` then leaves to the dashboard. -/
def step (i : Input) : AppM Output := do
  let reply ← tryCatch (react i.sdk i.event) fun
    | .thrown e =>
      if e = exceptionIoReset then do
        mainBody i.sdk
        return none
      else throw (.thrown e)
    | a => throw a
  return ⟨reply, ← read Device.display⟩

/-- The device at power-up: RAM cleared, any content of the persistent storage. -/
def powerUp (nv : InternalStorage) (seed : List UInt8) : Device where
  gIoApduBuffer := Buf.zeros _
  nStorage := nv
  storeKeyArgs := ⟨Buf.zeros _, 0⟩
  getKeyArgs := ⟨Buf.zeros _, 0⟩
  getKeyFromNameArgs := ⟨Buf.zeros _, Buf.zeros _, 0⟩
  approveLine1 := Buf.zeros _
  approveLine2 := Buf.zeros _
  approveCb := none
  screen := .idle
  seed := seed
  tx := 0
  asynchReply := false
  touchTx := 0

/-- A device that `main` has just started. -/
def Started (d : Device) : Prop :=
  ∃ sdk nv seed, sdk.WritesNv ∧ exec (mainBody sdk) (powerUp nv seed) = (.ok (), d)

end LedgerKeePass.App
