import LedgerKeePass.AppCrypto
import LedgerKeePass.LibClient

/-!
# The operations of the library (`kpl.cpp`)

Each operation makes one exchange into an answer on its stack and translates the status
word. `Host` is libsodium during one call and the bytes that the stack happens to hold.
A buffer that the caller passed in comes back as part of the result.
-/
namespace LedgerKeePass.Kpl
open Bytes Program App

structure Host where
  randombytesBuf : Buf 32
  cryptoScalarmultBase : Buf 32 → Buf 32
  /-- `crypto_scalarmult` of a private and a public key, `none` where it does not return 0. -/
  cryptoScalarmult : Buf 32 → Buf 32 → Option (Buf 32)
  cryptoGenerichash : List UInt8 → Buf 32
  uninit (n : ℕ) : Buf n

namespace Instrs

def getAppConfiguration : UInt8 := 0
def storeKey : UInt8 := 1
def getKey : UInt8 := 2
def getKeyFromName : UInt8 := 3
def getValidKeySlots : UInt8 := 4
def eraseAllSlots : UInt8 := 5

end Instrs

def parseAppSW (sw : UInt16) : Result :=
  if sw = kplSwSuccess then .success
  else if sw = kplSwUnknownInstr ∨ sw = kplSwInvalidCls ∨ sw = kplSwInvalidParameter then
    .protocolBadParam
  else if sw = kplSwExceptionSecurity then .appSecurityError
  else if sw = kplSwUnauthorizedAccess then .appUnauthorizedAccess
  else if sw = kplSwEmptySlot then .appEmptySlot
  else if sw = kplSwInvalidName then .appInvalidName
  else .appUnknownError

/-- `X25519GenPrivKey`: the private and the public key. -/
def x25519GenPrivKey (host : Host) : Buf 32 × Buf 32 :=
  (host.randombytesBuf, host.cryptoScalarmultBase host.randombytesBuf)

/-- `X25519DecryptKey` on the bytes of `key`, `none` where it returns false. -/
def x25519DecryptKey (host : Host) (key appPubKey ownPubKey ownPrivKey : Buf 32) : Option (Buf 32) := do
  let sharedSecret ← host.cryptoScalarmult ownPrivKey appPubKey
  let keystream := host.cryptoGenerichash
    (sharedSecret.toList ++ ownPubKey.toList ++ appPubKey.toList)
  return xorBytes key keystream

abbrev KplM (σ : Type) := Prog Fault (Option σ)

/-- Runs an exchange into a local answer of the caller. -/
def withAnswer {σ α : Type} {m : ℕ} (uninit : Buf m) (p : LibM σ m α) :
    KplM σ (α × LedgerAnswer m) :=
  ExceptT.mk fun dev =>
    match exec p ⟨dev, .fresh uninit⟩ with
    | (.ok a, l) => (.ok (a, l.out), l.dev)
    | (.error e, l) => (.error e, l.dev)

section
variable {σ : Type} (exchange : Exchange σ) (host : Host)

def setKey (slot : UInt8) (key : List UInt8) (timeoutMS : UInt32) : KplM σ Result := do
  if key.length ≠ kplKeySize then return .libBadLength
  else
    let (res, ans) ← withAnswer (host.uninit (0 + swSize))
      (apduExchange exchange (apduStream Instrs.storeKey slot 0 ++ key) timeoutMS)
    if res ≠ .success then return res
    else return parseAppSW (← demand .outOfBounds ans.sw)

/-- What `sendKeyApduAndDecrypt` does with an answer of the expected size. -/
def decryptAnswer {n : ℕ} (ans : LedgerAnswer (64 + swSize)) (out : Buf n)
    (ownPrivKey ownPubKey : Buf 32) : KplM σ (Result × Buf n) := do
  let appPubKey ← demand .outOfBounds (ans.slice 0 32)
  let key ← demand .outOfBounds (ans.slice 32 kplKeySize)
  let out ← demand .outOfBounds (out.copyAt 0 key.toList)
  match x25519DecryptKey host key appPubKey ownPubKey ownPrivKey with
  | none => return (.libX25519Fail, out)
  | some key =>
    let out ← demand .outOfBounds (out.copyAt 0 key.toList)
    return (.success, out)

def sendKeyApduAndDecrypt {n : ℕ} (out : Buf n) (stream : List UInt8)
    (ownPrivKey ownPubKey : Buf 32) (timeoutMS : UInt32) : KplM σ (Result × Buf n) := do
  let (res, ans) ← withAnswer (host.uninit (64 + swSize)) (apduExchange exchange stream timeoutMS)
  if res ≠ .success then return (res, out)
  else
    let res := parseAppSW (← demand .outOfBounds ans.sw)
    if res ≠ .success then return (res, out)
    else if ans.dataSize ≠ 64 then return (.protocolBadLength, out)
    else decryptAnswer host ans out ownPrivKey ownPubKey

def getKey {n : ℕ} (slot : UInt8) (out : Buf n) (timeoutMS : UInt32) : KplM σ (Result × Buf n) := do
  if n ≠ kplKeySize then return (.libBadLength, out)
  else
    let (ownPrivKey, ownPubKey) := x25519GenPrivKey host
    sendKeyApduAndDecrypt exchange host out
      (apduStream Instrs.getKey slot 0 ++ ownPubKey.toList) ownPrivKey ownPubKey timeoutMS

/-- `getKeyFromName`; `name` are the bytes before the NUL of `Name`. -/
def getKeyFromName {n : ℕ} (name : List UInt8) (out : Buf n) (timeoutMS : UInt32) :
    KplM σ (Result × Buf n) := do
  if name.length > kplMaxNameSize ∨ n ≠ kplKeySize then return (.libBadLength, out)
  else
    let (ownPrivKey, ownPubKey) := x25519GenPrivKey host
    sendKeyApduAndDecrypt exchange host out
      (apduStream Instrs.getKeyFromName 0 0 ++ ownPubKey.toList ++ name)
      ownPrivKey ownPubKey timeoutMS

def readVersion (buf : LedgerAnswer (3 + swSize)) : KplM σ (Result × Buf 3) := do
  let major ← demand .outOfBounds (buf.get 0)
  let minor ← demand .outOfBounds (buf.get 1)
  let patch ← demand .outOfBounds (buf.get 2)
  return (.success, ⟨[major, minor, patch], rfl⟩)

/-- `fillAppVersion`, which leaves `AppVer_` alone unless it succeeds. -/
def fillAppVersion (appVer : Buf 3) (timeoutMS : UInt32) : KplM σ (Result × Buf 3) := do
  let (res, buf) ← withAnswer (host.uninit (3 + swSize))
    (apduExchange exchange (apduStream Instrs.getAppConfiguration 0 0) timeoutMS)
  if res ≠ .success then return (res, appVer)
  else
    let res := parseAppSW (← demand .outOfBounds buf.sw)
    if res ≠ .success then return (res, appVer)
    else if buf.dataSize ≠ 3 then return (.protocolBadLength, appVer)
    else readVersion buf

/-- One round of `while (Slots > 0)`. -/
def slotRound : List UInt8 × UInt8 × UInt8 → KplM σ ((List UInt8 × UInt8 × UInt8) ⊕ List UInt8)
  | (out, slots, s) =>
    if slots > 0 then
      return .inl (if slots &&& 1 ≠ 0 then out ++ [s] else out, slots >>> 1, s + 1)
    else return .inr out

def readSlots (buf : LedgerAnswer (1 + swSize)) (out : List UInt8) :
    KplM σ (Result × List UInt8) := do
  let slots ← demand .outOfBounds (buf.get 0)
  let out ← loop .diverges 9 slotRound (out, slots, 0)
  return (.success, out)

def getValidKeySlots (out : List UInt8) (timeoutMS : UInt32) : KplM σ (Result × List UInt8) := do
  let (res, buf) ← withAnswer (host.uninit (1 + swSize))
    (apduExchange exchange (apduStream Instrs.getValidKeySlots 0 0) timeoutMS)
  if res ≠ .success then return (res, out)
  else
    let res := parseAppSW (← demand .outOfBounds buf.sw)
    if res ≠ .success then return (res, out)
    else if buf.dataSize ≠ 1 then return (.protocolBadLength, out)
    else readSlots buf out

def eraseAllSlots (timeoutMS : UInt32) : KplM σ Result := do
  let (res, buf) ← withAnswer (host.uninit (1 + swSize))
    (apduExchange exchange (apduStream Instrs.eraseAllSlots 0 0) timeoutMS)
  if res ≠ .success then return res
  else return parseAppSW (← demand .outOfBounds buf.sw)

end

/-- A call of an operation with the buffer the caller passes in. -/
inductive KplCall
  | setKey (slot : UInt8) (key : List UInt8)
  | getKey {n : ℕ} (slot : UInt8) (out : Buf n)
  | getKeyFromName {n : ℕ} (name : List UInt8) (out : Buf n)
  | fillAppVersion (appVer : Buf 3)
  | getValidKeySlots (out : List UInt8)
  | eraseAllSlots

section
variable {σ : Type}

/-- The result of a call, and what the caller's buffer holds afterwards. -/
def KplCall.run (exchange : Exchange σ) (host : Host) (timeoutMS : UInt32) :
    KplCall → KplM σ (Result × List UInt8)
  | .setKey slot key => do return (← Kpl.setKey exchange host slot key timeoutMS, [])
  | .getKey slot out => do
    let (res, out) ← Kpl.getKey exchange host slot out timeoutMS
    return (res, out.toList)
  | .getKeyFromName name out => do
    let (res, out) ← Kpl.getKeyFromName exchange host name out timeoutMS
    return (res, out.toList)
  | .fillAppVersion appVer => do
    let (res, appVer) ← Kpl.fillAppVersion exchange host appVer timeoutMS
    return (res, appVer.toList)
  | .getValidKeySlots out => Kpl.getValidKeySlots exchange host out timeoutMS
  | .eraseAllSlots => do return (← Kpl.eraseAllSlots exchange host timeoutMS, [])

end

end LedgerKeePass.Kpl
