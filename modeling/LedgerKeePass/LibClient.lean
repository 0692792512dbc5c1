import LedgerKeePass.LibTcp
import LedgerKeePass.LibUsb

/-!
# APDUs over a transport (`ledger_client.cpp`)

An `APDUStream` starts as a header with no length and is appended to. `apduExchange`
fixes the length, hands the APDU to the transport and wants a status word back.
-/
namespace LedgerKeePass.Kpl
open Bytes Program

/-- The two devices behind the virtual `LedgerDevice::exchange`. -/
inductive LedgerDevice (σ : Type)
  | tcp (sock : Socket σ)
  | usb (hid : Hid σ)

def LedgerDevice.exchange {σ : Type} : LedgerDevice σ → Exchange σ
  | .tcp sock => tcpExchange sock
  | .usb hid => usbExchange hid

def ledgerClientCla : UInt8 := 0xE0
abbrev apduLenIdx : ℕ := 4
abbrev apduHeaderSize : ℕ := apduLenIdx + 1

/-- A new stream; `append` is the append of lists. -/
def apduStream (ins p1 p2 : UInt8) : List UInt8 := [ledgerClientCla, ins, p1, p2, 0]

/-- The APDU that a stream sends. -/
def apdu (ins p1 p2 : UInt8) (data : List UInt8) : List UInt8 :=
  [ledgerClientCla, ins, p1, p2, UInt8.ofNat data.length] ++ data

section
variable {σ : Type} {m : ℕ} (exchange : Exchange σ)

/-- `APDUStream::exchange` -/
def apduExchange (stream : List UInt8) (timeoutMS : UInt32) : LibM σ m Result := do
  if stream.length < apduHeaderSize then throw .assertion
  else
    let apduLen := stream.length - apduHeaderSize
    if apduLen > 255 then return .libBadLength
    else
      let res ← exchange (stream.set apduLenIdx (UInt8.ofNat apduLen)) timeoutMS
      if res ≠ .success then return res
      else
        let bufSize ← read fun l => l.out.bufSize
        return if bufSize ≥ swSize then .success else .protocolBadLength

variable {exchange} {ins p1 p2 : UInt8} {data : List UInt8} {timeoutMS : UInt32} {l l' : Link σ m}
  {res : Result}

theorem exec_apduExchange_tooLong (h : 255 < data.length) :
    exec (apduExchange exchange (apduStream ins p1 p2 ++ data) timeoutMS) l =
      (.ok .libBadLength, l) := by
  have hlen : (apduStream ins p1 p2 ++ data).length = data.length + 5 := by simp [apduStream]
  have hgt : data.length + 5 - 5 > 255 := by omega
  rw [apduExchange, hlen, if_neg (by change ¬ data.length + 5 < 5; omega)]
  exact congrArg (exec · l) (if_pos hgt)

/-- The exchange of an APDU that is short enough. -/
theorem apduExchange_eq (h : data.length ≤ 255) :
    apduExchange exchange (apduStream ins p1 p2 ++ data) timeoutMS = (do
      let res ← exchange (m := m) (apdu ins p1 p2 data) timeoutMS
      if res ≠ .success then return res
      else
        let bufSize ← read fun l => l.out.bufSize
        return if bufSize ≥ swSize then .success else .protocolBadLength) := by
  have hlen : (apduStream ins p1 p2 ++ data).length = data.length + 5 := by simp [apduStream]
  have hle : ¬ data.length + 5 - 5 > 255 := by omega
  have hset : (apduStream ins p1 p2 ++ data).set 4 (UInt8.ofNat (data.length + 5 - 5)) =
      apdu ins p1 p2 data := by
    rw [Nat.add_sub_cancel]
    rfl
  rw [apduExchange, hlen, if_neg (by change ¬ data.length + 5 < 5; omega)]
  dsimp only
  rw [if_neg hle, hset]

/-- The outcome of the transport, and the check of the size behind a success. -/
theorem exec_apduExchange (h : data.length ≤ 255)
    (he : exec (exchange (apdu ins p1 p2 data) timeoutMS) l = (.ok res, l')) :
    exec (apduExchange exchange (apduStream ins p1 p2 ++ data) timeoutMS) l =
      (.ok (if res = .success ∧ l'.out.bufSize < swSize then .protocolBadLength else res), l') := by
  rw [apduExchange_eq h, exec_bind_ok he]
  by_cases hr : res = .success
  · subst hr
    by_cases hs : l'.out.bufSize ≥ swSize
    · have hn : ¬ l'.out.bufSize < swSize := by omega
      simp only [ne_eq, not_true_eq_false, if_false, hn, and_false]
      rw [exec_bind_ok (exec_read _ _), if_pos hs]
      rfl
    · have hn : l'.out.bufSize < swSize := by omega
      simp only [ne_eq, not_true_eq_false, if_false, hn, and_self, if_true]
      rw [exec_bind_ok (exec_read _ _), if_neg hs]
      rfl
  · simp only [ne_eq, hr, not_false_eq_true, if_true, false_and, if_false]
    rfl

end

end LedgerKeePass.Kpl
