import LedgerKeePass.LibAnswer

/-!
# The TCP transport (`ledger_device_tcp.cpp`)

`Socket` is what the system does on `send` and `recv`. A `recv` gives at most the bytes it
was asked for; how many, and when it fails, is up to the state `σ` of the connection.
-/
namespace LedgerKeePass.Kpl
open Bytes Program

/-- What `recv` returns; `wouldBlock` is an error with `EWOULDBLOCK` or `EAGAIN`. -/
inductive Recv
  | bytes (data : List UInt8)
  | wouldBlock
  | failed

structure Socket (σ : Type) where
  send : List UInt8 → σ → ℤ × σ
  /-- The receive timeout in seconds and microseconds, and the length asked for. -/
  recv : ℕ × ℕ → ℕ → σ → Recv × σ
  recv_le (tv : ℕ × ℕ) (len : ℕ) (s : σ) (data : List UInt8) :
    (recv tv len s).1 = .bytes data → data.length ≤ len

/-- `tv`; the fast path leaves it zero. -/
def timeval (timeoutMS : UInt32) : ℕ × ℕ :=
  if timeoutMS = 0 then (0, 0)
  else
    let sec := timeoutMS.toNat / 1000
    (sec, (timeoutMS.toNat - sec * 1000) * 1000)

section
variable {σ : Type} {m : ℕ} (sock : Socket σ)

def tcpSend (data : List UInt8) : LibM σ m Result := do
  let ret ← onHandle (sock.send data)
  return if asSizeT ret = data.length then .success else .transportGenericError

/-- `LedgerDeviceTCP::read`: its result, and the bytes that it put at `Out`. -/
def tcpRead (outLen : ℕ) (timeoutMS : UInt32) : LibM σ m (Result × List UInt8) := do
  match ← onHandle (sock.recv (timeval timeoutMS) outLen) with
  | .bytes data =>
    if data.length < outLen then return (.transportTimeout, data)
    else return (if data.length = outLen then .success else .transportGenericError, data)
  | .wouldBlock => return (.transportTimeout, [])
  | .failed => return (.transportGenericError, [])

/-- The rest of `exchange` once the length prefix `prefixBytes` is in. -/
def tcpReadAnswer (prefixBytes : List UInt8) (timeoutMS : UInt32) : LibM σ m Result := do
  let recvLen := (ofBe prefixBytes + swSize) % 4294967296
  if recvLen > (← read fun l => l.out.bufSize) then return .protocolBadLength
  else
    resizeAnswer recvLen
    let (res, data) ← tcpRead sock recvLen timeoutMS
    storeAnswer 0 data
    return res

def tcpReceive (timeoutMS : UInt32) : LibM σ m Result := do
  let (res, prefixBytes) ← tcpRead sock 4 timeoutMS
  if res ≠ .success then return res
  else tcpReadAnswer sock prefixBytes timeoutMS

/-- `LedgerDeviceTCP::exchange` -/
def tcpExchange (data : List UInt8) (timeoutMS : UInt32) : LibM σ m Result := do
  if data.length > 4294967295 then return .libBadLength
  else
    let res ← tcpSend sock (toBe 4 data.length)
    if res ≠ .success then return res
    else
      let res ← tcpSend sock data
      if res ≠ .success then return res
      else tcpReceive sock timeoutMS

variable {sock} {s s' : σ} {a : LedgerAnswer m} {data : List UInt8} {timeoutMS : UInt32}

theorem exec_tcpSend :
    exec (tcpSend sock data) (⟨some s, a⟩ : Link σ m) =
      (.ok (if asSizeT (sock.send data s).1 = data.length then .success
        else .transportGenericError), ⟨some (sock.send data s).2, a⟩) := rfl

/-- A `recv` that gives all it was asked for. -/
theorem exec_tcpRead_all {outLen : ℕ}
    (h : sock.recv (timeval timeoutMS) outLen s = (.bytes data, s')) (hl : data.length = outLen) :
    exec (tcpRead sock outLen timeoutMS) (⟨some s, a⟩ : Link σ m) =
      (.ok (.success, data), ⟨some s', a⟩) := by
  rw [tcpRead, exec_bind_ok (exec_onHandle _), h]
  simp only [hl, lt_irrefl, if_true, if_false]
  rfl

theorem exec_tcpRead_short {outLen : ℕ}
    (h : sock.recv (timeval timeoutMS) outLen s = (.bytes data, s')) (hl : data.length < outLen) :
    exec (tcpRead sock outLen timeoutMS) (⟨some s, a⟩ : Link σ m) =
      (.ok (.transportTimeout, data), ⟨some s', a⟩) := by
  rw [tcpRead, exec_bind_ok (exec_onHandle _), h]
  simp only [hl, if_true]
  rfl

theorem exec_tcpRead_wouldBlock {outLen : ℕ}
    (h : sock.recv (timeval timeoutMS) outLen s = (.wouldBlock, s')) :
    exec (tcpRead sock outLen timeoutMS) (⟨some s, a⟩ : Link σ m) =
      (.ok (.transportTimeout, []), ⟨some s', a⟩) := by
  rw [tcpRead, exec_bind_ok (exec_onHandle _), h]
  rfl

/-- A read gives at most the bytes asked for, and all of them when it succeeds. -/
theorem tcpRead_cases (sock : Socket σ) (outLen : ℕ) (timeoutMS : UInt32) (s : σ) :
    ∃ res data s', (sock.recv (timeval timeoutMS) outLen s).2 = s' ∧ data.length ≤ outLen ∧
      (res = .success → data.length = outLen) ∧ ∀ (m : ℕ) (a : LedgerAnswer m),
        exec (tcpRead sock outLen timeoutMS) ⟨some s, a⟩ = (.ok (res, data), ⟨some s', a⟩) := by
  have hle := sock.recv_le (timeval timeoutMS) outLen s
  rcases h : sock.recv (timeval timeoutMS) outLen s with ⟨data | _ | _, s'⟩
  · have hd : data.length ≤ outLen := hle data (by rw [h])
    rcases lt_or_eq_of_le hd with hlt | heq
    · exact ⟨.transportTimeout, data, s', rfl, hd, nofun, fun _ _ => exec_tcpRead_short h hlt⟩
    · exact ⟨.success, data, s', rfl, hd, fun _ => heq, fun _ _ => exec_tcpRead_all h heq⟩
  · exact ⟨.transportTimeout, [], s', rfl, Nat.zero_le _, nofun, fun _ _ => exec_tcpRead_wouldBlock h⟩
  · refine ⟨.transportGenericError, [], s', rfl, Nat.zero_le _, nofun, fun m a => ?_⟩
    rw [tcpRead, exec_bind_ok (exec_onHandle _), h]
    rfl

end

end LedgerKeePass.Kpl
