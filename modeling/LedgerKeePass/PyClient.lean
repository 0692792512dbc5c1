import LedgerKeePass.FailedRequests
import LedgerKeePass.LibSession

/-!
# The Python client of the tests (`pykpl.py`)

`PyKPL` is a second implementation of the library, over the packages `ledgerwallet`, `donna25519`
and `hashlib`, with a connection of its own. Calls of the two clients may be mixed: each of them runs
as on the map of slots and the table of name keys.
-/
namespace LedgerKeePass.Kpl
open Bytes Program App

/-- `CommException` with its status word, `struct.error`, and what `donna25519` raises. -/
inductive PyError
  | comm (sw : UInt16)
  | struct
  | badKey
  deriving DecidableEq

abbrev PyM (σ : Type) := Prog PyError (Option σ)

/-- What the packages do during one call, and the bytes of `random`. -/
structure PyHost where
  random : Buf 32
  getPublic : Buf 32 → Buf 32
  publicKey : List UInt8 → Except PyError (Buf 32)
  doExchange : Buf 32 → Buf 32 → Buf 32
  blake2b : List UInt8 → Buf 32

/-- `LedgerClient` of `ledgerwallet` on a connection to what `T` reaches. `apdu_exchange` sends one
APDU, the length of its data in a byte, and returns the data in front of the status `0x9000`. -/
structure Dongle {σ : Type} (T : FaultFree σ) where
  apduExchange : Sdk → Bool → UInt8 → List UInt8 → UInt8 → UInt8 → PyM σ (List UInt8)
  tooLong {sdk : Sdk} {approve : Bool} {ins p1 p2 : UInt8} {data : List UInt8} {dev : Option σ} :
    255 < data.length → exec (apduExchange sdk approve ins data p1 p2) dev = (.error .struct, dev)
  answered {sdk : Sdk} {approve : Bool} {ins p1 p2 : UInt8} {data reply : List UInt8} {s : σ}
      {d t : Device} :
    data.length ≤ 255 → swSize ≤ reply.length → reply.length ≤ 66 → T.At s d →
      serveRequest sdk approve (apdu ins p1 p2 data) d = (some reply, t) →
      ∃ s', T.At s' t ∧ exec (apduExchange sdk approve ins data p1 p2) (some s) =
        (if swOf reply = kplSwSuccess then .ok (reply.take (reply.length - swSize))
          else .error (.comm (swOf reply)), some s')

inductive PyValue
  | none
  | bytes (b : List UInt8)
  | ints (l : List ℕ)

namespace PyKPL

def genX25519Keypair (py : PyHost) : Buf 32 × Buf 32 := (py.random, py.getPublic py.random)

/-- The loop of `get_valid_slots`. -/
def slotLoop (slots s : ℕ) (ret : List ℕ) : List ℕ :=
  if slots > 0 then slotLoop (slots >>> 1) (s + 1) (if slots &&& 1 ≠ 0 then ret ++ [s] else ret) else ret
termination_by slots
decreasing_by
  rw [Nat.shiftRight_eq_div_pow]
  omega

section
variable {σ : Type} {T : FaultFree σ} (dongle : Dongle T) (sdk : Sdk) (approve : Bool) (py : PyHost)

/-- `decrypt_kpkey`, whose `zip` stops at the shorter one. -/
def decryptKpkey (ownPrivkey ownPubkey : Buf 32) (apduResult : List UInt8) : PyM σ PyValue := do
  match py.publicKey (apduResult.take 32) with
  | .error e => throw e
  | .ok appPubkey =>
    let ecdhe := py.doExchange ownPrivkey appPubkey
    let keystream := py.blake2b (ecdhe.toList ++ ownPubkey.toList ++ appPubkey.toList)
    return .bytes (List.zipWith (· ^^^ ·) (apduResult.drop 32) keystream.toList)

def getKeyFromName (name : List UInt8) : PyM σ PyValue := do
  let (privkey, pubkey) := genX25519Keypair py
  let result ← dongle.apduExchange sdk approve Instrs.getKeyFromName (pubkey.toList ++ name) 0 0
  decryptKpkey py privkey pubkey result

def storeKeySlot (slot : UInt8) (key : List UInt8) : PyM σ PyValue := do
  let _ ← dongle.apduExchange sdk approve Instrs.storeKey key slot 0
  return .none

def getKeySlot (slot : UInt8) : PyM σ PyValue := do
  let (privkey, pubkey) := genX25519Keypair py
  let result ← dongle.apduExchange sdk approve Instrs.getKey pubkey.toList slot 0
  decryptKpkey py privkey pubkey result

def getValidSlots : PyM σ PyValue := do
  match ← dongle.apduExchange sdk approve Instrs.getValidKeySlots [] 0 0 with
  | [slots] => return .ints (slotLoop slots.toNat 0 [])
  | _ => throw .struct

def eraseAllSlots : PyM σ PyValue := do
  let _ ← dongle.apduExchange sdk approve Instrs.eraseAllSlots [] 0 0
  return .none

end

end PyKPL

inductive PyOp
  | getKeyFromName (name : List UInt8)
  | storeKeySlot (slot : UInt8) (key : List UInt8)
  | getKeySlot (slot : UInt8)
  | getValidSlots
  | eraseAllSlots
  deriving DecidableEq

/-- A call with the SDK and the packages during it, and the user's choice. -/
structure PyCall where
  sdk : Sdk
  py : PyHost
  approve : Bool
  op : PyOp

def PyCall.program {σ : Type} {T : FaultFree σ} (dongle : Dongle T) (c : PyCall) : PyM σ PyValue :=
  match c.op with
  | .getKeyFromName name => PyKPL.getKeyFromName dongle c.sdk c.approve c.py name
  | .storeKeySlot slot key => PyKPL.storeKeySlot dongle c.sdk c.approve slot key
  | .getKeySlot slot => PyKPL.getKeySlot dongle c.sdk c.approve c.py slot
  | .getValidSlots => PyKPL.getValidSlots dongle c.sdk c.approve
  | .eraseAllSlots => PyKPL.eraseAllSlots dongle c.sdk c.approve

def PyValue.content : PyValue → List UInt8
  | .none => []
  | .bytes b => b
  | .ints l => l.map UInt8.ofNat

/-- An outcome in the terms of the library: a status word is what `parseAppSW` makes of it. -/
def pyOutcome : Except PyError PyValue → Result × List UInt8
  | .ok v => (.success, v.content)
  | .error (.comm sw) => (parseAppSW sw, [])
  | .error .struct => (.libBadLength, [])
  | .error .badKey => (.libX25519Fail, [])

def PyCall.outcome {σ : Type} {T : FaultFree σ} (dongle : Dongle T) (c : PyCall) :
    KplM σ (Result × List UInt8) := ExceptT.mk fun dev =>
  (.ok (pyOutcome (exec (c.program dongle) dev).1), (exec (c.program dongle) dev).2)

/-- A call over a connection `P` of its own, while the library may have the device open. -/
def PyCall.run (C P : Connection) (dongle : Dongle P.transport) (c : PyCall) :
    Prog Fault (Port C) (Result × List UInt8) :=
  within (fun p => some (P.connect p.device)) (fun p dev => p.withDevice ((dev.map P.device).getD p.device))
    (c.outcome dongle)

/-- The call of the library that a call of `PyKPL` stands for. -/
def PyOp.library : PyOp → LibraryOp
  | .getKeyFromName name => .getKeyFromName name (Buf.zeros _)
  | .storeKeySlot slot key => .slots (.setKey slot key)
  | .getKeySlot slot => .slots (.getKey slot (Buf.zeros _))
  | .getValidSlots => .slots (.getValidKeySlots [])
  | .eraseAllSlots => .slots .eraseAllSlots

/-- The length of the data of the APDU. -/
def PyOp.dataLen : PyOp → ℕ
  | .getKeyFromName name => 32 + name.length
  | .storeKeySlot _ key => key.length
  | .getKeySlot _ => 32
  | .getValidSlots => 0
  | .eraseAllSlots => 0

/-- A call as the library makes it. `PyKPL` checks no length, so that the app refuses what the
library does, as long as it fits in an APDU; and an exception carries no data. -/
def PyOp.apply (names : List UInt8 → Key) (approve : Bool) (m : SlotMap) (op : PyOp) :
    (Result × List UInt8) × SlotMap :=
  let ((res, out), m) := op.library.apply names approve m
  if res = .success then ((res, out), m)
  else if res = .libBadLength ∧ op.dataLen ≤ 255 then ((.protocolBadParam, []), m)
  else ((res, []), m)

/-- The packages as a host of the library. -/
def PyHost.host (py : PyHost) : Host where
  randombytesBuf := py.random
  cryptoScalarmultBase := py.getPublic
  cryptoScalarmult priv pub := some (py.doExchange priv pub)
  cryptoGenerichash := py.blake2b
  uninit := Buf.zeros

def PyCall.asLibrary (c : PyCall) : LibraryCall := ⟨c.sdk, c.py.host, c.approve, 0, c.op.library⟩

/-- The packages compute what libsodium does, and 32 bytes are a public key. -/
structure PyCall.Sound (sha : List UInt8 → Buf 32)
    (derive : List UInt8 → List UInt32 → Buf 32 × Buf 32) (c : PyCall) : Prop where
  library : c.asLibrary.Sound sha derive
  publicKey : ∀ b : Buf 32, c.py.publicKey b.toList = .ok b

/-- A call of one of the two clients. -/
inductive ClientCall
  | library (c : LibraryCall)
  | python (c : PyCall)

namespace ClientCall

def Sound (sha : List UInt8 → Buf 32) (derive : List UInt8 → List UInt32 → Buf 32 × Buf 32) :
    ClientCall → Prop
  | .library c => c.Sound sha derive
  | .python c => c.Sound sha derive

def run (C P : Connection) (dongle : Dongle P.transport) :
    ClientCall → Prog Fault (Port C) (Result × List UInt8)
  | .library c => c.run C
  | .python c => c.run C P dongle

/-- A call of the library connects, or it finds the handle of its object open. -/
def Connected (live : Bool) : ClientCall → Prop
  | .library c => c.op.Connected live
  | .python _ => True

def live (live : Bool) : ClientCall → Bool
  | .library c => c.op.live live
  | .python _ => live

def apply (names : List UInt8 → Key) (m : SlotMap) : ClientCall → (Result × List UInt8) × SlotMap
  | .library c => c.op.apply names c.approve m
  | .python c => c.op.apply names c.approve m

end ClientCall

section Slots

theorem and_one_testBit (n : ℕ) : n &&& 1 ≠ 0 ↔ n.testBit 0 = true := by
  rw [Nat.and_one_is_mod, Nat.testBit_zero, decide_eq_true_iff]
  omega

/-- The loop appends the numbers of the bits that are set, counted from `s` on. -/
theorem slotLoop_eq (n slots s : ℕ) (ret : List ℕ) (h : slots < 2 ^ n) :
    PyKPL.slotLoop slots s ret = ret ++ ((List.range n).filter fun i => slots.testBit i).map (s + ·) := by
  induction n generalizing slots s ret with
  | zero =>
    obtain rfl : slots = 0 := by simpa using h
    simp [PyKPL.slotLoop]
  | succ n ih =>
    rw [PyKPL.slotLoop]
    by_cases hz : slots > 0
    · have hlt : slots >>> 1 < 2 ^ n := by
        rw [Nat.shiftRight_eq_div_pow]
        omega
      have htail : (((List.range n).map Nat.succ).filter fun i => slots.testBit i).map (s + ·) =
          ((List.range n).filter fun i => (slots >>> 1).testBit i).map (s + 1 + ·) := by
        rw [List.filter_map, List.map_map]
        simp only [Nat.testBit_shiftRight]
        have hb : (fun i => slots.testBit i) ∘ Nat.succ = fun i => slots.testBit (1 + i) := by
          funext i
          rw [Function.comp_apply, Nat.succ_eq_add_one, Nat.add_comm]
        rw [hb]
        refine List.map_congr_left fun i _ => ?_
        simp only [Function.comp_apply]
        omega
      rw [if_pos hz, ih _ _ _ hlt, List.range_succ_eq_map, List.filter_cons]
      by_cases hb : slots.testBit 0 = true
      · rw [if_pos ((and_one_testBit slots).mpr hb), if_pos hb, List.map_cons, htail]
        simp
      · rw [if_neg fun h => hb ((and_one_testBit slots).mp h), if_neg hb, htail]
    · obtain rfl : slots = 0 := by omega
      simp

theorem slotLoop_slotsOf (slots : UInt8) :
    (PyKPL.slotLoop slots.toNat 0 []).map UInt8.ofNat = slotsOf slots := by
  rw [slotLoop_eq 8 _ _ _ slots.toNat_lt, slotsOf]
  simp

end Slots

section Keys
variable {σ : Type} {T : FaultFree σ} {dongle : Dongle T} {py : PyHost} {priv pub : Buf 32}
  {reply data : List UInt8} {sw : UInt16} {dev : Option σ} {s : σ} {d t : Device} {ins p1 p2 : UInt8}
  {res : Result} {out key : Key}

theorem xorBytes_toList {n : ℕ} (a b : Buf n) :
    (xorBytes a b).toList = List.zipWith (· ^^^ ·) a.toList b.toList := by
  cases a
  cases b
  rfl

/-- `PyKPL` decrypts as the library does. -/
theorem exec_decryptKpkey (hp : ∀ b : Buf 32, py.publicKey b.toList = .ok b)
    (hl : reply.length = 64 + swSize) :
    ∃ key, keyOf py.host priv pub reply = (.success, key) ∧
      exec (PyKPL.decryptKpkey py priv pub (reply.take (reply.length - swSize))) dev =
        (.ok (.bytes key.toList), dev) := by
  have hb : (Buf.ofList (64 + swSize) reply).toList = reply := by
    rw [Buf.ofList, Buf.overwrite_zero_toList _ hl.le, hl, List.drop_eq_nil_of_le (by simp), List.append_nil]
  have h₀ : ((Buf.ofList (64 + swSize) reply).window 0 32).toList = (reply.take 64).take 32 := by
    rw [Buf.window_toList _ (by decide), hb, List.take_take]
    rfl
  have h₁ : ((Buf.ofList (64 + swSize) reply).window 32 kplKeySize).toList = (reply.take 64).drop 32 := by
    rw [Buf.window_toList _ (by decide), hb, List.drop_take]
  refine ⟨_, rfl, ?_⟩
  rw [PyKPL.decryptKpkey, hl, Nat.add_sub_cancel, ← h₀, hp]
  dsimp only
  rw [← h₁, exec_pure]
  refine congrArg (fun l => (Except.ok (PyValue.bytes l), dev)) ?_
  exact (xorBytes_toList _ _).symm

/-- A key request of `PyKPL` ends as that of the library. -/
theorem exec_pyKey (dongle : Dongle T) {c : PyCall}
    (hc : ∀ b : Buf 32, c.py.publicKey b.toList = .ok b) (hs : T.At s d) {request : Apdu}
    (hr : Replied c.sdk c.py.host c.approve d request out reply t res key)
    (hb : request.bytes = apdu ins p1 p2 data) (hdata : data.length ≤ 255)
    (hres : res ≠ .protocolBadLength) :
    ∃ s' o, T.At s' t ∧
      exec (do
        let result ← dongle.apduExchange c.sdk c.approve ins data p1 p2
        PyKPL.decryptKpkey c.py (x25519GenPrivKey c.py.host).1 (x25519GenPrivKey c.py.host).2 result)
          (some s) = (o, some s') ∧
      pyOutcome o = (res, if res = .success then key.toList else []) := by
  have hserve := hr.served
  rw [hb] at hserve
  obtain ⟨s', hs', he⟩ := dongle.answered hdata hr.hasSw hr.fits hs hserve
  have hdec := hr.decoded
  rw [Outcome.decode] at hdec
  by_cases hsw : swOf reply = kplSwSuccess
  · rw [if_neg (not_not.mpr (parseAppSW_success.mpr hsw))] at hdec
    have hl : reply.length - swSize = 64 := by
      by_contra hl
      rw [if_pos hl] at hdec
      exact hres (congrArg Prod.fst hdec).symm
    rw [if_neg (not_not.mpr hl)] at hdec
    have hlen : reply.length = 64 + swSize := by
      have hge := hr.hasSw
      omega
    obtain ⟨k, hk, hx⟩ := @exec_decryptKpkey σ c.py (x25519GenPrivKey c.py.host).1
      (x25519GenPrivKey c.py.host).2 reply (some s') hc hlen
    obtain ⟨rfl, rfl⟩ := Prod.mk.inj (hk.symm.trans hdec)
    rw [if_pos hsw] at he
    exact ⟨s', _, hs', (exec_bind_ok he).trans hx, rfl⟩
  · have hne : parseAppSW (swOf reply) ≠ .success := fun h => hsw (parseAppSW_success.mp h)
    rw [if_pos hne] at hdec
    obtain ⟨rfl, -⟩ := Prod.mk.inj hdec
    rw [if_neg hsw] at he
    exact ⟨s', _, hs', exec_bind_error he, by rw [if_neg hne]; rfl⟩

/-- A request of `PyKPL` that is answered with a status word alone. -/
theorem exec_pyStatus (dongle : Dongle T) {sdk : Sdk} {approve : Bool} (hs : T.At s d)
    (hdata : data.length ≤ 255)
    (hr : serveRequest sdk approve (apdu ins p1 p2 data) d = (some (statusBytes sw), t)) :
    ∃ s' o, T.At s' t ∧
      exec (do
        let _ ← dongle.apduExchange sdk approve ins data p1 p2
        return .none) (some s) = (o, some s') ∧
      pyOutcome o = (parseAppSW sw, []) := by
  obtain ⟨s', hs', he⟩ := dongle.answered hdata le_rfl (Nat.le_add_left _ 64) hs hr
  have hsw := swOf_statusBytes [] sw
  rw [List.nil_append] at hsw
  rw [hsw] at he
  by_cases h : sw = kplSwSuccess
  · rw [if_pos h] at he
    exact ⟨s', _, hs', exec_bind_ok he, by rw [parseAppSW_success.mpr h]; rfl⟩
  · rw [if_neg h] at he
    exact ⟨s', _, hs', exec_bind_error he, rfl⟩

end Keys

section Calls
variable {σ : Type} {T : FaultFree σ} {dongle : Dongle T} {c : PyCall} {s : σ} {d : Device}
  {sha : List UInt8 → Buf 32} {derive : List UInt8 → List UInt32 → Buf 32 × Buf 32}

/-- A call of `PyKPL` ends as on the map of the device's slots. -/
def PyCall.Refines (names : List UInt8 → Key) (dongle : Dongle T) (c : PyCall) (s : σ) (d : Device) : Prop :=
  ∃ s' t o, exec (c.program dongle) (some s) = (o, some s') ∧ T.At s' t ∧ t.Resting ∧
    c.op.apply names c.approve d.nStorage.slotMap = (pyOutcome o, t.nStorage.slotMap)

theorem apply_ok {names : List UInt8 → Key} {approve : Bool} {m m' : SlotMap} {op : PyOp} {out : List UInt8}
    (h : op.library.apply names approve m = ((.success, out), m')) :
    op.apply names approve m = ((.success, out), m') := by
  rw [PyOp.apply, h]
  exact if_pos rfl

theorem apply_failed {names : List UInt8 → Key} {approve : Bool} {m m' : SlotMap} {op : PyOp}
    {res : Result} {out : List UInt8} (h : op.library.apply names approve m = ((res, out), m'))
    (hs : res ≠ .success) (hl : res ≠ .libBadLength) : op.apply names approve m = ((res, []), m') := by
  rw [PyOp.apply, h]
  dsimp only
  rw [if_neg hs, if_neg fun hc => hl hc.1]

theorem apply_tooLong {names : List UInt8 → Key} {approve : Bool} {m m' : SlotMap} {op : PyOp}
    {out : List UInt8} (h : op.library.apply names approve m = ((.libBadLength, out), m')) :
    op.apply names approve m =
      ((if op.dataLen ≤ 255 then .protocolBadParam else .libBadLength, []), m') := by
  rw [PyOp.apply, h]
  dsimp only
  by_cases hd : op.dataLen ≤ 255
  · rw [if_neg (by simp), if_pos ⟨rfl, hd⟩, if_pos hd]
  · rw [if_neg (by simp), if_neg fun hc => hd hc.2, if_neg hd]

/-- No status word stands for an error of the library itself. -/
theorem parseAppSW_ne_badLength (sw : UInt16) :
    parseAppSW sw ≠ .libBadLength ∧ parseAppSW sw ≠ .protocolBadLength := by
  rw [parseAppSW]
  split_ifs <;> simp

theorem apply_status {names : List UInt8 → Key} {approve : Bool} {m m' : SlotMap} {op : PyOp} {sw : UInt16}
    (h : op.library.apply names approve m = ((parseAppSW sw, []), m')) :
    op.apply names approve m = ((parseAppSW sw, []), m') := by
  by_cases hs : parseAppSW sw = .success
  · rw [hs] at h ⊢
    exact apply_ok h
  · exact apply_failed h hs (parseAppSW_ne_badLength sw).1

theorem apply_key {names : List UInt8 → Key} {approve : Bool} {m : SlotMap} {op : PyOp} {res : Result}
    {key : Key} (h : op.library.apply names approve m = ((res, key.toList), m)) (hl : res ≠ .libBadLength) :
    op.apply names approve m = ((res, if res = .success then key.toList else []), m) := by
  by_cases hs : res = .success
  · subst hs
    exact apply_ok h
  · rw [if_neg hs]
    exact apply_failed h hs hl

/-- What the library refuses for its length the app refuses too, or it does not fit in an APDU. -/
theorem refines_tooLong {names : List UInt8 → Key} {op : PyOp} {ins p1 : UInt8} {data out : List UInt8}
    {k : List UInt8 → PyM σ PyValue} (ho : c.op = op) (hs : T.At s d) (hd : d.Resting)
    (hp : c.program dongle = dongle.apduExchange c.sdk c.approve ins data p1 0 >>= k)
    (hlen : op.dataLen = data.length)
    (hf : ∀ h : data.length ≤ 255, d.commandOf (request ins p1 data h) = .fail invalidParameter)
    (hl : op.library.apply names c.approve d.nStorage.slotMap =
      ((.libBadLength, out), d.nStorage.slotMap)) : c.Refines names dongle s d := by
  rw [PyCall.Refines, ho, apply_tooLong hl, hp, hlen]
  by_cases h : data.length ≤ 255
  · obtain ⟨t, hr, ht, hst⟩ := @serve_command c.sdk c.approve _ _ _ hd (request_ne_nil h)
      (by simp [Command.isStore]) (hf h) rfl
    obtain ⟨s', hs', he⟩ := dongle.answered h le_rfl (Nat.le_add_left _ 64) hs hr
    have hsw : swOf (Command.response d.nStorage (.fail invalidParameter)) = statusWord invalidParameter :=
      swOf_statusBytes [] _
    rw [hsw, if_neg (by decide)] at he
    refine ⟨s', t, _, exec_bind_error he, hs', ht, ?_⟩
    rw [if_pos h, hst]
    rfl
  · refine ⟨s, d, _, exec_bind_error (dongle.tooLong (not_le.mp h)), hs, hd, ?_⟩
    rw [if_neg h]
    rfl

theorem commandOf_storeKey_length {slot : UInt8} {key : List UInt8} (hl : key.length ≠ 32)
    (h : key.length ≤ 255) : d.commandOf (request Instrs.storeKey slot key h) = .fail invalidParameter := by
  have hc : d.commandOf (request Instrs.storeKey slot key h) =
      command d.nStorage (d.gIoApduBuffer.overwrite 0 (apdu Instrs.storeKey slot 0 key)) := rfl
  obtain ⟨h₀, h₁, h₂, h₄⟩ := @apdu_header d.gIoApduBuffer Instrs.storeKey slot 0 key
  have hlc : (UInt8.ofNat key.length).toNat = key.length := by
    rw [UInt8.toNat_ofNat']
    omega
  rw [hc, command, h₀, h₁, h₂, h₄]
  change storeCommand _ _ _ _ = _
  rw [storeCommand, dif_neg]
  rw [hlc]
  exact fun hk => hl hk.2

theorem storeKeySlot_refines {names : List UInt8 → Key} {slot : UInt8} {key : List UInt8}
    (ho : c.op = .storeKeySlot slot key) (hnv : c.sdk.WritesNv) (hs : T.At s d) (hd : d.Resting) :
    c.Refines names dongle s d := by
  by_cases hl : key.length = 32
  · obtain ⟨key, rfl⟩ : ∃ k : Key, key = k.toList := ⟨⟨key, hl⟩, rfl⟩
    obtain ⟨sw, t, hr, ht, hm⟩ := @storeKey_served c.sdk c.approve d hd slot (fun _ => hnv) key
    obtain ⟨s', o, hs', he, hout⟩ := exec_pyStatus dongle hs (short_key key) hr
    refine ⟨s', t, o, ?_, hs', ht, ?_⟩
    · rw [PyCall.program, ho]
      exact he
    · rw [ho, hout]
      exact apply_status hm
  · have hp : c.program dongle = dongle.apduExchange c.sdk c.approve Instrs.storeKey key slot 0 >>=
        fun _ => pure PyValue.none := by
      rw [PyCall.program, ho]
      rfl
    refine @refines_tooLong _ _ _ _ _ _ _ _ _ _ _ [] _ ho hs hd hp rfl (commandOf_storeKey_length hl) ?_
    rw [PyOp.library, LibraryOp.apply, SlotCall.apply, dif_neg hl]

theorem eraseAllSlots_pyRefines {names : List UInt8 → Key} (ho : c.op = .eraseAllSlots)
    (hnv : c.sdk.WritesNv) (hs : T.At s d) (hd : d.Resting) : c.Refines names dongle s d := by
  obtain ⟨sw, t, hr, ht, hm⟩ := @eraseAllSlots_served c.sdk c.approve d hd hnv
  obtain ⟨s', o, hs', he, hout⟩ := exec_pyStatus dongle hs (Nat.zero_le _) hr
  refine ⟨s', t, o, ?_, hs', ht, ?_⟩
  · rw [PyCall.program, ho]
    exact he
  · rw [ho, hout]
    exact apply_status hm

theorem getValidSlots_pyRefines {names : List UInt8 → Key} (ho : c.op = .getValidSlots) (hs : T.At s d)
    (hd : d.Resting) : c.Refines names dongle s d := by
  have hcmd : d.commandOf (request Instrs.getValidKeySlots 0 [] (Nat.zero_le _)) = .getValidSlots :=
    command_getValidKeySlots
  obtain ⟨t, hr, ht, hst⟩ := @serve_command c.sdk c.approve _ _ _ hd (request_ne_nil _)
    (by simp [Command.isStore]) hcmd rfl
  obtain ⟨s', hs', he⟩ := dongle.answered (Nat.zero_le _) (Nat.le_add_left _ 1) (Nat.le_add_left _ 63) hs hr
  have hsw : swOf (Command.getValidSlots.response d.nStorage) = kplSwSuccess :=
    swOf_statusBytes [d.nStorage.keyValids] _
  rw [if_pos hsw] at he
  refine ⟨s', t, .ok (.ints (PyKPL.slotLoop d.nStorage.keyValids.toNat 0 [])), ?_, hs', ht, ?_⟩
  · rw [PyCall.program, ho]
    exact exec_bind_ok he
  · rw [ho, hst]
    refine (@apply_ok _ _ _ _ _ (occupied d.nStorage.slotMap) rfl).trans ?_
    rw [← slotsOf_keyValids, ← slotLoop_slotsOf]
    rfl

theorem apply_getKey_res (approve : Bool) (m : SlotMap) (slot : UInt8) (out : Key) :
    ((SlotCall.getKey slot out).apply approve m).1.1 ≠ .libBadLength ∧
      ((SlotCall.getKey slot out).apply approve m).1.1 ≠ .protocolBadLength := by
  rw [SlotCall.apply]
  split
  · split
    · simp
    · split <;> simp
  · simp

theorem getKeySlot_refines {names : List UInt8 → Key} {slot : UInt8} (ho : c.op = .getKeySlot slot)
    (hc : c.Sound sha derive) (hs : T.At s d) (hd : d.Resting) : c.Refines names dongle s d := by
  obtain ⟨reply, t, res, key, hk, hm⟩ := getKey_served (hc.library.exchange .eraseAllSlots) hd slot
    (Buf.zeros _)
  obtain ⟨hl, hp⟩ := apply_getKey_res c.approve d.nStorage.slotMap slot (Buf.zeros _)
  change (SlotCall.getKey slot (Buf.zeros _)).apply c.approve d.nStorage.slotMap = _ at hm
  rw [hm] at hl hp
  obtain ⟨s', o, hs', he, hout⟩ := exec_pyKey dongle hc.publicKey hs hk rfl (short_key _) hp
  refine ⟨s', t, o, ?_, hs', hk.resting, ?_⟩
  · rw [PyCall.program, ho]
    exact he
  · rw [ho, hout, hk.storage]
    exact apply_key hm hl

theorem commandOf_name_length {name : List UInt8} (pub : Buf 32) (hn : 20 < name.length)
    (h : (pub.toList ++ name).length ≤ 255) :
    d.commandOf (request Instrs.getKeyFromName 0 (pub.toList ++ name) h) = .fail invalidParameter := by
  have hl : (pub.toList ++ name).length = 32 + name.length := by
    rw [List.length_append, List.Vector.toList_length]
  have hb : (request Instrs.getKeyFromName 0 (pub.toList ++ name) h).bytes =
      [cla, 3, 0, 0, UInt8.ofNat (pub.toList ++ name).length] ++ (pub.toList ++ name) := rfl
  obtain ⟨-, h₀, h₁, h₄⟩ := @received_ins d _ _ _ _ _ hb
  refine command_name_length h₀ h₁ ?_
  have hlc : (UInt8.ofNat (pub.toList ++ name).length).toNat = (pub.toList ++ name).length := by
    rw [UInt8.toNat_ofNat']
    omega
  rw [nameField_length, h₄, hlc, hl]
  omega

theorem nameResult_ne {approve : Bool} {name : List UInt8} {out key : Key} (hn : name.length ≤ 20) :
    (nameResult approve name out key).1 ≠ .libBadLength ∧
      (nameResult approve name out key).1 ≠ .protocolBadLength := by
  rw [nameResult, if_neg (not_lt.mpr hn)]
  split_ifs <;> simp

theorem getKeyFromName_pyRefines {name : List UInt8} (ho : c.op = .getKeyFromName name)
    (hc : c.Sound sha derive) (hs : T.At s d) (hd : d.Resting) :
    c.Refines (nameKey sha derive d.seed) dongle s d := by
  by_cases hn : name.length ≤ 20
  · obtain ⟨reply, t, res, key, hr, hres⟩ := replied_name hc.library hd hn (Buf.zeros _)
    obtain ⟨hl, hp⟩ := @nameResult_ne c.approve name (Buf.zeros _) (nameKey sha derive d.seed name) hn
    change (res, key) = nameResult c.approve name (Buf.zeros _) (nameKey sha derive d.seed name) at hres
    rw [← hres] at hl hp
    obtain ⟨s', o, hs', he, hout⟩ := exec_pyKey dongle hc.publicKey hs hr rfl (short_name _ hn) hp
    refine ⟨s', t, o, ?_, hs', hr.resting, ?_⟩
    · rw [PyCall.program, ho]
      exact he
    · rw [ho, hout, hr.storage]
      refine apply_key ?_ hl
      rw [PyOp.library, LibraryOp.apply, ← hres]
  · set pub := (x25519GenPrivKey c.py.host).2
    have hp : c.program dongle =
        dongle.apduExchange c.sdk c.approve Instrs.getKeyFromName (pub.toList ++ name) 0 0 >>=
          PyKPL.decryptKpkey c.py (x25519GenPrivKey c.py.host).1 pub := by
      rw [PyCall.program, ho]
      rfl
    have hlen : (PyOp.getKeyFromName name).dataLen = (pub.toList ++ name).length := by
      rw [PyOp.dataLen, List.length_append, List.Vector.toList_length]
    have hlib : (PyOp.getKeyFromName name).library.apply (nameKey sha derive d.seed) c.approve
        d.nStorage.slotMap = ((.libBadLength, (Buf.zeros kplKeySize).toList), d.nStorage.slotMap) := by
      rw [PyOp.library, LibraryOp.apply, nameResult, if_pos (not_le.mp hn)]
    exact refines_tooLong ho hs hd hp hlen (commandOf_name_length _ (not_le.mp hn)) hlib

theorem pyCall_refines (dongle : Dongle T) (hc : c.Sound sha derive) (hs : T.At s d) (hd : d.Resting) :
    c.Refines (nameKey sha derive d.seed) dongle s d := by
  have hnv := (hc.library.exchange .eraseAllSlots).writesNv
  cases ho : c.op with
  | getKeyFromName name => exact getKeyFromName_pyRefines ho hc hs hd
  | storeKeySlot slot key => exact storeKeySlot_refines ho hnv hs hd
  | getKeySlot slot => exact getKeySlot_refines ho hc hs hd
  | getValidSlots => exact getValidSlots_pyRefines ho hs hd
  | eraseAllSlots => exact eraseAllSlots_pyRefines ho hnv hs hd

end Calls

section Clients
variable {σ : Type} {T : FaultFree σ} {dongle : Dongle T} {sha : List UInt8 → Buf 32}
  {derive : List UInt8 → List UInt32 → Buf 32 × Buf 32} {seed : List UInt8}

/-- The client on a connection to a device of this seed. -/
def Dongle.seeded (dongle : Dongle T) (seed : List UInt8) : Dongle (T.seeded seed) where
  apduExchange := dongle.apduExchange
  tooLong := dongle.tooLong
  answered hdata hsw hfit hs hr := by
    obtain ⟨s', hs', he⟩ := dongle.answered hdata hsw hfit hs.1 hr
    obtain ⟨hready, hseed⟩ := serveRequest_seed hs.2.1 hr
    exact ⟨s', ⟨hs', hready, hseed.trans hs.2.2⟩, he⟩

theorem pyCall_simulates {c : PyCall} (hc : c.Sound sha derive) :
    Simulates (T.Holds seed) (c.outcome dongle) (c.op.apply (nameKey sha derive seed) c.approve) := by
  rintro - - ⟨s, d, rfl, hs, hd, rfl, rfl⟩
  have hs' : (T.seeded d.seed).At s d := ⟨hs, hd.ready, rfl⟩
  obtain ⟨s₁, t, o, he, hs₁, ht, hm⟩ := pyCall_refines (dongle.seeded d.seed) hc hs' hd
  change exec (c.program dongle) (some s) = _ at he
  have hrun : exec (c.outcome dongle) (some s) = (.ok (pyOutcome o), some s₁) :=
    congrArg (fun r => (Except.ok (pyOutcome r.1), r.2)) he
  refine ⟨some s₁, ?_, s₁, t, rfl, hs₁.1, ht, hs₁.2.2, ?_⟩
  · exact hrun.trans (congrArg (fun r => (Except.ok (Prod.fst r), some s₁)) hm.symm)
  · exact (congrArg Prod.snd hm).symm

variable {C P : Connection} {live : Bool} {p : Port C} {m : SlotMap}

/-- A call of `PyKPL`, whatever the library has open. -/
theorem pyCall_port (dongle : Dongle P.transport) {c : PyCall} (hc : c.Sound sha derive) :
    Simulates (Port.Holds seed live) (c.run C P dongle) (c.op.apply (nameKey sha derive seed) c.approve) := by
  have hsim := @pyCall_simulates _ _ dongle _ _ seed c hc
  refine hsim.within (fun p m h => ?_) fun p m dev n h hdev => ?_
  · obtain ⟨hd, hseed, hm⟩ := h.rests
    exact ⟨_, p.device, rfl, P.connected _, hd, hseed, hm⟩
  · obtain ⟨s, d, rfl, hs, hd, hseed, hm⟩ := hdev
    refine h.withDevice ?_
    change Rests seed (P.device s) n
    rw [P.found hs]
    exact ⟨hd, hseed, hm⟩

/-- One call. -/
theorem clientCall_port {dongle : Dongle P.transport} {c : ClientCall} (hc : c.Sound sha derive)
    (ho : c.Connected live) (hp : p.Holds seed live m) :
    ∃ p', exec (c.run C P dongle) p = (.ok (c.apply (nameKey sha derive seed) m).1, p') ∧
      p'.Holds seed (c.live live) (c.apply (nameKey sha derive seed) m).2 := by
  cases c with
  | library c => exact libraryCall_port hc ho hp
  | python c => exact pyCall_port dongle hc p m hp

/-- The two clients are interchangeable: in any sequence of calls, each made by either of them, the
outcomes are those on one map of slots and one table of name keys, so that each client gets what
the other stored. They differ in who refuses a key or a name that is too long. -/
theorem clients_interchangeable {d : Device} (hd : Started d) (C P : Connection)
    (dongle : Dongle P.transport) (calls : List ClientCall) (hc : ∀ c ∈ calls, c.Sound sha derive)
    (ho : Follows ClientCall.Connected ClientCall.live false calls) :
    let session := runAll (fun c m => c.apply (nameKey sha derive d.seed) m) calls d.nStorage.slotMap
    ∃ p, exec (calls.mapM (ClientCall.run C P dongle)) (.closed d) = (.ok session.1, p) ∧
      p.Holds d.seed (calls.foldl ClientCall.live false) session.2 := by
  have hs : (Port.closed d : Port C).Holds d.seed false d.nStorage.slotMap :=
    .closed ⟨started_resting hd, rfl, rfl⟩
  exact exec_mapM_follows (fun _ c hmem hcon p m hp => clientCall_port (hc c hmem) hcon hp) ho hs

end Clients

section Instance
variable {σ : Type} (T : FaultFree σ)

/-- The data of an answer that came, behind which its status is checked. -/
def replyOf {m : ℕ} (p : KplM σ (Result × LedgerAnswer m)) : PyM σ (List UInt8) := ExceptT.mk fun dev =>
  match exec p dev with
  | (.ok (_, ans), dev) =>
    if swOf ans.bytes = kplSwSuccess then (.ok (ans.bytes.take (ans.bytes.length - swSize)), dev)
    else (.error (.comm (swOf ans.bytes)), dev)
  | (.error _, dev) => (.error .badKey, dev)

theorem replyOf_eq {m : ℕ} {p : KplM σ (Result × LedgerAnswer m)} {dev dev' : Option σ} {res : Result}
    {ans : LedgerAnswer m} (h : exec p dev = (.ok (res, ans), dev')) :
    exec (replyOf p) dev = (if swOf ans.bytes = kplSwSuccess then
      .ok (ans.bytes.take (ans.bytes.length - swSize)) else .error (.comm (swOf ans.bytes)), dev') := by
  have hx : exec (replyOf p) dev = (match exec p dev with
    | (.ok (_, ans), dev) =>
      if swOf ans.bytes = kplSwSuccess then (.ok (ans.bytes.take (ans.bytes.length - swSize)), dev)
      else (.error (.comm (swOf ans.bytes)), dev)
    | (.error _, dev) => (.error .badKey, dev)) := rfl
  rw [hx, h]
  dsimp only
  split <;> rfl

/-- `apdu_exchange` over the transport itself. -/
def transportExchange (sdk : Sdk) (approve : Bool) (ins : UInt8) (data : List UInt8) (p1 p2 : UInt8) :
    PyM σ (List UInt8) :=
  if 255 < data.length then throw .struct
  else replyOf (withAnswer (Buf.zeros 66) (T.exchange sdk approve (apdu ins p1 p2 data) 0))

def transportDongle : Dongle T where
  apduExchange := transportExchange T
  tooLong h := by
    rw [transportExchange, if_pos h]
    rfl
  answered {sdk} {approve} {ins} {p1} {p2} {data} {reply} {s} {d} {t} hdata hsw hfit hs hr := by
    obtain ⟨s', hs', he⟩ := T.delivers (Buf.zeros 66) 0 hfit (by decide) hsw hs hr
    refine ⟨s', hs', ?_⟩
    have hx := exec_withAnswer he
    rw [transportExchange, if_neg (not_lt.mpr hdata), replyOf_eq hx, filled_bytes]

/-- The packages for the exchange of `exchangeHost`. -/
def exchangePy : PyHost where
  random := libPriv
  getPublic _ := libPub
  publicKey b := if h : b.length = 32 then .ok ⟨b, h⟩ else .error .badKey
  doExchange priv pub := if priv = libPriv ∧ pub = appPub then sharedSecret else Buf.zeros _
  blake2b := digest

theorem exchangePy_agrees : exchangePy.doExchange libPriv appPub = sharedSecret := by
  decide +kernel

theorem exchangePy_sound (approve : Bool) (op : PyOp) :
    PyCall.Sound shaA deriveA ⟨nameSdk, exchangePy, approve, op⟩ where
  library :=
    { exchange := fun _ =>
        { writesNv := fun _ => rfl
          agree := ⟨appPriv, appPub, sharedSecret, rfl, nameSdk_agrees.1, nameSdk_agrees.2.1,
            congrArg some exchangePy_agrees⟩
          blake2b := fun _ => rfl }
      derives := ⟨fun _ => rfl, fun _ _ => rfl⟩ }
  publicKey b := dif_pos (List.Vector.toList_length b)

/-- A key stored by `PyKPL` is read by the library, which is connected at the second attempt, and the
name `"a"` has one key for both. -/
def mixedCalls : List ClientCall :=
  let library (approve : Bool) (op : LibraryOp) : ClientCall :=
    .library ⟨nameSdk, exchangeHost, approve, 60000, op⟩
  let python (approve : Bool) (op : PyOp) : ClientCall := .python ⟨nameSdk, exchangePy, approve, op⟩
  [library false (.fromDevice .transportConnectionFailed),
    python false (.storeKeySlot 3 (List.replicate 32 5)), library false (.fromDevice .success),
    library true (.slots (.getKey 3 (Buf.zeros _))), python true (.getKeyFromName [97]),
    library true (.getKeyFromName [97] (Buf.zeros _)), python false .getValidSlots,
    python false (.storeKeySlot 3 (List.replicate 31 5))]

theorem clients_interchangeable_mixed :
    ∃ p, exec (mixedCalls.mapM (ClientCall.run tcpConnection tcpConnection (transportDongle tcpFaultFree)))
        (.closed seededDevice) =
          (.ok [(.transportConnectionFailed, []), (.success, []), (.success, []),
            (.success, List.replicate 32 5), (.success, keyA.toList), (.success, keyA.toList),
            (.success, [3]), (.protocolBadParam, [])], p) := by
  have hstart : Started seededDevice := ⟨plainSdk, .cleared, _, fun _ => rfl, exec_mainBody rfl⟩
  have hc : ∀ c ∈ mixedCalls, c.Sound shaA deriveA := by
    simp [mixedCalls, ClientCall.Sound, nameSdk_sound, exchangePy_sound]
  have hcon : Follows ClientCall.Connected ClientCall.live false mixedCalls := by
    simp [mixedCalls, Follows, ClientCall.Connected, ClientCall.live, LibraryOp.Connected, LibraryOp.live]
  obtain ⟨p, he, -⟩ := clients_interchangeable hstart tcpConnection tcpConnection
    (transportDongle tcpFaultFree) mixedCalls hc hcon
  refine ⟨p, he.trans ?_⟩
  have ho : (runAll (fun c m => ClientCall.apply (nameKey shaA deriveA seededDevice.seed) m c) mixedCalls
      seededDevice.nStorage.slotMap).1 = [(.transportConnectionFailed, []), (.success, []), (.success, []),
        (.success, List.replicate 32 5), (.success, keyA.toList), (.success, keyA.toList),
        (.success, [3]), (.protocolBadParam, [])] := by
    decide +kernel
  exact congrArg (fun l => (Except.ok l, p)) ho

end Instance

end LedgerKeePass.Kpl
