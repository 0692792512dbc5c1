import LedgerKeePass.ClientMemory

/-!
# What operations on keys leave in memory (`kpl.cpp`)

`setKey`, `getKey` and `getKeyFromName` with the memory that they give back when they return: the
blocks of their streams, their answer and what was on their stack. None of it depends on a key, on a
private key or on what the device sent, but for the device's public key and a decryption that failed.
-/
namespace LedgerKeePass.Kpl
open Bytes Program App

/-- A stream as `LedgerClient::apduStream` makes it. -/
def newStream (ins p1 p2 : UInt8) (spare : List UInt8) : HeapVec UInt8 :=
  .ofList (apduStream ins p1 p2) spare

/-- `sodium_memzero` of a whole array -/
def sodiumMemzero {n : ℕ} (a : Buf n) : Buf n := a.overwrite 0 (Buf.zeros n).toList

/-- The arrays of a decryption as they are when it returns. -/
structure DecryptStack where
  appPubKey : Buf 32
  sharedSecret : Buf 32
  keystream : Buf 32

/-- The memory of `getKey` and `getKeyFromName` when they return. -/
structure KeyMemory where
  request : List (List UInt8)
  answer : Buf (64 + swSize)
  ownPrivKey : Buf 32
  ownPubKey : Buf 32
  decrypt : Option DecryptStack

section
variable {σ : Type} (exchange : Exchange σ) (host : Host)
/- What a block that is allocated holds, and the array that a failed `crypto_scalarmult` leaves. -/
variable (heap : ℕ → List UInt8) (failed : Buf 32)

/-- `setKey`: the stream that the key is appended to is copied, and destroyed before the exchange. -/
def setKeyOnHeap (slot : UInt8) (key : List UInt8) (timeoutMS : UInt32) :
    KplM σ (Result × List (List UInt8) × Option (Buf (0 + swSize))) := do
  if key.length ≠ kplKeySize then return (.libBadLength, [], none)
  else
    let made := (newStream Instrs.storeKey slot 0 (heap 0)).append key (heap 1)
    let ((res, stream), ans) ← withAnswer (host.uninit (0 + swSize))
      (streamExchange exchange (made.copy (heap 2)) timeoutMS)
    let left := ((wipe made).release ++ (wipe stream).release, some ans.destroyed)
    if res ≠ .success then return (res, left)
    else return (parseAppSW (← demand .outOfBounds ans.sw), left)

/-- `X25519DecryptKey`, and the arrays on its stack. -/
def decryptOnStack (key appPubKey ownPubKey ownPrivKey : Buf 32) : Option (Buf 32) × DecryptStack :=
  match host.cryptoScalarmult ownPrivKey appPubKey with
  | none => (none, ⟨appPubKey, failed, host.uninit 32⟩)
  | some sharedSecret =>
    let keystream := host.cryptoGenerichash
      (sharedSecret.toList ++ ownPubKey.toList ++ appPubKey.toList)
    (some (xorBytes key keystream), ⟨appPubKey, sodiumMemzero sharedSecret, sodiumMemzero keystream⟩)

def decryptAnswerOnStack {n : ℕ} (ans : LedgerAnswer (64 + swSize)) (out : Buf n)
    (ownPrivKey ownPubKey : Buf 32) : KplM σ ((Result × Buf n) × DecryptStack) := do
  let appPubKey ← demand .outOfBounds (ans.slice 0 32)
  let key ← demand .outOfBounds (ans.slice 32 kplKeySize)
  let out ← demand .outOfBounds (out.copyAt 0 key.toList)
  match decryptOnStack host failed key appPubKey ownPubKey ownPrivKey with
  | (none, stack) => return ((.libX25519Fail, out), stack)
  | (some key, stack) =>
    let out ← demand .outOfBounds (out.copyAt 0 key.toList)
    return ((.success, out), stack)

/-- `sendKeyApduAndDecrypt` with the stream and the key pair of its caller, up to the caller's return. -/
def sendKeyOnHeap {n : ℕ} (out : Buf n) (stream : HeapVec UInt8) (ownPrivKey ownPubKey : Buf 32)
    (timeoutMS : UInt32) : KplM σ ((Result × Buf n) × KeyMemory) := do
  let ((res, stream), ans) ← withAnswer (host.uninit (64 + swSize))
    (streamExchange exchange stream timeoutMS)
  let left (decrypt : Option DecryptStack) : KeyMemory := {
    request := (wipe stream).release
    answer := ans.destroyed
    ownPrivKey := sodiumMemzero ownPrivKey
    ownPubKey := sodiumMemzero ownPubKey
    decrypt }
  if res ≠ .success then return ((res, out), left none)
  else
    let res := parseAppSW (← demand .outOfBounds ans.sw)
    if res ≠ .success then return ((res, out), left none)
    else if ans.dataSize ≠ 64 then return ((.protocolBadLength, out), left none)
    else
      let (res, stack) ← decryptAnswerOnStack host failed ans out ownPrivKey ownPubKey
      return (res, left (some stack))

def getKeyOnHeap {n : ℕ} (slot : UInt8) (out : Buf n) (timeoutMS : UInt32) :
    KplM σ ((Result × Buf n) × Option KeyMemory) := do
  if n ≠ kplKeySize then return ((.libBadLength, out), none)
  else
    let (ownPrivKey, ownPubKey) := x25519GenPrivKey host
    let stream := (newStream Instrs.getKey slot 0 (heap 0)).append ownPubKey.toList (heap 1)
    let (res, left) ← sendKeyOnHeap exchange host failed out stream ownPrivKey ownPubKey timeoutMS
    return (res, some left)

def getKeyFromNameOnHeap {n : ℕ} (name : List UInt8) (out : Buf n) (timeoutMS : UInt32) :
    KplM σ ((Result × Buf n) × Option KeyMemory) := do
  if name.length > kplMaxNameSize ∨ n ≠ kplKeySize then return ((.libBadLength, out), none)
  else
    let (ownPrivKey, ownPubKey) := x25519GenPrivKey host
    let stream := ((newStream Instrs.getKeyFromName 0 0 (heap 0)).append ownPubKey.toList (heap 1)).append
      name (heap 2)
    let (res, left) ← sendKeyOnHeap exchange host failed out stream ownPrivKey ownPubKey timeoutMS
    return (res, some left)

end

section
variable {σ : Type} {exchange : Exchange σ} {host : Host} {heap : ℕ → List UInt8} {failed : Buf 32}

@[simp] theorem sodiumMemzero_eq {n : ℕ} (a : Buf n) : sodiumMemzero a = Buf.zeros n :=
  Buf.overwrite_full _ _

@[simp] theorem contents_newStream (ins p1 p2 : UInt8) (spare : List UInt8) :
    (newStream ins p1 p2 spare).contents = apduStream ins p1 p2 :=
  HeapVec.contents_ofList _ _

/-- What is returned along with the answer is computed from what was returned. -/
theorem withAnswer_map {α β : Type} {m : ℕ} (uninit : Buf m) (p : LibM σ m α) (f : α → β) :
    withAnswer uninit (do return f (← p)) = (do
      let (a, ans) ← withAnswer uninit p
      return (f a, ans)) := by
  funext dev
  change exec (withAnswer uninit (p >>= fun a => pure (f a))) dev =
    exec (withAnswer uninit p >>= fun x => pure (f x.1, x.2)) dev
  rw [exec_withAnswer_eq, exec_bind, exec_bind, exec_withAnswer_eq]
  rcases exec p ⟨dev, .fresh uninit⟩ with ⟨_ | a, l⟩
  · rfl
  · rfl

theorem withAnswer_streamExchange {m : ℕ} (uninit : Buf m) (stream : HeapVec UInt8) (timeoutMS : UInt32) :
    withAnswer uninit (streamExchange exchange stream timeoutMS) = (do
      let (res, ans) ← withAnswer uninit (apduExchange exchange stream.contents timeoutMS)
      return ((res, exchanged stream), ans)) := by
  rw [streamExchange_eq]
  exact withAnswer_map uninit _ fun res => (res, exchanged stream)

/-- The memory of a decryption aside, it is the decryption. -/
theorem decryptAnswerOnStack_fst {n : ℕ} (ans : LedgerAnswer (64 + swSize)) (out : Buf n)
    (ownPrivKey ownPubKey : Buf 32) :
    (do
      let x ← decryptAnswerOnStack (σ := σ) host failed ans out ownPrivKey ownPubKey
      return x.1) = decryptAnswer host ans out ownPrivKey ownPubKey := by
  rw [decryptAnswerOnStack, decryptAnswer]
  simp only [bind_assoc]
  refine bind_congr fun appPubKey => bind_congr fun key => bind_congr fun out => ?_
  rw [decryptOnStack, x25519DecryptKey]
  cases host.cryptoScalarmult ownPrivKey appPubKey with
  | none => simp
  | some sharedSecret => simp

theorem sendKeyOnHeap_fst {n : ℕ} (out : Buf n) (stream : HeapVec UInt8) (ownPrivKey ownPubKey : Buf 32)
    (timeoutMS : UInt32) :
    (do
      let x ← sendKeyOnHeap exchange host failed out stream ownPrivKey ownPubKey timeoutMS
      return x.1) =
      sendKeyApduAndDecrypt exchange host out stream.contents ownPrivKey ownPubKey timeoutMS := by
  rw [sendKeyOnHeap, sendKeyApduAndDecrypt, withAnswer_streamExchange]
  simp only [bind_assoc, pure_bind]
  refine bind_congr fun x => ?_
  obtain ⟨res, ans⟩ := x
  dsimp only
  by_cases hres : res ≠ .success
  · simp only [if_pos hres, pure_bind]
  simp only [if_neg hres, bind_assoc]
  refine bind_congr fun sw => ?_
  by_cases hsw : parseAppSW sw ≠ .success
  · simp only [if_pos hsw, pure_bind]
  by_cases hsize : ans.dataSize ≠ 64
  · simp only [if_neg hsw, if_pos hsize, pure_bind]
  · simp only [if_neg hsw, if_neg hsize, ← @decryptAnswerOnStack_fst σ host failed, bind_assoc, pure_bind]

theorem withAnswer_inv {α : Type} {m : ℕ} {uninit : Buf m} {p : LibM σ m α} {dev dev' : Option σ} {a : α}
    {ans : LedgerAnswer m} (h : exec (withAnswer uninit p) dev = (.ok (a, ans), dev')) :
    exec p ⟨dev, .fresh uninit⟩ = (.ok a, ⟨dev', ans⟩) := by
  rw [exec_withAnswer_eq] at h
  rcases hp : exec p ⟨dev, .fresh uninit⟩ with ⟨_ | b, l⟩
  · rw [hp] at h
    cases h
  · rw [hp] at h
    cases h
    rfl

/-- The stream and the answer of a request that returned, as they are destroyed. -/
theorem request_left {dev : LedgerDevice σ} {m : ℕ} {uninit : Buf m} {stream w : HeapVec UInt8}
    {timeoutMS : UInt32} {s : σ} {res : Result} {ans : LedgerAnswer m} {dev' : Option σ}
    (h : exec (withAnswer uninit (streamExchange dev.exchange stream timeoutMS)) (some s) =
      (.ok ((res, w), ans), dev')) :
    wipe w = wipe stream ∧ ∃ k ≤ m, ans.destroyed = uninit.overwrite 0 (List.replicate k 0) := by
  have hrun := withAnswer_inv h
  obtain ⟨hsize, rfl⟩ := streamExchange_inv hrun
  refine ⟨wipe_exchanged hsize, ?_⟩
  obtain ⟨k, hk, hd⟩ := apduExchange_destroyed (m := m) dev stream.contents timeoutMS s
  rw [streamExchange_eq] at hrun
  have hout := congrArg (fun x => x.2.out.destroyed) hrun
  dsimp only at hout
  rw [exec_bind_keeps fun _ => keeps_pure _, hd uninit] at hout
  exact ⟨k, hk, hout.symm⟩

theorem decryptAnswerOnStack_cleared {n : ℕ} {ans : LedgerAnswer (64 + swSize)} {out : Buf n}
    {ownPrivKey ownPubKey : Buf 32} {dev dev' : Option σ} {r : Result × Buf n} {stack : DecryptStack}
    (h : exec (decryptAnswerOnStack host failed ans out ownPrivKey ownPubKey) dev =
      (.ok (r, stack), dev')) (hr : r.1 ≠ .libX25519Fail) :
    stack.sharedSecret = Buf.zeros 32 ∧ stack.keystream = Buf.zeros 32 := by
  rw [decryptAnswerOnStack] at h
  obtain ⟨appPubKey, d₁, -, h⟩ := exec_bind_inv h
  obtain ⟨key, d₂, -, h⟩ := exec_bind_inv h
  obtain ⟨out', d₃, -, h⟩ := exec_bind_inv h
  rw [decryptOnStack] at h
  rcases hs : host.cryptoScalarmult ownPrivKey appPubKey with _ | sharedSecret
  · rw [hs] at h
    cases h
    exact absurd rfl hr
  · rw [hs] at h
    dsimp only at h
    obtain ⟨out₂, d₄, -, h⟩ := exec_bind_inv h
    cases h
    exact ⟨sodiumMemzero_eq _, sodiumMemzero_eq _⟩

/-- No key, no private key and nothing that the device sent is left, but for the device's public key,
and the shared secret of a decryption that failed. -/
structure Cleared (uninit : Buf (64 + swSize)) (request : List (List UInt8)) (res : Result)
    (left : KeyMemory) : Prop where
  request : left.request = request
  answer : ∃ k ≤ 64 + swSize, left.answer = uninit.overwrite 0 (List.replicate k 0)
  ownPrivKey : left.ownPrivKey = Buf.zeros 32
  ownPubKey : left.ownPubKey = Buf.zeros 32
  decrypt : res ≠ .libX25519Fail → ∀ stack ∈ left.decrypt,
    stack.sharedSecret = Buf.zeros 32 ∧ stack.keystream = Buf.zeros 32

theorem sendKeyOnHeap_cleared {dev : LedgerDevice σ} {n : ℕ} {out : Buf n} {stream : HeapVec UInt8}
    {ownPrivKey ownPubKey : Buf 32} {timeoutMS : UInt32} {s : σ} {r : Result × Buf n} {left : KeyMemory}
    {dev' : Option σ}
    (h : exec (sendKeyOnHeap dev.exchange host failed out stream ownPrivKey ownPubKey timeoutMS) (some s) =
      (.ok (r, left), dev')) :
    Cleared (host.uninit (64 + swSize)) (wipe stream).release r.1 left := by
  rw [sendKeyOnHeap] at h
  obtain ⟨⟨⟨res, w⟩, ans⟩, d₁, hx, h⟩ := exec_bind_inv h
  obtain ⟨hw, hans⟩ := request_left hx
  have hleft {decrypt : Option DecryptStack} (hd : r.1 ≠ .libX25519Fail → ∀ stack ∈ decrypt,
      stack.sharedSecret = Buf.zeros 32 ∧ stack.keystream = Buf.zeros 32) :
      Cleared (host.uninit (64 + swSize)) (wipe stream).release r.1 {
        request := (wipe w).release
        answer := ans.destroyed
        ownPrivKey := sodiumMemzero ownPrivKey
        ownPubKey := sodiumMemzero ownPubKey
        decrypt } :=
    ⟨by rw [hw], hans, sodiumMemzero_eq _, sodiumMemzero_eq _, hd⟩
  dsimp only at h
  by_cases hres : res ≠ .success
  · rw [if_pos hres] at h
    cases h
    exact hleft fun _ => nofun
  rw [if_neg hres] at h
  obtain ⟨sw, d₂, -, h⟩ := exec_bind_inv h
  by_cases hsw : parseAppSW sw ≠ .success
  · rw [if_pos hsw] at h
    cases h
    exact hleft fun _ => nofun
  by_cases hsize : ans.dataSize ≠ 64
  · rw [if_neg hsw, if_pos hsize] at h
    cases h
    exact hleft fun _ => nofun
  · rw [if_neg hsw, if_neg hsize] at h
    obtain ⟨⟨r', stack⟩, d₃, hd, h⟩ := exec_bind_inv h
    cases h
    refine hleft fun hr stack' hmem => ?_
    cases hmem
    exact decryptAnswerOnStack_cleared hd hr

/-- A program that returns as another does, and something more. -/
theorem exec_of_fst {ε τ α β : Type} {p : Prog ε τ (α × β)} {q : Prog ε τ α} {a : α} {s t : τ}
    (hpq : (do
      let x ← p
      return x.1) = q) (hq : exec q s = (.ok a, t)) : ∃ b, exec p s = (.ok (a, b), t) := by
  rw [← hpq] at hq
  obtain ⟨⟨a', b⟩, u, hp, h⟩ := exec_bind_inv hq
  cases h
  exact ⟨b, hp⟩

/-- The stream that the key is appended to. -/
def setKeyStream (heap : ℕ → List UInt8) (slot : UInt8) (key : List UInt8) : HeapVec UInt8 :=
  (newStream Instrs.storeKey slot 0 (heap 0)).append key (heap 1)

theorem setKeyOnHeap_fst (heap : ℕ → List UInt8) (slot : UInt8) (key : List UInt8) (timeoutMS : UInt32) :
    (do
      let x ← setKeyOnHeap exchange host heap slot key timeoutMS
      return x.1) = setKey exchange host slot key timeoutMS := by
  rw [setKeyOnHeap, setKey]
  by_cases hkey : key.length ≠ kplKeySize
  · simp only [if_pos hkey, pure_bind]
  simp only [if_neg hkey, withAnswer_streamExchange, HeapVec.contents_copy, HeapVec.contents_append,
    contents_newStream, bind_assoc, pure_bind]
  refine bind_congr fun x => ?_
  obtain ⟨res, ans⟩ := x
  by_cases hres : res ≠ .success
  · simp only [if_pos hres, pure_bind]
  · simp only [if_neg hres, bind_assoc, pure_bind]

theorem setKey_returns (host : Host) (dev : LedgerDevice σ) (slot : UInt8) (key : List UInt8)
    (timeoutMS : UInt32) (s : σ) : ∃ res s', exec (setKey dev.exchange host slot key timeoutMS) (some s) =
      (.ok res, some s') := by
  obtain ⟨r, s', hset⟩ := setKey_settled (exchange_confined dev) slot key host timeoutMS s
  obtain ⟨res, t, hrun, h⟩ := exec_bind_inv (hset host.uninit)
  cases h
  exact ⟨res, s', hrun⟩

/-- Both streams of `setKey` as they are destroyed, and the answer. -/
theorem exec_setKeyOnHeap (host : Host) (heap : ℕ → List UInt8) (dev : LedgerDevice σ) (slot : UInt8)
    {key : List UInt8} (hkey : key.length = kplKeySize) (timeoutMS : UInt32) (s : σ) :
    ∃ res s', ∃ k ≤ swSize,
      exec (setKey dev.exchange host slot key timeoutMS) (some s) = (.ok res, some s') ∧
      exec (setKeyOnHeap dev.exchange host heap slot key timeoutMS) (some s) =
        (.ok (res, (wipe (setKeyStream heap slot key)).release ++
          (wipe ((setKeyStream heap slot key).copy (heap 2))).release,
          some ((host.uninit swSize).overwrite 0 (List.replicate k 0))), some s') := by
  obtain ⟨res, s', hrun⟩ := setKey_returns host dev slot key timeoutMS s
  obtain ⟨left, hheap⟩ := exec_of_fst (setKeyOnHeap_fst heap slot key timeoutMS) hrun
  have hleft := hheap
  rw [setKeyOnHeap, if_neg (not_not.mpr hkey)] at hleft
  obtain ⟨⟨⟨res₁, w⟩, ans⟩, d₁, hx, hleft⟩ := exec_bind_inv hleft
  obtain ⟨hw, k, hk, hans⟩ := request_left hx
  refine ⟨res, s', k, hk, hrun, hheap.trans ?_⟩
  suffices hl : left = _ by rw [hl]
  dsimp only at hleft
  rw [hw, hans] at hleft
  by_cases hres : res₁ ≠ .success
  · rw [if_pos hres] at hleft
    cases hleft
    rfl
  · rw [if_neg hres] at hleft
    obtain ⟨sw, d₂, -, hleft⟩ := exec_bind_inv hleft
    cases hleft
    rfl

theorem getKeyOnHeap_fst (heap : ℕ → List UInt8) (failed : Buf 32) (slot : UInt8)
    (out : Buf kplKeySize) (timeoutMS : UInt32) :
    (do
      let x ← getKeyOnHeap exchange host heap failed slot out timeoutMS
      return x.1) = getKey exchange host slot out timeoutMS := by
  rw [getKeyOnHeap, getKey]
  simp only [ne_eq, not_true_eq_false, if_false, bind_assoc, pure_bind, sendKeyOnHeap_fst,
    HeapVec.contents_append, contents_newStream]

theorem getKeyFromNameOnHeap_fst (heap : ℕ → List UInt8) (failed : Buf 32) {name : List UInt8}
    (hname : name.length ≤ kplMaxNameSize) (out : Buf kplKeySize) (timeoutMS : UInt32) :
    (do
      let x ← getKeyFromNameOnHeap exchange host heap failed name out timeoutMS
      return x.1) = getKeyFromName exchange host name out timeoutMS := by
  have hlen : ¬ (name.length > kplMaxNameSize ∨ kplKeySize ≠ kplKeySize) := by simpa using hname
  rw [getKeyFromNameOnHeap, getKeyFromName, if_neg hlen, if_neg hlen]
  simp only [bind_assoc, pure_bind, sendKeyOnHeap_fst, HeapVec.contents_append, contents_newStream]

/-- The memory of `getKey`, whose stream ends in the public key. -/
theorem exec_getKeyOnHeap (host : Host) (heap : ℕ → List UInt8) (failed : Buf 32)
    (dev : LedgerDevice σ) (slot : UInt8) (out : Buf kplKeySize) (timeoutMS : UInt32) (s : σ) :
    ∃ r s' left, exec (getKey dev.exchange host slot out timeoutMS) (some s) = (.ok r, some s') ∧
      exec (getKeyOnHeap dev.exchange host heap failed slot out timeoutMS) (some s) =
        (.ok (r, some left), some s') ∧
      Cleared (host.uninit (64 + swSize)) (wipe ((newStream Instrs.getKey slot 0 (heap 0)).append
        (x25519GenPrivKey host).2.toList (heap 1))).release r.1 left := by
  obtain ⟨x, s', hget⟩ := getKey_settled (exchange_confined dev) slot out host timeoutMS s
  obtain ⟨r, t, hrun, h⟩ := exec_bind_inv (hget host.uninit)
  cases h
  obtain ⟨left, hheap⟩ := exec_of_fst
    (getKeyOnHeap_fst heap failed slot out timeoutMS) hrun
  have hleft := hheap
  rw [getKeyOnHeap, if_neg (not_not.mpr rfl)] at hleft
  obtain ⟨⟨r', left'⟩, d, hx, hleft⟩ := exec_bind_inv hleft
  cases hleft
  exact ⟨r, s', left', hrun, hheap, sendKeyOnHeap_cleared hx⟩

/-- The memory of `getKeyFromName`, whose stream ends in the name. -/
theorem exec_getKeyFromNameOnHeap (host : Host) (heap : ℕ → List UInt8) (failed : Buf 32)
    (dev : LedgerDevice σ) {name : List UInt8} (hname : name.length ≤ kplMaxNameSize) (out : Buf kplKeySize)
    (timeoutMS : UInt32) (s : σ) :
    ∃ r s' left, exec (getKeyFromName dev.exchange host name out timeoutMS) (some s) =
        (.ok r, some s') ∧
      exec (getKeyFromNameOnHeap dev.exchange host heap failed name out timeoutMS) (some s) =
        (.ok (r, some left), some s') ∧
      Cleared (host.uninit (64 + swSize)) (wipe (((newStream Instrs.getKeyFromName 0 0 (heap 0)).append
        (x25519GenPrivKey host).2.toList (heap 1)).append name (heap 2))).release r.1 left := by
  obtain ⟨x, s', hget⟩ := getKeyFromName_settled (exchange_confined dev) name out host timeoutMS s
  obtain ⟨r, t, hrun, h⟩ := exec_bind_inv (hget host.uninit)
  cases h
  obtain ⟨left, hheap⟩ := exec_of_fst
    (getKeyFromNameOnHeap_fst heap failed hname out timeoutMS) hrun
  have hleft := hheap
  rw [getKeyFromNameOnHeap, if_neg (by simpa using hname)] at hleft
  obtain ⟨⟨r', left'⟩, d, hx, hleft⟩ := exec_bind_inv hleft
  cases hleft
  exact ⟨r, s', left', hrun, hheap, sendKeyOnHeap_cleared hx⟩

end

theorem size_newStream (ins p1 p2 : UInt8) (spare : List UInt8) :
    (newStream ins p1 p2 spare).size = apduHeaderSize := rfl

/-- What the operations on keys return is what they return without their memory, and over every device,
whatever it sends, the memory that they give back holds no key and no private key: the blocks of their
streams are the same whatever the key was, and whatever the key pair of `getKey` was. Those of
`getKeyFromName` depend on the public key and on the length of the name. -/
theorem keys_wiped (heap : ℕ → List UInt8) :
    (∀ slot, ∃ blocks, ∀ {σ : Type} (dev : LedgerDevice σ) (host : Host) (key : List UInt8)
      (timeoutMS : UInt32) (s : σ), key.length = kplKeySize → ∃ res s', ∃ k ≤ 2,
        exec (setKey dev.exchange host slot key timeoutMS) (some s) = (.ok res, some s') ∧
        exec (setKeyOnHeap dev.exchange host heap slot key timeoutMS) (some s) =
          (.ok (res, blocks, some ((host.uninit 2).overwrite 0 (List.replicate k 0))), some s')) ∧
    (∀ slot, ∃ blocks, ∀ {σ : Type} (dev : LedgerDevice σ) (host : Host) (failed : Buf 32)
      (out : Buf kplKeySize) (timeoutMS : UInt32) (s : σ), ∃ r s' left,
        exec (getKey dev.exchange host slot out timeoutMS) (some s) = (.ok r, some s') ∧
        exec (getKeyOnHeap dev.exchange host heap failed slot out timeoutMS) (some s) =
          (.ok (r, some left), some s') ∧
        Cleared (host.uninit 66) blocks r.1 left) ∧
    ∀ (len : ℕ) (ownPubKey : Buf 32), len ≤ kplMaxNameSize → ∃ blocks, ∀ {σ : Type}
      (dev : LedgerDevice σ) (host : Host) (failed : Buf 32) (name : List UInt8) (out : Buf kplKeySize)
      (timeoutMS : UInt32) (s : σ), (x25519GenPrivKey host).2 = ownPubKey → name.length = len →
      ∃ r s' left,
        exec (getKeyFromName dev.exchange host name out timeoutMS) (some s) = (.ok r, some s') ∧
        exec (getKeyFromNameOnHeap dev.exchange host heap failed name out timeoutMS) (some s) =
          (.ok (r, some left), some s') ∧
        Cleared (host.uninit 66) blocks r.1 left := by
  have hpos (ins p1 p2 : UInt8) (spare : List UInt8) : 0 < (newStream ins p1 p2 spare).size := by
    rw [size_newStream]
    exact Nat.succ_pos _
  refine ⟨fun slot => ?_, fun slot => ?_, fun len ownPubKey hlen => ?_⟩
  · let zeroed := setKeyStream heap slot (List.replicate kplKeySize 0)
    refine ⟨(wipe zeroed).release ++ (wipe (zeroed.copy (heap 2))).release,
      fun dev host key timeoutMS s hkey => ?_⟩
    obtain ⟨res, s', k, hk, hrun, hheap⟩ := exec_setKeyOnHeap host heap dev slot hkey timeoutMS s
    have hl : key.length = (List.replicate kplKeySize (0 : UInt8)).length := by simpa using hkey
    have hmade : wipe (setKeyStream heap slot key) = wipe zeroed :=
      wipe_append_congr (hpos _ _ _ _) hl _
    have hsize : (setKeyStream heap slot key).size = zeroed.size := by
      rw [setKeyStream, HeapVec.size_append, hl, ← HeapVec.size_append _ _ (heap 1)]
      rfl
    have hcopy : wipe ((setKeyStream heap slot key).copy (heap 2)) = wipe (zeroed.copy (heap 2)) :=
      wipe_congr (HeapVec.alike_copy hsize _) (by
        rw [HeapVec.size_copy, setKeyStream, HeapVec.size_append]
        exact Nat.add_pos_left (hpos _ _ _ _) _)
    rw [hmade, hcopy] at hheap
    exact ⟨res, s', k, hk, hrun, hheap⟩
  · refine ⟨(wipe ((newStream Instrs.getKey slot 0 (heap 0)).append (List.replicate 32 0) (heap 1))).release,
      fun dev host failed out timeoutMS s => ?_⟩
    obtain ⟨r, s', left, hrun, hheap, hleft⟩ :=
      exec_getKeyOnHeap host heap failed dev slot out timeoutMS s
    have hl : (x25519GenPrivKey host).2.toList.length = (List.replicate 32 (0 : UInt8)).length := by simp
    exact ⟨r, s', left, hrun, hheap, wipe_append_congr (hpos _ _ _ _) hl (heap 1) ▸ hleft⟩
  · refine ⟨(wipe (((newStream Instrs.getKeyFromName 0 0 (heap 0)).append ownPubKey.toList (heap 1)).append
      (List.replicate len 0) (heap 2))).release, fun dev host failed name out timeoutMS s hpub hname => ?_⟩
    obtain ⟨r, s', left, hrun, hheap, hleft⟩ :=
      exec_getKeyFromNameOnHeap host heap failed dev (hname.trans_le hlen) out timeoutMS s
    have hl : name.length = (List.replicate len (0 : UInt8)).length := by simpa using hname
    rw [hpub, wipe_append_congr (Nat.lt_of_lt_of_eq (Nat.add_pos_left (hpos _ _ _ _) _)
      (HeapVec.size_append _ _ _).symm) hl] at hleft
    exact ⟨r, s', left, hrun, hheap, hleft⟩

/-- A host without cryptography. -/
def exchangeless : Host where
  randombytesBuf := Buf.zeros 32
  cryptoScalarmultBase := id
  cryptoScalarmult _ _ := none
  cryptoGenerichash _ := Buf.zeros 32
  uninit := Buf.zeros

/-- The same with another key pair. -/
def otherKeyPair : Host := { exchangeless with randombytesBuf := List.Vector.replicate 32 9 }

/-- Two keys for slot 3, two key pairs and two names on a connection where no answer comes. -/
theorem keys_wiped_silent :
    let left (key : List UInt8) := (exec (setKeyOnHeap (tcpExchange silentSocket) exchangeless (fun _ => []) 3
      key 0) (some ())).1.map fun r => r.2.1
    let getKeyLeaves (host : Host) (blocks : List (List UInt8)) := ∃ r left,
      exec (getKeyOnHeap (tcpExchange silentSocket) host (fun _ => []) (Buf.zeros 32) 3 (Buf.zeros 32) 0)
        (some ()) = (.ok (r, some left), some ()) ∧ Cleared (Buf.zeros 66) blocks r.1 left
    let nameLeaves (name : List UInt8) (blocks : List (List UInt8)) := ∃ r left,
      exec (getKeyFromNameOnHeap (tcpExchange silentSocket) exchangeless (fun _ => []) (Buf.zeros 32) name
        (Buf.zeros 32) 0) (some ()) = (.ok (r, some left), some ()) ∧ Cleared (Buf.zeros 66) blocks r.1 left
    (∃ blocks, left (List.replicate 32 1) = .ok blocks ∧ left (List.replicate 32 2) = .ok blocks) ∧
      (∃ blocks, getKeyLeaves exchangeless blocks ∧ getKeyLeaves otherKeyPair blocks) ∧
      ∃ blocks, nameLeaves [97] blocks ∧ nameLeaves [98] blocks := by
  intro left getKeyLeaves nameLeaves
  obtain ⟨hset, hget, hname⟩ := keys_wiped fun _ => []
  obtain ⟨setBlocks, hset⟩ := hset 3
  obtain ⟨getBlocks, hget⟩ := hget 3
  obtain ⟨nameBlocks, hname⟩ := hname 1 (Buf.zeros 32) (by decide)
  have hleft (key : List UInt8) (hkey : key.length = kplKeySize) : left key = .ok setBlocks := by
    obtain ⟨res, s', k, -, -, hheap⟩ := hset (.tcp silentSocket) exchangeless key 0 () hkey
    exact congrArg (fun x => x.1.map fun r => r.2.1) hheap
  have hgetLeft (host : Host) (hu : host.uninit 66 = Buf.zeros 66) : getKeyLeaves host getBlocks := by
    obtain ⟨r, ⟨⟩, left, -, hheap, hc⟩ := hget (.tcp silentSocket) host (Buf.zeros 32) (Buf.zeros 32) 0 ()
    exact ⟨r, left, hheap, hu ▸ hc⟩
  have hnameLeft (name : List UInt8) (hl : name.length = 1) : nameLeaves name nameBlocks := by
    obtain ⟨r, ⟨⟩, left, -, hheap, hc⟩ := hname (.tcp silentSocket) exchangeless (Buf.zeros 32) name
      (Buf.zeros 32) 0 () rfl hl
    exact ⟨r, left, hheap, hc⟩
  exact ⟨⟨setBlocks, hleft _ (by simp), hleft _ (by simp)⟩, ⟨getBlocks, hgetLeft _ rfl, hgetLeft _ rfl⟩,
    ⟨nameBlocks, hnameLeft _ rfl, hnameLeft _ rfl⟩⟩

end LedgerKeePass.Kpl
