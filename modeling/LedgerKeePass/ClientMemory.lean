import LedgerKeePass.HeapVector
import LedgerKeePass.TransportBounds

/-!
# What requests leave in memory (`APDUStream::wipe`, `~LedgerAnswerBase`, `sodium_memzero`)

The stream of a request is a vector that is overwritten once it was sent, and again before it is
destroyed; an answer is overwritten when it goes out of scope. `streamExchange` is `apduExchange` on
the elements of the vector. What a request or an answer leaves in memory does not depend on the bytes
appended last, nor on what the device sent. A block that the vector outgrew is not overwritten.
-/
namespace LedgerKeePass.Kpl
open Bytes Program App

/-- `APDUStream::wipe` -/
def wipe (stream : HeapVec UInt8) : HeapVec UInt8 :=
  if stream.size > 0 then (stream.fill 0).clear else stream

/-- The calls on a stream; `spare` is what a new block would hold behind the elements. -/
inductive StreamCall
  | append (data spare : List UInt8)
  | exchange (timeoutMS : UInt32)

section Stream
variable {σ β : Type} {m : ℕ} (exchange : Exchange σ)

/-- `APDUStream::exchange` and the vector behind it. -/
def streamExchange (stream : HeapVec UInt8) (timeoutMS : UInt32) :
    LibM σ m (Result × HeapVec UInt8) := do
  if stream.size < apduHeaderSize then throw .assertion
  else
    let apduLen := stream.size - apduHeaderSize
    if apduLen > 255 then return (.libBadLength, stream)
    else
      let stream := stream.set apduLenIdx (UInt8.ofNat apduLen)
      let res ← exchange stream.contents timeoutMS
      let stream := wipe stream
      if res ≠ .success then return (res, stream)
      else
        let bufSize ← read fun l => l.out.bufSize
        return (if bufSize ≥ swSize then .success else .protocolBadLength, stream)

def StreamCall.run : StreamCall → HeapVec UInt8 → LibM σ m (Option Result × HeapVec UInt8)
  | .append data spare, stream => return (none, stream.append data spare)
  | .exchange timeoutMS, stream => do
    let (res, stream) ← streamExchange exchange stream timeoutMS
    return (some res, stream)

/-- The calls on the elements of a stream. -/
def StreamCall.runList : StreamCall → List UInt8 → LibM σ m (Option Result × List UInt8)
  | .append data _, stream => return (none, stream ++ data)
  | .exchange timeoutMS, stream => do
    let res ← apduExchange exchange stream timeoutMS
    return (some res, if stream.length - apduHeaderSize > 255 then stream else [])

/-- Calls one after the other on a stream of either kind. -/
def runCalls (run : StreamCall → β → LibM σ m (Option Result × β)) :
    List StreamCall → β → LibM σ m (List (Option Result) × β)
  | [], stream => return ([], stream)
  | call :: calls, stream => do
    let (res, stream) ← run call stream
    let (ress, stream) ← runCalls run calls stream
    return (res :: ress, stream)

end Stream

section Wipe
variable {v w : HeapVec UInt8}

@[simp] theorem size_wipe (v : HeapVec UInt8) : (wipe v).size = 0 := by
  rw [wipe]
  split_ifs with h
  · rfl
  · omega

theorem contents_wipe (v : HeapVec UInt8) : (wipe v).contents = [] :=
  List.eq_nil_of_length_eq_zero ((wipe v).length_contents.trans (size_wipe v))

@[simp] theorem wipe_wipe (v : HeapVec UInt8) : wipe (wipe v) = wipe v := by
  conv_lhs => rw [wipe]
  rw [if_neg (by rw [size_wipe]; exact lt_irrefl 0)]

/-- Once they are overwritten, vectors that differ in their elements only are the same. -/
theorem wipe_congr (h : HeapVec.Alike v w) (hpos : 0 < v.size) : wipe v = wipe w := by
  rw [wipe, wipe, if_pos hpos, if_pos (h.size ▸ hpos), h.fill_eq]

/-- Other bytes of the same number in the place of those appended last. -/
theorem wipe_append_congr (hpos : 0 < v.size) {data data' : List UInt8} (h : data.length = data'.length)
    (spare : List UInt8) : wipe (v.append data spare) = wipe (v.append data' spare) :=
  wipe_congr (HeapVec.alike_append v h spare) (by rw [HeapVec.size_append]; omega)

end Wipe

section Refines
variable {σ : Type} {m : ℕ} {exchange : Exchange σ}

/-- The vector behind an exchange. -/
def exchanged (stream : HeapVec UInt8) : HeapVec UInt8 :=
  if stream.size - apduHeaderSize > 255 then stream
  else wipe (stream.set apduLenIdx (UInt8.ofNat (stream.size - apduHeaderSize)))

theorem contents_exchanged (v : HeapVec UInt8) :
    (exchanged v).contents = if v.contents.length - apduHeaderSize > 255 then v.contents else [] := by
  rw [exchanged, v.length_contents]
  split_ifs
  · rfl
  · exact contents_wipe _

/-- On its elements the exchange of a vector is that of the list. -/
theorem streamExchange_eq (stream : HeapVec UInt8) (timeoutMS : UInt32) :
    streamExchange exchange stream timeoutMS = (do
      let res ← apduExchange (m := m) exchange stream.contents timeoutMS
      return (res, exchanged stream)) := by
  rw [streamExchange, apduExchange, exchanged, stream.length_contents]
  by_cases hshort : stream.size < apduHeaderSize
  · rw [if_pos hshort, if_pos hshort]
    rfl
  by_cases hlong : stream.size - apduHeaderSize > 255
  · simp only [if_neg hshort, if_pos hlong, pure_bind]
  · simp only [if_neg hshort, if_neg hlong, HeapVec.contents_set, bind_assoc]
    refine bind_congr fun res => ?_
    by_cases hres : res ≠ .success
    · simp only [if_pos hres, pure_bind]
    · simp only [if_neg hres, bind_assoc, pure_bind]

/-- Destroyed after an exchange or before it, a stream leaves the same. -/
theorem wipe_exchanged (h : apduHeaderSize ≤ v.size) : wipe (exchanged v) = wipe v := by
  have hidx : apduLenIdx < v.size := h
  rw [exchanged]
  split_ifs
  · rfl
  · rw [wipe_wipe]
    exact (wipe_congr (HeapVec.alike_set v hidx _) (Nat.zero_lt_of_lt hidx)).symm

theorem StreamCall.run_contents (call : StreamCall) (stream : HeapVec UInt8) :
    (do
      let (res, stream) ← call.run (m := m) exchange stream
      return (res, stream.contents)) = call.runList exchange stream.contents := by
  cases call with
  | append data spare => simp [run, runList]
  | exchange timeoutMS =>
    simp only [run, runList, streamExchange_eq, bind_assoc, pure_bind]
    exact bind_congr fun res => by rw [contents_exchanged]

/-- A stream that the client makes behaves as the list of its elements, whatever is called on it. -/
theorem runCalls_contents (calls : List StreamCall) (stream : HeapVec UInt8) :
    (do
      let (ress, stream) ← runCalls (StreamCall.run (m := m) exchange) calls stream
      return (ress, stream.contents)) =
      runCalls (StreamCall.runList exchange) calls stream.contents := by
  induction calls generalizing stream with
  | nil => simp [runCalls]
  | cons call calls ih =>
    rw [runCalls, runCalls, ← call.run_contents]
    simp only [bind_assoc, pure_bind]
    refine bind_congr fun r => ?_
    rw [← ih r.2]
    simp only [bind_assoc, pure_bind]

/-- An exchange that returned had a header to send. -/
theorem streamExchange_inv {l l' : Link σ m} {timeoutMS : UInt32} {res : Result}
    (h : exec (streamExchange exchange v timeoutMS) l = (.ok (res, w), l')) :
    apduHeaderSize ≤ v.size ∧ w = exchanged v := by
  rw [streamExchange_eq] at h
  obtain ⟨a, t, he, hw⟩ := exec_bind_inv h
  refine ⟨?_, ?_⟩
  · by_contra hlt
    rw [apduExchange, v.length_contents, if_pos (not_le.mp hlt)] at he
    cases he
  · cases hw
    rfl

/-- However often a stream is exchanged, destroyed it leaves the same. -/
theorem wipe_exchanges {timeouts : List UInt32} {ress : List (Option Result)} {l l' : Link σ m}
    (h : exec (runCalls (StreamCall.run exchange) (timeouts.map .exchange) v) l =
      (.ok (ress, w), l')) : wipe w = wipe v := by
  induction timeouts generalizing v l ress with
  | nil =>
    cases h
    rfl
  | cons timeoutMS timeouts ih =>
    rw [List.map_cons, runCalls] at h
    obtain ⟨⟨r, v₁⟩, l₁, hrun, h⟩ := exec_bind_inv h
    obtain ⟨⟨rs, w₁⟩, l₂, hrest, h⟩ := exec_bind_inv h
    cases h
    obtain ⟨⟨res, v₂⟩, l₃, he, hv⟩ := exec_bind_inv hrun
    cases hv
    obtain ⟨hsize, rfl⟩ := streamExchange_inv he
    exact (ih hrest).trans (wipe_exchanged hsize)

end Refines

/-- A stream can be used as the list of its bytes: whatever is called on it, the outcomes are those on
the list. And what it leaves in memory when it is destroyed does not depend on the bytes appended
last, on the device or on what it answered. -/
theorem stream_refines {σ : Type} (exchange : Exchange σ) :
    (∀ (m : ℕ) (calls : List StreamCall) (stream : HeapVec UInt8),
      (do
        let (ress, stream) ← runCalls (StreamCall.run (m := m) exchange) calls stream
        return (ress, stream.contents)) =
        runCalls (StreamCall.runList exchange) calls stream.contents) ∧
    ∀ {σ' : Type} {m m' : ℕ} (exchange' : Exchange σ') (stream w w' : HeapVec UInt8)
      (data data' spare : List UInt8) (timeouts timeouts' : List UInt32) (l₁ : Link σ m)
      (l₁' : Link σ' m') (ress ress' : List (Option Result)) (l₂ : Link σ m) (l₂' : Link σ' m'),
      data.length = data'.length → 0 < stream.size →
      exec (runCalls (StreamCall.run exchange) (timeouts.map .exchange) (stream.append data spare)) l₁ =
        (.ok (ress, w), l₂) →
      exec (runCalls (StreamCall.run exchange') (timeouts'.map .exchange) (stream.append data' spare))
        l₁' = (.ok (ress', w'), l₂') →
      (wipe w).release = (wipe w').release := by
  refine ⟨fun m => runCalls_contents, fun exchange' stream w w' data data' spare _ _ _ _ _ _ _ _ hlen
    hpos h h' => ?_⟩
  rw [wipe_exchanges h, wipe_exchanges h', wipe_append_congr hpos hlen]

/-- A connection that takes everything and gives nothing. -/
def silentSocket : Socket Unit where
  send data _ := (data.length, ())
  recv _ _ _ := (.wouldBlock, ())
  recv_le _ _ _ _ h := by cases h

/-- Two keys appended to a stream, which one of them is exchanged over. -/
theorem stream_refines_keys :
    let stream := HeapVec.ofList (apduStream 1 3 0) []
    let sent (key : List UInt8) (timeouts : List UInt32) :=
      exec (runCalls (StreamCall.run (tcpExchange silentSocket)) (timeouts.map .exchange)
        (stream.append key [])) ⟨some (), .fresh (Buf.zeros 2)⟩
    ∃ ress w ress' w' l l', sent (List.replicate 32 1) [0] = (.ok (ress, w), l) ∧
      sent (List.replicate 32 2) [] = (.ok (ress', w'), l') ∧ (wipe w).release = (wipe w').release := by
  intro stream sent
  obtain ⟨ress, w, l, h⟩ : ∃ ress w l, sent (List.replicate 32 1) [0] = (.ok (ress, w), l) :=
    ⟨_, _, _, rfl⟩
  obtain ⟨ress', w', l', h'⟩ : ∃ ress w l, sent (List.replicate 32 2) [] = (.ok (ress, w), l) :=
    ⟨_, _, _, rfl⟩
  have hlen : (List.replicate 32 (1 : UInt8)).length = (List.replicate 32 (2 : UInt8)).length := rfl
  exact ⟨ress, w, ress', w', l, l', h, h', (stream_refines (tcpExchange silentSocket)).2
    (tcpExchange silentSocket) stream w w' _ _ [] [0] [] _ _ _ _ _ _ hlen (Nat.succ_pos _) h h'⟩

/-- `~LedgerAnswerBase` -/
def LedgerAnswer.destroyed {m : ℕ} (a : LedgerAnswer m) : Buf m :=
  a.buf.overwrite 0 (List.replicate a.bufSize 0)

section Answer
variable {σ α : Type} {m size : ℕ} {s s' : σ}

/-- What `p` receives stays within the size that it leaves. -/
def Within (p : LibM σ m α) (s : σ) (hsize : size ≤ m) : Prop :=
  ∃ src size', src.length ≤ size' ∧ size' ≤ size ∧ ∀ (buf : Buf m) (hsize' : size' ≤ m),
    (exec p ⟨some s, ⟨buf, size, hsize⟩⟩).2.out = ⟨buf.overwrite 0 src, size', hsize'⟩

theorem Within.pure (a : α) (hsize : size ≤ m) : Within (Pure.pure a : LibM σ m α) s hsize := by
  refine ⟨[], size, Nat.zero_le _, le_rfl, fun buf _ => ?_⟩
  rw [Buf.overwrite_nil]
  rfl

/-- A first part that leaves the answer alone. -/
theorem Within.bind {β : Type} {p : LibM σ m β} {f : β → LibM σ m α} {b : β} {hsize : size ≤ m}
    (hp : ∀ buf, exec p ⟨some s, ⟨buf, size, hsize⟩⟩ = (.ok b, ⟨some s', ⟨buf, size, hsize⟩⟩))
    (hf : Within (f b) s' hsize) : Within (p >>= f) s hsize := by
  obtain ⟨src, size', h₁, h₂, he⟩ := hf
  refine ⟨src, size', h₁, h₂, fun buf hs => ?_⟩
  rw [exec_bind_ok (hp buf), he buf hs]

/-- A second part that only reads. -/
theorem Within.bind_keeps {β : Type} {p : LibM σ m β} {f : β → LibM σ m α} {hsize : size ≤ m}
    (hp : Within p s hsize) (hf : ∀ b, Keeps (f b)) : Within (p >>= f) s hsize := by
  obtain ⟨src, size', h₁, h₂, he⟩ := hp
  refine ⟨src, size', h₁, h₂, fun buf hs => ?_⟩
  rw [exec_bind_keeps hf, he buf hs]

theorem Within.ite {c : Prop} [Decidable c] {p q : LibM σ m α} {hsize : size ≤ m}
    (hp : c → Within p s hsize) (hq : ¬ c → Within q s hsize) :
    Within (if c then p else q) s hsize := by
  by_cases h : c
  · rw [if_pos h]
    exact hp h
  · rw [if_neg h]
    exact hq h

theorem tcpReadAnswer_within (sock : Socket σ) (hsize : size ≤ m) (prefixBytes : List UInt8)
    (timeoutMS : UInt32) (s : σ) :
    Within (tcpReadAnswer (m := m) sock prefixBytes timeoutMS) s hsize := by
  rw [tcpReadAnswer]
  refine .bind (fun _ => exec_read _ _) ?_
  refine .ite (fun _ => .pure _ hsize) fun hlen => ?_
  rw [not_lt] at hlen
  obtain ⟨res, data, s', -, hle, -, he⟩ :=
    tcpRead_cases sock ((ofBe prefixBytes + swSize) % 4294967296) timeoutMS s
  refine ⟨data, _, hle, hlen, fun buf hs => ?_⟩
  rw [exec_bind_ok (exec_resizeAnswer hlen), exec_bind_ok (he m _)]
  dsimp only
  rw [exec_bind_ok (exec_storeAnswer (by omega))]
  rfl

theorem tcpExchange_within (sock : Socket σ) (hsize : size ≤ m) (data : List UInt8)
    (timeoutMS : UInt32) (s : σ) : Within (tcpExchange (m := m) sock data timeoutMS) s hsize := by
  rw [tcpExchange]
  refine .ite (fun _ => .pure _ hsize) fun _ => ?_
  refine .bind (fun _ => exec_tcpSend) (.ite (fun _ => .pure _ hsize) fun _ => ?_)
  refine .bind (fun _ => exec_tcpSend) (.ite (fun _ => .pure _ hsize) fun _ => ?_)
  obtain ⟨res, prefixBytes, s', -, -, -, he⟩ := tcpRead_cases sock 4 timeoutMS _
  rw [tcpReceive]
  refine .bind (fun _ => he m _) (.ite (fun _ => .pure _ hsize) fun _ => ?_)
  exact tcpReadAnswer_within sock hsize prefixBytes timeoutMS s'

theorem usbExchange_within (hid : Hid σ) (hsize : size ≤ m) (data : List UInt8)
    (timeoutMS : UInt32) (s : σ) : Within (usbExchange (m := m) hid data timeoutMS) s hsize := by
  rw [usbExchange]
  by_cases hlen : 0xFFFF < data.length
  · exact .bind (fun _ => exec_usbSend_tooLong hlen)
      (.ite (fun _ => .pure _ hsize) fun h => absurd (by decide) h)
  refine .bind (fun _ => exec_usbSend (not_lt.mp hlen)) (.ite (fun _ => .pure _ hsize) fun _ => ?_)
  obtain ⟨res, outLen', src, s', hle, hok, he⟩ := usbRead_cases hid size timeoutMS _
  by_cases hr : res = .success
  · have hlen' := hok hr
    refine ⟨src, src.length, le_rfl, hle, fun buf hs => ?_⟩
    rw [usbReceive, exec_bind_ok (exec_read _ _), exec_bind_ok (he m _ hsize)]
    simp only [hr, ne_eq, not_true_eq_false, if_false]
    rw [← hlen', exec_bind_ok (exec_resizeAnswer hle)]
    rfl
  · refine ⟨src, size, hle, le_rfl, fun buf hs => ?_⟩
    rw [usbReceive, exec_bind_ok (exec_read _ _), exec_bind_ok (he m _ hsize)]
    simp only [ne_eq, hr, not_false_eq_true, if_true]
    rfl

theorem apduExchange_within (dev : LedgerDevice σ) (stream : List UInt8) (timeoutMS : UInt32)
    (s : σ) (hsize : size ≤ m) :
    Within (apduExchange (m := m) dev.exchange stream timeoutMS) s hsize := by
  have hdev (data : List UInt8) : Within (dev.exchange (m := m) data timeoutMS) s hsize := by
    cases dev with
    | tcp sock => exact tcpExchange_within sock hsize data timeoutMS s
    | usb hid => exact usbExchange_within hid hsize data timeoutMS s
  have hrest (res : Result) : Keeps (if res ≠ .success then pure res else do
      let bufSize ← read fun l : Link σ m => l.out.bufSize
      return if bufSize ≥ swSize then .success else .protocolBadLength : LibM σ m Result) :=
    (keeps_pure res).ite fun _ => rfl
  rw [apduExchange]
  refine .ite (fun _ => ?_) fun _ => .ite (fun _ => .pure _ hsize) fun _ => .bind_keeps (hdev _) hrest
  refine ⟨[], size, Nat.zero_le _, le_rfl, fun buf _ => ?_⟩
  rw [Buf.overwrite_nil]
  rfl

/-- Nothing that a device sent is left of an answer, whatever became of the exchange. -/
theorem apduExchange_destroyed (dev : LedgerDevice σ) (stream : List UInt8) (timeoutMS : UInt32)
    (s : σ) : ∃ k ≤ m, ∀ uninit : Buf m,
      (exec (apduExchange dev.exchange stream timeoutMS) ⟨some s, .fresh uninit⟩).2.out.destroyed =
        uninit.overwrite 0 (List.replicate k 0) := by
  obtain ⟨src, size, h₁, h₂, he⟩ := apduExchange_within dev stream timeoutMS s (le_refl m)
  refine ⟨size, h₂, fun uninit => ?_⟩
  rw [LedgerAnswer.fresh, he uninit h₂, LedgerAnswer.destroyed]
  exact Buf.overwrite_overwrite _ ⟨le_rfl, by simpa using h₁⟩

end Answer

end LedgerKeePass.Kpl
