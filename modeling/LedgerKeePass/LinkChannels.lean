import LedgerKeePass.UsbFraming
import LedgerKeePass.LibClient

/-!
# Reliable links with a device at their end

The device takes a request when its last byte is in, and its answer follows those before
it. Nothing is lost or reordered; `arrival` says how much of the answers has come in at
each read, so an answer can be late by any amount.
-/
namespace LedgerKeePass.Kpl
open Bytes Program

/-- An answer of a device: data and a status word, at most what the USB framing can tell. -/
structure DeviceAnswer where
  bytes : List UInt8
  hasSw : swSize ≤ bytes.length
  fits : bytes.length ≤ 0xFFFF

/-- A device with the state `τ`. -/
abbrev Serve (τ : Type) := List UInt8 → τ → DeviceAnswer × τ

/-- How receiving an answer goes: it is whole in the buffer and nothing is left on the
link, it does not fit, some of it is late, or the buffer is too large for the framing. -/
inductive Receives {m : ℕ} (prompt quiet : Prop) (a : List UInt8) (out : LedgerAnswer m) :
    Result → LedgerAnswer m → Prop
  | whole (hs : a.length ≤ out.bufSize) (hq : quiet) :
      Receives prompt quiet a out .success (out.filled a (hs.trans out.fits))
  | tooLong (hs : out.bufSize < a.length) : Receives prompt quiet a out .protocolBadLength out
  | late (out' : LedgerAnswer m) (hp : ¬ prompt) : Receives prompt quiet a out .transportTimeout out'
  | oversized (hs : 0xFFFF < out.bufSize) : Receives prompt quiet a out .libBadLength out

section Tcp

structure TcpLink (τ : Type) where
  device : τ
  /-- The bytes of a request that is not complete yet. -/
  sent : List UInt8
  /-- The answers that were not read yet. -/
  inbound : List UInt8
  clock : ℕ
  deriving DecidableEq

variable {τ : Type} {m : ℕ}

/-- An answer as it is sent, the length being that of the data. -/
def tcpFrame (a : List UInt8) : List UInt8 := toBe 4 (a.length - swSize) ++ a

namespace TcpLink

def served (serve : Serve τ) (l : TcpLink τ) (request : List UInt8) : TcpLink τ :=
  { l with
    device := (serve request l.device).2
    inbound := l.inbound ++ tcpFrame (serve request l.device).1.bytes }

/-- More bytes from the library, and the request they may complete. -/
def push (serve : Serve τ) (l : TcpLink τ) (data : List UInt8) : TcpLink τ :=
  let sent := l.sent ++ data
  let len := ofBe (sent.take 4)
  if 4 ≤ sent.length ∧ 4 + len ≤ sent.length then
    { l.served serve ((sent.drop 4).take len) with sent := sent.drop (4 + len) }
  else { l with sent := sent }

/-- The link after `len` bytes were received. -/
def taken (l : TcpLink τ) (len : ℕ) : TcpLink τ :=
  { l with inbound := l.inbound.drop len, clock := l.clock + 1 }

end TcpLink

/-- The connection; at the `k`-th `recv` at most `arrival k len` bytes have come in. -/
def tcpLink (serve : Serve τ) (arrival : ℕ → ℕ → ℕ) : Socket (TcpLink τ) where
  send data l := (data.length, l.push serve data)
  recv _ len l :=
    let got := l.inbound.take (min len (arrival l.clock len))
    (if got = [] ∧ len ≠ 0 then .wouldBlock else .bytes got, l.taken got.length)
  recv_le := by
    intro tv len l data h
    dsimp only at h
    split at h
    · cases h
    · cases h
      rw [List.length_take]
      omega

variable {serve : Serve τ} {arrival : ℕ → ℕ → ℕ} {l : TcpLink τ} {a : LedgerAnswer m}
  {data : List UInt8} {timeoutMS : UInt32} {len : ℕ}

/-- The last bytes of a request make the device take it. -/
theorem push_complete {request : List UInt8} (hr : request.length ≤ 4294967295)
    (h : l.sent ++ data = toBe 4 request.length ++ request) :
    l.push serve data = { l.served serve request with sent := [] } := by
  have hlen : ofBe (toBe 4 request.length) = request.length := ofBe_toBe (by omega)
  have htake : (toBe 4 request.length ++ request).take 4 = toBe 4 request.length :=
    List.take_left' (toBe_length 4 _)
  have hdrop : (toBe 4 request.length ++ request).drop 4 = request :=
    List.drop_left' (toBe_length 4 _)
  have hnil : (toBe 4 request.length ++ request).drop (4 + request.length) = [] :=
    List.drop_eq_nil_iff.mpr (by simp)
  unfold TcpLink.push
  simp only [h, htake, hlen, hdrop, hnil, List.take_length]
  rw [if_pos (by simp)]

theorem push_header (hs : l.sent = []) {n : ℕ} (hn : n ≠ 0) (hle : n ≤ 4294967295) :
    l.push serve (toBe 4 n) = { l with sent := toBe 4 n } := by
  have hlen : ofBe (toBe 4 n) = n := ofBe_toBe (by omega)
  have htake : (toBe 4 n).take 4 = toBe 4 n := List.take_of_length_le (by simp)
  unfold TcpLink.push
  simp only [hs, List.nil_append, htake, hlen]
  rw [if_neg]
  rw [toBe_length]
  omega

theorem push_nil (hs : l.sent = []) : l.push serve [] = l := by
  unfold TcpLink.push
  rw [hs, if_neg (by simp)]
  obtain ⟨device, sent, inbound, clock⟩ := l
  obtain rfl : sent = [] := hs
  rfl

/-- The two writes of an exchange make the device take the request, and no more. -/
theorem push_request (hs : l.sent = []) (hd : data.length ≤ 4294967295) :
    (l.push serve (toBe 4 data.length)).push serve data =
      { l.served serve data with sent := [] } := by
  by_cases hz : data = []
  · subst hz
    rw [@push_complete τ serve l _ [] hd (by rw [hs]; simp), push_nil rfl]
  · have hpos : data.length ≠ 0 := by simpa using hz
    rw [push_header hs hpos hd]
    exact push_complete hd rfl

theorem exec_tcpSend_link (h : data.length ≤ 4294967295) :
    exec (tcpSend (tcpLink serve arrival) data) (⟨some l, a⟩ : Link _ m) =
      (.ok .success, ⟨some (l.push serve data), a⟩) := by
  have hw : asSizeT (((tcpLink serve arrival).send data l).1) = data.length :=
    asSizeT_ofNat (by simp only [sizeTBound]; omega)
  rw [exec_tcpSend, if_pos hw]
  rfl

/-- An exchange makes the device take its request, and then receives. -/
theorem exec_tcpExchange_sent (hs : l.sent = []) (hd : data.length ≤ 4294967295) :
    exec (tcpExchange (tcpLink serve arrival) data timeoutMS) (⟨some l, a⟩ : Link _ m) =
      exec (tcpReceive (tcpLink serve arrival) timeoutMS)
        ⟨some { l.served serve data with sent := [] }, a⟩ := by
  have hle : ¬ data.length > 4294967295 := not_lt.mpr hd
  rw [tcpExchange, if_neg hle, exec_bind_ok (exec_tcpSend_link (by simp))]
  simp only [ne_eq, not_true_eq_false, if_false]
  rw [exec_bind_ok (exec_tcpSend_link hd), push_request hs hd]
  simp only [not_true_eq_false, if_false]

/-- A read of bytes that are on their way gets them all, or some of them are late. -/
theorem exec_tcpRead_link (h : len ≤ l.inbound.length) :
    exec (tcpRead (tcpLink serve arrival) len timeoutMS) (⟨some l, a⟩ : Link _ m) =
        (.ok (.success, l.inbound.take len), ⟨some (l.taken len), a⟩) ∨
      ∃ data k, arrival l.clock len < len ∧ data.length ≤ len ∧
        exec (tcpRead (tcpLink serve arrival) len timeoutMS) (⟨some l, a⟩ : Link _ m) =
          (.ok (.transportTimeout, data), ⟨some (l.taken k), a⟩) := by
  by_cases ha : len ≤ arrival l.clock len
  · left
    have hg : min len (arrival l.clock len) = len := min_eq_left ha
    have hl : (l.inbound.take len).length = len := List.length_take_of_le h
    have hr : (tcpLink serve arrival).recv (timeval timeoutMS) len l =
        (.bytes (l.inbound.take len), l.taken len) := by
      dsimp only [tcpLink]
      rw [hg, hl, if_neg]
      rintro ⟨hn, hz⟩
      rw [hn] at hl
      exact hz hl.symm
    exact exec_tcpRead_all hr hl
  · right
    have hg : min len (arrival l.clock len) = arrival l.clock len := by omega
    have hl : (l.inbound.take (arrival l.clock len)).length = arrival l.clock len :=
      List.length_take_of_le (by omega)
    by_cases hz : l.inbound.take (arrival l.clock len) = []
    · have hr : (tcpLink serve arrival).recv (timeval timeoutMS) len l =
          (.wouldBlock, l.taken 0) := by
        dsimp only [tcpLink]
        rw [hg, hz, if_pos ⟨rfl, by omega⟩, List.length_nil]
      exact ⟨[], 0, by omega, Nat.zero_le _, exec_tcpRead_wouldBlock hr⟩
    · have hr : (tcpLink serve arrival).recv (timeval timeoutMS) len l =
          (.bytes (l.inbound.take (arrival l.clock len)), l.taken (arrival l.clock len)) := by
        dsimp only [tcpLink]
        rw [hg, hl, if_neg fun h => hz h.1]
      exact ⟨_, _, by omega, by omega, exec_tcpRead_short hr (by omega)⟩

/-- Receiving an answer whose length is known. -/
theorem tcpReadAnswer_link {answer prefixBytes : List UInt8} (hi : l.inbound = answer)
    (hp : (ofBe prefixBytes + swSize) % 4294967296 = answer.length) :
    ∃ res l' a', exec (tcpReadAnswer (tcpLink serve arrival) prefixBytes timeoutMS)
        (⟨some l, a⟩ : Link _ m) = (.ok res, ⟨some l', a'⟩) ∧
      l'.device = l.device ∧ l'.sent = l.sent ∧
      Receives (∀ k len, len ≤ arrival k len) (l'.inbound = []) answer a res a' := by
  simp only [tcpReadAnswer, hp]
  rw [exec_bind_ok (exec_read _ _)]
  by_cases hs : answer.length > a.bufSize
  · refine ⟨.protocolBadLength, l, a, ?_, rfl, rfl, .tooLong hs⟩
    rw [if_pos hs]
    rfl
  have hle := not_lt.mp hs
  have hm := hle.trans a.fits
  rw [if_neg hs, exec_bind_ok (exec_resizeAnswer hle)]
  rcases @exec_tcpRead_link τ m serve arrival l ⟨a.buf, answer.length, hm⟩ timeoutMS answer.length
    (by rw [hi]) with he | ⟨data, k, hk, hd, he⟩
  · rw [hi, List.take_length] at he
    refine ⟨.success, l.taken answer.length, a.filled answer hm, ?_, rfl, rfl, .whole hle ?_⟩
    · rw [exec_bind_ok he]
      dsimp only
      rw [exec_bind_ok (exec_storeAnswer (by omega))]
      rfl
    · change l.inbound.drop answer.length = []
      rw [hi, List.drop_length]
  · refine ⟨.transportTimeout, l.taken k, ⟨a.buf.overwrite 0 data, answer.length, hm⟩, ?_, rfl, rfl,
      .late _ fun h => ?_⟩
    · rw [exec_bind_ok he]
      dsimp only
      rw [exec_bind_ok (exec_storeAnswer (by omega))]
      rfl
    · have := h l.clock answer.length
      omega

/-- Receiving the one answer that is on its way. -/
theorem tcpReceive_link {answer : DeviceAnswer} (hi : l.inbound = tcpFrame answer.bytes) :
    ∃ res l' a', exec (tcpReceive (tcpLink serve arrival) timeoutMS) (⟨some l, a⟩ : Link _ m) =
        (.ok res, ⟨some l', a'⟩) ∧ l'.device = l.device ∧ l'.sent = l.sent ∧
      Receives (∀ k len, len ≤ arrival k len) (l'.inbound = []) answer.bytes a res a' := by
  have hsw := answer.hasSw
  have hfits := answer.fits
  have hlen : l.inbound.length = 4 + answer.bytes.length := by
    rw [hi, tcpFrame, List.length_append, toBe_length]
  rcases @exec_tcpRead_link τ m serve arrival l a timeoutMS 4 (by omega) with
    he | ⟨data, k, hk, hd, he⟩
  · have hpre : l.inbound.take 4 = toBe 4 (answer.bytes.length - swSize) := by
      rw [hi, tcpFrame, List.take_left' (toBe_length 4 _)]
    have hrest : (l.taken 4).inbound = answer.bytes := by
      change l.inbound.drop 4 = _
      rw [hi, tcpFrame, List.drop_left' (toBe_length 4 _)]
    have hrecv : (ofBe (l.inbound.take 4) + swSize) % 4294967296 = answer.bytes.length := by
      rw [hpre, ofBe_toBe (by omega), Nat.sub_add_cancel hsw]
      omega
    rw [tcpReceive, exec_bind_ok he]
    simp only [ne_eq, not_true_eq_false, if_false]
    exact tcpReadAnswer_link hrest hrecv
  · refine ⟨.transportTimeout, l.taken k, a, ?_, rfl, rfl, .late a fun h => ?_⟩
    · rw [tcpReceive, exec_bind_ok he]
      simp only [ne_eq, reduceCtorEq, not_false_eq_true, if_true]
      rfl
    · have := h l.clock 4
      omega

/-- An exchange on a link with nothing under way. -/
theorem tcpExchange_link (hs : l.sent = []) (hi : l.inbound = []) (hd : data.length ≤ 4294967295) :
    ∃ res l' a', exec (tcpExchange (tcpLink serve arrival) data timeoutMS) (⟨some l, a⟩ : Link _ m) =
        (.ok res, ⟨some l', a'⟩) ∧ l'.device = (serve data l.device).2 ∧ l'.sent = [] ∧
      Receives (∀ k len, len ≤ arrival k len) (l'.inbound = []) (serve data l.device).1.bytes a
        res a' := by
  have hin : ({ l.served serve data with sent := [] } : TcpLink τ).inbound =
      tcpFrame (serve data l.device).1.bytes := by
    change l.inbound ++ _ = _
    rw [hi, List.nil_append]
  obtain ⟨res, l', a', he, hdev, hsent, hr⟩ := @tcpReceive_link τ m serve arrival _ a timeoutMS _ hin
  exact ⟨res, l', a', (exec_tcpExchange_sent hs hd).trans he, hdev, hsent, hr⟩

theorem tcpExchange_tooLong (h : 4294967295 < data.length) {σ : Type} {sock : Socket σ} {dev : Option σ} :
    exec (tcpExchange sock data timeoutMS) (⟨dev, a⟩ : Link σ m) = (.ok .libBadLength, ⟨dev, a⟩) := by
  rw [tcpExchange, if_pos h]
  rfl

end Tcp

section Usb

/-- A HID connection. -/
structure UsbLink (τ : Type) where
  device : τ
  /-- The length that a request announced, and its data so far. -/
  partialRequest : Option (ℕ × List UInt8)
  inbound : List (Buf 64)
  clock : ℕ
  deriving DecidableEq

variable {τ : Type} {m : ℕ}

/-- The packets of an answer as they arrive, filled up with `junk`. -/
def usbPackets (junk : List UInt8 → Buf 64) (a : List UInt8) : List (Buf 64) :=
  (frames a).map fun f => (junk f).overwrite 0 f.tail

namespace UsbLink

def served (serve : Serve τ) (junk : List UInt8 → Buf 64) (l : UsbLink τ) (request : List UInt8) :
    UsbLink τ :=
  { l with
    device := (serve request l.device).2
    partialRequest := none
    inbound := l.inbound ++ usbPackets junk (serve request l.device).1.bytes }

/-- A packet from the library, and the request that it may complete. -/
def push (serve : Serve τ) (junk : List UInt8 → Buf 64) (l : UsbLink τ) (f : List UInt8) : UsbLink τ :=
  let (len, data) := match l.partialRequest with
    | none => (ofBe ((f.drop 6).take 2), f.drop 8)
    | some (len, data) => (len, data ++ f.drop 6)
  if len ≤ data.length then l.served serve junk (data.take len)
  else { l with partialRequest := some (len, data) }

end UsbLink

/-- The device; at the `k`-th read the next packet has come in where `arrival k` says so. -/
def usbLink (serve : Serve τ) (junk : List UInt8 → Buf 64) (arrival : ℕ → Bool) : Hid (UsbLink τ) where
  write f l := (f.length, l.push serve junk f)
  readTimeout _ l :=
    match l.inbound, arrival l.clock with
    | b :: bs, true => (some b, { l with inbound := bs, clock := l.clock + 1 })
    | _, _ => (none, { l with clock := l.clock + 1 })

variable {serve : Serve τ} {junk : List UInt8 → Buf 64} {arrival : ℕ → Bool} {l : UsbLink τ}
  {a : LedgerAnswer m} {data : List UInt8} {timeoutMS : UInt32}

theorem write_link {f : List UInt8} (hf : f.length ≤ 65) (fs : List (List UInt8)) (l : UsbLink τ) :
    writeFrames (usbLink serve junk arrival) (f :: fs) l =
      writeFrames (usbLink serve junk arrival) fs (l.push serve junk f) := by
  have hw : ¬ asSizeT ((usbLink serve junk arrival).write f l).1 < f.length := by
    have : asSizeT ((usbLink serve junk arrival).write f l).1 = f.length :=
      asSizeT_ofNat (by simp only [sizeTBound]; omega)
    omega
  rw [writeFrames, if_neg hw]
  rfl

/-- A packet behind the first one completes the request or adds to it. -/
theorem push_continuation {seq n : ℕ} {acc rest : List UInt8} (hp : l.partialRequest = some (n, acc))
    (hn : acc.length + rest.length = n) :
    l.push serve junk ([0] ++ usbPacketHeader ++ toBe 2 seq ++ rest.take 59) =
      if rest.length ≤ 59 then l.served serve junk (acc ++ rest)
      else { l with partialRequest := some (n, acc ++ rest.take 59) } := by
  have hdrop : ([0] ++ usbPacketHeader ++ toBe 2 seq ++ rest.take 59).drop 6 = rest.take 59 :=
    List.drop_left' (by simp [usbPacketHeader])
  unfold UsbLink.push
  simp only [hp, hdrop, List.length_append, List.length_take]
  by_cases hr : rest.length ≤ 59
  · have htake : acc ++ rest.take 59 = acc ++ rest := by rw [List.take_of_length_le hr]
    rw [if_pos (by omega), if_pos hr, htake, List.take_of_length_le (by rw [List.length_append]; omega)]
  · rw [if_neg (by omega), if_neg hr]

theorem writeFrames_continuations {seq n : ℕ} {rest acc : List UInt8} {l : UsbLink τ}
    (hp : l.partialRequest = some (n, acc)) (hn : acc.length + rest.length = n) (hr : rest ≠ []) :
    writeFrames (usbLink serve junk arrival) (continuations seq rest) l =
      (.success, l.served serve junk (acc ++ rest)) := by
  fun_induction continuations seq rest generalizing acc l with
  | case1 => exact absurd rfl hr
  | case2 seq rest hne ih =>
    have hf : ([0] ++ usbPacketHeader ++ toBe 2 seq ++ rest.take 59).length ≤ 65 := by
      simp only [usbPacketHeader, List.length_append, toBe_length, List.length_take,
        List.length_cons, List.length_nil]
      omega
    rw [write_link hf, push_continuation hp hn]
    by_cases hl : rest.length ≤ 59
    · rw [if_pos hl, List.drop_eq_nil_iff.mpr hl, continuations_nil, writeFrames]
    · have hd : rest.drop 59 ≠ [] := fun h => hl (List.drop_eq_nil_iff.mp h)
      have hlen : (acc ++ rest.take 59).length + (rest.drop 59).length = n := by
        rw [← hn, List.length_append, List.length_take, List.length_drop]
        omega
      rw [if_neg hl, ih rfl hlen hd, List.append_assoc, List.take_append_drop]
      rfl

/-- The writes of `send` make the device take the payload, and no more. -/
theorem writeFrames_link (hp : l.partialRequest = none) (hd : data.length ≤ 0xFFFF) :
    writeFrames (usbLink serve junk arrival) (frames data) l =
      (.success, l.served serve junk data) := by
  have hdrop : ([0] ++ usbPacketHeader ++ [0, 0] ++ toBe 2 data.length ++ data.take 57).drop 8 =
      data.take 57 := List.drop_left' (by simp [usbPacketHeader])
  have hlen : ([0] ++ usbPacketHeader ++ [0, 0] ++ toBe 2 data.length ++ data.take 57).drop 6 =
      toBe 2 data.length ++ data.take 57 := rfl
  have htake : (toBe 2 data.length ++ data.take 57).take 2 = toBe 2 data.length :=
    List.take_left' (toBe_length 2 _)
  rw [frames, write_link (frames_length_le (List.mem_cons_self ..))]
  unfold UsbLink.push
  simp only [hp, hdrop, hlen, htake, ofBe_toBe (show data.length < 256 ^ 2 by omega), List.length_take]
  by_cases hl : data.length ≤ 57
  · rw [if_pos (by omega), List.drop_eq_nil_iff.mpr hl, continuations_nil, writeFrames,
      List.take_of_length_le hl, List.take_length]
  · have hd : data.drop 57 ≠ [] := fun h => hl (List.drop_eq_nil_iff.mp h)
    have hlen : (data.take 57).length + (data.drop 57).length = data.length := by
      rw [← List.length_append, List.take_append_drop]
    rw [if_neg (by omega), writeFrames_continuations rfl hlen hd, List.take_append_drop]
    rfl

theorem readTimeout_keeps (t : Int32) (l : UsbLink τ) :
    ((usbLink serve junk arrival).readTimeout t l).2.device = l.device ∧
      ((usbLink serve junk arrival).readTimeout t l).2.partialRequest = l.partialRequest := by
  simp only [usbLink]
  split <;> exact ⟨rfl, rfl⟩

/-- The packets that are on their way are delivered, or one of them is late. -/
theorem delivery_link (t : Int32) (pkts : List (Buf 64)) (l : UsbLink τ) (hi : l.inbound = pkts) :
    ∃ ok l', Delivery (usbLink serve junk arrival) t l pkts ok l' ∧ l'.device = l.device ∧
      l'.partialRequest = l.partialRequest ∧ (ok = true → l'.inbound = []) ∧
      (ok = false → ¬ ∀ k, arrival k = true) := by
  induction pkts generalizing l with
  | nil => exact ⟨true, l, .done l, rfl, rfl, fun _ => hi, nofun⟩
  | cons b bs ih =>
    cases ha : arrival l.clock with
    | true =>
      have hr : (usbLink serve junk arrival).readTimeout t l =
          (some b, { l with inbound := bs, clock := l.clock + 1 }) := by
        simp only [usbLink, hi, ha]
      obtain ⟨ok, l', hdel, hdev, hpart, hok, hno⟩ :=
        ih { l with inbound := bs, clock := l.clock + 1 } rfl
      exact ⟨ok, l', .next hr hdel, hdev, hpart, hok, hno⟩
    | false =>
      have hr : (usbLink serve junk arrival).readTimeout t l =
          (none, { l with clock := l.clock + 1 }) := by
        simp only [usbLink, hi, ha]
      refine ⟨false, _, .late hr, rfl, rfl, nofun, fun _ h => ?_⟩
      rw [h l.clock] at ha
      cases ha

theorem usbPackets_arrive (junk : List UInt8 → Buf 64) (a : List UInt8) :
    List.Forall₂ Arrives (frames a) (usbPackets junk a) := by
  rw [usbPackets, List.forall₂_map_right_iff]
  exact List.forall₂_same.mpr fun f _ => ⟨junk f, rfl⟩

theorem exec_usbRead_late {σ : Type} {hid : Hid σ} {s s' : σ} {outLen : ℕ} (hout : outLen ≤ 0xFFFF)
    (h : hid.readTimeout (readTimeoutOf timeoutMS) s = (none, s')) :
    exec (usbRead hid outLen timeoutMS) (⟨some s, a⟩ : Link σ m) =
      (.ok (.transportTimeout, outLen), ⟨some s', a⟩) := by
  rw [usbRead, if_neg (by omega), exec_bind_ok (exec_onHandle _), h]
  rfl

/-- Receiving the one answer that is on its way. -/
theorem usbReceive_link {answer : DeviceAnswer} (hi : l.inbound = usbPackets junk answer.bytes) :
    ∃ res l' a', exec (usbReceive (usbLink serve junk arrival) timeoutMS) (⟨some l, a⟩ : Link _ m) =
        (.ok res, ⟨some l', a'⟩) ∧ l'.device = l.device ∧ l'.partialRequest = l.partialRequest ∧
      Receives (∀ k, arrival k = true) (l'.inbound = []) answer.bytes a res a' := by
  have harr := usbPackets_arrive junk answer.bytes
  obtain ⟨ok, l', hdel, hdev, hpart, hok, hno⟩ := @delivery_link τ serve junk arrival
    (readTimeoutOf timeoutMS) (usbPackets junk answer.bytes) l hi
  rw [usbReceive, exec_bind_ok (exec_read _ _)]
  by_cases hout : 0xFFFF < a.bufSize
  · refine ⟨.libBadLength, l, a, ?_, rfl, rfl, .oversized hout⟩
    rw [usbRead, if_pos hout]
    rfl
  rw [not_lt] at hout
  by_cases hs : a.bufSize < answer.bytes.length
  · -- The first packet alone decides.
    generalize usbPackets junk answer.bytes = pkts at harr hdel
    cases hdel with
    | done =>
      rw [frames] at harr
      cases harr
    | late h =>
      refine ⟨.transportTimeout, l', a, ?_, hdev, hpart, .late a (hno rfl)⟩
      rw [exec_bind_ok (exec_usbRead_late hout h)]
      rfl
    | @next _ s₁ _ _ _ _ h _ =>
      have hkeep := @readTimeout_keeps τ serve junk arrival (readTimeoutOf timeoutMS) l
      rw [h] at hkeep
      refine ⟨.protocolBadLength, s₁, a, ?_, hkeep.1, hkeep.2, .tooLong hs⟩
      rw [exec_bind_ok (exec_usbRead_tooLong answer.fits hs harr h)]
      rfl
  · have hle := not_lt.mp hs
    obtain ⟨res, outLen', src, he, hok', hno'⟩ := @exec_usbRead_delivery _ m _ l l' a ok
      answer.bytes _ a.bufSize timeoutMS answer.fits hle hout (hle.trans a.fits) harr hdel
    cases ok with
    | true =>
      obtain ⟨rfl, rfl, rfl⟩ := hok' rfl
      refine ⟨.success, l', _, ?_, hdev, hpart, .whole hle (hok rfl)⟩
      rw [exec_bind_ok he]
      simp only [ne_eq, not_true_eq_false, if_false]
      have hfill : answer.bytes.length ≤ (a.fill answer.bytes).bufSize := hle
      rw [exec_bind_ok (exec_resizeAnswer hfill)]
      rfl
    | false =>
      obtain rfl := hno' rfl
      refine ⟨.transportTimeout, l', _, ?_, hdev, hpart, .late (a.fill src) (hno rfl)⟩
      rw [exec_bind_ok he]
      rfl

theorem usbExchange_link (hp : l.partialRequest = none) (hi : l.inbound = [])
    (hd : data.length ≤ 0xFFFF) :
    ∃ res l' a', exec (usbExchange (usbLink serve junk arrival) data timeoutMS) (⟨some l, a⟩ : Link _ m) =
        (.ok res, ⟨some l', a'⟩) ∧ l'.device = (serve data l.device).2 ∧ l'.partialRequest = none ∧
      Receives (∀ k, arrival k = true) (l'.inbound = []) (serve data l.device).1.bytes a res a' := by
  have hin : (l.served serve junk data).inbound = usbPackets junk (serve data l.device).1.bytes := by
    change l.inbound ++ _ = _
    rw [hi, List.nil_append]
  obtain ⟨res, l', a', he, hdev, hpart, hr⟩ :=
    @usbReceive_link τ m serve junk arrival _ a timeoutMS _ hin
  refine ⟨res, l', a', ?_, hdev, hpart, hr⟩
  rw [usbExchange, exec_bind_ok (exec_usbSend hd), writeFrames_link hp hd]
  exact he

theorem usbExchange_tooLong (h : 0xFFFF < data.length) {σ : Type} {hid : Hid σ} {s : σ} :
    exec (usbExchange hid data timeoutMS) (⟨some s, a⟩ : Link σ m) =
      (.ok .libBadLength, ⟨some s, a⟩) := by
  rw [usbExchange, exec_bind_ok (exec_usbSend_tooLong h)]
  rfl

end Usb

section Fifo
variable {τ : Type}

theorem Receives.imp {m : ℕ} {prompt quiet quiet' : Prop} {a : List UInt8} {out out' : LedgerAnswer m}
    {res : Result} (h : Receives prompt quiet a out res out') (hq : quiet → quiet') :
    Receives prompt quiet' a out res out' := by
  cases h with
  | whole hs h => exact .whole hs (hq h)
  | tooLong hs => exact .tooLong hs
  | late _ hp => exact .late _ hp
  | oversized hs => exact .oversized hs

/-- A link of either kind, as far as its exchanges are concerned. It is quiet while nothing
is under way on it, neither a part of a request nor of an answer. -/
structure FifoLink (τ : Type) where
  State : Type
  exchange : Exchange State
  /-- The longest request that is sent. -/
  limit : ℕ
  start : τ → State
  device : State → τ
  quiet : State → Prop

def tcpFifo (serve : Serve τ) (arrival : ℕ → ℕ → ℕ) : FifoLink τ where
  State := TcpLink τ
  exchange := tcpExchange (tcpLink serve arrival)
  limit := 4294967295
  start d := ⟨d, [], [], 0⟩
  device l := l.device
  quiet l := l.sent = [] ∧ l.inbound = []

def usbFifo (serve : Serve τ) (junk : List UInt8 → Buf 64) (arrival : ℕ → Bool) : FifoLink τ where
  State := UsbLink τ
  exchange := usbExchange (usbLink serve junk arrival)
  limit := 0xFFFF
  start d := ⟨d, none, [], 0⟩
  device l := l.device
  quiet l := l.partialRequest = none ∧ l.inbound = []

/-- An exchange on a quiet link refuses a request that is too long, or makes the device
serve it and receives its answer. -/
structure FifoLink.Serves (L : FifoLink τ) (serve : Serve τ) (prompt : Prop) : Prop where
  start (d : τ) : L.quiet (L.start d) ∧ L.device (L.start d) = d
  tooLong {m : ℕ} {data : List UInt8} (timeoutMS : UInt32) (s : L.State) (a : LedgerAnswer m) :
    L.limit < data.length →
      exec (L.exchange data timeoutMS) ⟨some s, a⟩ = (.ok .libBadLength, ⟨some s, a⟩)
  served {m : ℕ} {data : List UInt8} (timeoutMS : UInt32) {s : L.State} (a : LedgerAnswer m) :
    data.length ≤ L.limit → L.quiet s →
      ∃ res s' a', exec (L.exchange data timeoutMS) ⟨some s, a⟩ = (.ok res, ⟨some s', a'⟩) ∧
        L.device s' = (serve data (L.device s)).2 ∧
        Receives prompt (L.quiet s') (serve data (L.device s)).1.bytes a res a'

theorem tcpFifo_serves (serve : Serve τ) (arrival : ℕ → ℕ → ℕ) :
    (tcpFifo serve arrival).Serves serve (∀ k len, len ≤ arrival k len) where
  start d := ⟨⟨rfl, rfl⟩, rfl⟩
  tooLong timeoutMS s a h := tcpExchange_tooLong h
  served timeoutMS s a hd hq := by
    obtain ⟨res, l', a', he, hdev, hsent, hr⟩ := @tcpExchange_link _ _ serve arrival s a _ timeoutMS
      hq.1 hq.2 hd
    exact ⟨res, l', a', he, hdev, hr.imp fun hi => ⟨hsent, hi⟩⟩

theorem usbFifo_serves (serve : Serve τ) (junk : List UInt8 → Buf 64) (arrival : ℕ → Bool) :
    (usbFifo serve junk arrival).Serves serve (∀ k, arrival k = true) where
  start d := ⟨⟨rfl, rfl⟩, rfl⟩
  tooLong timeoutMS s a h := usbExchange_tooLong h
  served timeoutMS s a hd hq := by
    obtain ⟨res, l', a', he, hdev, hpart, hr⟩ := @usbExchange_link _ _ serve junk arrival s a _
      timeoutMS hq.1 hq.2 hd
    exact ⟨res, l', a', he, hdev, hr.imp fun hi => ⟨hpart, hi⟩⟩

end Fifo

end LedgerKeePass.Kpl
