import LedgerKeePass.LibAnswer

/-!
# The USB transport (`ledger_device_usb.cpp`)

`Hid` is hidapi. A payload travels in 64-byte packets, the first with its length and the
others numbered from one. `frames` are the writes that `send` makes for a payload, each
with the report id in front; `usbRead` puts a payload together again.
-/
namespace LedgerKeePass.Kpl
open Bytes Program

structure Hid (σ : Type) where
  /-- `hid_write`: the count that it returns for a packet, or -1. -/
  write : List UInt8 → σ → ℤ × σ
  /-- `hid_read_timeout`: a packet of 64 bytes, or anything shorter or an error. -/
  readTimeout : Int32 → σ → Option (Buf 64) × σ

def usbPacketHeader : List UInt8 := [0x01, 0x01, 0x05]

/-- `(TimeoutMS > 0) ? TimeoutMS : -1`, computed unsigned and stored in an `int`. -/
def readTimeoutOf (timeoutMS : UInt32) : Int32 :=
  (if timeoutMS > 0 then timeoutMS else -1).toInt32

/-- The locals of the loop of `send`; `data` is what is left of the payload. -/
structure SendState where
  buf : Buf 65
  it : ℕ
  seqNum : ℕ
  data : List UInt8

/-- The locals of the loop of `read`; `off` is how far `Out` has advanced. -/
structure ReadState where
  buf : Buf 64
  it : ℕ
  seqRef : ℕ
  inLen : ℕ
  off : ℕ

section
variable {σ : Type} {m : ℕ} (hid : Hid σ)

def sendRound (st : SendState) : LibM σ m (SendState ⊕ Result) := do
  let len := min st.data.length (65 - st.it)
  let buf ← demand .outOfBounds (st.buf.copyAt st.it (st.data.take len))
  let pktLen := st.it + len
  let packet ← demand .outOfBounds (buf.slice 0 pktLen)
  let ret ← onHandle (hid.write packet.toList)
  if asSizeT ret < pktLen then return .inr .transportGenericError
  else
    let data := st.data.drop len
    if data.length > 0 then
      return .inl ⟨buf.overwrite 4 (toBe 2 st.seqNum), 6, (st.seqNum + 1) % 65536, data⟩
    else return .inr .success

def sendStart (data : List UInt8) : SendState where
  buf := (Buf.zeros 65).overwrite 0 ([0] ++ usbPacketHeader ++ [0, 0] ++ toBe 2 data.length)
  it := 8
  seqNum := 1
  data := data

/-- `LedgerDeviceUSB::send` -/
def usbSend (data : List UInt8) : LibM σ m Result := do
  if (← read fun l => l.dev.isNone) then return .transportGenericError
  else if data.length > 0xFFFF then return .libBadLength
  else loop .diverges (data.length + 1) (sendRound hid) (sendStart data)

def readRound (readTimeout : Int32) (st : ReadState) : LibM σ m (ReadState ⊕ Result) := do
  let len := min st.inLen (64 - st.it)
  let chunk ← demand .outOfBounds (st.buf.slice st.it len)
  storeAnswer st.off chunk.toList
  if st.inLen - len = 0 then return .inr .success
  else
    match ← onHandle (hid.readTimeout readTimeout) with
    | none => return .inr .transportTimeout
    | some buf =>
      if ofBe (buf.window 3 2).toList ≠ st.seqRef then return .inr .transportUsbBadSeq
      else return .inl ⟨buf, 5, (st.seqRef + 1) % 65536, st.inLen - len, st.off + len⟩

/-- The checks on the first packet. -/
def usbReadFirst (buf : Buf 64) (outLen : ℕ) : Except Result ℕ :=
  if buf.byteAt 0 ≠ 0x01 ∨ buf.byteAt 1 ≠ 0x01 ∨ buf.byteAt 2 ≠ 5 then .error .transportUsbBadPacket
  else if ofBe (buf.window 3 2).toList ≠ 0 then .error .transportUsbBadSeq
  else if ofBe (buf.window 5 2).toList > outLen then .error .protocolBadLength
  else .ok (ofBe (buf.window 5 2).toList)

/-- `LedgerDeviceUSB::read`: its result and the new `*OutLen`. -/
def usbRead (outLen : ℕ) (timeoutMS : UInt32) : LibM σ m (Result × ℕ) := do
  if outLen > 0xFFFF then return (.libBadLength, outLen)
  else
    match ← onHandle (hid.readTimeout (readTimeoutOf timeoutMS)) with
    | none => return (.transportTimeout, outLen)
    | some buf =>
      match usbReadFirst buf outLen with
      | .error res => return (res, outLen)
      | .ok inLen =>
        let res ← loop .diverges (inLen + 1) (readRound hid (readTimeoutOf timeoutMS))
          ⟨buf, 7, 1, inLen, 0⟩
        return (res, inLen)

/-- What `exchange` does after its `send`. -/
def usbReceive (timeoutMS : UInt32) : LibM σ m Result := do
  let (res, recvLen) ← usbRead hid (← read fun l => l.out.bufSize) timeoutMS
  if res ≠ .success then return res
  else
    resizeAnswer recvLen
    return .success

/-- `LedgerDeviceUSB::exchange` -/
def usbExchange (data : List UInt8) (timeoutMS : UInt32) : LibM σ m Result := do
  let res ← usbSend hid data
  if res ≠ .success then return res
  else usbReceive hid timeoutMS

end

/-- The packets behind the first one. -/
def continuations (seq : ℕ) (data : List UInt8) : List (List UInt8) :=
  if data = [] then []
  else ([0] ++ usbPacketHeader ++ toBe 2 seq ++ data.take 59) ::
    continuations ((seq + 1) % 65536) (data.drop 59)
termination_by data.length
decreasing_by
  have : data.length ≠ 0 := by simpa using ‹¬data = []›
  simp only [List.length_drop]
  omega

/-- The packets of a payload as they are written. -/
def frames (payload : List UInt8) : List (List UInt8) :=
  ([0] ++ usbPacketHeader ++ [0, 0] ++ toBe 2 payload.length ++ payload.take 57) ::
    continuations 1 (payload.drop 57)

section Send
variable {σ : Type} {m : ℕ} {hid : Hid σ} {s : σ} {a : LedgerAnswer m}

/-- Writing packets one by one, up to the first that `send` takes for a failure. -/
def writeFrames (hid : Hid σ) : List (List UInt8) → σ → Result × σ
  | [], s => (.success, s)
  | f :: fs, s =>
    if asSizeT (hid.write f s).1 < f.length then (.transportGenericError, (hid.write f s).2)
    else writeFrames hid fs (hid.write f s).2

theorem continuations_nil (seq : ℕ) : continuations seq [] = [] := by
  rw [continuations, if_pos rfl]

theorem continuations_cons (seq : ℕ) {data : List UInt8} (h : data ≠ []) :
    continuations seq data = ([0] ++ usbPacketHeader ++ toBe 2 seq ++ data.take 59) ::
      continuations ((seq + 1) % 65536) (data.drop 59) := by
  rw [continuations, if_neg h]

/-- The packet that a round of `send` writes. -/
def SendState.packet (st : SendState) : List UInt8 :=
  st.buf.toList.take st.it ++ st.data.take (65 - st.it)

theorem packet_length (st : SendState) (h : st.it ≤ 65) :
    st.packet.length = st.it + min st.data.length (65 - st.it) := by
  rw [SendState.packet, List.length_append, List.length_take, List.length_take,
    List.Vector.toList_length]
  omega

/-- The buffer after a round and the state in which the next one starts. -/
def SendState.next (st : SendState) : SendState where
  buf := (st.buf.overwrite st.it (st.data.take (65 - st.it))).overwrite 4 (toBe 2 st.seqNum)
  it := 6
  seqNum := (st.seqNum + 1) % 65536
  data := st.data.drop (65 - st.it)

theorem exec_sendRound (st : SendState) (h : st.it ≤ 65) :
    exec (sendRound hid st) (⟨some s, a⟩ : Link σ m) =
      if asSizeT (hid.write st.packet s).1 < st.packet.length then
        (.ok (.inr .transportGenericError), ⟨some (hid.write st.packet s).2, a⟩)
      else if st.data.length ≤ 65 - st.it then
        (.ok (.inr .success), ⟨some (hid.write st.packet s).2, a⟩)
      else (.ok (.inl st.next), ⟨some (hid.write st.packet s).2, a⟩) := by
  have htake : st.data.take (min st.data.length (65 - st.it)) = st.data.take (65 - st.it) := by
    rw [List.take_eq_take_iff]
    omega
  have hfit : st.it + (st.data.take (65 - st.it)).length ≤ 65 := by
    rw [List.length_take]
    omega
  have hlen := packet_length st h
  have hpkt : ((st.buf.overwrite st.it (st.data.take (65 - st.it))).window 0
      (st.it + min st.data.length (65 - st.it))).toList = st.packet := by
    rw [Buf.window_toList _ (by omega), List.drop_zero, SendState.packet,
      ← Buf.overwrite_take _ hfit, List.length_take, Nat.min_comm]
  rw [sendRound, htake, Buf.copyAt_eq hfit, exec_bind_ok (exec_demand_some _ _ _)]
  dsimp only
  rw [Buf.slice_eq (by omega), exec_bind_ok (exec_demand_some _ _ _), hpkt,
    exec_bind_ok (exec_onHandle _), ← hlen]
  by_cases hw : asSizeT (hid.write st.packet s).1 < st.packet.length
  · rw [if_pos hw, if_pos hw]
    rfl
  · rw [if_neg hw, if_neg hw]
    by_cases hd : st.data.length ≤ 65 - st.it
    · have hz : ¬ (st.data.drop (min st.data.length (65 - st.it))).length > 0 := by
        rw [List.length_drop]
        omega
      rw [if_pos hd, if_neg hz]
      rfl
    · have hz : (st.data.drop (min st.data.length (65 - st.it))).length > 0 := by
        rw [List.length_drop]
        omega
      have hmin : min st.data.length (65 - st.it) = 65 - st.it := by omega
      rw [if_neg hd, if_pos hz, hmin]
      rfl

/-- The next round finds the header and its sequence number in the buffer. -/
theorem next_header {st : SendState} (hit : 6 ≤ st.it)
    (hbuf : st.buf.toList.take 4 = [0] ++ usbPacketHeader) :
    st.next.buf.toList.take 6 = [0] ++ usbPacketHeader ++ toBe 2 st.seqNum := by
  have hbefore := Buf.overwrite_take_before st.buf (st.data.take (65 - st.it)) (by omega : 4 ≤ st.it)
  have h := @Buf.overwrite_take 65 (st.buf.overwrite st.it (st.data.take (65 - st.it))) 4
    (toBe 2 st.seqNum) (by simp)
  rwa [hbefore, hbuf, toBe_length] at h

/-- The rounds behind the first write the continuation packets. -/
theorem exec_sendLoop (fuel : ℕ) (st : SendState) (seq : ℕ) (hit : st.it = 6)
    (hbuf : st.buf.toList.take 6 = [0] ++ usbPacketHeader ++ toBe 2 seq)
    (hseq : st.seqNum = (seq + 1) % 65536) (hdata : st.data ≠ []) (hfuel : st.data.length < fuel) :
    exec (loop .diverges fuel (sendRound hid) st) (⟨some s, a⟩ : Link σ m) =
      (.ok (writeFrames hid (continuations seq st.data) s).1,
        ⟨some (writeFrames hid (continuations seq st.data) s).2, a⟩) := by
  induction fuel generalizing st seq s with
  | zero => omega
  | succ fuel ih =>
    have hpkt : st.packet = [0] ++ usbPacketHeader ++ toBe 2 seq ++ st.data.take 59 := by
      rw [SendState.packet, hit, hbuf]
    have hr := @exec_sendRound σ m hid s a st (by omega)
    rw [continuations_cons seq hdata, ← hpkt, writeFrames]
    by_cases hw : asSizeT (hid.write st.packet s).1 < st.packet.length
    · rw [if_pos hw] at hr
      rw [if_pos hw, exec_loop_done hr]
    · rw [if_neg hw] at hr
      rw [if_neg hw]
      have hlen : st.data.length ≠ 0 := by simpa using hdata
      by_cases hd : st.data.length ≤ 65 - st.it
      · have hnil : st.data.drop 59 = [] := by
          rw [List.drop_eq_nil_iff]
          omega
        rw [if_pos hd] at hr
        rw [exec_loop_done hr, hnil, continuations_nil, writeFrames]
      · rw [if_neg hd] at hr
        have hnext : st.next.data = st.data.drop 59 := by rw [SendState.next, hit]
        have hrest : st.next.data.length = st.data.length - 59 := by
          rw [hnext, List.length_drop]
        rw [exec_loop_next hr, ← hnext]
        refine ih st.next ((seq + 1) % 65536) rfl ?_ ?_ ?_ ?_
        · rw [← hseq]
          refine next_header (by omega) ?_
          have h4 := congrArg (List.take 4) hbuf
          rwa [List.take_take] at h4
        · rw [SendState.next, hseq]
        · intro hn
          rw [hn, List.length_nil] at hrest
          omega
        · omega

theorem exec_usbSend_tooLong {data : List UInt8} (h : 0xFFFF < data.length) :
    exec (usbSend hid data) (⟨some s, a⟩ : Link σ m) = (.ok .libBadLength, ⟨some s, a⟩) := by
  rw [usbSend, exec_bind_ok (exec_read _ _)]
  simp only [Option.isNone_some, Bool.false_eq_true, if_false, if_pos h]
  rfl

/-- `send` writes the frames of the payload up to a write that fails. -/
theorem exec_usbSend {data : List UInt8} (h : data.length ≤ 0xFFFF) :
    exec (usbSend hid data) (⟨some s, a⟩ : Link σ m) =
      (.ok (writeFrames hid (frames data) s).1, ⟨some (writeFrames hid (frames data) s).2, a⟩) := by
  have hle : ¬ data.length > 0xFFFF := by omega
  have hhead : (sendStart data).buf.toList.take 8 =
      [0] ++ usbPacketHeader ++ [0, 0] ++ toBe 2 data.length := by
    have h := @Buf.overwrite_take 65 (Buf.zeros 65) 0
      ([0] ++ usbPacketHeader ++ [0, 0] ++ toBe 2 data.length) (by simp [usbPacketHeader])
    rw [Nat.zero_add] at h
    exact h
  have hpkt : (sendStart data).packet =
      [0] ++ usbPacketHeader ++ [0, 0] ++ toBe 2 data.length ++ data.take 57 :=
    congrArg (· ++ data.take 57) hhead
  have hr := @exec_sendRound σ m hid s a (sendStart data) (by simp [sendStart])
  rw [usbSend, exec_bind_ok (exec_read _ _)]
  simp only [Option.isNone_some, Bool.false_eq_true, if_false, if_neg hle]
  rw [frames, ← hpkt, writeFrames]
  by_cases hw : asSizeT (hid.write (sendStart data).packet s).1 < (sendStart data).packet.length
  · rw [if_pos hw] at hr
    rw [if_pos hw, exec_loop_done hr]
  · rw [if_neg hw] at hr
    rw [if_neg hw]
    by_cases hd : (sendStart data).data.length ≤ 65 - (sendStart data).it
    · have hnil : data.drop 57 = [] := List.drop_eq_nil_iff.mpr hd
      rw [if_pos hd] at hr
      rw [exec_loop_done hr, hnil, continuations_nil, writeFrames]
    · have hlt : ¬ data.length ≤ 57 := hd
      rw [if_neg hd] at hr
      rw [exec_loop_next hr]
      refine exec_sendLoop data.length (sendStart data).next 1 rfl ?_ rfl ?_ ?_
      · refine next_header (by simp [sendStart]) ?_
        have h4 := congrArg (List.take 4) hhead
        rwa [List.take_take] at h4
      · intro hn
        have hl := congrArg List.length hn
        simp only [SendState.next, sendStart, List.length_drop, List.length_nil] at hl
        omega
      · simp only [SendState.next, sendStart, List.length_drop]
        omega

end Send

section Read
variable {σ : Type} {m : ℕ} {hid : Hid σ} {t : Int32} {s s' : σ} {a : LedgerAnswer m}
  {acc : List UInt8} {ok : Bool}

/-- A written packet as hidapi delivers it: without the report id, and filled up with
whatever was in the buffer. -/
def Arrives (frame : List UInt8) (pkt : Buf 64) : Prop :=
  ∃ junk : Buf 64, pkt = junk.overwrite 0 frame.tail

/-- Reads that give the listed packets one by one, all of them (`true`) or up to a read
that gives none. -/
inductive Delivery (hid : Hid σ) (t : Int32) : σ → List (Buf 64) → Bool → σ → Prop
  | done (s : σ) : Delivery hid t s [] true s
  | late {s s' : σ} {b : Buf 64} {bs : List (Buf 64)} (h : hid.readTimeout t s = (none, s')) :
      Delivery hid t s (b :: bs) false s'
  | next {s s' u : σ} {b : Buf 64} {bs : List (Buf 64)} {ok : Bool}
      (h : hid.readTimeout t s = (some b, s')) (rest : Delivery hid t s' bs ok u) :
      Delivery hid t s (b :: bs) ok u

/-- The bytes that a round of `read` copies. -/
def ReadState.chunk (st : ReadState) : List UInt8 :=
  (st.buf.window st.it (min st.inLen (64 - st.it))).toList

theorem chunk_length (st : ReadState) : st.chunk.length = min st.inLen (64 - st.it) :=
  List.Vector.toList_length _

theorem exec_storeAnswer_fill {dev : Option σ} {src : List UInt8} (h : acc.length + src.length ≤ m) :
    exec (storeAnswer acc.length src) (⟨dev, a.fill acc⟩ : Link σ m) =
      (.ok (), ⟨dev, a.fill (acc ++ src)⟩) := by
  rw [exec_storeAnswer h]
  exact congrArg (fun b => (Except.ok (), Link.mk dev b)) (fill_append a acc src)

/-- What a round does after its copy. -/
theorem exec_readRound (st : ReadState) (hit : st.it ≤ 64) (hoff : st.off = acc.length)
    (hm : acc.length + st.chunk.length ≤ m) :
    exec (readRound hid t st) (⟨some s, a.fill acc⟩ : Link σ m) =
      if st.inLen - st.chunk.length = 0 then
        (.ok (.inr .success), ⟨some s, a.fill (acc ++ st.chunk)⟩)
      else match hid.readTimeout t s with
        | (none, s') => (.ok (.inr .transportTimeout), ⟨some s', a.fill (acc ++ st.chunk)⟩)
        | (some buf, s') =>
          if ofBe (buf.window 3 2).toList ≠ st.seqRef then
            (.ok (.inr .transportUsbBadSeq), ⟨some s', a.fill (acc ++ st.chunk)⟩)
          else
            (.ok (.inl ⟨buf, 5, (st.seqRef + 1) % 65536, st.inLen - st.chunk.length,
              st.off + st.chunk.length⟩), ⟨some s', a.fill (acc ++ st.chunk)⟩) := by
  rw [chunk_length] at hm ⊢
  rw [readRound, Buf.slice_eq (by omega), exec_bind_ok (exec_demand_some _ _ _), hoff,
    exec_bind_ok (exec_storeAnswer_fill (by simpa using hm)), ← ReadState.chunk]
  by_cases hd : st.inLen - min st.inLen (64 - st.it) = 0
  · rw [if_pos hd, if_pos hd]
    rfl
  · rw [if_neg hd, if_neg hd, exec_bind_ok (exec_onHandle _)]
    rcases hid.readTimeout t s with ⟨_ | buf, s'⟩
    · rfl
    · by_cases hs : ofBe (buf.window 3 2).toList ≠ st.seqRef
      · simp only [if_pos hs]
        rfl
      · simp only [if_neg hs]
        rfl

/-- What a first packet that is not refused says. -/
theorem usbReadFirst_inv {buf : Buf 64} {outLen inLen : ℕ} (h : usbReadFirst buf outLen = .ok inLen) :
    (buf.byteAt 0 = 0x01 ∧ buf.byteAt 1 = 0x01 ∧ buf.byteAt 2 = 5) ∧
      ofBe (buf.window 3 2).toList = 0 ∧ ofBe (buf.window 5 2).toList = inLen ∧ inLen ≤ outLen := by
  unfold usbReadFirst at h
  split at h
  · cases h
  split at h
  · cases h
  split at h
  · cases h
  rename_i hhead hseq hcap
  rw [not_or, not_or, not_not, not_not, not_not] at hhead
  rw [not_not] at hseq
  have hin := Except.ok.inj h
  exact ⟨hhead, hseq, hin, hin ▸ not_lt.mp hcap⟩

theorem usbReadFirst_le {buf : Buf 64} {outLen inLen : ℕ} (h : usbReadFirst buf outLen = .ok inLen) :
    inLen ≤ outLen :=
  (usbReadFirst_inv h).2.2.2

theorem usbReadFirst_error (buf : Buf 64) (outLen : ℕ) :
    usbReadFirst buf outLen ≠ .error .success := by
  intro h
  unfold usbReadFirst at h
  split at h
  · cases h
  split at h
  · cases h
  split at h <;> cases h

theorem arrives_continuation {seq : ℕ} {data : List UInt8} {pkt : Buf 64} (hseq : seq < 65536)
    (h : Arrives ([0] ++ usbPacketHeader ++ toBe 2 seq ++ data.take 59) pkt) :
    ofBe (pkt.window 3 2).toList = seq ∧ (pkt.window 5 (min data.length 59)).toList = data.take 59 := by
  obtain ⟨junk, rfl⟩ := h
  have hl : (data.take 59).length = min data.length 59 := by
    rw [List.length_take, Nat.min_comm]
  have h3 : usbPacketHeader.length = 3 := rfl
  have h5 : (usbPacketHeader ++ toBe 2 seq).length = 5 := by rw [List.length_append, toBe_length, h3]
  constructor
  · have hw := @Buf.window_overwrite_infix 64 junk usbPacketHeader (toBe 2 seq) (data.take 59)
      (by simp only [List.length_append, toBe_length, hl, h3]; omega)
    rw [toBe_length, h3] at hw
    exact (congrArg ofBe hw).trans (ofBe_toBe hseq)
  · have hw := @Buf.window_overwrite_infix 64 junk (usbPacketHeader ++ toBe 2 seq) (data.take 59) []
      (by rw [List.length_append, List.length_append, h5, hl, List.length_nil]; omega)
    rw [hl, h5, List.append_nil] at hw
    exact hw

theorem arrives_first {payload : List UInt8} {pkt : Buf 64} {outLen : ℕ}
    (hlen : payload.length ≤ 0xFFFF)
    (h : Arrives ([0] ++ usbPacketHeader ++ [0, 0] ++ toBe 2 payload.length ++ payload.take 57) pkt) :
    usbReadFirst pkt outLen =
        (if payload.length > outLen then .error .protocolBadLength else .ok payload.length) ∧
      (pkt.window 7 (min payload.length 57)).toList = payload.take 57 := by
  obtain ⟨junk, rfl⟩ := h
  have hl : (payload.take 57).length = min payload.length 57 := by
    rw [List.length_take, Nat.min_comm]
  have htail : ([0] ++ usbPacketHeader ++ [0, 0] ++ toBe 2 payload.length ++ payload.take 57).tail =
      [1, 1, 5, 0, 0] ++ toBe 2 payload.length ++ payload.take 57 := rfl
  have h7 : ([1, 1, 5, 0, 0] ++ toBe 2 payload.length).length = 7 := by
    rw [List.length_append, toBe_length]
    rfl
  have hfit : ([1, 1, 5, 0, 0] ++ toBe 2 payload.length ++ payload.take 57).length ≤ 64 := by
    rw [List.length_append, h7, hl]
    omega
  rw [htail]
  have hhead := @Buf.window_overwrite_infix 64 junk [] [1, 1, 5, 0, 0]
    (toBe 2 payload.length ++ payload.take 57) (by simpa using hfit)
  have hlen := @Buf.window_overwrite_infix 64 junk [1, 1, 5, 0, 0] (toBe 2 payload.length)
    (payload.take 57) hfit
  have hdata := @Buf.window_overwrite_infix 64 junk ([1, 1, 5, 0, 0] ++ toBe 2 payload.length)
    (payload.take 57) [] (by simpa using hfit)
  rw [h7, hl, List.append_nil] at hdata
  have hseq := @Buf.window_overwrite_infix 64 junk [1, 1, 5] [0, 0]
    (toBe 2 payload.length ++ payload.take 57) (by simpa using hfit)
  rw [List.nil_append, ← List.append_assoc] at hhead
  change ((junk.overwrite 0 ([1, 1, 5, 0, 0] ++ (toBe 2 payload.length ++ payload.take 57))).window
    3 2).toList = _ at hseq
  rw [← List.append_assoc] at hseq
  generalize junk.overwrite 0 ([1, 1, 5, 0, 0] ++ toBe 2 payload.length ++ payload.take 57) = b
    at hhead hlen hdata hseq ⊢
  have hbyte (i : ℕ) (hi : i < 5) : b.byteAt i = ([1, 1, 5, 0, 0] : List UInt8).getD i 0 := by
    have hw := b.byteAt_window 0 5 i
    rw [if_pos hi, Nat.zero_add] at hw
    exact hw.symm.trans (congrArg (·.getD i 0) hhead)
  have hpl : ofBe (b.window 5 2).toList = payload.length :=
    (congrArg ofBe hlen).trans (ofBe_toBe (by omega))
  refine ⟨?_, hdata⟩
  rw [usbReadFirst, hbyte 0 (by omega), hbyte 1 (by omega), hbyte 2 (by omega), hseq, hpl,
    if_neg (by decide), if_neg (by decide)]

/-- The rounds of `read` from a packet in the buffer on, the rest being delivered. -/
theorem exec_readLoop_delivery (fuel : ℕ) (st : ReadState) (rest : List UInt8) (pkts : List (Buf 64))
    (hit : st.it ≤ 7) (hoff : st.off = acc.length) (hseq : st.seqRef < 65536)
    (hrest : st.inLen = st.chunk.length + rest.length)
    (hpkts : List.Forall₂ Arrives (continuations st.seqRef rest) pkts)
    (hdel : Delivery hid t s pkts ok s') (hm : acc.length + st.inLen ≤ m) (hfuel : st.inLen < fuel) :
    ∃ res src, exec (loop .diverges fuel (readRound hid t) st) (⟨some s, a.fill acc⟩ : Link σ m) =
        (.ok res, ⟨some s', a.fill (acc ++ src)⟩) ∧
      (ok = true → res = .success ∧ src = st.chunk ++ rest) ∧
      (ok = false → res = .transportTimeout) := by
  induction fuel generalizing st rest pkts acc s with
  | zero => omega
  | succ fuel ih =>
    have hlen := chunk_length st
    have hr := @exec_readRound σ m hid t s a acc st (by omega) hoff (by omega)
    by_cases hnil : rest = []
    · subst hnil
      have hz : st.inLen - st.chunk.length = 0 := by
        rw [List.length_nil] at hrest
        omega
      rw [continuations_nil, List.forall₂_nil_left_iff] at hpkts
      subst hpkts
      cases hdel
      rw [if_pos hz] at hr
      exact ⟨.success, st.chunk, exec_loop_done hr, fun _ => ⟨rfl, by simp⟩, nofun⟩
    · have hpos : rest.length ≠ 0 := by simpa using hnil
      have hz : ¬ st.inLen - st.chunk.length = 0 := by omega
      rw [continuations_cons _ hnil, List.forall₂_cons_left_iff] at hpkts
      obtain ⟨pkt, pkts, hpkt, hpkts, rfl⟩ := hpkts
      obtain ⟨hs, hw⟩ := arrives_continuation hseq hpkt
      rw [if_neg hz] at hr
      cases hdel with
      | late h =>
        simp only [h] at hr
        exact ⟨.transportTimeout, st.chunk, exec_loop_done hr, nofun, fun _ => rfl⟩
      | next h hdel =>
        simp only [h, hs, ne_eq, not_true_eq_false, if_false] at hr
        rw [exec_loop_next hr]
        have hin : st.inLen - st.chunk.length = rest.length := by omega
        rw [hin]
        have htake : ReadState.chunk ⟨_, 5, (st.seqRef + 1) % 65536, rest.length,
          st.off + st.chunk.length⟩ = rest.take 59 := hw
        obtain ⟨res, src, hl, hok, hno⟩ := ih ⟨_, 5, (st.seqRef + 1) % 65536, rest.length,
          st.off + st.chunk.length⟩ (rest.drop 59) pkts (by simp)
          (by rw [hoff, List.length_append]) (Nat.mod_lt _ (by omega))
          (by rw [htake, ← List.length_append, List.take_append_drop]) hpkts hdel
          (by rw [List.length_append]; dsimp only; omega) (by dsimp only; omega)
        refine ⟨res, st.chunk ++ src, ?_, fun h => ?_, hno⟩
        · rw [hl, List.append_assoc]
        · obtain ⟨hres, hsrc⟩ := hok h
          rw [htake, List.take_append_drop] at hsrc
          exact ⟨hres, by rw [hsrc]⟩

variable {payload : List UInt8} {pkts : List (Buf 64)} {outLen : ℕ} {timeoutMS : UInt32}

/-- Reading a framed payload that fits: it is put together, or a packet was late. -/
theorem exec_usbRead_delivery (hlen : payload.length ≤ 0xFFFF) (hcap : payload.length ≤ outLen)
    (hout : outLen ≤ 0xFFFF) (hm : payload.length ≤ m)
    (hpkts : List.Forall₂ Arrives (frames payload) pkts)
    (hdel : Delivery hid (readTimeoutOf timeoutMS) s pkts ok s') :
    ∃ res outLen' src, exec (usbRead hid outLen timeoutMS) (⟨some s, a⟩ : Link σ m) =
        (.ok (res, outLen'), ⟨some s', a.fill src⟩) ∧
      (ok = true → res = .success ∧ outLen' = payload.length ∧ src = payload) ∧
      (ok = false → res = .transportTimeout) := by
  have hle : ¬ outLen > 0xFFFF := by omega
  rw [frames, List.forall₂_cons_left_iff] at hpkts
  obtain ⟨pkt, pkts, hpkt, hpkts, rfl⟩ := hpkts
  obtain ⟨hf, hw⟩ := @arrives_first payload pkt outLen hlen hpkt
  rw [if_neg (by omega)] at hf
  rw [usbRead, if_neg hle]
  cases hdel with
  | late h =>
    refine ⟨.transportTimeout, outLen, [], ?_, nofun, fun _ => rfl⟩
    rw [exec_bind_ok (exec_onHandle _), h, fill_nil]
    rfl
  | @next _ s₁ _ _ _ _ h hdel =>
    have hchunk : ReadState.chunk ⟨pkt, 7, 1, payload.length, 0⟩ = payload.take 57 := hw
    obtain ⟨res, src, hl, hok, hno⟩ := @exec_readLoop_delivery σ m hid _ s₁ s' a [] ok
      (payload.length + 1) ⟨pkt, 7, 1, payload.length, 0⟩ (payload.drop 57) pkts (by simp) rfl
      (by simp) (by rw [hchunk, ← List.length_append, List.take_append_drop]) hpkts hdel
      (by simpa using hm) (by simp)
    rw [fill_nil] at hl
    refine ⟨res, payload.length, src, ?_, fun hk => ?_, hno⟩
    · rw [exec_bind_ok (exec_onHandle _), h]
      simp only [hf]
      rw [exec_bind_ok hl]
      rfl
    · obtain ⟨hres, hsrc⟩ := hok hk
      rw [hchunk, List.take_append_drop] at hsrc
      exact ⟨hres, rfl, hsrc⟩

/-- A payload that does not fit is refused at its first packet. -/
theorem exec_usbRead_tooLong {pkt : Buf 64} (hlen : payload.length ≤ 0xFFFF)
    (hcap : outLen < payload.length)
    (hpkts : List.Forall₂ Arrives (frames payload) (pkt :: pkts))
    (h : hid.readTimeout (readTimeoutOf timeoutMS) s = (some pkt, s')) :
    exec (usbRead hid outLen timeoutMS) (⟨some s, a⟩ : Link σ m) =
      (.ok (.protocolBadLength, outLen), ⟨some s', a⟩) := by
  have hle : ¬ outLen > 0xFFFF := by omega
  rw [frames, List.forall₂_cons] at hpkts
  obtain ⟨hf, -⟩ := @arrives_first payload pkt outLen hlen hpkts.1
  rw [if_pos hcap] at hf
  rw [usbRead, if_neg hle, exec_bind_ok (exec_onHandle _), h]
  simp only [hf]
  rfl

end Read

end LedgerKeePass.Kpl
