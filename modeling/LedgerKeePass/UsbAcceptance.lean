import LedgerKeePass.UsbFraming

/-!
# What `read` accepts

`read` checks channel and tag of the first packet only. `collect` is what it makes of the
continuation packets, and `LooselyFramed` says which packets it takes for a payload.
-/
namespace LedgerKeePass.Kpl
open Bytes Program

/-- The continuation packets from number `seq` on, `n` bytes being left to read: the result,
the bytes, and the packets that were not read. -/
def collect : ℕ → ℕ → List (Buf 64) → Result × List UInt8 × List (Buf 64)
  | 0, _, pkts => (.success, [], pkts)
  | _ + 1, _, [] => (.transportTimeout, [], [])
  | n + 1, seq, b :: bs =>
    if ofBe (b.window 3 2).toList ≠ seq then (.transportUsbBadSeq, [], bs)
    else
      let (res, data, rest) := collect (n + 1 - min (n + 1) 59) ((seq + 1) % 65536) bs
      (res, (b.window 5 (min (n + 1) 59)).toList ++ data, rest)

/-- A packet that agrees with a written one behind its channel and tag. -/
def ArrivesLoosely (frame : List UInt8) (pkt : Buf 64) : Prop :=
  (pkt.window 3 (frame.length - 4)).toList = frame.drop 4

/-- The first packet as `send` writes it, the others up to channel and tag. -/
def LooselyFramed (payload : List UInt8) (pkts : List (Buf 64)) : Prop :=
  ∃ b bs, pkts = b :: bs ∧
    Arrives ([0] ++ usbPacketHeader ++ [0, 0] ++ toBe 2 payload.length ++ payload.take 57) b ∧
    List.Forall₂ ArrivesLoosely (continuations 1 (payload.drop 57)) bs

section Packets
variable {seq : ℕ} {data payload : List UInt8} {b : Buf 64} {frame : List UInt8}

theorem header_length : usbPacketHeader.length = 3 := rfl

/-- A chunk and what follows it are found again in their concatenation. -/
theorem chunk_split {n k : ℕ} {chunk more : List UInt8} (hc : chunk.length = min n k)
    (hm : more.length = n - min n k) :
    (chunk ++ more).length = n ∧ (chunk ++ more).take k = chunk ∧ (chunk ++ more).drop k = more := by
  have hl : (chunk ++ more).length = n := by
    rw [List.length_append, hc, hm]
    omega
  have htake : (chunk ++ more).take k = chunk := by
    have hmin : (chunk ++ more).take k = (chunk ++ more).take (min n k) := by
      rw [List.take_eq_take_iff, hl]
      omega
    rw [hmin, List.take_left' hc]
  refine ⟨hl, htake, ?_⟩
  rw [← List.append_right_inj ((chunk ++ more).take k), List.take_append_drop, htake]

theorem arrives_iff (h : frame.tail.length ≤ 64) :
    Arrives frame b ↔ (b.window 0 frame.tail.length).toList = frame.tail :=
  Buf.exists_overwrite_iff (by simpa using h)

/-- A window is what it should be if its two parts are. -/
theorem window_eq_append {b : Buf 64} {off len len' : ℕ} {xs ys : List UInt8} (hx : xs.length = len)
    (h : off + len + len' ≤ 64) :
    (b.window off (len + len')).toList = xs ++ ys ↔
      (b.window off len).toList = xs ∧ (b.window (off + len) len').toList = ys := by
  rw [Buf.window_append b h]
  constructor
  · intro he
    exact List.append_inj he (by simp [hx])
  · rintro ⟨rfl, rfl⟩
    rfl

theorem arrivesLoosely_iff (hseq : seq < 65536) (hlen : data.length ≤ 59) :
    ArrivesLoosely ([0] ++ usbPacketHeader ++ toBe 2 seq ++ data) b ↔
      ofBe (b.window 3 2).toList = seq ∧ (b.window 5 data.length).toList = data := by
  have hdrop : ([0] ++ usbPacketHeader ++ toBe 2 seq ++ data).drop 4 = toBe 2 seq ++ data := rfl
  have hl : ([0] ++ usbPacketHeader ++ toBe 2 seq ++ data).length - 4 = 2 + data.length := by
    simp only [List.length_append, toBe_length, header_length, List.length_cons, List.length_nil]
    omega
  rw [ArrivesLoosely, hdrop, hl, window_eq_append (toBe_length 2 seq) (by omega),
    ofBe_eq_iff (List.Vector.toList_length _) hseq]

/-- A packet that agrees loosely and has channel and tag is the one that was written. -/
theorem arrives_iff_loosely (hlen : data.length ≤ 59) :
    Arrives ([0] ++ usbPacketHeader ++ toBe 2 seq ++ data) b ↔
      (b.window 0 3).toList = usbPacketHeader ∧
        ArrivesLoosely ([0] ++ usbPacketHeader ++ toBe 2 seq ++ data) b := by
  have htail : ([0] ++ usbPacketHeader ++ toBe 2 seq ++ data).tail =
      usbPacketHeader ++ (toBe 2 seq ++ data) := rfl
  have hl : (usbPacketHeader ++ (toBe 2 seq ++ data)).length = 3 + (2 + data.length) := by
    simp [header_length]
  have hdrop : ([0] ++ usbPacketHeader ++ toBe 2 seq ++ data).drop 4 = toBe 2 seq ++ data := rfl
  have hl' : ([0] ++ usbPacketHeader ++ toBe 2 seq ++ data).length - 4 = 2 + data.length := by
    simp only [List.length_append, toBe_length, header_length, List.length_cons, List.length_nil]
    omega
  rw [arrives_iff (by rw [htail, hl]; omega), htail, hl, window_eq_append header_length (by omega),
    ArrivesLoosely, hdrop, hl']

theorem header_iff :
    (b.window 0 3).toList = usbPacketHeader ↔
      b.byteAt 0 = 0x01 ∧ b.byteAt 1 = 0x01 ∧ b.byteAt 2 = 5 := by
  have hl : (b.window 0 3).toList = [b.byteAt 0, b.byteAt 1, b.byteAt 2] := by
    apply List.ext_getElem (by simp)
    intro i h₁ h₂
    have hi : i < 3 := by simpa using h₂
    have hw := b.byteAt_window 0 3 i
    rw [if_pos hi, Nat.zero_add, Buf.byteAt, List.getD_eq_getElem _ _ h₁] at hw
    rw [hw]
    interval_cases i <;> rfl
  rw [hl]
  simp [usbPacketHeader]

theorem usbReadFirst_ok {outLen n : ℕ} (h : usbReadFirst b outLen = .ok n) :
    (b.window 0 3).toList = usbPacketHeader ∧ ofBe (b.window 3 2).toList = 0 ∧
      ofBe (b.window 5 2).toList = n ∧ n ≤ outLen := by
  obtain ⟨hhead, hseq, hin, hle⟩ := usbReadFirst_inv h
  exact ⟨header_iff.mpr hhead, hseq, hin, hle⟩

/-- The first packet of a payload that fits. -/
theorem arrives_first_iff {outLen : ℕ} (hout : outLen ≤ 0xFFFF) :
    Arrives ([0] ++ usbPacketHeader ++ [0, 0] ++ toBe 2 payload.length ++ payload.take 57) b ∧
        payload.length ≤ outLen ↔
      usbReadFirst b outLen = .ok payload.length ∧
        (b.window 7 (min payload.length 57)).toList = payload.take 57 := by
  constructor
  · rintro ⟨ha, hle⟩
    obtain ⟨hf, hw⟩ := @arrives_first payload b outLen (by omega) ha
    rw [if_neg (by omega)] at hf
    exact ⟨hf, hw⟩
  · rintro ⟨hf, hw⟩
    have hz : toBe 2 0 = [0, 0] := rfl
    have hl : (payload.take 57).length = min payload.length 57 := by
      rw [List.length_take, Nat.min_comm]
    have htail : ([0] ++ usbPacketHeader ++ [0, 0] ++ toBe 2 payload.length ++ payload.take 57).tail =
        usbPacketHeader ++ (toBe 2 0 ++ (toBe 2 payload.length ++ payload.take 57)) := rfl
    have hlen : (usbPacketHeader ++ (toBe 2 0 ++ (toBe 2 payload.length ++ payload.take 57))).length =
        3 + (2 + (2 + min payload.length 57)) := by
      simp only [List.length_append, toBe_length, header_length, hl]
    obtain ⟨hhead, hseq, hlen', hcap⟩ := usbReadFirst_ok hf
    refine ⟨?_, hcap⟩
    rw [arrives_iff (by rw [htail, hlen]; omega), htail, hlen, window_eq_append header_length (by omega),
      window_eq_append (toBe_length 2 0) (by omega), window_eq_append (toBe_length 2 _) (by omega)]
    refine ⟨hhead, ?_, ?_, hw⟩
    · exact (ofBe_eq_iff (by simp) (by omega)).mp hseq
    · exact (ofBe_eq_iff (by simp) (by omega)).mp hlen'

end Packets

section Collect
variable {n seq : ℕ} {data : List UInt8} {pkts rest consumed : List (Buf 64)}

theorem collect_zero (seq : ℕ) (pkts : List (Buf 64)) : collect 0 seq pkts = (.success, [], pkts) := by
  rw [collect]

theorem collect_nil (h : n ≠ 0) (seq : ℕ) : collect n seq [] = (.transportTimeout, [], []) := by
  cases n with
  | zero => contradiction
  | succ n => rw [collect]

theorem collect_cons (h : n ≠ 0) (seq : ℕ) (b : Buf 64) (bs : List (Buf 64)) :
    collect n seq (b :: bs) =
      if ofBe (b.window 3 2).toList ≠ seq then (.transportUsbBadSeq, [], bs)
      else ((collect (n - min n 59) ((seq + 1) % 65536) bs).1,
        (b.window 5 (min n 59)).toList ++ (collect (n - min n 59) ((seq + 1) % 65536) bs).2.1,
        (collect (n - min n 59) ((seq + 1) % 65536) bs).2.2) := by
  cases n with
  | zero => contradiction
  | succ n => rw [collect]

theorem continuations_eq_nil (h : continuations seq data = []) : data = [] := by
  by_contra hne
  rw [continuations_cons seq hne] at h
  cases h

/-- Packets that are collected agree loosely with the written ones. -/
theorem collect_sound (hseq : seq < 65536) (h : collect n seq pkts = (.success, data, rest)) :
    data.length = n ∧ ∃ consumed, pkts = consumed ++ rest ∧
      List.Forall₂ ArrivesLoosely (continuations seq data) consumed := by
  induction pkts generalizing n seq data with
  | nil =>
    by_cases hn : n = 0
    · rw [hn, collect_zero] at h
      cases h
      exact ⟨hn.symm, [], rfl, by simp [continuations_nil]⟩
    · rw [collect_nil hn] at h
      cases h
  | cons b bs ih =>
    by_cases hn : n = 0
    · rw [hn, collect_zero] at h
      cases h
      exact ⟨hn.symm, [], rfl, by simp [continuations_nil]⟩
    · rw [collect_cons hn] at h
      split at h
      · cases h
      rename_i hs
      generalize hcol : collect (n - min n 59) ((seq + 1) % 65536) bs = col at h
      obtain ⟨res, more, left⟩ := col
      cases h
      obtain ⟨hl, consumed, rfl, hc⟩ := ih (Nat.mod_lt _ (by omega)) hcol
      obtain ⟨hdl, htake, hdrop⟩ := @chunk_split n 59 (b.window 5 (min n 59)).toList more
        (List.Vector.toList_length _) hl
      have hne : (b.window 5 (min n 59)).toList ++ more ≠ [] := by
        intro h
        rw [h] at hdl
        exact hn hdl.symm
      refine ⟨hdl, b :: consumed, rfl, ?_⟩
      rw [continuations_cons seq hne, htake, hdrop]
      refine .cons ((arrivesLoosely_iff hseq ?_).mpr ⟨not_not.mp hs, ?_⟩) hc
      · simp
      · rw [List.Vector.toList_length]

/-- Packets that agree loosely with the written ones are collected. -/
theorem collect_complete (hseq : seq < 65536) (hl : data.length = n)
    (hc : List.Forall₂ ArrivesLoosely (continuations seq data) consumed) (rest : List (Buf 64)) :
    collect n seq (consumed ++ rest) = (.success, data, rest) := by
  induction consumed generalizing n seq data with
  | nil =>
    have hnil := continuations_eq_nil (List.forall₂_nil_right_iff.mp hc)
    subst hnil hl
    exact collect_zero seq rest
  | cons b bs ih =>
    have hne : data ≠ [] := by
      rintro rfl
      rw [continuations_nil] at hc
      cases hc
    have hn : n ≠ 0 := by simpa [← hl] using hne
    have htake : (data.take 59).length = min n 59 := by
      rw [List.length_take, hl, Nat.min_comm]
    have hdrop : (data.drop 59).length = n - min n 59 := by
      rw [List.length_drop, hl]
      omega
    rw [continuations_cons seq hne, List.forall₂_cons] at hc
    obtain ⟨hs, hw⟩ := (arrivesLoosely_iff hseq (List.length_take_le 59 data)).mp hc.1
    rw [htake] at hw
    rw [List.cons_append, collect_cons hn, if_neg (not_not.mpr hs),
      ih (Nat.mod_lt _ (by omega)) hdrop hc.2, hw, List.take_append_drop]

end Collect

section Read
variable {m outLen fuel : ℕ} {t : Int32} {a : LedgerAnswer m} {acc payload : List UInt8}
  {pkts rest consumed : List (Buf 64)} {timeoutMS : UInt32}

/-- The rounds of `read` from a packet in the buffer on. -/
theorem exec_readLoop_queue (st : ReadState) (hit : st.it < 64) (hoff : st.off = acc.length)
    (hm : acc.length + st.inLen ≤ m) (hfuel : st.inLen < fuel) :
    exec (loop .diverges fuel (readRound queueHid t) st) (⟨some pkts, a.fill acc⟩ : Link _ m) =
      (.ok (collect (st.inLen - st.chunk.length) st.seqRef pkts).1,
        ⟨some (collect (st.inLen - st.chunk.length) st.seqRef pkts).2.2,
          a.fill (acc ++ (st.chunk ++ (collect (st.inLen - st.chunk.length) st.seqRef pkts).2.1))⟩) := by
  induction fuel generalizing st acc pkts with
  | zero => omega
  | succ fuel ih =>
    have hlen := chunk_length st
    have hr := @exec_readRound _ m queueHid t pkts a acc st (by omega) hoff (by omega)
    by_cases hz : st.inLen - st.chunk.length = 0
    · rw [if_pos hz] at hr
      rw [exec_loop_done hr, hz, collect_zero, List.append_nil]
    · rw [if_neg hz] at hr
      rcases pkts with _ | ⟨b, bs⟩
      · rw [collect_nil hz, List.append_nil]
        exact exec_loop_done hr
      · rw [collect_cons hz]
        have hread : queueHid.readTimeout t (b :: bs) = (some b, bs) := rfl
        simp only [hread] at hr
        by_cases hs : ofBe (b.window 3 2).toList ≠ st.seqRef
        · rw [if_pos hs] at hr
          rw [if_pos hs, exec_loop_done hr, List.append_nil]
        · rw [if_neg hs] at hr
          rw [if_neg hs, exec_loop_next hr]
          have hchunk : ReadState.chunk ⟨b, 5, (st.seqRef + 1) % 65536, st.inLen - st.chunk.length,
              st.off + st.chunk.length⟩ =
              (b.window 5 (min (st.inLen - st.chunk.length) 59)).toList := rfl
          have hl := chunk_length ⟨b, 5, (st.seqRef + 1) % 65536, st.inLen - st.chunk.length,
              st.off + st.chunk.length⟩
          rw [ih ⟨b, 5, (st.seqRef + 1) % 65536, st.inLen - st.chunk.length,
              st.off + st.chunk.length⟩ (by norm_num) (by rw [hoff, List.length_append])
            (by rw [List.length_append]; dsimp only; omega) (by dsimp only; omega), hl, hchunk]
          simp only [List.append_assoc]

/-- What `read` makes of a packet queue. -/
theorem exec_usbRead_queue (hout : outLen ≤ 0xFFFF) (hm : outLen ≤ m) :
    exec (usbRead queueHid outLen timeoutMS) (⟨some pkts, a⟩ : Link _ m) =
      match pkts with
      | [] => (.ok (.transportTimeout, outLen), ⟨some [], a⟩)
      | b :: bs =>
        match usbReadFirst b outLen with
        | .error res => (.ok (res, outLen), ⟨some bs, a⟩)
        | .ok n =>
          (.ok ((collect (n - min n 57) 1 bs).1, n), ⟨some (collect (n - min n 57) 1 bs).2.2,
            a.fill ((b.window 7 (min n 57)).toList ++ (collect (n - min n 57) 1 bs).2.1)⟩) := by
  rw [usbRead, if_neg (by omega), exec_bind_ok (exec_onHandle _)]
  rcases pkts with _ | ⟨b, bs⟩
  · rfl
  · have hread : queueHid.readTimeout (readTimeoutOf timeoutMS) (b :: bs) = (some b, bs) := rfl
    simp only [hread]
    generalize hf : usbReadFirst b outLen = first
    rcases first with res | n
    · rfl
    · have hn := usbReadFirst_le hf
      have hl := @exec_readLoop_queue m (n + 1) (readTimeoutOf timeoutMS) a [] bs ⟨b, 7, 1, n, 0⟩
        (by norm_num) rfl (by simpa using hn.trans hm) (by simp)
      rw [fill_nil] at hl
      dsimp only
      rw [exec_bind_ok hl, chunk_length]
      rfl

/-- `read` returns success with the output `payload` and leaves the packets `rest`. -/
def ReadsAs (pkts : List (Buf 64)) (outLen : ℕ) (a : LedgerAnswer m) (timeoutMS : UInt32)
    (payload : List UInt8) (rest : List (Buf 64)) : Prop :=
  ∃ l, exec (usbRead queueHid outLen timeoutMS) (⟨some pkts, a⟩ : Link _ m) =
      (.ok (.success, payload.length), ⟨some rest, l⟩) ∧
    l.buf.toList.take payload.length = payload

theorem fill_take {src : List UInt8} (h : src.length ≤ m) :
    (a.fill src).buf.toList.take src.length = src := by
  rw [LedgerAnswer.fill, Buf.overwrite_zero_toList _ h, List.take_left]

/-- A read that succeeds took a first packet and collected the others. -/
theorem readsAs_iff_collect (hout : outLen ≤ 0xFFFF) (hm : outLen ≤ m) :
    ReadsAs pkts outLen a timeoutMS payload rest ↔ ∃ b bs, pkts = b :: bs ∧
      usbReadFirst b outLen = .ok payload.length ∧
      (b.window 7 (min payload.length 57)).toList = payload.take 57 ∧
      collect (payload.length - min payload.length 57) 1 bs = (.success, payload.drop 57, rest) := by
  constructor
  · rintro ⟨l, he, hl⟩
    rw [exec_usbRead_queue hout hm] at he
    rcases pkts with _ | ⟨b, bs⟩
    · cases he
    dsimp only at he
    generalize hf : usbReadFirst b outLen = first at he
    rcases first with res | n
    · cases he
      exact absurd hf (usbReadFirst_error b _)
    · have hn := usbReadFirst_le hf
      dsimp only at he
      generalize hcol : collect (n - min n 57) 1 bs = col at he
      obtain ⟨res, data, left⟩ := col
      cases he
      obtain ⟨hlen, -⟩ := collect_sound (by omega) hcol
      obtain ⟨hsl, htake, hdrop⟩ := @chunk_split payload.length 57
        (b.window 7 (min payload.length 57)).toList data (List.Vector.toList_length _) hlen
      have hp := @fill_take m a ((b.window 7 (min payload.length 57)).toList ++ data) (by omega)
      rw [hsl, hl] at hp
      rw [← hp] at htake hdrop
      exact ⟨b, bs, rfl, hf, htake.symm, by rw [hcol, hdrop]⟩
  · rintro ⟨b, bs, rfl, hf, hw, hcol⟩
    have hn := usbReadFirst_le hf
    refine ⟨a.fill payload, ?_, fill_take (hn.trans hm)⟩
    rw [exec_usbRead_queue hout hm]
    simp only [hf, hw, hcol, List.take_append_drop]

/-- What `read` accepts: packets that agree with the written ones up to channel and tag
behind the first. -/
theorem readsAs_iff (hout : outLen ≤ 0xFFFF) (hm : outLen ≤ m) :
    ReadsAs pkts outLen a timeoutMS payload rest ↔ payload.length ≤ outLen ∧
      ∃ consumed, pkts = consumed ++ rest ∧ LooselyFramed payload consumed := by
  have hdrop : (payload.drop 57).length = payload.length - min payload.length 57 := by
    rw [List.length_drop]
    omega
  rw [readsAs_iff_collect hout hm]
  constructor
  · rintro ⟨b, bs, rfl, hf, hw, hcol⟩
    obtain ⟨hb, hle⟩ := (arrives_first_iff hout).mpr ⟨hf, hw⟩
    obtain ⟨-, consumed, rfl, hc⟩ := collect_sound (by omega) hcol
    exact ⟨hle, b :: consumed, rfl, b, consumed, rfl, hb, hc⟩
  · rintro ⟨hle, consumed, rfl, b, bs, rfl, hb, hc⟩
    obtain ⟨hf, hw⟩ := (arrives_first_iff hout).mp ⟨hb, hle⟩
    exact ⟨b, bs ++ rest, rfl, hf, hw, collect_complete (by omega) hdrop hc rest⟩

/-- A read always returns, and with success only when it read something. -/
theorem usbRead_returns (hout : outLen ≤ 0xFFFF) (hm : outLen ≤ m) :
    ∃ res n l, exec (usbRead queueHid outLen timeoutMS) (⟨some pkts, a⟩ : Link _ m) = (.ok (res, n), l) ∧
      (res = .success → ∃ payload rest, ReadsAs pkts outLen a timeoutMS payload rest) := by
  have he := @exec_usbRead_queue m outLen a pkts timeoutMS hout hm
  rcases pkts with _ | ⟨b, bs⟩
  · exact ⟨_, _, _, he, by simp⟩
  dsimp only at he
  generalize hf : usbReadFirst b outLen = first at he
  rcases first with res | n
  · refine ⟨_, _, _, he, fun h => ?_⟩
    rw [h] at hf
    exact absurd hf (usbReadFirst_error b outLen)
  · refine ⟨_, _, _, he, fun hres => ?_⟩
    generalize hcol : collect (n - min n 57) 1 bs = col at hres
    obtain ⟨res, data, rest⟩ := col
    dsimp only at hres
    subst hres
    obtain ⟨hlen, -⟩ := collect_sound (by omega) hcol
    obtain ⟨hsl, htake, hdrop⟩ := @chunk_split n 57 (b.window 7 (min n 57)).toList data
      (List.Vector.toList_length _) hlen
    refine ⟨(b.window 7 (min n 57)).toList ++ data, rest, (readsAs_iff_collect hout hm).mpr ?_⟩
    rw [hsl, htake, hdrop]
    exact ⟨b, bs, rfl, hf, rfl, hcol⟩

end Read

section Tags
variable {n seq : ℕ} {data : List UInt8} {pkts rest : List (Buf 64)}

/-- The sequence number of a packet. -/
def packetSeq (pkt : Buf 64) : ℕ := ofBe (pkt.window 3 2).toList

/-- The packets that follow the first one of a payload of `n` bytes. -/
def following (n : ℕ) : ℕ := (n - 57 + 58) / 59

theorem arrives_continuations_iff :
    List.Forall₂ Arrives (continuations seq data) pkts ↔
      List.Forall₂ ArrivesLoosely (continuations seq data) pkts ∧
        ∀ pkt ∈ pkts, (pkt.window 0 3).toList = usbPacketHeader := by
  fun_induction continuations seq data generalizing pkts with
  | case1 =>
    rw [List.forall₂_nil_left_iff, List.forall₂_nil_left_iff]
    constructor
    · rintro rfl
      simp
    · exact And.left
  | case2 seq data hne ih =>
    have hl : (data.take 59).length ≤ 59 := List.length_take_le 59 data
    rcases pkts with _ | ⟨b, bs⟩
    · simp
    · rw [List.forall₂_cons, List.forall₂_cons, ih, arrives_iff_loosely hl, List.forall_mem_cons]
      tauto

theorem continuations_count (seq : ℕ) (data : List UInt8) :
    (continuations seq data).length = (data.length + 58) / 59 := by
  fun_induction continuations seq data with
  | case1 => rfl
  | case2 seq data hne ih =>
    have hpos : data.length ≠ 0 := by simpa using hne
    rw [List.length_cons, ih, List.length_drop]
    omega

/-- Packets numbered in order are collected. -/
theorem collect_numbered (h : pkts.map packetSeq = List.range' seq ((n + 58) / 59))
    (hseq : seq + (n + 58) / 59 < 65536) (rest : List (Buf 64)) :
    ∃ data, collect n seq (pkts ++ rest) = (.success, data, rest) := by
  induction pkts generalizing n seq with
  | nil =>
    have hl := congrArg List.length h
    rw [List.length_map, List.length_range', List.length_nil] at hl
    have hn : n = 0 := by omega
    exact ⟨[], by rw [hn, collect_zero, List.nil_append]⟩
  | cons b bs ih =>
    have hl := congrArg List.length h
    rw [List.length_map, List.length_range', List.length_cons] at hl
    have hk : (n + 58) / 59 = (n - min n 59 + 58) / 59 + 1 := by omega
    rw [hk, List.range'_succ, List.map_cons, List.cons.injEq] at h
    obtain ⟨hb, hbs⟩ := h
    have hs : ofBe (b.window 3 2).toList = seq := hb
    obtain ⟨data, hcol⟩ := ih hbs (by omega)
    refine ⟨(b.window 5 (min n 59)).toList ++ data, ?_⟩
    rw [List.cons_append, collect_cons (by omega), if_neg (not_not.mpr hs),
      Nat.mod_eq_of_lt (by omega), hcol]

/-- Packets that agree loosely with the written ones are numbered in order. -/
theorem loosely_numbered (h : List.Forall₂ ArrivesLoosely (continuations seq data) pkts)
    (hseq : seq + pkts.length < 65536) :
    pkts.map packetSeq = List.range' seq pkts.length := by
  fun_induction continuations seq data generalizing pkts with
  | case1 =>
    rw [List.forall₂_nil_left_iff] at h
    subst h
    simp
  | case2 seq data hne ih =>
    rw [List.forall₂_cons_left_iff] at h
    obtain ⟨b, bs, hb, hbs, rfl⟩ := h
    rw [List.length_cons] at hseq
    obtain ⟨hs, -⟩ := (arrivesLoosely_iff (by omega) (List.length_take_le 59 data)).mp hb
    rw [Nat.mod_eq_of_lt (by omega)] at ih hbs
    rw [List.map_cons, List.length_cons, List.range'_succ, ih hbs (by omega)]
    exact congrArg (· :: _) hs

end Tags

section
variable {m outLen : ℕ} {a : LedgerAnswer m} {pkts : List (Buf 64)} {timeoutMS : UInt32}

/-- A read succeeds exactly on the packets that `send` writes for its output, as they arrive,
and any others are rejected. -/
structure ReadExactly (pkts : List (Buf 64)) (outLen : ℕ) (a : LedgerAnswer m) (timeoutMS : UInt32) :
    Prop where
  accepts : ∀ payload rest, ReadsAs pkts outLen a timeoutMS payload rest ↔
    payload.length ≤ outLen ∧
      ∃ consumed, pkts = consumed ++ rest ∧ List.Forall₂ Arrives (frames payload) consumed
  rejects : (¬ ∃ payload consumed rest, payload.length ≤ outLen ∧ pkts = consumed ++ rest ∧
      List.Forall₂ Arrives (frames payload) consumed) →
    ∃ res n l, exec (usbRead queueHid outLen timeoutMS) (⟨some pkts, a⟩ : Link _ m) = (.ok (res, n), l) ∧
      res ≠ .success

/-- Where a first packet is accepted and the packets it announces follow in order, these have
channel and tag. -/
def TaggedInOrder (pkts : List (Buf 64)) (outLen : ℕ) : Prop :=
  ∀ b bs n, pkts = b :: bs → usbReadFirst b outLen = .ok n →
    (bs.take (following n)).map packetSeq = List.range' 1 (following n) →
    ∀ pkt ∈ bs.take (following n), (pkt.window 0 3).toList = usbPacketHeader

theorem framed_loosely {payload : List UInt8} {consumed : List (Buf 64)} :
    List.Forall₂ Arrives (frames payload) consumed ↔ LooselyFramed payload consumed ∧
      ∀ pkt ∈ consumed.tail, (pkt.window 0 3).toList = usbPacketHeader := by
  rw [frames, List.forall₂_cons_left_iff]
  constructor
  · rintro ⟨b, bs, hb, hbs, rfl⟩
    obtain ⟨hc, ht⟩ := arrives_continuations_iff.mp hbs
    exact ⟨⟨b, bs, rfl, hb, hc⟩, ht⟩
  · rintro ⟨⟨b, bs, rfl, hb, hc⟩, ht⟩
    exact ⟨b, bs, hb, arrives_continuations_iff.mpr ⟨hc, ht⟩, rfl⟩

/-- With the tags in order the packets that `read` takes are those that were written. -/
theorem framed_of_tagged (hout : outLen ≤ 0xFFFF) {payload : List UInt8} {consumed rest : List (Buf 64)}
    (hle : payload.length ≤ outLen) (hf : LooselyFramed payload consumed)
    (ht : TaggedInOrder (consumed ++ rest) outLen) : List.Forall₂ Arrives (frames payload) consumed := by
  refine framed_loosely.mpr ⟨hf, ?_⟩
  obtain ⟨b, bs, rfl, hb, hc⟩ := hf
  obtain ⟨hfirst, -⟩ := (arrives_first_iff hout).mp ⟨hb, hle⟩
  have hbs := hc.length_eq
  rw [continuations_count, List.length_drop] at hbs
  have hn := loosely_numbered hc (by omega)
  have hk : following payload.length = bs.length := hbs
  have htake : (bs ++ rest).take (following payload.length) = bs := List.take_left' hk.symm
  have h := ht b (bs ++ rest) _ rfl hfirst
  rw [htake, hk] at h
  exact h hn

/-- `read` accepts exactly the framing of `send` if and only if the packets that it would
splice have channel and tag. -/
theorem readExactly_iff (hout : outLen ≤ 0xFFFF) (hm : outLen ≤ m) :
    ReadExactly pkts outLen a timeoutMS ↔ TaggedInOrder pkts outLen := by
  constructor
  · rintro h b bs n rfl hf hn
    have hle := usbReadFirst_le hf
    have hmin : n - min n 57 = n - 57 := by omega
    obtain ⟨data, hcol⟩ := @collect_numbered (n - 57) 1 (bs.take (following n)) hn (by omega)
      (bs.drop (following n))
    rw [List.take_append_drop] at hcol
    obtain ⟨hdl, -⟩ := collect_sound (by omega) hcol
    obtain ⟨hsl, htake, hdrop⟩ := @chunk_split n 57 (b.window 7 (min n 57)).toList data
      (List.Vector.toList_length _) (hdl.trans hmin.symm)
    have hread : ReadsAs (b :: bs) outLen a timeoutMS ((b.window 7 (min n 57)).toList ++ data)
        (bs.drop (following n)) := by
      rw [readsAs_iff_collect hout hm, hsl, htake, hdrop, hmin]
      exact ⟨b, bs, rfl, hf, rfl, hcol⟩
    obtain ⟨-, consumed, hp, hfr⟩ := (h.accepts _ _).mp hread
    have hcons : consumed = b :: bs.take (following n) := by
      rw [← List.append_left_inj (bs.drop (following n)), ← hp, List.cons_append, List.take_append_drop]
    rw [hcons] at hfr
    exact (framed_loosely.mp hfr).2
  · intro ht
    have hacc (payload : List UInt8) (rest : List (Buf 64)) :
        ReadsAs pkts outLen a timeoutMS payload rest ↔ payload.length ≤ outLen ∧
          ∃ consumed, pkts = consumed ++ rest ∧ List.Forall₂ Arrives (frames payload) consumed := by
      rw [readsAs_iff hout hm]
      constructor
      · rintro ⟨hle, consumed, rfl, hf⟩
        exact ⟨hle, consumed, rfl, framed_of_tagged hout hle hf ht⟩
      · rintro ⟨hle, consumed, rfl, hf⟩
        exact ⟨hle, consumed, rfl, (framed_loosely.mp hf).1⟩
    refine ⟨hacc, fun hno => ?_⟩
    obtain ⟨res, n, l, he, hs⟩ := @usbRead_returns m outLen a pkts timeoutMS hout hm
    refine ⟨res, n, l, he, fun hres => hno ?_⟩
    obtain ⟨payload, rest, hr⟩ := hs hres
    obtain ⟨hle, consumed, hp, hf⟩ := (hacc payload rest).mp hr
    exact ⟨payload, consumed, rest, hle, hp, hf⟩

end

/-- A first packet of 60 bytes and the one that follows it. -/
def taggedPackets : List (Buf 64) :=
  [Buf.ofList 64 ([1, 1, 5, 0, 0, 0, 60] ++ List.replicate 57 7), Buf.ofList 64 [1, 1, 5, 0, 1, 9, 9, 9]]

/-- Two packets are read as they were written. -/
theorem readExactly_twoPackets : ReadExactly taggedPackets 60 (.fresh (Buf.zeros 60)) 0 := by
  refine (readExactly_iff (by omega) le_rfl).mpr ?_
  intro b bs n h _ _ pkt hpkt
  obtain ⟨rfl, rfl⟩ : Buf.ofList 64 ([1, 1, 5, 0, 0, 0, 60] ++ List.replicate 57 7) = b ∧
      [Buf.ofList 64 [1, 1, 5, 0, 1, 9, 9, 9]] = bs := by
    simpa [taggedPackets] using h
  obtain rfl := List.mem_singleton.mp (List.mem_of_mem_take hpkt)
  decide +kernel

/-- A first packet of 60 bytes and one of another channel and tag with number one. -/
def splicedPackets : List (Buf 64) :=
  [Buf.ofList 64 ([1, 1, 5, 0, 0, 0, 60] ++ List.replicate 57 7),
    Buf.ofList 64 [2, 2, 7, 0, 1, 9, 9, 9]]

/-- A packet of another channel and tag ends up in the answer. -/
theorem foreign_packet_accepted :
    (exec (usbRead queueHid 60 0) (⟨some splicedPackets, .fresh (Buf.zeros 60)⟩ : Link _ 60)).1 =
        .ok (.success, 60) ∧
      ¬ ReadExactly splicedPackets 60 (.fresh (Buf.zeros 60)) 0 := by
  refine ⟨by decide +kernel, fun h => ?_⟩
  have hread : ReadsAs splicedPackets 60 (.fresh (Buf.zeros 60)) 0
      (List.replicate 57 7 ++ [9, 9, 9]) [] := by
    rw [readsAs_iff_collect (by omega) le_rfl]
    exact ⟨_, _, rfl, by decide +kernel, by decide +kernel, by decide +kernel⟩
  obtain ⟨-, consumed, hp, hf⟩ := (h.accepts _ _).mp hread
  rw [List.append_nil] at hp
  have hmem : Buf.ofList 64 [2, 2, 7, 0, 1, 9, 9, 9] ∈ consumed.tail := by
    rw [← hp]
    simp [splicedPackets]
  have htag := (framed_loosely.mp hf).2 _ hmem
  revert htag
  decide +kernel

end LedgerKeePass.Kpl
