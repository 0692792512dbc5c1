import LedgerKeePass.LinkChannels

/-!
# Answers that arrive in pieces

TCP may deliver an answer in any pieces. `read` calls `recv` once and takes a piece that is
shorter than asked for as a timeout.
-/
namespace LedgerKeePass.Kpl
open Bytes Program

/-- How many bytes the `k`-th `recv` gives of those asked for: at least one, no more than
asked for. -/
structure Segmentation where
  cut : ℕ → ℕ → ℕ
  pos : ∀ k len, 0 < len → 0 < cut k len
  le : ∀ k len, cut k len ≤ len

/-- Every `recv` gives all bytes. -/
def Segmentation.whole : Segmentation where
  cut _ len := len
  pos _ _ h := h
  le _ _ := le_rfl

/-- The bytes still to be received and the number of `recv` calls so far. -/
structure Inbound where
  rest : List UInt8
  calls : ℕ
  deriving DecidableEq

/-- A peer that takes what is sent and whose answer is on its way. -/
def segmentedSocket (seg : Segmentation) : Socket Inbound where
  send data s := (data.length, s)
  recv _ len s :=
    let got := s.rest.take (seg.cut s.calls len)
    (if got = [] ∧ len ≠ 0 then .wouldBlock else .bytes got, ⟨s.rest.drop got.length, s.calls + 1⟩)
  recv_le := by
    intro tv len s data h
    have hle := seg.le s.calls len
    dsimp only at h
    split at h
    · cases h
    · cases h
      rw [List.length_take]
      omega

section
variable {m : ℕ} {seg : Segmentation} {s : Inbound} {a : LedgerAnswer m} {timeoutMS : UInt32}
  {data answer : List UInt8} {len : ℕ}

theorem exec_tcpSend_segmented (h : data.length ≤ 4294967295) :
    exec (tcpSend (segmentedSocket seg) data) (⟨some s, a⟩ : Link _ m) =
      (.ok .success, ⟨some s, a⟩) := by
  have hw : asSizeT ((segmentedSocket seg).send data s).1 = data.length :=
    asSizeT_ofNat (by simp only [sizeTBound]; omega)
  rw [exec_tcpSend, if_pos hw]
  rfl

/-- A read of bytes that are on their way gets the first piece of them. -/
theorem exec_tcpRead_segmented (h : len ≤ s.rest.length) :
    exec (tcpRead (segmentedSocket seg) len timeoutMS) (⟨some s, a⟩ : Link _ m) =
      (.ok (if seg.cut s.calls len = len then .success else .transportTimeout,
          s.rest.take (seg.cut s.calls len)),
        ⟨some ⟨s.rest.drop (seg.cut s.calls len), s.calls + 1⟩, a⟩) := by
  have hle := seg.le s.calls len
  have hl : (s.rest.take (seg.cut s.calls len)).length = seg.cut s.calls len :=
    List.length_take_of_le (by omega)
  have hr : (segmentedSocket seg).recv (timeval timeoutMS) len s =
      (.bytes (s.rest.take (seg.cut s.calls len)),
        ⟨s.rest.drop (seg.cut s.calls len), s.calls + 1⟩) := by
    dsimp only [segmentedSocket]
    rw [hl, if_neg]
    rintro ⟨hn, hz⟩
    have hpos := seg.pos s.calls len (Nat.pos_of_ne_zero hz)
    rw [hn, List.length_nil] at hl
    omega
  by_cases hc : seg.cut s.calls len = len
  · rw [if_pos hc]
    exact exec_tcpRead_all hr (hl.trans hc)
  · rw [if_neg hc]
    exact exec_tcpRead_short hr (by omega)

/-- The result of receiving an answer, and what it leaves in the buffer. -/
def received (seg : Segmentation) (answer : List UInt8) (a : LedgerAnswer m) :
    Result × LedgerAnswer m :=
  if seg.cut 0 4 = 4 then
    if h : answer.length % 4294967296 ≤ a.bufSize then
      (if seg.cut 1 (answer.length % 4294967296) = answer.length % 4294967296 then .success
        else .transportTimeout,
        ⟨a.buf.overwrite 0 (answer.take (seg.cut 1 (answer.length % 4294967296))),
          answer.length % 4294967296, h.trans a.fits⟩)
    else (.protocolBadLength, a)
  else (.transportTimeout, a)

theorem exec_tcpReceive_segmented (hsw : swSize ≤ answer.length)
    (hl : answer.length - swSize < 4294967296) :
    ∃ s, exec (tcpReceive (segmentedSocket seg) timeoutMS) (⟨some ⟨tcpFrame answer, 0⟩, a⟩ : Link _ m) =
      (.ok (received seg answer a).1, ⟨some s, (received seg answer a).2⟩) := by
  have hlen : (tcpFrame answer).length = 4 + answer.length := by
    rw [tcpFrame, List.length_append, toBe_length]
  have hpre := @exec_tcpRead_segmented m seg ⟨tcpFrame answer, 0⟩ a timeoutMS 4 (by
    change 4 ≤ (tcpFrame answer).length
    omega)
  rw [tcpReceive, exec_bind_ok hpre, received]
  by_cases h4 : seg.cut 0 4 = 4
  swap
  · simp only [h4, if_false]
    exact ⟨_, rfl⟩
  have htake : (tcpFrame answer).take 4 = toBe 4 (answer.length - swSize) :=
    List.take_left' (toBe_length 4 _)
  have hdrop : (tcpFrame answer).drop 4 = answer := List.drop_left' (toBe_length 4 _)
  have hrecv : (ofBe (toBe 4 (answer.length - swSize)) + swSize) % 4294967296 =
      answer.length % 4294967296 := by
    rw [ofBe_toBe hl, Nat.sub_add_cancel hsw]
  simp only [h4, if_true, htake, hdrop, ne_eq, not_true_eq_false, if_false]
  simp only [tcpReadAnswer, hrecv]
  rw [exec_bind_ok (exec_read _ _)]
  by_cases hs : answer.length % 4294967296 ≤ a.bufSize
  swap
  · rw [dif_neg hs, if_pos (by simpa using hs)]
    exact ⟨_, rfl⟩
  have hm := hs.trans a.fits
  have hread := @exec_tcpRead_segmented m seg ⟨answer, 1⟩
    ⟨a.buf, answer.length % 4294967296, hm⟩ timeoutMS _ (Nat.mod_le answer.length 4294967296)
  have hcut := seg.le 1 (answer.length % 4294967296)
  rw [dif_pos hs, if_neg (by simpa using hs), exec_bind_ok (exec_resizeAnswer hs),
    exec_bind_ok hread]
  dsimp only
  rw [exec_bind_ok (exec_storeAnswer (by rw [List.length_take]; omega))]
  exact ⟨_, rfl⟩

theorem exec_tcpExchange_segmented (hd : data.length ≤ 4294967295) (hsw : swSize ≤ answer.length)
    (hl : answer.length - swSize < 4294967296) :
    ∃ s, exec (tcpExchange (segmentedSocket seg) data timeoutMS)
        (⟨some ⟨tcpFrame answer, 0⟩, a⟩ : Link _ m) =
      (.ok (received seg answer a).1, ⟨some s, (received seg answer a).2⟩) := by
  rw [tcpExchange, if_neg (by omega), exec_bind_ok (exec_tcpSend_segmented (by simp))]
  simp only [ne_eq, not_true_eq_false, if_false]
  rw [exec_bind_ok (exec_tcpSend_segmented hd)]
  simp only [not_true_eq_false, if_false]
  exact exec_tcpReceive_segmented hsw hl

end

/-- An exchange whose answer comes in pieces gives the same result and the same answer as
when every `recv` gives all bytes. -/
def Unsegmented {m : ℕ} (seg : Segmentation) (data answer : List UInt8) (a : LedgerAnswer m)
    (timeoutMS : UInt32) : Prop :=
  (exec (tcpExchange (segmentedSocket seg) data timeoutMS) ⟨some ⟨tcpFrame answer, 0⟩, a⟩).1 =
    (exec (tcpExchange (segmentedSocket .whole) data timeoutMS) ⟨some ⟨tcpFrame answer, 0⟩, a⟩).1 ∧
  (exec (tcpExchange (segmentedSocket seg) data timeoutMS) ⟨some ⟨tcpFrame answer, 0⟩, a⟩).2.out =
    (exec (tcpExchange (segmentedSocket .whole) data timeoutMS) ⟨some ⟨tcpFrame answer, 0⟩, a⟩).2.out

/-- The pieces do not matter exactly when the request is refused, or the first `recv` gives
the whole length and the second the whole answer, if it is called at all. -/
theorem unsegmented_iff {m : ℕ} {seg : Segmentation} {data answer : List UInt8} {a : LedgerAnswer m}
    {timeoutMS : UInt32} (hsw : swSize ≤ answer.length) (hl : answer.length - swSize < 4294967296) :
    Unsegmented seg data answer a timeoutMS ↔
      4294967295 < data.length ∨ seg.cut 0 4 = 4 ∧ (a.bufSize < answer.length % 4294967296 ∨
        seg.cut 1 (answer.length % 4294967296) = answer.length % 4294967296) := by
  by_cases hd : data.length ≤ 4294967295
  swap
  · have hlt : 4294967295 < data.length := not_le.mp hd
    rw [Unsegmented, tcpExchange_tooLong hlt, tcpExchange_tooLong hlt]
    simp [hlt]
  obtain ⟨s, hs⟩ := @exec_tcpExchange_segmented m seg a timeoutMS data answer hd hsw hl
  obtain ⟨w, hw⟩ := @exec_tcpExchange_segmented m .whole a timeoutMS data answer hd hsw hl
  rw [Unsegmented, hs, hw]
  have hlt : ¬ 4294967295 < data.length := not_lt.mpr hd
  have h0 : Segmentation.whole.cut 0 4 = 4 := rfl
  have h1 : Segmentation.whole.cut 1 (answer.length % 4294967296) = answer.length % 4294967296 := rfl
  simp only [hlt, false_or, received, h0, h1, if_true]
  by_cases h4 : seg.cut 0 4 = 4
  · by_cases hle : answer.length % 4294967296 ≤ a.bufSize
    · by_cases hc : seg.cut 1 (answer.length % 4294967296) = answer.length % 4294967296
      · simp [h4, hle, hc]
      · simp [h4, hle, hc]
    · simp [h4, hle, not_le.mp hle]
  · by_cases hle : answer.length % 4294967296 ≤ a.bufSize
    · simp [h4, hle]
    · simp [h4, hle]

/-- One byte a call. -/
def byteByByte : Segmentation where
  cut _ len := min len 1
  pos _ _ h := by omega
  le _ _ := by omega

/-- An answer that comes byte by byte is lost. -/
theorem byteByByte_timeout :
    (exec (tcpExchange (segmentedSocket byteByByte) [0xE0, 4, 0, 0, 0] 0)
        (⟨some ⟨tcpFrame [7, 0x90, 0x00], 0⟩, .fresh (Buf.zeros 3)⟩ : Link _ 3)).1 =
      .ok .transportTimeout ∧
    ¬ Unsegmented byteByByte [0xE0, 4, 0, 0, 0] [7, 0x90, 0x00] (.fresh (Buf.zeros 3)) 0 := by
  have hb : (exec (tcpExchange (segmentedSocket byteByByte) [0xE0, 4, 0, 0, 0] 0)
      (⟨some ⟨tcpFrame [7, 0x90, 0x00], 0⟩, .fresh (Buf.zeros 3)⟩ : Link _ 3)).1 =
      .ok .transportTimeout := by decide +kernel
  have hw : (exec (tcpExchange (segmentedSocket .whole) [0xE0, 4, 0, 0, 0] 0)
      (⟨some ⟨tcpFrame [7, 0x90, 0x00], 0⟩, .fresh (Buf.zeros 3)⟩ : Link _ 3)).1 =
      .ok .success := by decide +kernel
  refine ⟨hb, fun h => ?_⟩
  have he := h.1
  rw [hb, hw] at he
  cases he

/-- The first two calls give all bytes and later ones a single byte. -/
def laterByteByByte : Segmentation where
  cut k len := if k < 2 then len else min len 1
  pos k len h := by
    split <;> omega
  le k len := by
    split <;> omega

/-- An answer that comes in two pieces, the length and the rest, is received. -/
theorem unsegmented_twoPieces :
    Unsegmented laterByteByByte [0xE0, 4, 0, 0, 0] [7, 0x90, 0x00] (.fresh (Buf.zeros 3)) 0 :=
  (unsegmented_iff (by decide) (by decide)).mpr (.inr ⟨rfl, .inr rfl⟩)

end LedgerKeePass.Kpl
