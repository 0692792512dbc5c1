import LedgerKeePass.LibUsb

/-!
# The USB framing round trip

What `usbSend` writes, `usbRead` puts together again from the packets as they arrive.
-/
namespace LedgerKeePass.Kpl
open Bytes Program

/-- A device that records the packets written to it, each write returning `count`. -/
def recordingHid (count : List (List UInt8) → List UInt8 → ℤ) : Hid (List (List UInt8)) where
  write f log := (count log f, log ++ [f])
  readTimeout _ log := (none, log)

/-- A device with packets to read. -/
def queueHid : Hid (List (Buf 64)) where
  write f pkts := (f.length, pkts)
  readTimeout
    | _, [] => (none, [])
    | _, b :: bs => (some b, bs)

/-- Every write of a report succeeds: it returns at least the length asked for, as an `int`. -/
def WritesAll (count : List (List UInt8) → List UInt8 → ℤ) : Prop :=
  ∀ log f, f.length ≤ 65 → (f.length : ℤ) ≤ count log f ∧ count log f ≤ 0x7FFFFFFF

theorem continuations_length_le {seq : ℕ} {data f : List UInt8} (h : f ∈ continuations seq data) :
    f.length ≤ 65 := by
  fun_induction continuations seq data with
  | case1 => cases h
  | case2 seq data hne ih =>
    rcases List.mem_cons.mp h with rfl | h
    · simp only [usbPacketHeader, List.length_append, toBe_length, List.length_take,
        List.length_cons, List.length_nil]
      omega
    · exact ih h

theorem frames_length_le {payload f : List UInt8} (h : f ∈ frames payload) : f.length ≤ 65 := by
  rcases List.mem_cons.mp h with rfl | h
  · simp only [usbPacketHeader, List.length_append, toBe_length, List.length_take,
      List.length_cons, List.length_nil]
    omega
  · exact continuations_length_le h

theorem writeFrames_recording {count : List (List UInt8) → List UInt8 → ℤ} (h : WritesAll count)
    (fs log : List (List UInt8)) (hfs : ∀ f ∈ fs, f.length ≤ 65) :
    writeFrames (recordingHid count) fs log = (.success, log ++ fs) := by
  induction fs generalizing log with
  | nil => rw [writeFrames, List.append_nil]
  | cons f fs ih =>
    have hw : ¬ asSizeT ((recordingHid count).write f log).1 < f.length := by
      obtain ⟨h₁, h₂⟩ := h log f (hfs f (List.mem_cons_self ..))
      change ¬ asSizeT (count log f) < f.length
      rw [asSizeT, Int.emod_eq_of_lt (by omega) (by norm_num; omega)]
      omega
    rw [writeFrames, if_neg hw]
    exact (ih (log ++ [f]) fun g hg => hfs g (List.mem_cons_of_mem f hg)).trans (by simp)

theorem delivery_queue (t : Int32) (pkts rest : List (Buf 64)) :
    Delivery queueHid t (pkts ++ rest) pkts true rest := by
  induction pkts with
  | nil => exact .done rest
  | cons b bs ih => exact .next rfl ih

/-- For every payload and capacity: `send` succeeds in packets of at most 65 bytes, and
`read` takes exactly these as they arrive and gives the payload back. -/
theorem usb_roundtrip {m : ℕ} {count : List (List UInt8) → List UInt8 → ℤ} (hw : WritesAll count)
    {payload : List UInt8} (hp : payload.length ≤ 0xFFFF) {outLen : ℕ} (hcap : payload.length ≤ outLen)
    (hout : outLen ≤ 0xFFFF) (hm : outLen ≤ m) (a : LedgerAnswer m) (timeoutMS : UInt32) :
    ∃ log, exec (usbSend (recordingHid count) payload) (⟨some [], a⟩ : Link _ m) =
        (.ok .success, ⟨some log, a⟩) ∧
      (∀ f ∈ log, f.length ≤ 65) ∧
      ∀ pkts rest, List.Forall₂ Arrives log pkts →
        exec (usbRead queueHid outLen timeoutMS) (⟨some (pkts ++ rest), a⟩ : Link _ m) =
          (.ok (.success, payload.length), ⟨some rest, a.fill payload⟩) := by
  refine ⟨frames payload, ?_, fun f hf => frames_length_le hf, fun pkts rest hpkts => ?_⟩
  · rw [exec_usbSend hp, writeFrames_recording hw _ _ fun f hf => frames_length_le hf, List.nil_append]
  · obtain ⟨res, outLen', src, he, hok, -⟩ := @exec_usbRead_delivery _ m queueHid (pkts ++ rest) rest a
      true payload pkts outLen timeoutMS hp hcap hout (by omega) hpkts (delivery_queue _ _ _)
    obtain ⟨rfl, rfl, rfl⟩ := hok rfl
    exact he

/-- The round trip of 150 bytes, which take three packets. -/
theorem usb_roundtrip_150 :
    ∃ log, exec (usbSend (recordingHid fun _ f => f.length) (List.replicate 150 7))
        (⟨some [], .fresh (Buf.zeros 150)⟩ : Link _ 150) =
        (.ok .success, ⟨some log, .fresh (Buf.zeros 150)⟩) ∧
      (∀ f ∈ log, f.length ≤ 65) ∧
      ∀ pkts rest, List.Forall₂ Arrives log pkts →
        exec (usbRead queueHid 150 0) (⟨some (pkts ++ rest), .fresh (Buf.zeros 150)⟩ : Link _ 150) =
          (.ok (.success, (List.replicate 150 (7 : UInt8)).length),
            ⟨some rest, (LedgerAnswer.fresh (Buf.zeros 150)).fill (List.replicate 150 7)⟩) :=
  usb_roundtrip (fun _ f hf => ⟨le_rfl, by omega⟩) (by simp) (by simp) (by omega) le_rfl _ _

end LedgerKeePass.Kpl
