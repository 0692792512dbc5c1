import LedgerKeePass.UsbFraming

/-!
# Writes that fail

`send` compares the count of `hid_write`, which is -1 on an error, with an unsigned packet
length. Short counts are noticed, errors are not.
-/
namespace LedgerKeePass.Kpl
open Bytes Program

/-- A device whose `k`-th write returns `results k`, and a log of the writes. -/
def scriptedHid (results : ℕ → ℤ) : Hid (List (List UInt8 × ℤ)) where
  write f log := (results log.length, log ++ [(f, results log.length)])
  readTimeout _ log := (none, log)

/-- The result of a send tells whether its writes were complete, and it stops at the first
that was not. -/
structure Reports (res : Result) (log : List (List UInt8 × ℤ)) : Prop where
  success : res = .success ↔ ∀ w ∈ log, (w.1.length : ℤ) ≤ w.2
  stops : ∀ before w after, log = before ++ w :: after → w.2 < w.1.length →
    after = [] ∧ res = .transportGenericError

/-- No write of these packets, from the `k`-th result on, gets an error before one that is
too short. -/
def ErrorFree (results : ℕ → ℤ) : ℕ → List (List UInt8) → Prop
  | _, [] => True
  | k, f :: fs => results k ≠ -1 ∧ ((f.length : ℤ) ≤ results k → ErrorFree results (k + 1) fs)

section
variable {results : ℕ → ℤ} {f : List UInt8} {fs : List (List UInt8)} {log : List (List UInt8 × ℤ)}
  {res : Result} {count : ℤ}

/-- The check of `send`: a count that is too short, but not an error. -/
theorem asSizeT_lt (hf : f.length ≤ 65) (hlo : -1 ≤ count) (hhi : count ≤ 0x7FFFFFFF) :
    asSizeT count < f.length ↔ count ≠ -1 ∧ count < f.length := by
  by_cases h : count = -1
  · subst h
    have hmax : asSizeT (-1) = 18446744073709551615 := rfl
    rw [hmax]
    simp only [ne_eq, not_true_eq_false, false_and, iff_false]
    omega
  · have hc : asSizeT count = count.toNat := by
      rw [asSizeT, Int.emod_eq_of_lt (by omega) (by norm_num; omega)]
    rw [hc]
    simp only [ne_eq, h, not_false_eq_true, true_and]
    omega

theorem reports_nil : Reports .success [] where
  success := by simp
  stops before w after h := by
    have hl := congrArg List.length h
    simp at hl

theorem reports_short (h : count < f.length) : Reports .transportGenericError [(f, count)] where
  success := by simp [h]
  stops before w after hl _ := by
    have hlen := congrArg List.length hl
    simp only [List.length_append, List.length_cons, List.length_nil] at hlen
    exact ⟨List.length_eq_zero_iff.mp (by omega), rfl⟩

/-- A complete write in front changes nothing. -/
theorem reports_cons (h : (f.length : ℤ) ≤ count) : Reports res ((f, count) :: log) ↔ Reports res log := by
  constructor
  · rintro ⟨hs, ht⟩
    refine ⟨?_, fun before w after hl hw => ht ((f, count) :: before) w after (by rw [hl]; rfl) hw⟩
    rw [hs]
    simp [h]
  · rintro ⟨hs, ht⟩
    refine ⟨?_, fun before w after hl hw => ?_⟩
    · rw [hs]
      simp [h]
    · rcases before with _ | ⟨b, before⟩
      · cases hl
        exact absurd hw (not_lt.mpr h)
      · cases hl
        exact ht before w after rfl hw

/-- An error that was not noticed cannot be reported. -/
theorem not_reports_error (hnil : log = [] → res = .success) : ¬ Reports res ((f, -1) :: log) := by
  intro h
  obtain ⟨hl, hr⟩ := h.stops [] (f, -1) log rfl (by
    change (-1 : ℤ) < f.length
    omega)
  rw [hnil hl] at hr
  cases hr

theorem writeFrames_reports (hr : ∀ k, -1 ≤ results k ∧ results k ≤ 0x7FFFFFFF)
    (hfs : ∀ f ∈ fs, f.length ≤ 65) (log : List (List UInt8 × ℤ)) :
    ∃ res ws, writeFrames (scriptedHid results) fs log = (res, log ++ ws) ∧
      (ws = [] → res = .success) ∧ (Reports res ws ↔ ErrorFree results log.length fs) := by
  induction fs generalizing log with
  | nil =>
    refine ⟨.success, [], by rw [writeFrames, List.append_nil], fun _ => rfl, ?_⟩
    exact iff_of_true reports_nil trivial
  | cons f fs ih =>
    obtain ⟨hlo, hhi⟩ := hr log.length
    have hf := hfs f (List.mem_cons_self ..)
    obtain ⟨res, ws, hw, hnil, hiff⟩ := ih (fun g hg => hfs g (List.mem_cons_of_mem f hg))
      (log ++ [(f, results log.length)])
    have hlen : (log ++ [(f, results log.length)]).length = log.length + 1 := by simp
    rw [hlen] at hiff
    rw [writeFrames]
    have hcheck := asSizeT_lt hf hlo hhi
    change asSizeT ((scriptedHid results).write f log).1 < f.length ↔ _ at hcheck
    by_cases hshort : results log.length ≠ -1 ∧ results log.length < f.length
    · rw [if_pos (hcheck.mpr hshort)]
      refine ⟨.transportGenericError, [(f, results log.length)], rfl, by simp, ?_⟩
      refine iff_of_true (reports_short hshort.2) ⟨hshort.1, fun h => ?_⟩
      exact absurd h (not_le.mpr hshort.2)
    · rw [if_neg fun h => hshort (hcheck.mp h)]
      refine ⟨res, (f, results log.length) :: ws, ?_, by simp, ?_⟩
      · change writeFrames (scriptedHid results) fs (log ++ [(f, results log.length)]) = _
        rw [hw]
        simp
      · by_cases he : results log.length = -1
        · rw [he, ErrorFree, he]
          exact iff_of_false (not_reports_error hnil) fun h => h.1 rfl
        · have hle : (f.length : ℤ) ≤ results log.length := by
            by_contra hlt
            exact hshort ⟨he, not_le.mp hlt⟩
          rw [reports_cons hle, ErrorFree, hiff]
          simp [he, hle]

end

/-- `send` reports its writes exactly when none of them gets an error before one that is too
short. -/
theorem usbSend_reports_iff {m : ℕ} {results : ℕ → ℤ}
    (hr : ∀ k, -1 ≤ results k ∧ results k ≤ 0x7FFFFFFF) {payload : List UInt8}
    (hp : payload.length ≤ 0xFFFF) (a : LedgerAnswer m) :
    ∃ res log, exec (usbSend (scriptedHid results) payload) (⟨some [], a⟩ : Link _ m) =
        (.ok res, ⟨some log, a⟩) ∧
      (Reports res log ↔ ErrorFree results 0 (frames payload)) := by
  obtain ⟨res, ws, hw, -, hiff⟩ := writeFrames_reports hr (fun f hf => frames_length_le hf) []
  refine ⟨res, ws, ?_, hiff⟩
  rw [exec_usbSend hp, hw, List.nil_append]

theorem usbSend_reports_full :
    ∃ res log, exec (usbSend (scriptedHid fun _ => 65) [7]) (⟨some [], .fresh (Buf.zeros 2)⟩ : Link _ 2) =
        (.ok res, ⟨some log, .fresh (Buf.zeros 2)⟩) ∧
      (Reports res log ↔ ErrorFree (fun _ => 65) 0 (frames [7])) :=
  usbSend_reports_iff (fun _ => by omega) (by decide) _

/-- A write that returns -1 is taken for a success. -/
theorem failed_write_succeeds :
    let ran := exec (usbSend (scriptedHid fun _ => -1) [7]) (⟨some [], .fresh (Buf.zeros 2)⟩ : Link _ 2)
    let log : List (List UInt8 × ℤ) := [([0, 1, 1, 5, 0, 0, 0, 1, 7], -1)]
    ran.1 = .ok .success ∧ ran.2.dev = some log ∧ ¬ Reports .success log := by
  refine ⟨by decide +kernel, by decide +kernel, fun h => ?_⟩
  have hw := h.success.mp rfl _ (List.mem_singleton_self _)
  revert hw
  decide

end LedgerKeePass.Kpl
