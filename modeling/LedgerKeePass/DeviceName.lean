import LedgerKeePass.CStrings
import LedgerKeePass.LibAnswer
import LedgerKeePass.AppState

/-!
# The name of a device in the C API (`ledger_device_c.cpp`)

`Caller` is the memory of the caller, in which `Name` points somewhere, and the variable that
`NameLength` points to. `Names` says what a buffer must hold afterwards.
-/
namespace LedgerKeePass.Kpl
open Bytes Program CStrings
open App (ascii)

/-- A device of either class, as far as `name` reads it. -/
inductive NamedDevice
  | usb (manufacturer product serial : List UInt8)
  | tcp (host : List UInt8) (port : UInt16)

def NamedDevice.name : NamedDevice → List UInt8
  | .usb manufacturer product serial =>
    ascii "USB<" ++ manufacturer ++ ascii " " ++ product ++ ascii " (#" ++ serial ++ ascii ")>"
  | .tcp host port => ascii "TCP proxy<" ++ host ++ ascii ":" ++ ascii (toString port.toNat) ++ ascii ">"

/-- A result of the library, or one of the C API alone. -/
inductive KPLResult
  | result (res : Result)
  | cBadParams
  deriving DecidableEq

def kplSuccess : KPLResult := .result .success

structure Caller (n : ℕ) where
  memory : Buf n
  nameLength : ℕ
  deriving DecidableEq

section
variable {n : ℕ}

/-- `KPLLedgerDeviceName`, with none for a null `Name` and a null `Dev`; `nameLength` is false
where `NameLength` is null. -/
def kplLedgerDeviceName (name : Option ℕ) (nameLength : Bool) (dev : Option NamedDevice) :
    Prog Fault (Caller n) KPLResult := do
  match dev with
  | none => return .cBadParams
  | some dev =>
    if !nameLength then return .cBadParams
    else
      let cxxName := dev.name
      match name with
      | none =>
        update fun c => { c with nameLength := cxxName.length + 1 }
        return kplSuccess
      | some off =>
        let nl ← read fun c => c.nameLength
        if nl < 1 then return .cBadParams
        else
          let memory ← read fun c => c.memory
          let memory ← demand .outOfBounds (memory.copyAt off (strncpy (cString cxxName) (nl - 1)))
          update fun c => { c with memory := memory }
          return kplSuccess

/-- The name that a caller gets who first asks for the size. -/
def nameOfReportedSize (off : ℕ) (dev : NamedDevice) : Prog Fault (Caller n) (KPLResult × KPLResult) := do
  let res ← kplLedgerDeviceName none true (some dev)
  let res' ← kplLedgerDeviceName (some off) true (some dev)
  return (res, res')

/-- The `len` bytes from `off` on hold a C string, which is `w` as far as there is room for it,
and the bytes around them are as before. -/
structure Names (w : List UInt8) (off len : ℕ) (before after : Buf n) : Prop where
  terminated : (0 : UInt8) ∈ (after.window off len).toList
  string : (after.window off len).cString = w.take (len - 1)
  frame : ∀ i < n, i < off ∨ off + len ≤ i → after.byteAt i = before.byteAt i

variable {off : ℕ} {dev : NamedDevice} {c : Caller n} {w : List UInt8}

/-- A call that is refused leaves the caller's memory alone. -/
theorem exec_kplLedgerDeviceName_refused {name : Option ℕ} {nameLength : Bool} {dev : Option NamedDevice}
    (h : dev = none ∨ nameLength = false ∨ name ≠ none ∧ c.nameLength = 0) :
    exec (kplLedgerDeviceName name nameLength dev) c = (.ok .cBadParams, c) := by
  cases dev with
  | none => rfl
  | some dev =>
    cases nameLength with
    | false => rfl
    | true =>
      cases name with
      | none => simp at h
      | some off =>
        have hnl : c.nameLength < 1 := by
          simp at h
          omega
        rw [kplLedgerDeviceName]
        simp only [Bool.not_true, Bool.false_eq_true, if_false]
        rw [exec_bind_ok (exec_read _ _), if_pos hnl]
        rfl

theorem exec_kplLedgerDeviceName_null :
    exec (kplLedgerDeviceName none true (some dev)) c =
      (.ok kplSuccess, { c with nameLength := dev.name.length + 1 }) := rfl

theorem exec_kplLedgerDeviceName (hw : (0 : UInt8) ∉ dev.name) (hnl : 1 ≤ c.nameLength)
    (hfit : off + c.nameLength ≤ n) :
    exec (kplLedgerDeviceName (some off) true (some dev)) c = (.ok kplSuccess,
      { c with memory := c.memory.overwrite off (strncpy dev.name (c.nameLength - 1)) }) := by
  have hcopy : off + (strncpy dev.name (c.nameLength - 1)).length ≤ n := by
    rw [strncpy_length]
    omega
  rw [kplLedgerDeviceName]
  simp only [Bool.not_true, Bool.false_eq_true, if_false]
  rw [exec_bind_ok (exec_read _ _), if_neg (not_lt.mpr hnl), exec_bind_ok (exec_read _ _),
    cString_eq hw, Buf.copyAt_eq hcopy]
  rfl

/-- The buffer of `k + 1` bytes after the copy of `k` bytes into it. -/
theorem window_strncpy (b : Buf n) (w : List UInt8) {k : ℕ} (h : off + (k + 1) ≤ n) :
    ((b.overwrite off (strncpy w k)).window off (k + 1)).toList =
      strncpy w k ++ [b.byteAt (off + k)] := by
  have hl := strncpy_length w k
  have hread := @Buf.window_overwrite_toList n b off (strncpy w k) (by omega)
  rw [hl] at hread
  rw [Buf.window_append _ (by omega), hread, Buf.window_overwrite_of_disjoint _ (.inr (by omega)),
    Buf.window_toList _ (by omega)]
  have hi : off + k < b.toList.length := by
    rw [List.Vector.toList_length]
    omega
  rw [List.drop_eq_getElem_cons hi, List.take_succ_cons, List.take_zero, Buf.byteAt,
    List.getD_eq_getElem _ _ hi]

theorem names_iff (b : Buf n) (hw : (0 : UInt8) ∉ w) {k : ℕ} (h : off + (k + 1) ≤ n) :
    Names w off (k + 1) b (b.overwrite off (strncpy w k)) ↔ w.length < k ∨ b.byteAt (off + k) = 0 := by
  rw [← strncpy_terminated_iff hw, ← window_strncpy b w h]
  constructor
  · rintro ⟨hterm, hstring, -⟩
    exact ⟨hterm, hstring⟩
  · rintro ⟨hterm, hstring⟩
    refine ⟨hterm, hstring, fun i hi hout => ?_⟩
    have hl := strncpy_length w k
    rw [Buf.byteAt_overwrite _ _ _ hi, if_neg (by omega)]

end

/-- A buffer of `NameLength` bytes holds the name as a C string afterwards if and only if it is
longer than the name by two bytes or more, or its last byte was a NUL before. The size that is
reported to a caller who asks first is longer by one. -/
theorem deviceName_iff {n off : ℕ} {dev : NamedDevice} {c : Caller n} (hw : (0 : UInt8) ∉ dev.name)
    (hnl : 1 ≤ c.nameLength) (hfit : off + c.nameLength ≤ n) :
    ((exec (kplLedgerDeviceName (some off) true (some dev)) c).1 = .ok kplSuccess ∧
      (Names dev.name off c.nameLength c.memory
          (exec (kplLedgerDeviceName (some off) true (some dev)) c).2.memory ↔
        dev.name.length + 1 < c.nameLength ∨ c.memory.byteAt (off + (c.nameLength - 1)) = 0)) ∧
    (off + (dev.name.length + 1) ≤ n →
      (exec (nameOfReportedSize off dev) c).1 = .ok (kplSuccess, kplSuccess) ∧
      (exec (nameOfReportedSize off dev) c).2.nameLength = dev.name.length + 1 ∧
      (Names dev.name off (dev.name.length + 1) c.memory (exec (nameOfReportedSize off dev) c).2.memory ↔
        c.memory.byteAt (off + dev.name.length) = 0)) := by
  constructor
  · obtain ⟨k, hk⟩ : ∃ k, c.nameLength = k + 1 := ⟨c.nameLength - 1, by omega⟩
    rw [exec_kplLedgerDeviceName hw hnl hfit, hk, Nat.add_sub_cancel,
      names_iff _ hw (by omega), Nat.add_lt_add_iff_right]
    exact ⟨rfl, Iff.rfl⟩
  · intro hfit'
    have hsecond := @exec_kplLedgerDeviceName _ off dev { c with nameLength := dev.name.length + 1 } hw
      (Nat.le_add_left _ _) hfit'
    have hboth : exec (nameOfReportedSize off dev) c = (.ok (kplSuccess, kplSuccess),
        { memory := c.memory.overwrite off (strncpy dev.name dev.name.length)
          nameLength := dev.name.length + 1 }) := by
      rw [nameOfReportedSize, exec_bind_ok exec_kplLedgerDeviceName_null, exec_bind_ok hsecond]
      rfl
    rw [hboth, names_iff _ hw hfit']
    exact ⟨rfl, rfl, by simp⟩

def nanoS : NamedDevice := .usb (ascii "Ledger") (ascii "Nano S") (ascii "0001")

/-- A buffer of the reported size that is filled with other bytes holds no C string. -/
theorem nanoS_unterminated :
    let c : Caller 27 := ⟨List.Vector.replicate 27 0xFF, 0⟩
    (exec (nameOfReportedSize 0 nanoS) c).1 = .ok (kplSuccess, kplSuccess) ∧
      (exec (nameOfReportedSize 0 nanoS) c).2.nameLength = 27 ∧
      ¬ Names nanoS.name 0 27 c.memory (exec (nameOfReportedSize 0 nanoS) c).2.memory := by
  refine ⟨by decide +kernel, by decide +kernel, fun h => ?_⟩
  have hterm := h.terminated
  revert hterm
  decide +kernel

/-- Eight bytes for the name. -/
theorem deviceName_nanoS :
    let c : Caller 27 := ⟨List.Vector.replicate 27 0xFF, 8⟩
    (exec (kplLedgerDeviceName (some 4) true (some nanoS)) c).1 = .ok kplSuccess ∧
      ¬ Names nanoS.name 4 8 c.memory (exec (kplLedgerDeviceName (some 4) true (some nanoS)) c).2.memory := by
  intro c
  obtain ⟨⟨hok, hiff⟩, -⟩ := @deviceName_iff 27 4 nanoS c (by decide +kernel) (by decide) (by decide)
  refine ⟨hok, fun h => ?_⟩
  have hcond := hiff.mp h
  revert hcond
  decide +kernel

end LedgerKeePass.Kpl
