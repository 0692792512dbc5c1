import LedgerKeePass.ByteBuffer
import LedgerKeePass.ProgramRun

/-!
# Answers and the memory of one exchange (`ledger_answer.h`)

A `LedgerAnswer` is a buffer and the size `N_` that `resize` only lowers. The programs of
the library run over a device handle and the answer that the caller passed in. Stores are
checked against the buffer, reads against the current size, and a check that fails is a
`Fault`.
-/
namespace LedgerKeePass.Kpl
open Bytes Program

inductive Result
  | success
  | deviceNotFound
  | appInvalidName
  | appUnauthorizedAccess
  | appEmptySlot
  | appUnknownError
  | appSecurityError
  | libBadLength
  | libOutOfMemory
  | libX25519Fail
  | protocolBadParam
  | protocolBadLength
  | protocolBadVersion
  | transportTcpUnkHost
  | transportTcpSocketCreateFail
  | transportUsbBadPacket
  | transportUsbBadSeq
  | transportTimeout
  | transportConnectionFailed
  | transportGenericError
  deriving DecidableEq

/-- What no program of the library may do: break an assertion, leave a buffer, loop on
past its bound. -/
inductive Fault
  | assertion
  | outOfBounds
  | diverges
  deriving DecidableEq

/-- `sizeof(SWTy)` -/
abbrev swSize : ℕ := 2

/-- One more than the largest `size_t`. -/
abbrev sizeTBound : ℕ := 18446744073709551616

/-- A signed count converted to `size_t`. -/
def asSizeT (count : ℤ) : ℕ := (count % sizeTBound).toNat

/-- `LedgerAnswer<N>` with `capacity = N + 2`. -/
structure LedgerAnswer (capacity : ℕ) where
  buf : Buf capacity
  bufSize : ℕ
  fits : bufSize ≤ capacity

namespace LedgerAnswer

variable {m : ℕ}

/-- The constructor, which leaves the bytes of the buffer as they are. -/
def fresh (uninit : Buf m) : LedgerAnswer m := ⟨uninit, m, le_rfl⟩

def resize (a : LedgerAnswer m) (len : ℕ) : Option (LedgerAnswer m) :=
  if h : len ≤ a.bufSize then some ⟨a.buf, len, h.trans a.fits⟩ else none

/-- A copy to `buf_begin() + off`. -/
def store (a : LedgerAnswer m) (off : ℕ) (src : List UInt8) : Option (LedgerAnswer m) :=
  (a.buf.copyAt off src).map fun b => { a with buf := b }

def dataSize (a : LedgerAnswer m) : ℕ := asSizeT (a.bufSize - swSize)

/-- The big-endian load at `N_ - sizeof(SWTy)`, which is outside the buffer when it wraps. -/
def sw (a : LedgerAnswer m) : Option UInt16 :=
  if swSize ≤ a.bufSize then
    some (UInt16.ofNat (ofBe (a.buf.window (a.bufSize - swSize) swSize).toList))
  else none

/-- A copy out of the bytes that were received. -/
def slice (a : LedgerAnswer m) (off len : ℕ) : Option (Buf len) :=
  if off + len ≤ a.bufSize then some (a.buf.window off len) else none

/-- `operator[]`: its assertion, and a read of a byte that was received. -/
def get (a : LedgerAnswer m) (idx : ℕ) : Option UInt8 :=
  if idx < a.dataSize then (a.slice idx 1).map (·.byteAt 0) else none

/-- The bytes from `buf_begin()` to `buf_end()`. -/
def bytes (a : LedgerAnswer m) : List UInt8 := a.buf.toList.take a.bufSize

/-- The answer after `src` was put at its start. -/
def fill (a : LedgerAnswer m) (src : List UInt8) : LedgerAnswer m :=
  { a with buf := a.buf.overwrite 0 src }

/-- The answer whose content is `src`. -/
def filled (a : LedgerAnswer m) (src : List UInt8) (h : src.length ≤ m) : LedgerAnswer m :=
  ⟨a.buf.overwrite 0 src, src.length, h⟩

end LedgerAnswer

/-- The status word that an answer ends in. -/
def swOf (src : List UInt8) : UInt16 := UInt16.ofNat (ofBe (src.drop (src.length - swSize)))

/-- A device handle, null while the device is not open, and an answer. -/
structure Link (σ : Type) (m : ℕ) where
  dev : Option σ
  out : LedgerAnswer m

abbrev LibM (σ : Type) (m : ℕ) := Prog Fault (Link σ m)

/-- `LedgerDevice::exchange` -/
abbrev Exchange (σ : Type) := ∀ {m : ℕ}, List UInt8 → UInt32 → LibM σ m Result

section Operations
variable {σ α : Type} {m : ℕ}

/-- A call of the system on the open handle. -/
def onHandle (call : σ → α × σ) : LibM σ m α := do
  let s ← demand .assertion (← read fun l => l.dev)
  update fun l => { l with dev := some (call s).2 }
  return (call s).1

def storeAnswer (off : ℕ) (src : List UInt8) : LibM σ m Unit := do
  let a ← demand .outOfBounds (← read fun l => l.out.store off src)
  update fun l => { l with out := a }

def resizeAnswer (len : ℕ) : LibM σ m Unit := do
  let a ← demand .assertion (← read fun l => l.out.resize len)
  update fun l => { l with out := a }

end Operations

section Answer
variable {σ α : Type} {m : ℕ} {a : LedgerAnswer m}

@[simp] theorem asSizeT_ofNat {n : ℕ} (h : n < sizeTBound) : asSizeT n = n := by
  rw [asSizeT, Int.emod_eq_of_lt (by omega) (by exact_mod_cast h)]
  rfl

theorem dataSize_eq (h : swSize ≤ a.bufSize) (hb : a.bufSize < sizeTBound) :
    a.dataSize = a.bufSize - swSize := by
  rw [LedgerAnswer.dataSize, ← Nat.cast_sub h, asSizeT_ofNat (by omega)]

theorem filled_bytes (a : LedgerAnswer m) {src : List UInt8} (h : src.length ≤ m) :
    (a.filled src h).bytes = src := by
  simp only [LedgerAnswer.bytes, LedgerAnswer.filled]
  rw [Buf.overwrite_zero_toList _ h, List.take_left']
  rfl

@[simp] theorem filled_bufSize (a : LedgerAnswer m) {src : List UInt8} (h : src.length ≤ m) :
    (a.filled src h).bufSize = src.length := rfl

section Filled
variable {src : List UInt8} {off len idx : ℕ}

/-- Reading an answer gives the bytes that were put in. -/
theorem filled_slice (a : LedgerAnswer m) (h : src.length ≤ m) (hl : off + len ≤ src.length) :
    (a.filled src h).slice off len = some ((Buf.ofList m src).window off len) := by
  have hb : off + len ≤ (a.filled src h).bufSize := hl
  rw [LedgerAnswer.slice, if_pos hb]
  exact congrArg some (a.buf.window_overwrite_congr _ hl)

theorem filled_sw (a : LedgerAnswer m) (h : src.length ≤ m) (hl : swSize ≤ src.length) :
    (a.filled src h).sw = some (swOf src) := by
  have hb : swSize ≤ (a.filled src h).bufSize := hl
  have hw : src.length - swSize + swSize ≤ m := by omega
  have hd : ((a.buf.overwrite 0 src).window (src.length - swSize) swSize).toList =
      src.drop (src.length - swSize) := by
    rw [Buf.window_toList _ hw, Buf.overwrite_zero_toList _ h, List.drop_append_of_le_length (by omega),
      List.take_left']
    rw [List.length_drop]
    omega
  rw [LedgerAnswer.sw, if_pos hb]
  exact congrArg (fun l => some (UInt16.ofNat (ofBe l))) hd

theorem filled_dataSize (a : LedgerAnswer m) (h : src.length ≤ m) (hl : swSize ≤ src.length)
    (hm : m < sizeTBound) : (a.filled src h).dataSize = src.length - swSize :=
  dataSize_eq hl (by rw [filled_bufSize]; omega)

theorem filled_get (a : LedgerAnswer m) (h : src.length ≤ m) (hm : m < sizeTBound)
    (hl : idx + swSize < src.length) : (a.filled src h).get idx = some (src.getD idx 0) := by
  have hd : idx < (a.filled src h).dataSize := by
    rw [filled_dataSize a h (by omega) hm]
    omega
  rw [LedgerAnswer.get, if_pos hd, filled_slice a h (by omega), Option.map_some, Buf.byteAt_window,
    if_pos Nat.one_pos, Nat.add_zero, Buf.ofList, Buf.byteAt_overwrite _ _ _ (by omega),
    if_pos (by omega), Nat.sub_zero]

end Filled

@[simp] theorem fill_nil (a : LedgerAnswer m) : a.fill [] = a := by
  rw [LedgerAnswer.fill, Buf.overwrite_nil]

/-- Bytes appended behind those that were put there before. -/
theorem fill_append (a : LedgerAnswer m) (xs ys : List UInt8) :
    (⟨(a.fill xs).buf.overwrite xs.length ys, a.bufSize, a.fits⟩ : LedgerAnswer m) =
      a.fill (xs ++ ys) := by
  have h := a.buf.overwrite_append 0 xs ys
  rw [Nat.zero_add] at h
  rw [LedgerAnswer.fill, LedgerAnswer.fill, h]

variable {s : σ}

@[simp] theorem exec_onHandle (call : σ → α × σ) :
    exec (onHandle call) (⟨some s, a⟩ : Link σ m) = (.ok (call s).1, ⟨some (call s).2, a⟩) := rfl

theorem exec_storeAnswer {dev : Option σ} {off : ℕ} {src : List UInt8} (h : off + src.length ≤ m) :
    exec (storeAnswer off src) (⟨dev, a⟩ : Link σ m) =
      (.ok (), ⟨dev, { a with buf := a.buf.overwrite off src }⟩) := by
  rw [storeAnswer, exec_bind_ok (exec_read _ _), LedgerAnswer.store, Buf.copyAt_eq h]
  rfl

theorem exec_resizeAnswer {dev : Option σ} {len : ℕ} (h : len ≤ a.bufSize) :
    exec (resizeAnswer len) (⟨dev, a⟩ : Link σ m) =
      (.ok (), ⟨dev, ⟨a.buf, len, h.trans a.fits⟩⟩) := by
  rw [resizeAnswer, exec_bind_ok (exec_read _ _), LedgerAnswer.resize, dif_pos h]
  rfl

end Answer

end LedgerKeePass.Kpl
