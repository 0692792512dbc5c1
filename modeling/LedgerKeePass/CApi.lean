import LedgerKeePass.DeviceName
import LedgerKeePass.TransportBounds

/-!
# The C API on `KPL` objects (`kpl_c.cpp`, `errors.cpp`)

A C function checks its pointers, calls the method of the library and wraps the result. The list
of slots goes into memory of the caller, whose size it is not told.
-/
namespace LedgerKeePass.Kpl
open Bytes Program App

/-- The values of `errors_vals.def`. -/
def Result.code : Result → ℤ
  | .success => 0
  | .deviceNotFound => -1
  | .appInvalidName => -10
  | .appUnauthorizedAccess => -11
  | .appEmptySlot => -12
  | .appUnknownError => -13
  | .appSecurityError => -14
  | .libBadLength => -20
  | .libOutOfMemory => -21
  | .libX25519Fail => -22
  | .protocolBadParam => -30
  | .protocolBadLength => -31
  | .protocolBadVersion => -32
  | .transportTcpUnkHost => -40
  | .transportTcpSocketCreateFail => -41
  | .transportUsbBadPacket => -42
  | .transportUsbBadSeq => -43
  | .transportTimeout => -44
  | .transportConnectionFailed => -45
  | .transportGenericError => -46

/-- `wrapRes`, and `KPL_C_BAD_PARAMS`. -/
def KPLResult.code : KPLResult → ℤ
  | .result res => res.code
  | .cBadParams => -100

def results : List Result :=
  [.success, .deviceNotFound, .appInvalidName, .appUnauthorizedAccess, .appEmptySlot, .appUnknownError,
    .appSecurityError, .libBadLength, .libOutOfMemory, .libX25519Fail, .protocolBadParam,
    .protocolBadLength, .protocolBadVersion, .transportTcpUnkHost, .transportTcpSocketCreateFail,
    .transportUsbBadPacket, .transportUsbBadSeq, .transportTimeout, .transportConnectionFailed,
    .transportGenericError]

def errorText : Result → String
  | .success => "no error"
  | .deviceNotFound => "no device found"
  | .appInvalidName => "name can only contain ASCII printable characters"
  | .appUnauthorizedAccess => "user denied access on the device"
  | .appEmptySlot => "no key exist in slot"
  | .appUnknownError =>
    "unknown application error. Make sure the LedgerKeePass application is running!"
  | .appSecurityError => "application security error (that probably prevented key derivation)"
  | .libBadLength => "bad length provided in the library (internal error)"
  | .libOutOfMemory => "out of memory"
  | .libX25519Fail => "X25519 key exchange failed"
  | .protocolBadParam => "bad parameter used in the communication protocol"
  | .protocolBadLength => "bad length used in the communication protocol"
  | .protocolBadVersion => "incompatible protocol"
  | .transportTcpUnkHost => "unknown host"
  | .transportTcpSocketCreateFail => "unable to create tcp socket"
  | .transportUsbBadPacket => "bad usb packet"
  | .transportUsbBadSeq => "bad usb packets sequence"
  | .transportTimeout => "communication timeout"
  | .transportConnectionFailed => "connection failed"
  | .transportGenericError => "communication error"

/-- `errorStr` on any `int`: the text of the result that has this value, or none. -/
def errorStr (code : ℤ) : List UInt8 :=
  match results.find? fun res => res.code = code with
  | some res => ascii (errorText res)
  | none => []

def kplErrorStr (res : KPLResult) : List UInt8 := errorStr res.code

section
variable {σ : Type} (exchange : Exchange σ) (host : Host)

/-- `KPLSetKey`; `obj` is false and `key` none where the pointer is null. -/
def kplSetKey (obj : Bool) (slot : UInt8) (key : Option (List UInt8)) (timeoutMS : UInt32) :
    KplM σ KPLResult := do
  match obj, key with
  | true, some key => return .result (← setKey exchange host slot key timeoutMS)
  | _, _ => return .cBadParams

def kplGetKey {n : ℕ} (obj : Bool) (slot : UInt8) (out : Option (Buf n)) (timeoutMS : UInt32) :
    KplM σ (KPLResult × Option (Buf n)) := do
  match obj, out with
  | true, some out =>
    let (res, out) ← getKey exchange host slot out timeoutMS
    return (.result res, some out)
  | _, _ => return (.cBadParams, out)

def kplGetKeyFromName {n : ℕ} (obj : Bool) (name : Option (List UInt8)) (out : Option (Buf n))
    (timeoutMS : UInt32) : KplM σ (KPLResult × Option (Buf n)) := do
  match obj, name, out with
  | true, some name, some out =>
    let (res, out) ← getKeyFromName exchange host name out timeoutMS
    return (.result res, some out)
  | _, _, _ => return (.cBadParams, out)

/-- `KPLGetValidKeySlots`, with `n` bytes at `Out` and the value at `Count`. -/
def kplGetValidKeySlots {n : ℕ} (obj : Bool) (out : Option (Buf n)) (count : Option ℕ)
    (timeoutMS : UInt32) : KplM σ (KPLResult × Option (Buf n) × Option ℕ) := do
  match obj, out, count with
  | true, some out, some count =>
    let (res, slots) ← getValidKeySlots exchange host [] timeoutMS
    if res ≠ .success then return (.result res, some out, some count)
    else if slots.length > kplSlotCount then return (.result .libBadLength, some out, some count)
    else
      let out ← demand .outOfBounds (out.copyAt 0 slots)
      return (kplSuccess, some out, some slots.length)
  | _, _, _ => return (.cBadParams, out, count)

end

section Errors

theorem mem_results (res : Result) : res ∈ results := by
  cases res <;> decide

theorem errorStr_code (res : Result) : errorStr res.code = ascii (errorText res) := by
  have hfind : results.find? (fun r => r.code = res.code) = some res := by
    cases res <;> decide
  rw [errorStr, hfind]

/-- Every value that is no result has the empty text. -/
theorem errorStr_other {code : ℤ} (h : ∀ res : Result, res.code ≠ code) : errorStr code = [] := by
  have hfind : results.find? (fun r => decide (r.code = code)) = none := by
    rw [List.find?_eq_none]
    intro res _
    simpa using h res
  rw [errorStr, hfind]

theorem errorText_ne_nil (res : Result) : ascii (errorText res) ≠ [] := by
  cases res <;> decide

theorem errorText_injective : Function.Injective fun res => ascii (errorText res) := by
  intro a b h
  have hall : ∀ x ∈ results, ∀ y ∈ results, ascii (errorText x) = ascii (errorText y) → x = y := by
    decide +kernel
  exact hall a (mem_results a) b (mem_results b) h

end Errors

section Slots
variable {σ : Type} {exchange : Exchange σ} {host : Host} {timeoutMS : UInt32} {s : σ}

/-- What a list of slots looks like to a caller. -/
structure SlotList (slots : List UInt8) : Prop where
  count : slots.length ≤ kplSlotCount
  ascending : slots.Pairwise (· < ·)
  exist : ∀ slot ∈ slots, slot.toNat < kplSlotCount

theorem slotList_nil : SlotList [] :=
  ⟨Nat.zero_le _, List.Pairwise.nil, fun _ h => absurd h List.not_mem_nil⟩

theorem slotList_slotsOf (bits : UInt8) : SlotList (slotsOf bits) where
  count := by
    rw [slotsOf, List.length_map]
    exact (List.length_filter_le _ _).trans_eq List.length_range
  ascending := by
    rw [slotsOf, List.pairwise_map]
    have hr : (List.range 8).Pairwise fun i j => UInt8.ofNat i < UInt8.ofNat j := by decide
    exact hr.sublist List.filter_sublist
  exist slot h := by
    rw [slotsOf] at h
    obtain ⟨i, hi, rfl⟩ := List.mem_map.mp h
    have hlt := List.mem_range.mp (List.mem_filter.mp hi).1
    rw [UInt8.toNat_ofNat']
    exact (Nat.mod_le _ _).trans_lt hlt

/-- What the library lists, whatever the device does. -/
theorem exec_getValidKeySlots_list (h : Confined exchange) (host : Host) (timeoutMS : UInt32) (s : σ) :
    ∃ res slots s', exec (getValidKeySlots exchange host [] timeoutMS) (some s) =
        (.ok (res, slots), some s') ∧ SlotList slots := by
  obtain ⟨o, s', ho⟩ := withAnswer_settled h (1 + swSize) Instrs.getValidKeySlots 0 0 [] timeoutMS s
  obtain ⟨x, hx, he⟩ := ho (host.uninit _)
  rw [List.append_nil] at he
  refine ⟨_, _, s', exec_getValidKeySlots he hx, ?_⟩
  cases o with
  | failed res => exact slotList_nil
  | answered src =>
    dsimp only
    split_ifs
    · exact slotList_nil
    · exact slotList_nil
    · exact slotList_slotsOf _

theorem slotList_fits {slots : List UInt8} (h : SlotList slots) : ¬ slots.length > kplSlotCount :=
  not_lt.mpr h.count

/-- A null pointer is refused before anything is sent. -/
theorem exec_kplGetValidKeySlots_null {n : ℕ} {obj : Bool} {out : Option (Buf n)} {count : Option ℕ}
    {dev : Option σ} (h : obj = false ∨ out = none ∨ count = none) :
    exec (kplGetValidKeySlots exchange host obj out count timeoutMS) dev =
      (.ok (.cBadParams, out, count), dev) := by
  cases obj <;> cases out <;> cases count <;> first | rfl | simp at h

/-- The list is copied where it was made, and leaves the caller's memory where that is too small. -/
theorem exec_kplGetValidKeySlots {n : ℕ} {out : Buf n} {count : ℕ} {res : Result} {slots : List UInt8}
    {s' : σ} (he : exec (getValidKeySlots exchange host [] timeoutMS) (some s) = (.ok (res, slots), some s'))
    (hs : SlotList slots) :
    exec (kplGetValidKeySlots exchange host true (some out) (some count) timeoutMS) (some s) =
      (if res ≠ .success then .ok (.result res, some out, some count)
        else if slots.length ≤ n then .ok (kplSuccess, some (out.overwrite 0 slots), some slots.length)
        else .error .outOfBounds, some s') := by
  rw [kplGetValidKeySlots, exec_bind_ok he]
  dsimp only
  by_cases hr : res ≠ .success
  · rw [if_pos hr, if_pos hr]
    rfl
  rw [if_neg hr, if_neg (slotList_fits hs), if_neg hr]
  by_cases hn : slots.length ≤ n
  · rw [Buf.copyAt_eq (by simpa using hn), if_pos hn]
    rfl
  · have hnone : out.copyAt 0 slots = none := by
      rw [Buf.copyAt, if_neg (by simpa using hn)]
    rw [hnone, if_neg hn]
    rfl

end Slots

section Calls
variable {σ : Type}

/-- A call on an object, with the memory that the caller passes in; null is none. -/
inductive CCall
  | setKey (slot : UInt8) (key : Option (List UInt8))
  | getKey {n : ℕ} (slot : UInt8) (out : Option (Buf n))
  | getKeyFromName {n : ℕ} (name : Option (List UInt8)) (out : Option (Buf n))

/-- The result of a call and the caller's memory afterwards. -/
def CCall.run (exchange : Exchange σ) (host : Host) (obj : Bool) (timeoutMS : UInt32) :
    CCall → KplM σ (KPLResult × List UInt8)
  | .setKey slot key => do return (← kplSetKey exchange host obj slot key timeoutMS, [])
  | .getKey slot out => do
    let (res, out) ← kplGetKey exchange host obj slot out timeoutMS
    return (res, (out.map List.Vector.toList).getD [])
  | .getKeyFromName name out => do
    let (res, out) ← kplGetKeyFromName exchange host obj name out timeoutMS
    return (res, (out.map List.Vector.toList).getD [])

/-- The call of the library that is made, none where a pointer is null. -/
def CCall.kpl : CCall → Option KplCall
  | .setKey slot key => key.map (.setKey slot)
  | .getKey slot out => out.map (.getKey slot)
  | .getKeyFromName name out => name.bind fun name => out.map (.getKeyFromName name)

/-- The memory that was passed in. -/
def CCall.memory : CCall → List UInt8
  | .setKey _ _ => []
  | .getKey _ out => (out.map List.Vector.toList).getD []
  | .getKeyFromName _ out => (out.map List.Vector.toList).getD []

variable {exchange : Exchange σ} {host : Host} {timeoutMS : UInt32} {dev : Option σ}

/-- A null pointer is refused before anything is sent. -/
theorem exec_cCall_null {call : CCall} {obj : Bool} (h : obj = false ∨ call.kpl = none) :
    exec (call.run exchange host obj timeoutMS) dev = (.ok (.cBadParams, call.memory), dev) := by
  cases call with
  | setKey slot key =>
    cases obj <;> cases key <;> first | rfl | simp [CCall.kpl] at h
  | getKey slot out =>
    cases obj <;> cases out <;> first | rfl | simp [CCall.kpl] at h
  | getKeyFromName name out =>
    cases obj <;> cases name <;> cases out <;> first | rfl | simp [CCall.kpl] at h

/-- Otherwise it is the call of the library. -/
theorem exec_cCall {call : CCall} {k : KplCall} (h : call.kpl = some k) :
    exec (call.run exchange host true timeoutMS) dev =
      ((exec (k.run exchange host timeoutMS) dev).1.map fun r => (.result r.1, r.2),
        (exec (k.run exchange host timeoutMS) dev).2) := by
  cases call with
  | setKey slot key =>
    cases key <;> cases h
    simp only [CCall.run, kplSetKey, KplCall.run, exec_bind]
    rcases exec (setKey exchange host slot _ timeoutMS) dev with ⟨_ | res, _⟩ <;> rfl
  | getKey slot out =>
    cases out <;> cases h
    simp only [CCall.run, kplGetKey, KplCall.run, exec_bind]
    rcases exec (getKey exchange host slot _ timeoutMS) dev with ⟨_ | res, _⟩ <;> rfl
  | getKeyFromName name out =>
    cases name <;> cases out <;> cases h
    simp only [CCall.run, kplGetKeyFromName, KplCall.run, exec_bind]
    rcases exec (getKeyFromName exchange host _ _ timeoutMS) dev with ⟨_ | res, _⟩ <;> rfl

end Calls

/-- A text belongs to one value, and the values of results are those that have one. -/
theorem errorStr_faithful (code : ℤ) :
    (errorStr code ≠ [] ↔ ∃ r : Result, r.code = code) ∧
      ∀ code', errorStr code = errorStr code' → errorStr code ≠ [] → code = code' := by
  have hiff : errorStr code ≠ [] ↔ ∃ r : Result, r.code = code := by
    constructor
    · intro hne
      by_contra hn
      exact hne (errorStr_other fun r hr => hn ⟨r, hr⟩)
    · rintro ⟨r, rfl⟩
      rw [errorStr_code]
      exact errorText_ne_nil r
  refine ⟨hiff, fun code' he hne => ?_⟩
  obtain ⟨r, rfl⟩ := hiff.mp hne
  by_cases hr : ∃ r' : Result, r'.code = code'
  · obtain ⟨r', rfl⟩ := hr
    rw [errorStr_code, errorStr_code] at he
    rw [errorText_injective he]
  · rw [@errorStr_other code' fun r' hr' => hr ⟨r', hr'⟩] at he
    exact absurd he hne

/-- Over either transport and whatever the device does, a C call returns. Null pointers are refused
and nothing is sent; otherwise the result and the memory are those of the library. The list of
slots is ascending, at most eight long and written only on success; what it takes to overrun the
caller's memory is that it is smaller than the list. Each result has a text of its own. -/
theorem cApi_settled {σ : Type} (dev : LedgerDevice σ) (host : Host) (timeoutMS : UInt32) (s : σ) :
    (∀ (call : CCall) (obj : Bool), obj = false ∨ call.kpl = none →
      exec (call.run dev.exchange host obj timeoutMS) (some s) =
        (.ok (.cBadParams, call.memory), some s)) ∧
      (∀ (call : CCall) (k : KplCall), call.kpl = some k → ∃ res out s',
        exec (k.run dev.exchange host timeoutMS) (some s) = (.ok (res, out), some s') ∧
          exec (call.run dev.exchange host true timeoutMS) (some s) = (.ok (.result res, out), some s')) ∧
      (∀ (n : ℕ) (obj : Bool) (out : Option (Buf n)) (count : Option ℕ),
        obj = false ∨ out = none ∨ count = none →
          exec (kplGetValidKeySlots dev.exchange host obj out count timeoutMS) (some s) =
            (.ok (.cBadParams, out, count), some s)) ∧
      (∃ res slots s', exec (getValidKeySlots dev.exchange host [] timeoutMS) (some s) =
          (.ok (res, slots), some s') ∧ SlotList slots ∧
        ∀ (n : ℕ) (out : Buf n) (count : ℕ),
          exec (kplGetValidKeySlots dev.exchange host true (some out) (some count) timeoutMS) (some s) =
            (if res ≠ .success then .ok (.result res, some out, some count)
              else if slots.length ≤ n then .ok (kplSuccess, some (out.overwrite 0 slots), some slots.length)
              else .error .outOfBounds, some s')) ∧
      (∀ res : Result, kplErrorStr (.result res) = ascii (errorText res)) ∧
      ∀ code, (errorStr code ≠ [] ↔ ∃ r : Result, r.code = code) ∧
        ∀ code', errorStr code = errorStr code' → errorStr code ≠ [] → code = code' := by
  have h := exchange_confined dev
  refine ⟨fun call obj hn => exec_cCall_null hn, fun call k hk => ?_,
    fun n obj out count hn => exec_kplGetValidKeySlots_null hn, ?_, errorStr_code, errorStr_faithful⟩
  · obtain ⟨⟨res, out⟩, s', he⟩ := call_settled h k host timeoutMS s
    have hx := he host.uninit
    refine ⟨res, out, s', hx, ?_⟩
    rw [exec_cCall hk, hx]
    rfl
  · obtain ⟨res, slots, s', he, hs⟩ := exec_getValidKeySlots_list h host timeoutMS s
    exact ⟨res, slots, s', he, hs, fun n out count => exec_kplGetValidKeySlots he hs⟩

end LedgerKeePass.Kpl
