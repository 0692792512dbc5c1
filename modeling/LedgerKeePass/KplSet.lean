import LedgerKeePass.CStrings
import LedgerKeePass.EndToEnd

/-!
# The tool that stores a key (`set.cpp`, `utils.cpp`)

`kplSet` is `main` on the arguments of the process. `Typed` says what a pair of arguments
spells out, without the functions that the tool reads them with.
-/
namespace LedgerKeePass.Kpl
open Bytes Program App CStrings

/-- The loop of `fromHex`, a digit pair a round. -/
def fromHex (libc : Libc) (hex : List UInt8) : List UInt8 :=
  (List.range (hex.length / 2)).map fun i =>
    let buf := [toLower libc (hex.getD (2 * i) 0), toLower libc (hex.getD (2 * i + 1) 0)]
    ((scanHex 2 buf).getD (libc.uninit i)).toUInt8

/-- `KPL_VERSION_MAJOR`, `KPL_VERSION_MINOR` and `KPL_VERSION_PATCH` -/
def libVersion : Buf 3 := ⟨[0, 3, 0], rfl⟩

def isProtocolCompatible (a b : Buf 3) : Bool := a.byteAt 0 == b.byteAt 0

section
variable {σ : Type} (exchange : Exchange σ) (host : Host)

/-- `KPL::fromDevice` from where `connect` has returned `connected`. What `connect` does to the
handle is `Port.connect`. -/
def fromDevice (connected : Result) (timeoutMS : UInt32) : KplM σ Result := do
  if connected ≠ .success then return connected
  else
    let (res, appVer) ← fillAppVersion exchange host (Buf.zeros 3) timeoutMS
    if res ≠ .success then return res
    else if !isProtocolCompatible libVersion appVer then return .protocolBadVersion
    else return .success

/-- Whether `getFirstDeviceKPL` has an object to return; `device` is what connecting the first
device gives, none where no device is listed. -/
def getFirstDeviceKPL (device : Option Result) : KplM σ Bool := do
  match device with
  | none => return false
  | some connected => return (← fromDevice exchange host connected 0) = .success

/-- What `main` passes to `setKey`. -/
def setKeyArgs (libc : Libc) (slotArg keyArg : List UInt8) : UInt8 × List UInt8 :=
  (UInt8.ofInt (atoi libc slotArg), fromHex libc keyArg)

/-- `main`, and its exit status. -/
def kplSet (libc : Libc) (device : Option Result) : List (List UInt8) → KplM σ ℕ
  | _ :: slotArg :: keyArg :: _ => do
    let (slot, key) := setKeyArgs libc slotArg keyArg
    if !(← getFirstDeviceKPL exchange host device) then return 1
    else
      let res ← setKey exchange host slot key 0
      return if res ≠ .success then 1 else 0
  | _ => return 1

end

/-- The bytes that pairs of hexadecimal digits stand for. -/
def hexBytes : List UInt8 → List UInt8
  | a :: b :: s => UInt8.ofNat (16 * digitVal a + digitVal b) :: hexBytes s
  | _ => []

/-- The arguments are a decimal numeral for the slot and 64 hexadecimal digits for the key. -/
structure Typed (slotArg keyArg : List UInt8) (slot : Fin kplSlotCount) (key : Key) : Prop where
  slotDigits : slotArg ≠ [] ∧ ∀ c ∈ slotArg, isDigit c = true
  slotValue : number 10 slotArg = slot.val
  keyDigits : keyArg.length = 64 ∧ ∀ c ∈ keyArg, isXDigit c = true
  keyValue : hexBytes keyArg = key.toList

/-- The tool fails and leaves the slots as they are, whatever the device that it finds. -/
def Refused (libc : Libc) (slotArg keyArg : List UInt8) : Prop :=
  ∀ (σ : Type) (T : FaultFree σ) (sdk : Sdk) (approve : Bool) (host : Host) (device : Option Result)
    (program : List UInt8) (args : List (List UInt8)) (s : σ) (d : Device), T.At s d → d.Resting →
    ∃ s' t, exec (kplSet (T.exchange sdk approve) host libc device (program :: slotArg :: keyArg :: args))
        (some s) = (.ok 1, some s') ∧
      T.At s' t ∧ t.nStorage.slotMap = d.nStorage.slotMap

/-- A key that is passed on for a slot was typed, and arguments that spell out none are refused. -/
structure StoresOnlyTyped (libc : Libc) (slotArg keyArg : List UInt8) : Prop where
  typed : ∀ (slot : Fin kplSlotCount) (key : Key),
    setKeyArgs libc slotArg keyArg = (UInt8.ofNat slot, key.toList) → Typed slotArg keyArg slot key
  refused : (∀ slot key, ¬ Typed slotArg keyArg slot key) → Refused libc slotArg keyArg

section Digits
variable {libc : Libc} {s : List UInt8} {c : UInt8}

theorem isXDigit_toLower (h : isXDigit c = true) :
    isXDigit (toLower libc c) = true ∧ digitVal (toLower libc c) = digitVal c := by
  rw [isXDigit_iff] at h ⊢
  have hl := @toNat_toLower libc c (by omega)
  rw [digitVal, digitVal]
  split at hl
  · rw [hl, if_neg (by omega), if_neg (by omega), if_neg (by omega), if_pos (by omega)]
    omega
  · rw [hl]
    exact ⟨by omega, rfl⟩

theorem hexBytes_eq (s : List UInt8) :
    hexBytes s = (List.range (s.length / 2)).map fun i =>
      UInt8.ofNat (16 * digitVal (s.getD (2 * i) 0) + digitVal (s.getD (2 * i + 1) 0)) := by
  induction s using hexBytes.induct with
  | case1 a b s ih =>
    have hl : (a :: b :: s).length / 2 = s.length / 2 + 1 := by
      rw [List.length_cons, List.length_cons]
      omega
    rw [hexBytes, hl, List.range_succ_eq_map, List.map_cons, List.map_map, ih]
    rfl
  | case2 s hs =>
    have hl : s.length < 2 := by
      match s, hs with
      | [], _ => decide
      | [_], _ => simp
      | a :: b :: s, hs => exact absurd rfl (hs a b s)
    rw [hexBytes, Nat.div_eq_of_lt hl]
    · rfl
    · exact hs

/-- Digits are read as what they stand for. -/
theorem fromHex_digits (hd : ∀ c ∈ s, isXDigit c = true) : fromHex libc s = hexBytes s := by
  rw [fromHex, hexBytes_eq]
  apply List.map_congr_left
  intro i hi
  rw [List.mem_range] at hi
  have hmem : ∀ j < s.length, isXDigit (s.getD j 0) = true := by
    intro j hj
    rw [List.getD_eq_getElem _ _ hj]
    exact hd _ (List.getElem_mem hj)
  obtain ⟨ha, ha'⟩ := @isXDigit_toLower libc _ (hmem (2 * i) (by omega))
  obtain ⟨hb, hb'⟩ := @isXDigit_toLower libc _ (hmem (2 * i + 1) (by omega))
  simp only [scanHex_digits ha hb, Option.getD_some, ha', hb']
  exact UInt32.toUInt8_ofNat' _

theorem fromHex_length (libc : Libc) (s : List UInt8) : (fromHex libc s).length = s.length / 2 := by
  rw [fromHex, List.length_map, List.length_range]

theorem toNat_ofInt (i : ℤ) : (UInt8.ofInt i).toNat = (i % 256).toNat := by
  have h : (i % 256).toNat < 256 := by omega
  rw [UInt8.ofInt]
  exact UInt8.toNat_ofNat_of_lt' h

/-- What is typed is what is passed on. -/
theorem Typed.setKeyArgs {slotArg keyArg : List UInt8} {slot : Fin kplSlotCount} {key : Key}
    (h : Typed slotArg keyArg slot key) :
    setKeyArgs libc slotArg keyArg = (UInt8.ofNat slot, key.toList) := by
  have hslot : slot.val < 8 := slot.isLt
  have hv := h.slotValue
  have hatoi : atoi libc slotArg = number 10 slotArg :=
    atoi_digits h.slotDigits.1 h.slotDigits.2 (by omega)
  rw [Kpl.setKeyArgs, fromHex_digits h.keyDigits.2, h.keyValue, hatoi, hv]
  congr 1
  apply UInt8.toNat_inj.mp
  rw [toNat_ofInt, ofNat_slot_toNat]
  omega

end Digits

section Runs
variable {σ : Type} {T : FaultFree σ} {sdk : Sdk} {host : Host} {approve : Bool} {s : σ} {d : Device}
  {libc : Libc} {slotArg keyArg program : List UInt8} {args : List (List UInt8)}

/-- The app at the other end is of the version that the library is for. -/
theorem exec_fromDevice (hs : T.At s d) (hd : d.Resting) (timeoutMS : UInt32) :
    ∃ s' t, exec (fromDevice (T.exchange sdk approve) host .success timeoutMS) (some s) =
        (.ok .success, some s') ∧
      T.At s' t ∧ t.Resting ∧ t.nStorage = d.nStorage := by
  have hc : d.commandOf (request Instrs.getAppConfiguration 0 [] (Nat.zero_le _)) =
      .getAppConfiguration := command_getAppConfiguration
  obtain ⟨t, hr, ht, hst⟩ := @serve_command sdk approve _ _ _ hd (request_ne_nil _)
    (by simp [Command.isStore]) hc rfl
  obtain ⟨s', x, hs', hx, he⟩ := @exec_request _ T _ _ timeoutMS _ _ _ _ _ _ _ _ hs (Nat.zero_le _)
    (host.uninit (3 + swSize)) (by decide) (Nat.le_add_left _ 3) le_rfl hr
  have hk := @exec_fillAppVersion _ _ _ _ _ _ _ (Buf.zeros 3) _ he hx
  have hv := @decode_data _ (Buf.zeros 3) (fun src => (.success, versionOf src))
    [ledgerMajorVersion, ledgerMinorVersion, ledgerPatchVersion]
  refine ⟨s', t, ?_, hs', ht, hst⟩
  rw [fromDevice, if_neg (by simp), exec_bind_ok hk]
  rw [show ((Outcome.answered (Command.getAppConfiguration.response d.nStorage)).decode 3 (Buf.zeros 3)
    fun src => (Result.success, versionOf src)) = _ from hv]
  rfl

/-- Where the device is not connected there is nothing to ask. -/
theorem fromDevice_failed {exchange : Exchange σ} {connected : Result} {timeoutMS : UInt32}
    (h : connected ≠ .success) (dev : Option σ) :
    exec (fromDevice exchange host connected timeoutMS) dev = (.ok connected, dev) := by
  rw [fromDevice, if_pos h]
  rfl

theorem exec_getFirstDeviceKPL (hs : T.At s d) (hd : d.Resting) :
    ∃ s' t, exec (getFirstDeviceKPL (T.exchange sdk approve) host (some .success)) (some s) =
        (.ok true, some s') ∧
      T.At s' t ∧ t.Resting ∧ t.nStorage = d.nStorage := by
  obtain ⟨s', t, he, hrest⟩ := @exec_fromDevice _ T sdk host approve _ _ hs hd 0
  exact ⟨s', t, exec_bind_ok he, hrest⟩

/-- Where the tool finds no device it ends before the key is passed on. -/
theorem kplSet_noDevice {exchange : Exchange σ} {device : Option Result} (h : device ≠ some .success)
    (dev : Option σ) :
    exec (kplSet exchange host libc device (program :: slotArg :: keyArg :: args)) dev = (.ok 1, dev) := by
  have hg : exec (getFirstDeviceKPL exchange host device) dev = (.ok false, dev) := by
    cases device with
    | none => rfl
    | some connected =>
      have hc : connected ≠ .success := fun hc => h (congrArg some hc)
      rw [getFirstDeviceKPL, exec_bind_ok (fromDevice_failed hc dev), decide_eq_false hc]
      rfl
  rw [kplSet, exec_bind_ok hg]
  rfl

/-- The tool ends as `setKey` does on the map of the device's slots. -/
theorem exec_kplSet (hs : T.At s d) (hd : d.Resting) {slot : UInt8} {key : List UInt8}
    (hargs : setKeyArgs libc slotArg keyArg = (slot, key))
    (hnv : key.length = 32 → slot.toNat < 8 → sdk.WritesNv) :
    ∃ s' t, exec (kplSet (T.exchange sdk approve) host libc (some .success)
          (program :: slotArg :: keyArg :: args)) (some s) =
        (.ok (if ((SlotCall.setKey slot key).apply approve d.nStorage.slotMap).1.1 ≠ .success then 1 else 0),
          some s') ∧
      T.At s' t ∧ t.nStorage.slotMap = ((SlotCall.setKey slot key).apply approve d.nStorage.slotMap).2 := by
  obtain ⟨s₁, t₁, hg, hs₁, ht₁, hst⟩ := @exec_getFirstDeviceKPL _ T sdk host approve _ _ hs hd
  obtain ⟨s', t, hk, hs', -, hm⟩ := @exec_setKey_slotMap _ T sdk host approve 0 _ _ hs₁ ht₁ slot key hnv
  rw [hst] at hk hm
  refine ⟨s', t, ?_, hs', hm⟩
  rw [kplSet, hargs, exec_bind_ok hg]
  exact exec_bind_ok hk

/-- A key of another size and a slot that does not exist are not stored. -/
theorem apply_setKey_refused {slot : UInt8} {key : List UInt8} (h : key.length ≠ 32 ∨ 8 ≤ slot.toNat)
    (m : SlotMap) :
    ((SlotCall.setKey slot key).apply approve m).1.1 ≠ .success ∧
      ((SlotCall.setKey slot key).apply approve m).2 = m := by
  rw [SlotCall.apply]
  by_cases hl : key.length = 32
  · have hslot : ¬ slot.toNat < 8 := by omega
    rw [dif_pos hl, dif_neg hslot]
    exact ⟨by simp, rfl⟩
  · rw [dif_neg hl]
    exact ⟨by simp, rfl⟩

theorem refused_of {slot : UInt8} {key : List UInt8} (hargs : setKeyArgs libc slotArg keyArg = (slot, key))
    (h : key.length ≠ 32 ∨ 8 ≤ slot.toNat) : Refused libc slotArg keyArg := by
  intro σ T sdk approve host device program args s d hs hd
  by_cases hdev : device = some .success
  · have hnv : key.length = 32 → slot.toNat < 8 → sdk.WritesNv := fun hl hslot => by omega
    obtain ⟨s', t, hk, hs', hm⟩ := @exec_kplSet _ T sdk host approve _ _ libc slotArg keyArg program args
      hs hd _ _ hargs hnv
    obtain ⟨hne, hsame⟩ := @apply_setKey_refused approve _ _ h d.nStorage.slotMap
    rw [if_pos hne] at hk
    rw [hsame] at hm
    rw [hdev]
    exact ⟨s', t, hk, hs', hm⟩
  · exact ⟨s, d, kplSet_noDevice hdev _, hs, rfl⟩

end Runs

/-- The arguments are digits, and the slot exists. -/
theorem exists_typed {slotArg keyArg : List UInt8} :
    (∃ slot key, Typed slotArg keyArg slot key) ↔
      (slotArg ≠ [] ∧ (∀ c ∈ slotArg, isDigit c = true) ∧ number 10 slotArg < kplSlotCount) ∧
        keyArg.length = 64 ∧ ∀ c ∈ keyArg, isXDigit c = true := by
  constructor
  · rintro ⟨slot, key, h⟩
    refine ⟨⟨h.slotDigits.1, h.slotDigits.2, ?_⟩, h.keyDigits⟩
    rw [h.slotValue]
    exact slot.isLt
  · rintro ⟨⟨hne, hd, hv⟩, hkey⟩
    have hl : (hexBytes keyArg).length = 32 := by
      rw [hexBytes_eq, List.length_map, List.length_range, hkey.1]
    exact ⟨⟨_, hv⟩, ⟨_, hl⟩, ⟨hne, hd⟩, rfl, hkey, rfl⟩

/-- The tool checks the length of the key only after halving it, and the slot only after
narrowing it: a key of 64 or 65 characters for a slot below 8 is stored, whatever they are. -/
theorem storesOnlyTyped_iff (libc : Libc) (slotArg keyArg : List UInt8) :
    StoresOnlyTyped libc slotArg keyArg ↔
      (keyArg.length ≠ 64 ∧ keyArg.length ≠ 65) ∨ 8 ≤ atoi libc slotArg % 256 ∨
        (slotArg ≠ [] ∧ (∀ c ∈ slotArg, isDigit c = true) ∧ number 10 slotArg < kplSlotCount) ∧
          keyArg.length = 64 ∧ ∀ c ∈ keyArg, isXDigit c = true := by
  rw [← exists_typed]
  have hlen := fromHex_length libc keyArg
  have hslot := toNat_ofInt (atoi libc slotArg)
  constructor
  · intro h
    by_contra hn
    push Not at hn
    obtain ⟨hn, hlt, hnt⟩ := hn
    have hk : (fromHex libc keyArg).length = 32 := by omega
    have hs : (UInt8.ofInt (atoi libc slotArg)).toNat < kplSlotCount := by
      change _ < 8
      omega
    refine hnt ⟨_, hs⟩ ⟨_, hk⟩ (h.typed _ _ ?_)
    rw [setKeyArgs, UInt8.ofNat_toNat]
    rfl
  · rintro (hn | hge | ⟨slot, key, htyped⟩)
    · have hk : (fromHex libc keyArg).length ≠ 32 := by omega
      refine ⟨fun slot key hargs => ?_, fun _ => refused_of rfl (.inl hk)⟩
      have hkey : fromHex libc keyArg = key.toList := (Prod.ext_iff.mp hargs).2
      exact absurd (hkey ▸ key.toList_length) hk
    · have hs : 8 ≤ (UInt8.ofInt (atoi libc slotArg)).toNat := by omega
      refine ⟨fun slot key hargs => ?_, fun _ => refused_of rfl (.inr hs)⟩
      have hs' : UInt8.ofInt (atoi libc slotArg) = UInt8.ofNat slot := (Prod.ext_iff.mp hargs).1
      rw [hs', ofNat_slot_toNat] at hs
      exact absurd slot.isLt (not_lt.mpr hs)
    · refine ⟨fun slot' key' hargs => ?_, fun hn => absurd htyped (hn slot key)⟩
      obtain ⟨hs, hk⟩ := Prod.mk.inj (htyped.setKeyArgs.symm.trans hargs)
      have hslot := congrArg UInt8.toNat hs
      rw [ofNat_slot_toNat, ofNat_slot_toNat] at hslot
      rw [← Fin.ext hslot, ← List.Vector.toList_injective hk]
      exact htyped

/-- `kpl_set x 0…0` with 65 digits stores a key in slot 0. -/
theorem kplSet_stores_untyped :
    let libc : Libc := ⟨id, id, fun _ => 0⟩
    ¬ StoresOnlyTyped libc (ascii "x") (List.replicate 65 48) ∧
      ∃ s' t, exec (kplSet (tcpFaultFree.exchange exchangeSdk false) exchangeHost libc (some .success)
          [ascii "kpl_set", ascii "x", List.replicate 65 48]) (some ⟨freshDevice, [], [], 0⟩) =
            (.ok 0, some s') ∧
        tcpFaultFree.At s' t ∧
        t.nStorage.slotMap = Function.update (fun _ => none) ⟨0, by decide⟩ (some (Buf.zeros 32)) := by
  intro libc
  have hargs : setKeyArgs libc (ascii "x") (List.replicate 65 48) = (0, (Buf.zeros 32).toList) := by
    decide +kernel
  constructor
  · intro h
    have hl := (h.typed ⟨0, by decide⟩ _ hargs).keyDigits.1
    rw [List.length_replicate] at hl
    omega
  · obtain ⟨s', t, hk, hs', hm⟩ := @exec_kplSet _ tcpFaultFree exchangeSdk exchangeHost false
      ⟨freshDevice, [], [], 0⟩ freshDevice libc _ _ (ascii "kpl_set") [] ⟨⟨rfl, rfl⟩, rfl⟩
      (started_resting freshDevice_started) _ _ hargs fun _ _ _ => rfl
    have hm' : ((SlotCall.setKey 0 (Buf.zeros 32).toList).apply false freshDevice.nStorage.slotMap).2 =
        Function.update (fun _ => none) ⟨0, by decide⟩ (some (Buf.zeros 32)) := by
      decide +kernel
    refine ⟨s', t, hk, hs', ?_⟩
    rw [hm, hm']

end LedgerKeePass.Kpl
