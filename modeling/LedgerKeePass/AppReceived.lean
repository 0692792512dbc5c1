import LedgerKeePass.AppReady

/-!
# Bytes that were not received

The app does not compare the length byte of an APDU with the number of bytes received, so
handlers can read what an earlier request or reply left in the buffer. `Covered` is the
exact condition under which they do not.
-/
namespace LedgerKeePass.App
open Bytes Program

inductive PendingArgs
  | storeKey (args : StoreKeyArgs)
  | getKey (args : GetKeyArgs)
  | getKeyFromName (args : GetKeyFromNameArgs)
  | eraseAllSlots
  deriving DecidableEq

/-- The pending callback and its arguments. -/
def Device.pending (d : Device) : Option PendingArgs :=
  d.approveCb.map fun
    | .handleStoreKeyConfirmErase => .storeKey d.storeKeyArgs
    | .handleGetKeyAfterApprove => .getKey d.getKeyArgs
    | .handleGetKeyFromNameAfterApprove => .getKeyFromName d.getKeyFromNameArgs
    | .handleEraseAllSlotsApprove => .eraseAllSlots

structure Processed where
  reply : Except Abort (Option (List UInt8))
  nStorage : InternalStorage
  pending : Option PendingArgs
  display : Option (List UInt8 × List UInt8)

/-- What processing an APDU leads to. -/
def processed (sdk : Sdk) (apdu : Apdu) (d : Device) : Processed :=
  let (reply, t) := exec (receiveApdu sdk apdu) d
  ⟨reply, t.nStorage, t.pending, t.display⟩

/-- The effect of an APDU is the same whatever the buffer held before it was received. -/
def ReceivedOnly (sdk : Sdk) (apdu : Apdu) (d : Device) : Prop :=
  ∀ b, processed sdk apdu (d.setBuffer b) = processed sdk apdu d

/-- Every byte that the command looks at was received, or those that were decide alone. -/
def Covered (nv : InternalStorage) (bytes : List UInt8) : Prop :=
  bytes.getD 0 0 ≠ cla ∨ 2 ≤ bytes.length ∧
    match (bytes.getD 1 0).toNat with
    | 1 => 3 ≤ bytes.length ∧ (8 ≤ (bytes.getD 2 0).toNat ∨
        5 ≤ bytes.length ∧ ((bytes.getD 4 0).toNat ≠ 32 ∨ 37 ≤ bytes.length))
    | 2 => 3 ≤ bytes.length ∧ (8 ≤ (bytes.getD 2 0).toNat ∨
        5 ≤ bytes.length ∧ ((bytes.getD 4 0).toNat ≠ 32 ∨ 37 ≤ bytes.length ∨
          nv.valid (bytes.getD 2 0).toNat = false))
    | 3 => 5 ≤ bytes.length ∧ ((bytes.getD 4 0).toNat ≤ 32 ∨ 52 < (bytes.getD 4 0).toNat ∨
        5 + (bytes.getD 4 0).toNat ≤ bytes.length ∨ isNameValid (bytes.drop 37) = false)
    | _ => True

section Outcome
variable {sdk : Sdk} {apdu : Apdu} {d : Device}

/-- What a command leads to. -/
def Command.outcome (d : Device) (c : Command) : Processed :=
  ⟨.ok (c.sent d.nStorage), (c.effect d).nStorage, (c.effect d).pending, (c.effect d).display⟩

/-- The buffer at the time `handleApdu` reads it. -/
def frame (apdu : Apdu) (b : Buf ioApduBufferSize) : Buf ioApduBufferSize :=
  b.overwrite 0 apdu.bytes

theorem processed_eq (hnv : sdk.WritesNv) (htx : d.tx = 0) (hne : apdu.bytes ≠ [])
    (b : Buf ioApduBufferSize) :
    processed sdk apdu (d.setBuffer b) = (command d.nStorage (frame apdu b)).outcome d := by
  have h := exec_receiveApdu (d := d.setBuffer b) hne htx fun _ => hnv
  simp only [processed, h]
  change Processed.mk _ _ _ _ = (command d.nStorage (frame apdu b)).outcome d
  generalize hc : command (d.setBuffer b).nStorage ((d.setBuffer b).receive apdu).gIoApduBuffer = c
  have hc' : command d.nStorage (frame apdu b) = c := hc
  rw [hc']
  cases c with
  | ask r => cases r <;> rfl
  | _ => rfl

theorem frame_byteAt {b : Buf ioApduBufferSize} {i : ℕ} (hi : i < ioApduBufferSize) :
    (frame apdu b).byteAt i =
      if i < apdu.bytes.length then apdu.bytes.getD i 0 else b.byteAt i := by
  rw [frame, Buf.byteAt_overwrite _ _ _ hi]
  simp

theorem frame_received {b : Buf ioApduBufferSize} {i : ℕ} (hi : i < apdu.bytes.length) :
    (frame apdu b).byteAt i = apdu.bytes.getD i 0 := by
  rw [frame_byteAt (hi.trans_le apdu.fits), if_pos hi]

theorem frame_stale {b : Buf ioApduBufferSize} {i : ℕ} (hi : i < ioApduBufferSize)
    (hs : apdu.bytes.length ≤ i) : (frame apdu b).byteAt i = b.byteAt i := by
  rw [frame_byteAt hi, if_neg (by omega)]

theorem frame_window {b b' : Buf ioApduBufferSize} {off len : ℕ}
    (h : off + len ≤ apdu.bytes.length) :
    (frame apdu b).window off len = (frame apdu b').window off len := by
  apply Buf.ext_byteAt
  intro i hi
  rw [Buf.byteAt_window, Buf.byteAt_window, frame_received (by omega), frame_received (by omega)]

/-- The first two bytes of an APDU are in the buffer. -/
theorem received_header {d : Device} {apdu : Apdu} {b₀ b₁ : UInt8} (h : apdu.bytes.take 2 = [b₀, b₁]) :
    apdu.bytes ≠ [] ∧ (d.receive apdu).gIoApduBuffer.byteAt 0 = b₀ ∧
      (d.receive apdu).gIoApduBuffer.byteAt 1 = b₁ := by
  have hl := congrArg List.length h
  rw [List.length_take] at hl
  have hb : ∀ i < 2, (d.receive apdu).gIoApduBuffer.byteAt i = (apdu.bytes.take 2).getD i 0 := by
    intro i hi
    have hf : (d.receive apdu).gIoApduBuffer.byteAt i = apdu.bytes.getD i 0 :=
      frame_received (by simp only [List.length_cons, List.length_nil] at hl; omega)
    rw [hf, List.getD_eq_getElem?_getD, List.getD_eq_getElem?_getD, List.getElem?_take, if_pos hi]
  rw [h] at hb
  refine ⟨fun hn => ?_, hb 0 (by omega), hb 1 (by omega)⟩
  rw [hn] at h
  cases h

theorem isNameValid_mem (name : List UInt8) :
    isNameValid name = true ↔ ∀ x ∈ name, isNameValid [x] = true := by
  simp [isNameValid]

/-- A name is printable when each of its bytes is. -/
theorem isNameValid_iff {n : ℕ} (w : Buf n) :
    isNameValid w.toList = true ↔ ∀ i < n, isNameValid [w.byteAt i] = true := by
  rw [isNameValid_mem]
  constructor
  · intro h i hi
    exact h _ (Buf.mem_toList.mpr ⟨i, hi, rfl⟩)
  · intro h x hx
    obtain ⟨i, hi, rfl⟩ := Buf.mem_toList.mp hx
    exact h i hi

theorem isNameValid_drop (bytes : List UInt8) :
    isNameValid (bytes.drop 37) = true ↔
      ∀ i, 37 ≤ i → i < bytes.length → isNameValid [bytes.getD i 0] = true := by
  rw [isNameValid_mem]
  constructor
  · intro h i hi hl
    rw [List.getD_eq_getElem _ _ hl]
    refine h _ (List.mem_drop_iff_getElem.mpr ⟨i - 37, by omega, ?_⟩)
    congr 1
    omega
  · intro h x hx
    obtain ⟨i, hi, rfl⟩ := List.mem_drop_iff_getElem.mp hx
    have hg := h (37 + i) (by omega) (by omega)
    rwa [List.getD_eq_getElem _ _ (by omega)] at hg

end Outcome

section Covered
variable {nv : InternalStorage} {apdu : Apdu} {b b' : Buf ioApduBufferSize}

theorem command_of_cla {f : Buf ioApduBufferSize} (h : f.byteAt 0 = cla) :
    command nv f = match (f.byteAt 1).toNat with
      | 0 => .getAppConfiguration
      | 1 => storeCommand nv (f.byteAt 2) (f.byteAt 4) (f.window 5 kplKeySize)
      | 2 => getKeyCommand nv (f.byteAt 2) (f.byteAt 4) (f.window 5 x25519PtSize)
      | 3 => getKeyFromNameCommand (f.byteAt 4) (f.window 5 x25519PtSize)
        (f.window 37 ((f.byteAt 4).toNat - 32)).toList
      | 4 => .getValidSlots
      | 5 => .ask .eraseAllSlots
      | _ => .fail kplSwUnknownInstr := by
  unfold command
  exact if_neg (not_not.mpr h)

theorem storeCommand_congr {p1 lc p1' lc' : UInt8} {key key' : Key} (hp : p1 = p1')
    (h : 8 ≤ p1.toNat ∨ lc = lc' ∧ (lc.toNat ≠ 32 ∨ key = key')) :
    storeCommand nv p1 lc key = storeCommand nv p1' lc' key' := by
  subst hp
  rcases h with h | ⟨rfl, h | rfl⟩
  · have hn : ¬ p1.toNat < kplSlotCount := Nat.not_lt.mpr h
    rw [storeCommand, storeCommand, dif_neg (fun h => hn h.1), dif_neg (fun h => hn h.1)]
  · rw [storeCommand, storeCommand, dif_neg (fun h' => h h'.2), dif_neg (fun h' => h h'.2)]
  · rfl

theorem getKeyCommand_congr {p1 lc p1' lc' : UInt8} {pub pub' : Point} (hp : p1 = p1')
    (h : 8 ≤ p1.toNat ∨ lc = lc' ∧ (lc.toNat ≠ 32 ∨ pub = pub' ∨ nv.valid p1.toNat = false)) :
    getKeyCommand nv p1 lc pub = getKeyCommand nv p1' lc' pub' := by
  subst hp
  rcases h with h | ⟨rfl, h | rfl | h⟩
  · have hn : ¬ p1.toNat < kplSlotCount := Nat.not_lt.mpr h
    rw [getKeyCommand, getKeyCommand, dif_neg (fun h => hn h.1), dif_neg (fun h => hn h.1)]
  · rw [getKeyCommand, getKeyCommand, dif_neg (fun h' => h h'.2), dif_neg (fun h' => h h'.2)]
  · rfl
  · rw [getKeyCommand, getKeyCommand, h]
    rfl

/-- A stale byte behind received ones that are not printable does not matter. -/
theorem staleName_invalid {n : ℕ} (hl : apdu.bytes.length ≤ 37 + n)
    (hv : isNameValid (apdu.bytes.drop 37) = false) :
    isNameValid ((frame apdu b).window 37 n).toList = false := by
  rw [← Bool.not_eq_true] at hv ⊢
  rw [isNameValid_drop] at hv
  rw [isNameValid_iff]
  intro h
  refine hv fun i hi hl' => ?_
  have hb := h (i - 37) (by omega)
  rw [Buf.byteAt_window, if_pos (by omega), show 37 + (i - 37) = i by omega,
    frame_received hl'] at hb
  exact hb

theorem getKeyFromNameCommand_congr {lc : UInt8} {pub pub' : Point} {name name' : List UInt8}
    (h : lc.toNat ≤ 32 ∨ 52 < lc.toNat ∨ pub = pub' ∧
      (name = name' ∨ isNameValid name = false ∧ isNameValid name' = false)) :
    getKeyFromNameCommand lc pub name = getKeyFromNameCommand lc pub' name' := by
  rcases h with h | h | ⟨rfl, rfl | ⟨h, h'⟩⟩
  · have hn : ¬ (x25519PtSize < lc.toNat ∧ lc.toNat ≤ x25519PtSize + kplMaxNameSize) :=
      fun h' => absurd h'.1 (Nat.not_lt.mpr h)
    rw [getKeyFromNameCommand, getKeyFromNameCommand, if_neg hn, if_neg hn]
  · have hn : ¬ (x25519PtSize < lc.toNat ∧ lc.toNat ≤ x25519PtSize + kplMaxNameSize) :=
      fun h' => absurd h'.2 (Nat.not_le.mpr h)
    rw [getKeyFromNameCommand, getKeyFromNameCommand, if_neg hn, if_neg hn]
  · rfl
  · rw [getKeyFromNameCommand, getKeyFromNameCommand, h, h']
    rfl

/-- The command of a covered APDU does not depend on what the buffer held. -/
theorem covered_command (h : Covered nv apdu.bytes) (hne : apdu.bytes ≠ []) :
    command nv (frame apdu b) = command nv (frame apdu b') := by
  have hrec : ∀ b, ∀ i < apdu.bytes.length, (frame apdu b).byteAt i = apdu.bytes.getD i 0 :=
    fun b i hi => frame_received hi
  have heq : ∀ i < apdu.bytes.length, (frame apdu b).byteAt i = (frame apdu b').byteAt i := by
    intro i hi
    rw [hrec b i hi, hrec b' i hi]
  have h0 := fun b => hrec b 0 (List.length_pos_of_ne_nil hne)
  by_cases hc : apdu.bytes.getD 0 0 = cla
  swap
  · rw [command, command, if_pos (by rw [h0]; exact hc), if_pos (by rw [h0]; exact hc)]
  obtain ⟨hl, h⟩ := h.resolve_left (not_not.mpr hc)
  rw [command_of_cla ((h0 b).trans hc), command_of_cla ((h0 b').trans hc), hrec b 1 (by omega),
    hrec b' 1 (by omega)]
  generalize (apdu.bytes.getD 1 0).toNat = n at h ⊢
  rcases n with _ | _ | _ | _ | n
  · rfl
  · obtain ⟨hl₃, h⟩ := h
    refine storeCommand_congr (heq 2 hl₃) ?_
    rw [hrec b 2 hl₃]
    refine h.imp_right fun h => ⟨heq 4 h.1, ?_⟩
    rw [hrec b 4 h.1]
    exact h.2.imp_right fun h => frame_window h
  · obtain ⟨hl₃, h⟩ := h
    refine getKeyCommand_congr (heq 2 hl₃) ?_
    rw [hrec b 2 hl₃]
    refine h.imp_right fun h => ⟨heq 4 h.1, ?_⟩
    rw [hrec b 4 h.1]
    exact h.2.imp_right fun h => h.imp_left fun h => frame_window h
  · obtain ⟨hl₅, h⟩ := h
    rw [hrec b 4 hl₅, hrec b' 4 hl₅]
    refine getKeyFromNameCommand_congr ?_
    by_cases h₁ : (apdu.bytes.getD 4 0).toNat ≤ 32
    · exact .inl h₁
    by_cases h₂ : 52 < (apdu.bytes.getD 4 0).toNat
    · exact .inr (.inl h₂)
    refine .inr (.inr ?_)
    by_cases h₃ : 5 + (apdu.bytes.getD 4 0).toNat ≤ apdu.bytes.length
    · refine ⟨frame_window (by change 37 ≤ _; omega), .inl ?_⟩
      rw [@frame_window apdu b b' _ _ (by omega)]
    · have hv := ((h.resolve_left h₁).resolve_left h₂).resolve_left h₃
      have h37 : 37 ≤ apdu.bytes.length := by
        by_contra hlt
        rw [List.drop_of_length_le (by omega)] at hv
        cases hv
      refine ⟨frame_window h37, .inr ⟨?_, ?_⟩⟩
      · exact staleName_invalid (by omega) hv
      · exact staleName_invalid (by omega) hv
  · rcases n with _ | _ | n <;> rfl

end Covered

section Uncovered
variable {nv : InternalStorage} {apdu : Apdu} {d : Device} {p1 lc : UInt8}

/-- A buffer of one byte, but for the length byte. -/
def filled (x lc : UInt8) : Buf ioApduBufferSize :=
  Buf.overwrite (List.Vector.replicate ioApduBufferSize x) 4 [lc]

theorem filled_byteAt (x lc : UInt8) {i : ℕ} (hi : i < ioApduBufferSize) :
    (filled x lc).byteAt i = if i = 4 then lc else x := by
  rw [filled, Buf.byteAt_overwrite _ _ _ hi]
  by_cases h : i = 4
  · rw [if_pos (by simp [h]), if_pos h, h]
    rfl
  · rw [if_neg (by simp; omega), if_neg h, Buf.byteAt, List.Vector.replicate,
      List.Vector.toList_mk, List.getD_eq_getElem _ _ (by simpa using hi), List.getElem_replicate]

theorem sent_ne {c c' : Command} (h : c.sent d.nStorage ≠ c'.sent d.nStorage) :
    c.outcome d ≠ c'.outcome d :=
  fun ho => h (Except.ok.inj (congrArg Processed.reply ho))

/-- A refused command against one that asks or is answered with something else. -/
theorem invalid_ne {v : Prop} [Decidable v] {r : Request} {c : Command}
    (hc : (Command.fail invalidParameter).response d.nStorage ≠ c.response d.nStorage) :
    (Command.fail invalidParameter).outcome d ≠ (if v then .ask r else c).outcome d := by
  apply sent_ne
  split
  · exact Option.some_ne_none _
  · cases c with
    | ask r => exact Option.some_ne_none _
    | _ => exact fun h => hc (Option.some.inj h)

/-- A length of zero is refused where a length of 32 is not. -/
theorem storeCommand_lc (hp : p1.toNat < kplSlotCount) (key key' : Key) :
    (storeCommand nv p1 0 key).outcome d ≠ (storeCommand nv p1 32 key').outcome d := by
  have h₀ : storeCommand nv p1 0 key = .fail invalidParameter := dif_neg (by simp)
  have h₃₂ : p1.toNat < kplSlotCount ∧ (32 : UInt8).toNat = kplKeySize := ⟨hp, rfl⟩
  rw [h₀, storeCommand, dif_pos h₃₂]
  refine invalid_ne ?_
  simp only [Command.response]
  decide

theorem storeCommand_key (hp : p1.toNat < kplSlotCount) {key key' : Key} (hk : key ≠ key') :
    (storeCommand nv p1 32 key).outcome d ≠ (storeCommand nv p1 32 key').outcome d := by
  have h₃₂ : p1.toNat < kplSlotCount ∧ (32 : UInt8).toNat = kplKeySize := ⟨hp, rfl⟩
  rw [storeCommand, storeCommand, dif_pos h₃₂, dif_pos h₃₂]
  intro h
  split at h
  · have hargs := congrArg Processed.pending h
    cases hargs
    exact hk rfl
  · have hkeys := congrArg (fun o => o.nStorage.keys ⟨p1.toNat, hp⟩) h
    simp only [Command.outcome, Command.effect, Device.setStorage, InternalStorage.store,
      Function.update_self] at hkeys
    exact hk hkeys

theorem getKeyCommand_lc (hp : p1.toNat < kplSlotCount) (pub pub' : Point) :
    (getKeyCommand nv p1 0 pub).outcome d ≠ (getKeyCommand nv p1 32 pub').outcome d := by
  have h₀ : getKeyCommand nv p1 0 pub = .fail invalidParameter := dif_neg (by simp)
  have h₃₂ : p1.toNat < kplSlotCount ∧ (32 : UInt8).toNat = x25519PtSize := ⟨hp, rfl⟩
  rw [h₀, getKeyCommand, dif_pos h₃₂]
  refine invalid_ne ?_
  simp only [Command.response]
  decide

theorem getKeyCommand_pub (hp : p1.toNat < kplSlotCount) (hv : nv.valid p1.toNat = true)
    {pub pub' : Point} (hpub : pub ≠ pub') :
    (getKeyCommand nv p1 32 pub).outcome d ≠ (getKeyCommand nv p1 32 pub').outcome d := by
  have h₃₂ : p1.toNat < kplSlotCount ∧ (32 : UInt8).toNat = x25519PtSize := ⟨hp, rfl⟩
  rw [getKeyCommand, getKeyCommand, dif_pos h₃₂, dif_pos h₃₂, if_pos hv, if_pos hv]
  intro h
  have hargs := congrArg Processed.pending h
  cases hargs
  exact hpub rfl

theorem getKeyFromNameCommand_lc (pub pub' : Point) (name name' : List UInt8) :
    (getKeyFromNameCommand 0 pub name).outcome d ≠
      (getKeyFromNameCommand 33 pub' name').outcome d := by
  have h₀ : getKeyFromNameCommand 0 pub name = .fail invalidParameter := if_neg (by simp)
  have h₃₃ : x25519PtSize < (33 : UInt8).toNat ∧
      (33 : UInt8).toNat ≤ x25519PtSize + kplMaxNameSize := by decide
  rw [h₀, getKeyFromNameCommand, if_pos h₃₃]
  refine invalid_ne ?_
  simp only [Command.response]
  decide

theorem getKeyFromNameCommand_name (hl : 32 < lc.toNat) (hl' : lc.toNat ≤ 52) (pub pub' : Point)
    {name name' : List UInt8} (hn : isNameValid name = true) (hn' : isNameValid name' = false) :
    (getKeyFromNameCommand lc pub name).outcome d ≠
      (getKeyFromNameCommand lc pub' name').outcome d := by
  have h : x25519PtSize < lc.toNat ∧ lc.toNat ≤ x25519PtSize + kplMaxNameSize := ⟨hl, hl'⟩
  rw [getKeyFromNameCommand, getKeyFromNameCommand, if_pos h, if_pos h, if_pos hn,
    if_neg (by simp [hn'])]
  exact sent_ne (Option.some_ne_none _).symm

theorem window_ne {x y lc lc' : UInt8} (hxy : x ≠ y) {off len i : ℕ} (hi : off ≤ i)
    (hi' : i < off + len) (hs : apdu.bytes.length ≤ i) (h4 : i ≠ 4) (hn : i < ioApduBufferSize) :
    (frame apdu (filled x lc)).window off len ≠ (frame apdu (filled y lc')).window off len := by
  intro h
  have hb := congrArg (fun w => Buf.byteAt w (i - off)) h
  simp only [Buf.byteAt_window] at hb
  rw [if_pos (by omega), if_pos (by omega), show off + (i - off) = i by omega, frame_stale hn hs,
        frame_stale hn hs,
    filled_byteAt _ _ hn, filled_byteAt _ _ hn, if_neg h4, if_neg h4] at hb
  exact hxy hb

/-- A command on a slot that reads its slot, its length and 32 bytes of data. It depends
on them as stated, so they must have been received. -/
theorem slotCommand_received {F : UInt8 → UInt8 → Buf 32 → Command} {Q : UInt8 → Prop}
    (hlc : ∀ p1 k k', p1.toNat < 8 → (F p1 0 k).outcome d ≠ (F p1 32 k').outcome d)
    (hkey : ∀ p1 k k', p1.toNat < 8 → Q p1 → k ≠ k' → (F p1 32 k).outcome d ≠ (F p1 32 k').outcome d)
    (h : ∀ b b', (F ((frame apdu b).byteAt 2) ((frame apdu b).byteAt 4)
        ((frame apdu b).window 5 32)).outcome d =
      (F ((frame apdu b').byteAt 2) ((frame apdu b').byteAt 4)
        ((frame apdu b').window 5 32)).outcome d) :
    3 ≤ apdu.bytes.length ∧ (8 ≤ (apdu.bytes.getD 2 0).toNat ∨ 5 ≤ apdu.bytes.length ∧
      ((apdu.bytes.getD 4 0).toNat ≠ 32 ∨ 37 ≤ apdu.bytes.length ∨ ¬ Q (apdu.bytes.getD 2 0))) := by
  have h2 : (2 : ℕ) < ioApduBufferSize := by decide
  have h4 : (4 : ℕ) < ioApduBufferSize := by decide
  -- with the length byte missing, the slot must be one that is refused anyway
  have hslot : apdu.bytes.length < 5 → 8 ≤ ((frame apdu (filled 0 0)).byteAt 2).toNat := by
    intro hl
    by_contra hp
    have hf := h (filled 0 0) (filled 0 32)
    have hp1 : (frame apdu (filled 0 32)).byteAt 2 = (frame apdu (filled 0 0)).byteAt 2 := by
      rw [frame_byteAt h2, frame_byteAt h2, filled_byteAt _ _ h2, filled_byteAt _ _ h2]
      rfl
    rw [hp1, frame_stale h4 (by omega), frame_stale h4 (by omega), filled_byteAt _ _ h4,
      filled_byteAt _ _ h4] at hf
    exact hlc _ _ _ (by omega) hf
  have hl₃ : 3 ≤ apdu.bytes.length := by
    by_contra hl
    have hp := hslot (by omega)
    rw [frame_stale h2 (by omega), filled_byteAt _ _ h2] at hp
    exact absurd hp (by decide)
  refine ⟨hl₃, ?_⟩
  by_cases hp : 8 ≤ (apdu.bytes.getD 2 0).toNat
  · exact .inl hp
  have hl₅ : 5 ≤ apdu.bytes.length := by
    by_contra hl
    have hp' := hslot (by omega)
    rw [frame_received hl₃] at hp'
    exact hp hp'
  refine .inr ⟨hl₅, ?_⟩
  by_contra hn
  rw [not_or, not_or, not_not, not_not] at hn
  obtain ⟨hlc32, hl, hq⟩ := hn
  have hlc' : apdu.bytes.getD 4 0 = 32 := UInt8.toNat_inj.mp hlc32
  have hf := h (filled 0 0) (filled 1 0)
  rw [frame_received hl₃, frame_received hl₃, frame_received hl₅, frame_received hl₅, hlc'] at hf
  refine hkey _ _ _ (by omega) hq ?_ hf
  exact window_ne (i := 36) (by decide) (by decide) (by decide) (by omega) (by decide) (by decide)

theorem nameCommand_received
    (h : ∀ b b', (getKeyFromNameCommand ((frame apdu b).byteAt 4)
        ((frame apdu b).window 5 x25519PtSize)
        ((frame apdu b).window 37 (((frame apdu b).byteAt 4).toNat - 32)).toList).outcome d =
      (getKeyFromNameCommand ((frame apdu b').byteAt 4) ((frame apdu b').window 5 x25519PtSize)
        ((frame apdu b').window 37 (((frame apdu b').byteAt 4).toNat - 32)).toList).outcome d) :
    5 ≤ apdu.bytes.length ∧ ((apdu.bytes.getD 4 0).toNat ≤ 32 ∨ 52 < (apdu.bytes.getD 4 0).toNat ∨
      5 + (apdu.bytes.getD 4 0).toNat ≤ apdu.bytes.length ∨
        isNameValid (apdu.bytes.drop 37) = false) := by
  have h4 : (4 : ℕ) < ioApduBufferSize := by decide
  have hl₅ : 5 ≤ apdu.bytes.length := by
    by_contra hl
    have hf := h (filled 0 0) (filled 0 33)
    rw [frame_stale h4 (by omega), frame_stale h4 (by omega), filled_byteAt _ _ h4,
      filled_byteAt _ _ h4] at hf
    exact getKeyFromNameCommand_lc _ _ _ _ hf
  refine ⟨hl₅, ?_⟩
  by_contra hn
  rw [not_or, not_or, not_or, not_le, not_lt, not_le, Bool.not_eq_false, isNameValid_drop] at hn
  obtain ⟨hlo, hhi, hl, hv⟩ := hn
  have hf := h (filled 0x20 0) (filled 0 0)
  rw [frame_received hl₅, frame_received hl₅] at hf
  generalize apdu.bytes.getD 4 0 = lc at hlo hhi hl hf
  refine getKeyFromNameCommand_name hlo hhi _ _ ?_ ?_ hf
  · rw [isNameValid_iff]
    intro i hi
    have hi' : 37 + i < ioApduBufferSize := by
      change _ < 260
      omega
    rw [Buf.byteAt_window, if_pos hi, frame_byteAt hi']
    split
    · exact hv _ (by omega) (by assumption)
    · rw [filled_byteAt _ _ hi', if_neg (by omega)]
      decide
  · rw [← Bool.not_eq_true, isNameValid_iff]
    intro hall
    have hi' : 37 + (lc.toNat - 33) < ioApduBufferSize := by
      change _ < 260
      omega
    have hz := hall (lc.toNat - 33) (by omega)
    rw [Buf.byteAt_window, if_pos (by omega), frame_stale hi' (by omega), filled_byteAt _ _ hi',
      if_neg (by omega)] at hz
    revert hz
    decide

/-- An APDU whose effect does not depend on what the buffer held is covered. -/
theorem covered_of_outcome (hne : apdu.bytes ≠ [])
    (h : ∀ b b', (command nv (frame apdu b)).outcome d = (command nv (frame apdu b')).outcome d) :
    Covered nv apdu.bytes := by
  have h1 : (1 : ℕ) < ioApduBufferSize := by decide
  by_cases hc : apdu.bytes.getD 0 0 = cla
  swap
  · exact .inl hc
  have h0 : ∀ b, (frame apdu b).byteAt 0 = cla :=
    fun b => (frame_received (List.length_pos_of_ne_nil hne)).trans hc
  have hl : 2 ≤ apdu.bytes.length := by
    by_contra hl
    have hf := h (filled 0 0) (filled 6 6)
    rw [command_of_cla (h0 _), command_of_cla (h0 _), frame_stale h1 (by omega),
      frame_stale h1 (by omega), filled_byteAt _ _ h1, filled_byteAt _ _ h1] at hf
    change Command.outcome d .getAppConfiguration = Command.outcome d (.fail kplSwUnknownInstr) at hf
    refine sent_ne ?_ hf
    simp only [Command.sent, Command.response]
    decide
  refine .inr ⟨hl, ?_⟩
  have hcmd := fun b => @command_of_cla nv _ (h0 b)
  simp only [frame_received hl] at hcmd
  simp only [hcmd] at h
  generalize (apdu.bytes.getD 1 0).toNat = n at h ⊢
  rcases n with _ | _ | _ | _ | n
  · trivial
  · have hs := slotCommand_received (Q := fun _ => True)
      (fun _ k k' hp => @storeCommand_lc nv _ _ hp k k')
      (fun _ _ _ hp _ hk => @storeCommand_key nv _ _ hp _ _ hk) h
    simpa using hs
  · have hs := slotCommand_received (Q := fun p1 => nv.valid p1.toNat = true)
      (fun _ k k' hp => @getKeyCommand_lc nv _ _ hp k k')
      (fun _ _ _ hp hv hk => @getKeyCommand_pub nv _ _ hp hv _ _ hk) h
    simpa using hs
  · exact nameCommand_received h
  · trivial

end Uncovered

/-- The app acts on the bytes it received alone exactly when the APDU is covered. -/
theorem receivedOnly_iff {sdk : Sdk} {apdu : Apdu} {d : Device} (hnv : sdk.WritesNv)
    (htx : d.tx = 0) (hne : apdu.bytes ≠ []) :
    ReceivedOnly sdk apdu d ↔ Covered d.nStorage apdu.bytes := by
  have hp := @processed_eq sdk apdu d hnv htx hne
  constructor
  · intro h
    refine covered_of_outcome (d := d) hne fun b b' => ?_
    rw [← hp b, ← hp b', h b, h b']
  · intro h b
    have hd := hp d.gIoApduBuffer
    change processed sdk apdu d = _ at hd
    rw [hp b, hd, covered_command h hne]

/-- `STORE_KEY` for slot 0 and a key of 32 fives. -/
def wholeStore : Apdu := ⟨[0xE0, 1, 0, 0, 32] ++ List.replicate 32 5, by decide⟩

theorem receivedOnly_wholeStore : ReceivedOnly plainSdk wholeStore freshDevice :=
  (receivedOnly_iff (fun _ => rfl) rfl (by decide)).mpr
    (.inr ⟨by decide, by decide, .inr ⟨by decide, .inr (by decide)⟩⟩)

/-- The header of `wholeStore` without its key. -/
def truncatedStore : Apdu := ⟨[0xE0, 1, 0, 0, 32], by decide⟩

/-- A device that was sent 260 sevens, which it refused. -/
def litteredDevice : Device :=
  (exec (step ⟨plainSdk, .apdu ⟨List.replicate 260 7, List.length_replicate.le⟩⟩) freshDevice).2

/-- The truncated APDU stores what an earlier one has left in the buffer. -/
theorem truncatedStore_stores_stale :
    (processed plainSdk truncatedStore freshDevice).nStorage.keys 0 = Buf.zeros _ ∧
      (processed plainSdk truncatedStore litteredDevice).nStorage.keys 0 =
        List.Vector.replicate _ 7 ∧
      litteredDevice.setBuffer freshDevice.gIoApduBuffer = freshDevice ∧
      ¬ ReceivedOnly plainSdk truncatedStore litteredDevice := by
  have h₁ : (processed plainSdk truncatedStore freshDevice).nStorage.keys 0 = Buf.zeros _ := by
    decide +kernel
  have h₂ : (processed plainSdk truncatedStore litteredDevice).nStorage.keys 0 =
      List.Vector.replicate _ 7 := by decide +kernel
  have h₃ : litteredDevice.setBuffer freshDevice.gIoApduBuffer = freshDevice := by decide +kernel
  refine ⟨h₁, h₂, h₃, fun h => ?_⟩
  have hs := h freshDevice.gIoApduBuffer
  rw [h₃] at hs
  rw [hs, h₂] at h₁
  revert h₁
  decide

end LedgerKeePass.App
