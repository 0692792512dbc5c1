import LedgerKeePass.AppReady

/-!
# Keys that are not approved stay on the device

Two devices are alike when they differ at most in the keys of some slots and, where this
is asked for, in the seed. They react to the same inputs in lockstep as long as no
approve press is about one of these.
-/
namespace LedgerKeePass.App
open Bytes Program

/-- The device without the keys in `D` and, unless `sameSeed`, without the seed. -/
def Device.blind (D : Finset (Fin kplSlotCount)) (sameSeed : Bool) (d : Device) : Device :=
  { d with
    nStorage := { d.nStorage with
      keys := fun slot => if slot ∈ D then Buf.zeros kplKeySize else d.nStorage.keys slot }
    seed := if sameSeed then d.seed else [] }

/-- Agreement on everything but the keys in `D` and, unless `sameSeed`, the seed. -/
def Alike (D : Finset (Fin kplSlotCount)) (sameSeed : Bool) (s t : Device) : Prop :=
  s.blind D sameSeed = t.blind D sameSeed

/-- An approval is not one of `GET_KEY` for a slot in `D`, nor, when the seeds may differ, one of
`GET_KEY_FROM_NAME`. -/
def Approvable (D : Finset (Fin kplSlotCount)) (sameSeed : Bool) (d : Device) : Prop :=
  (d.approveCb = some .handleGetKeyAfterApprove → ∀ slot ∈ D, d.getKeyArgs.slot.toNat ≠ slot.val) ∧
    (sameSeed = false → d.approveCb ≠ some .handleGetKeyFromNameAfterApprove)

/-- No approve press on a prompt whose approval would reveal what the devices may differ in. -/
def NoSecretApproved (D : Finset (Fin kplSlotCount)) (sameSeed : Bool) (d : Device) (i : Input) :
    Prop :=
  match i.event with
  | .approve => d.screen = .approval → Approvable D sameSeed d
  | _ => True

section Lockstep
variable {D : Finset (Fin kplSlotCount)} {b : Bool} {sdk : Sdk} {α : Type}

/-- Programs that run in lockstep on alike devices. -/
abbrev Blind (D : Finset (Fin kplSlotCount)) (b : Bool) (p : AppM α) : Prop :=
  Lockstep (Alike D b) p p (Alike D b)

theorem Alike.apply {s t : Device} (h : Alike D b s t) (f : Device → α)
    (hf : ∀ d, f (d.blind D b) = f d) : f s = f t := by
  rw [← hf s, h, hf t]

theorem Alike.map {s t : Device} (h : Alike D b s t) (f g : Device → Device)
    (hf : ∀ d, (f d).blind D b = g (d.blind D b)) : Alike D b (f s) (f t) := by
  rw [Alike, hf s, hf t, h]

theorem blind_read {f : Device → α} (hf : ∀ d, f (d.blind D b) = f d) :
    Blind D b (Program.read f : AppM α) :=
  Lockstep.read fun _ _ h => h.apply f hf

theorem blind_update {f : Device → Device} (g : Device → Device)
    (hf : ∀ d, (f d).blind D b = g (d.blind D b)) : Blind D b (Program.update f : AppM Unit) :=
  Lockstep.update fun _ _ h => h.map f g hf

theorem blind_pure (a : α) : Blind D b (pure a : AppM α) := Lockstep.pure a

theorem blind_throw (a : Abort) : Blind D b (throw a : AppM α) := Lockstep.throw a

theorem blind_ofSdk (r : Except UInt16 α) : Blind D b (ofSdk r) := by
  cases r with
  | ok a => exact blind_pure a
  | error e => exact blind_throw _

theorem blind_readBuffer (off len : ℕ) : Blind D b (readBuffer off len) :=
  .bind (blind_read fun _ => rfl) fun _ => .demand _ _

theorem blind_writeBuffer (off : ℕ) (src : List UInt8) : Blind D b (writeBuffer off src) := by
  refine .bind (blind_read fun _ => rfl) fun _ => .bind (.demand _ _) fun buf => ?_
  exact blind_update (fun d => { d with gIoApduBuffer := buf }) fun _ => rfl

theorem blind_setTx (tx : ℕ) : Blind D b (setTx tx) :=
  blind_update (fun d => { d with tx := tx }) fun _ => rfl

theorem blind_setTouchTx (tx : UInt8) : Blind D b (setTouchTx tx) :=
  blind_update (fun d => { d with touchTx := tx }) fun _ => rfl

theorem blind_uiIdle : Blind D b uiIdle :=
  blind_update (fun d => { d with screen := .idle }) fun _ => rfl

theorem apply_blind (w : NvWrite) (d : Device) :
    (d.setStorage (w.apply d.nStorage)).blind D b =
      ((d.blind D b).setStorage (w.apply (d.blind D b).nStorage)).blind D b := by
  cases w with
  | key slot key =>
    simp only [Device.blind, Device.setStorage, NvWrite.apply, Device.mk.injEq,
      InternalStorage.mk.injEq, and_true, true_and]
    refine ⟨?_, by cases b <;> rfl⟩
    funext j
    by_cases hj : j ∈ D
    · rw [if_pos hj, if_pos hj]
    · rw [if_neg hj, if_neg hj]
      by_cases hs : j = slot
      · rw [hs, Function.update_self, Function.update_self]
      · rw [Function.update_of_ne hs, Function.update_of_ne hs, if_neg hj]
  | keyValids v =>
    simp only [Device.blind, Device.setStorage, NvWrite.apply, Device.mk.injEq,
      InternalStorage.mk.injEq, and_true, true_and]
    refine ⟨?_, by cases b <;> rfl⟩
    funext j
    by_cases hj : j ∈ D
    · rw [if_pos hj, if_pos hj]
    · rw [if_neg hj, if_neg hj]
  | storage st =>
    simp only [Device.blind, Device.setStorage, NvWrite.apply, Device.mk.injEq, and_true, true_and]
    cases b <;> rfl

theorem blind_nvmWrite (w : NvWrite) : Blind D b (nvmWrite sdk w) := by
  unfold nvmWrite
  cases sdk.nvmWrite w with
  | written =>
    exact blind_update (fun d => (d.setStorage (w.apply d.nStorage)).blind D b) (apply_blind w)
  | lost => exact blind_pure ()
  | thrown e => exact blind_throw _
  | powerLoss => exact blind_throw _

theorem blind_storeKeySlot (slot : UInt8) (data : Key) : Blind D b (storeKeySlot sdk slot data) := by
  unfold storeKeySlot
  split
  · refine .bind (blind_nvmWrite _) fun _ => .bind (blind_read fun _ => rfl) fun _ => ?_
    exact blind_nvmWrite _
  · exact blind_throw _

theorem blind_nvAppStateInit (force : Bool) : Blind D b (nvAppStateInit sdk force) := by
  refine .bind (blind_read fun _ => rfl) fun _ => .ite ?_ ?_
  · exact blind_nvmWrite _
  · exact blind_pure ()

/-- The key-encrypting code works on the APDU buffer alone. -/
theorem blind_x25519EncryptKPKey (kpkey ownPubkey : ℕ) (callerPubkey : Point) :
    Blind D b (x25519EncryptKPKey sdk kpkey ownPubkey callerPubkey) := by
  refine .bind (blind_ofSdk _) fun priv => .bind (blind_ofSdk _) fun own => ?_
  cases own with
  | none => exact blind_pure false
  | some own =>
    refine .bind (blind_writeBuffer _ _) fun _ => .bind (blind_ofSdk _) fun secret => ?_
    cases secret with
    | none => exact blind_pure false
    | some secret =>
      refine .bind (blind_readBuffer _ _) fun _ => .bind (blind_ofSdk _) fun _ => ?_
      refine .bind (blind_readBuffer _ _) fun _ => .bind (blind_writeBuffer _ _) fun _ => ?_
      exact blind_pure true

theorem blind_catchOther {p : AppM α} {handler : UInt16 → AppM α} {P : Device → Device → Prop}
    (hp : Lockstep P p p (Alike D b)) (hh : ∀ e, Blind D b (handler e)) :
    Lockstep P (catchOther p handler) (catchOther p handler) (Alike D b) := by
  refine .tryCatch hp fun a => ?_
  cases a with
  | thrown e => exact .ite (blind_throw _) (hh e)
  | undefined => exact blind_throw _
  | powerLoss => exact blind_throw _

end Lockstep

section Apdu
variable {D : Finset (Fin kplSlotCount)} {b : Bool} {sdk : Sdk}

theorem perform_blind (c : Command) {s t : Device} (h : Alike D b s t) :
    (perform sdk c s).1 = (perform sdk c t).1 ∧
      Alike D b (perform sdk c s).2 (perform sdk c t).2 := by
  cases c with
  | fail code => exact ⟨rfl, h⟩
  | getAppConfiguration =>
    exact ⟨rfl, h.map (fun d => (perform sdk .getAppConfiguration d).2)
      (fun d => (perform sdk .getAppConfiguration d).2) fun _ => rfl⟩
  | getValidSlots =>
    exact ⟨rfl, h.map (fun d => (perform sdk .getValidSlots d).2)
      (fun d => (perform sdk .getValidSlots d).2) fun _ => rfl⟩
  | store slot key =>
    obtain ⟨h₁, h₂⟩ := @blind_storeKeySlot D b sdk (UInt8.ofNat slot.val) key s t h
    simp only [perform]
    rcases hs : exec (storeKeySlot sdk (UInt8.ofNat slot.val) key) s with ⟨e | u, s'⟩ <;>
      rcases ht : exec (storeKeySlot sdk (UInt8.ofNat slot.val) key) t with ⟨e' | u', t'⟩ <;>
      simp only [hs, ht, Except.error.injEq, reduceCtorEq] at h₁ h₂
    · exact ⟨congrArg Except.error h₁, h₂⟩
    · exact ⟨rfl, h₂.map (fun d => { d with tx := 0 }) (fun d => { d with tx := 0 }) fun _ => rfl⟩
  | badName callerPub =>
    exact ⟨rfl, h.map (fun d => (perform sdk (.badName callerPub) d).2)
      (fun d => (perform sdk (.badName callerPub) d).2) fun _ => rfl⟩
  | ask r =>
    refine ⟨rfl, h.map (fun d => d.ask r) (fun d => d.ask r) fun d => ?_⟩
    cases r <;> rfl

theorem blind_dispatch : Blind D b (dispatch sdk) := by
  intro s t h
  have hc : command s.nStorage s.gIoApduBuffer = command t.nStorage t.gIoApduBuffer :=
    h.apply (fun d => command d.nStorage d.gIoApduBuffer) fun _ => rfl
  rw [exec_dispatch, exec_dispatch, hc]
  exact perform_blind _ h

theorem blind_writeStatus (sw : UInt16) : Blind D b (writeStatus sw) := by
  refine .bind (blind_read fun _ => rfl) fun tx => .bind (blind_writeBuffer _ _) fun _ => ?_
  exact blind_setTx _

theorem blind_clearAsynchReply :
    Blind D b (Program.update fun d => { d with asynchReply := false } : AppM Unit) :=
  blind_update (fun d => { d with asynchReply := false }) fun _ => rfl

theorem blind_appMainBody (rx : ℕ) : Blind D b (appMainBody sdk rx) := by
  refine blind_catchOther ?_ fun e => ?_
  · refine .bind blind_clearAsynchReply fun _ => .ite (blind_throw _) ?_
    exact blind_catchOther blind_dispatch fun _ => blind_writeStatus _
  · refine .ite ?_ ?_
    · exact .bind blind_clearAsynchReply fun _ => blind_writeStatus _
    · exact blind_writeStatus _

theorem blind_ioExchange : Blind D b ioExchange := by
  refine .bind (blind_read fun _ => rfl) fun rx => .bind (blind_setTx 0) fun _ => ?_
  refine .bind (blind_readBuffer _ _) fun reply => .bind (blind_read fun _ => rfl) fun _ => ?_
  exact blind_pure _

theorem blind_receiveApdu (apdu : Apdu) : Blind D b (receiveApdu sdk apdu) := by
  refine .bind (blind_update (fun d => { d with
    gIoApduBuffer := d.gIoApduBuffer.overwrite 0 apdu.bytes }) fun _ => rfl) fun _ => ?_
  exact .bind (blind_appMainBody _) fun _ => blind_ioExchange

end Apdu

section Touch
variable {D : Finset (Fin kplSlotCount)} {b : Bool} {sdk : Sdk}

theorem blind_approveStatus (e : UInt16) : Blind D b (approveStatus e) := by
  refine .bind (blind_read fun _ => rfl) fun tx => .bind (blind_writeBuffer _ _) fun _ => ?_
  refine .bind (blind_writeBuffer _ _) fun _ => .bind (blind_setTouchTx _) fun _ => ?_
  exact .bind (blind_readBuffer _ _) fun _ => blind_pure _

theorem blind_handleStoreKeyConfirmErase : Blind D b (handleStoreKeyConfirmErase sdk) := by
  refine .bind (blind_read fun _ => rfl) fun args => .bind (blind_storeKeySlot _ _) fun _ => ?_
  refine .bind (blind_update (fun d => { d with storeKeyArgs := ⟨Buf.zeros kplKeySize, 0⟩ })
    fun _ => rfl) fun _ => ?_
  exact .bind (blind_setTouchTx 0) fun _ => blind_pure _

theorem blind_handleEraseAllSlotsApprove : Blind D b (handleEraseAllSlotsApprove sdk) :=
  .bind (blind_setTouchTx 0) fun _ => .bind (blind_nvAppStateInit true) fun _ => blind_pure _

theorem blind_answerKey (callerPub : Point) : Blind D b (answerKey sdk callerPub) := by
  refine .bind (blind_x25519EncryptKPKey _ _ _) fun _ => .ite ?_ ?_
  · exact .bind (blind_setTouchTx 64) fun _ => blind_pure _
  · exact .bind blind_uiIdle fun _ => blind_pure _

/-- Reading the key of a slot outside `D`. -/
theorem blind_storedKey (slot : UInt8) (hD : ∀ i ∈ D, slot.toNat ≠ i.val) :
    Blind D b (storedKey slot) := by
  unfold storedKey
  split
  · rename_i h
    refine blind_read fun d => if_neg fun hi => hD _ hi rfl
  · exact blind_throw _

theorem blind_handleGetKeyAfterApprove :
    Lockstep (fun s t => Alike D b s t ∧ ∀ i ∈ D, s.getKeyArgs.slot.toNat ≠ i.val)
      (handleGetKeyAfterApprove sdk) (handleGetKeyAfterApprove sdk) (Alike D b) := by
  refine .read_bind (fun s t h => h.1.apply (fun d => d.getKeyArgs.slot) fun _ => rfl) fun slot => ?_
  have hrest : ∀ key : Key, Blind D b (do
      writeBuffer x25519PtSize key.toList
      let callerPub ← Program.read fun d => d.getKeyArgs.callerPub
      answerKey sdk callerPub : AppM UInt16) := by
    intro key
    refine .bind (blind_writeBuffer _ _) fun _ => .bind (blind_read fun _ => rfl) fun callerPub => ?_
    exact blind_answerKey callerPub
  rintro s t ⟨⟨h, hD⟩, rfl⟩
  exact Lockstep.bind (blind_storedKey _ hD) hrest s t h

theorem blind_handleGetKeyFromNameAfterApprove :
    Blind D true (handleGetKeyFromNameAfterApprove sdk) := by
  refine .bind (blind_read fun _ => rfl) fun args => .bind (.demand _ _) fun name => ?_
  refine .bind (blind_ofSdk _) fun hashName => .bind (blind_read fun _ => rfl) fun seed => ?_
  refine .bind (blind_ofSdk _) fun tmp => .bind (blind_ofSdk _) fun key => ?_
  refine .bind (blind_writeBuffer _ _) fun _ => .bind (blind_read fun _ => rfl) fun callerPub => ?_
  exact blind_answerKey callerPub

theorem blind_runCallback (cb : ApproveCallback) :
    Lockstep (fun s t => (Alike D b s t ∧ Approvable D b s) ∧ s.approveCb = some cb)
      (runCallback sdk cb) (runCallback sdk cb) (Alike D b) := by
  cases cb with
  | handleStoreKeyConfirmErase =>
    exact blind_handleStoreKeyConfirmErase.weaken fun _ _ h => h.1.1
  | handleGetKeyAfterApprove =>
    exact blind_handleGetKeyAfterApprove.weaken fun _ _ h => ⟨h.1.1, h.1.2.1 h.2⟩
  | handleGetKeyFromNameAfterApprove =>
    cases b with
    | true => exact blind_handleGetKeyFromNameAfterApprove.weaken fun _ _ h => h.1.1
    | false =>
      rintro s t ⟨⟨-, hap⟩, hcb⟩
      exact absurd hcb (hap.2 rfl)
  | handleEraseAllSlotsApprove =>
    exact blind_handleEraseAllSlotsApprove.weaken fun _ _ h => h.1.1

theorem blind_touchOkay :
    Lockstep (fun s t => Alike D b s t ∧ Approvable D b s) (touchOkay sdk) (touchOkay sdk)
      (Alike D b) := by
  have hcall : Lockstep (fun s t => Alike D b s t ∧ Approvable D b s) (callApproveCb sdk)
      (callApproveCb sdk) (Alike D b) := by
    refine .read_bind (fun s t h => h.1.apply (fun d => d.approveCb) fun _ => rfl) fun cb => ?_
    cases cb with
    | none => exact (blind_throw Abort.undefined).weaken fun _ _ h => h.1.1
    | some cb =>
      change Lockstep _ (runCallback sdk cb >>= fun ret => throw (.thrown ret))
        (runCallback sdk cb >>= fun ret => throw (.thrown ret)) _
      exact .bind (blind_runCallback cb) fun ret => blind_throw _
  intro s t h
  rw [touchOkay, setTouchTx, exec_bind_ok (exec_update _ _), exec_bind_ok (exec_update _ _)]
  have hbind := Lockstep.bind (blind_catchOther hcall blind_approveStatus) fun reply =>
    .bind blind_uiIdle fun _ => blind_pure reply
  refine hbind _ _ ⟨?_, h.2⟩
  exact h.1.map (fun d => { d with touchTx := 0 }) (fun d => { d with touchTx := 0 }) fun _ => rfl

theorem blind_touchDeny : Blind D b touchDeny := by
  refine .bind (blind_writeBuffer _ _) fun _ => .bind (blind_writeBuffer _ _) fun _ => ?_
  exact .bind (blind_readBuffer _ _) fun _ => .bind blind_uiIdle fun _ => blind_pure _

end Touch

section Step
variable {D : Finset (Fin kplSlotCount)} {b : Bool} {sdk : Sdk}

theorem blind_mainBody : Blind D b (mainBody sdk) := by
  refine .bind (blind_nvAppStateInit false) fun _ => .bind blind_uiIdle fun _ => ?_
  exact .bind (blind_setTx 0) fun _ => blind_clearAsynchReply

theorem blind_react (event : Event) :
    Lockstep (fun s t => Alike D b s t ∧ NoSecretApproved D b s ⟨sdk, event⟩) (react sdk event)
      (react sdk event) (Alike D b) := by
  cases event with
  | apdu apdu => exact (blind_receiveApdu apdu).weaken fun _ _ h => h.1
  | approve =>
    refine .read_bind (fun s t h => h.1.apply (fun d => d.screen) fun _ => rfl) fun screen => ?_
    split
    · rename_i hs
      exact blind_touchOkay.weaken fun s t h => ⟨h.1.1, h.1.2 (h.2.trans hs)⟩
    · exact (blind_pure none).weaken fun _ _ h => h.1.1
  | deny =>
    refine .read_bind (fun s t h => h.1.apply (fun d => d.screen) fun _ => rfl) fun screen => ?_
    split
    · exact blind_touchDeny.weaken fun _ _ h => h.1.1
    · exact (blind_pure none).weaken fun _ _ h => h.1.1
  | ioReset => exact (blind_throw _).weaken fun _ _ h => h.1

/-- Alike devices take every step in lockstep, the outputs being the same. -/
theorem blind_step (i : Input) :
    Lockstep (fun s t => Alike D b s t ∧ NoSecretApproved D b s i) (step i) (step i)
      (Alike D b) := by
  refine .bind (.tryCatch (blind_react i.event) fun a => ?_) fun reply => ?_
  · cases a with
    | thrown e =>
      refine .ite ?_ (blind_throw _)
      exact .bind blind_mainBody fun _ => blind_pure none
    | undefined => exact blind_throw _
    | powerLoss => exact blind_throw _
  · exact .bind (blind_read fun _ => rfl) fun _ => blind_pure _

end Step

/-- Two devices that differ at most in the keys of `D` and, where allowed, the seed give
the same replies and show the same texts to the same inputs, as long as no approval is
about what they differ in. They even stop alike. -/
theorem runs_noninterfering {D : Finset (Fin kplSlotCount)} {sameSeed : Bool} {s t s' : Device}
    {tr : List (Input × Output)} (hst : Alike D sameSeed s t)
    (h : Run step (NoSecretApproved D sameSeed) s tr s') :
    ∃ t', Run step (fun _ _ => True) t tr t' ∧ Alike D sameSeed s' t' ∧
      ∀ i, NoSecretApproved D sameSeed s' i → (exec (step i) s').1 = (exec (step i) t').1 := by
  obtain ⟨t', ht, hst'⟩ := h.lockstep hst blind_step
  exact ⟨t', ht, hst', fun i hi => (blind_step i s' t' ⟨hst', hi⟩).1⟩

/-- A device whose slot 0 holds `key`. -/
def holding (key : Key) : Device :=
  powerUp ⟨Function.update (fun _ => Buf.zeros _) 0 key, 1, 1⟩ []

theorem holding_alike (key key' : Key) : Alike {0} true (holding key) (holding key') := by
  simp only [Alike, Device.blind, holding, powerUp, Device.mk.injEq, InternalStorage.mk.injEq,
    and_true, true_and]
  funext slot
  by_cases hs : slot = 0
  · subst hs
    rfl
  · rw [if_neg (by simpa using hs), if_neg (by simpa using hs), Function.update_of_ne hs,
      Function.update_of_ne hs]

def getSlotZero : Input :=
  ⟨plainSdk, .apdu ⟨[0xE0, 2, 0, 0, 32] ++ List.replicate 32 7, by decide⟩⟩

/-- The device after a refused request for its slot 0. -/
def refused (d : Device) : Device :=
  (exec (step ⟨plainSdk, .deny⟩) (exec (step getSlotZero) d).2).2

/-- A refused `GET_KEY` tells nothing of the key. -/
theorem runs_noninterfering_refused :
    ∃ t, Run step (fun _ _ => True) (holding (Buf.zeros _))
        [(getSlotZero, ⟨none, some (ascii "Database open slot", ascii "Slot #0")⟩),
          (⟨plainSdk, .deny⟩, ⟨some [0x68, 0x20], none⟩)] t ∧
      Alike {0} true (refused (holding (List.Vector.replicate _ 1))) t ∧
      ∀ i, NoSecretApproved {0} true (refused (holding (List.Vector.replicate _ 1))) i →
        (exec (step i) (refused (holding (List.Vector.replicate _ 1)))).1 = (exec (step i) t).1 :=
  runs_noninterfering (D := {0}) (s := holding (List.Vector.replicate _ 1))
    (holding_alike _ _)
    (((Run.nil _).next trivial (by decide +kernel)).next trivial (by decide +kernel))

end LedgerKeePass.App
