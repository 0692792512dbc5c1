import LedgerKeePass.AppUser

/-!
# The candidate key of a pending overwrite

`handleStoreKeyConfirmErase` wipes the key it has stored. A prompt that is denied or
superseded leaves the key where it is.
-/
namespace LedgerKeePass.App
open Bytes Program

/-- The prompt on display asks to overwrite a slot. -/
def Device.Overwriting (d : Device) : Prop :=
  d.screen = .approval ∧ d.approveCb = some .handleStoreKeyConfirmErase

/-- The candidate key is all zero unless its prompt is on display. -/
def Device.Clean (d : Device) : Prop :=
  ¬ d.Overwriting → d.storeKeyArgs.key = Buf.zeros kplKeySize

/-- The input does not take away the prompt of a candidate key, unless by storing the key. -/
def Wiped (d : Device) (i : Input) : Prop :=
  d.Overwriting → d.storeKeyArgs.key ≠ Buf.zeros kplKeySize →
    match i.event with
    | .apdu apdu => apdu.bytes ≠ [] →
      match d.commandOf apdu with
      | .ask r => r.callback = .handleStoreKeyConfirmErase
      | .store slot key =>
        (i.sdk.storeKey slot key d.nStorage).1 ≠ .error (.thrown exceptionIoReset)
      | _ => True
    | .approve => ∀ slot : Fin kplSlotCount, d.storeKeyArgs.slot = UInt8.ofNat slot.val →
      (i.sdk.storeKey slot d.storeKeyArgs.key d.nStorage).1 = .ok ()
    | .deny => False
    | .ioReset => False

section Step
variable {sdk : Sdk} {event : Event} {d t u : Device} {r : Request} {apdu : Apdu} {o : Output}
  {i : Input}

theorem Device.Clean.congr (hc : d.Clean) (hs : u.screen = d.screen)
    (hcb : u.approveCb = d.approveCb) (hargs : u.storeKeyArgs = d.storeKeyArgs) : u.Clean := by
  intro hu
  rw [hargs]
  exact hc fun ho => hu ⟨hs.trans ho.1, hcb.trans ho.2⟩

/-- When the prompt is gone and the arguments are as before, the key must have been zero. -/
theorem clean_iff (hc : d.Clean) (hu : ¬ u.Overwriting) (hargs : u.storeKeyArgs = d.storeKeyArgs) :
    u.Clean ↔ (d.Overwriting → d.storeKeyArgs.key ≠ Buf.zeros _ → False) := by
  rw [Device.Clean, hargs]
  constructor
  · intro h _ hk
    exact hk (h hu)
  · intro h _
    by_contra hk
    by_cases ho : d.Overwriting
    · exact h ho hk
    · exact hk (hc ho)

theorem not_overwriting_idle (h : u.screen = .idle) : ¬ u.Overwriting := by
  rintro ⟨hs, -⟩
  rw [h] at hs
  cases hs

theorem not_overwriting_callback (h : u.approveCb = some r.callback)
    (hr : r.callback ≠ .handleStoreKeyConfirmErase) : ¬ u.Overwriting := by
  rintro ⟨-, hcb⟩
  rw [h] at hcb
  exact hr (Option.some.inj hcb)

theorem touchOkay_args {res : Except Abort (Option (List UInt8))} (ha : d.Armed r)
    (h : exec (touchOkay sdk) d = (res, t)) :
    t.storeKeyArgs = r.argsAfter (r.write sdk d.nStorage).1 d.storeKeyArgs := by
  cases hr : r.isKey with
  | true =>
    obtain ⟨b, hk⟩ := @exec_touchOkay_key sdk d r ha hr
    have hargs : r.argsAfter (r.write sdk d.nStorage).1 d.storeKeyArgs = d.storeKeyArgs := by
      cases r with
      | storeKey slot key => cases hr
      | eraseAllSlots => cases hr
      | _ => rfl
    rw [hargs]
    rw [hk] at h
    generalize r.sealed sdk d.nStorage d.seed = s at h
    rcases s with e | _ | ⟨own, cipher⟩
    · by_cases he : e = exceptionIoReset
      · simp only [if_pos he] at h
        cases h
        rfl
      · simp only [if_neg he] at h
        cases h
        rfl
    · cases h
      rfl
    · cases h
      rfl
  | false =>
    rw [exec_touchOkay_write ha hr] at h
    generalize r.argsAfter (r.write sdk d.nStorage).1 d.storeKeyArgs = args at h ⊢
    split at h
    · cases h
      rfl
    · cases h
      rfl

theorem clean_store {slot : Fin kplSlotCount} {key : Key} (hd : d.Ready) (hc : d.Clean)
    (hne : apdu.bytes ≠ []) (hcmd : d.commandOf apdu = .store slot key)
    (h : exec (step ⟨sdk, .apdu apdu⟩) d = (.ok o, u)) :
    u.Clean ↔ Wiped d ⟨sdk, .apdu apdu⟩ := by
  have hr := @exec_receiveApdu_store sdk d apdu _ _ hne hd.tx hcmd
  have he := fun a => @caught_error _ a (@storeKey_ne_undefined sdk slot key d.nStorage)
  have hi := (@storeKey_grows sdk slot key d.nStorage).initialized.trans hd.initialized
  have hw : Wiped d ⟨sdk, .apdu apdu⟩ ↔ (d.Overwriting → d.storeKeyArgs.key ≠ Buf.zeros _ →
      (sdk.storeKey slot key d.nStorage).1 ≠ .error (.thrown exceptionIoReset)) := by
    simp [Wiped, hcmd, hne]
  rw [hw]
  cases hcaught : caught (sdk.storeKey slot key d.nStorage).1 with
  | ok sw =>
    rw [hcaught] at hr
    have hs := @exec_step_ok sdk (.apdu apdu) _ _ _ hr
    rw [hs] at h
    cases h
    refine iff_of_true (hc.congr rfl rfl rfl) fun _ _ hreset => ?_
    rw [hreset] at hcaught
    cases hcaught
  | error a =>
    rw [hcaught] at hr
    obtain ⟨hret, rfl | rfl⟩ := he a hcaught
    · have hs := @exec_step_reset sdk (.apdu apdu) _ _ hr hi
      rw [hs] at h
      cases h
      refine (clean_iff hc (not_overwriting_idle ?_) ?_).trans ?_
      · rfl
      · rfl
      · simp [hret]
    · have hs := @exec_step_powerLoss sdk (.apdu apdu) _ _ hr
      rw [hs] at h
      cases h

theorem clean_apdu (hd : d.Ready) (hc : d.Clean)
    (h : exec (step ⟨sdk, .apdu apdu⟩) d = (.ok o, u)) :
    u.Clean ↔ Wiped d ⟨sdk, .apdu apdu⟩ := by
  by_cases hne : apdu.bytes = []
  · have hs := @exec_step_ok sdk (.apdu apdu) _ _ _ (exec_receiveApdu_nil hne hd.tx)
    rw [hs] at h
    cases h
    exact iff_of_true (hc.congr rfl rfl rfl) fun _ _ h => absurd hne h
  cases hcmd : d.commandOf apdu with
  | store slot key => exact clean_store hd hc hne hcmd h
  | ask r =>
    rw [exec_step_ask hd hne hcmd] at h
    cases h
    have hw : Wiped d ⟨sdk, .apdu apdu⟩ ↔ (d.Overwriting → d.storeKeyArgs.key ≠ Buf.zeros _ →
        r.callback = .handleStoreKeyConfirmErase) := by
      simp [Wiped, hcmd, hne]
    rw [hw]
    by_cases hr : r.callback = .handleStoreKeyConfirmErase
    · refine iff_of_true (fun hu => absurd ⟨rfl, ?_⟩ hu) fun _ _ => hr
      change some r.callback = _
      rw [hr]
    · have hargs : (d.asking apdu r).storeKeyArgs = d.storeKeyArgs := by
        cases r with
        | storeKey slot key => exact absurd rfl hr
        | _ => rfl
      rw [clean_iff hc (not_overwriting_callback rfl hr) hargs]
      simp [hr]
  | _ =>
    rw [exec_step_command hd hne hcmd (by simp [Command.isStore])] at h
    cases h
    exact iff_of_true (hc.congr rfl rfl rfl) (by simp [Wiped, hcmd])

/-- The condition on an approve press for an overwriting that is armed. -/
theorem wiped_approve_iff {slot : Fin kplSlotCount} {key : Key} (ha : d.Armed (.storeKey slot key)) :
    Wiped d ⟨sdk, .approve⟩ ↔ (d.Overwriting → d.storeKeyArgs.key ≠ Buf.zeros _ →
      (sdk.storeKey slot key d.nStorage).1 = .ok ()) := by
  have hkey : d.storeKeyArgs.key = key := by rw [ha.2]
  have hslot : d.storeKeyArgs.slot = UInt8.ofNat slot.val := by rw [ha.2]
  constructor
  · intro h ho hk
    have hs := h ho hk slot hslot
    rwa [hkey] at hs
  · intro h ho hk slot' hslot'
    have he : slot' = slot := by
      apply Fin.ext
      rw [← ofNat_slot_toNat slot', ← hslot', hslot, ofNat_slot_toNat]
    rw [he]
    dsimp only
    rw [hkey]
    exact h ho hk

/-- What an approve press leaves in the arguments is what `touch_okay` left there. -/
theorem step_touchOkay_args (hd : d.Ready) (hs : d.screen = .approval)
    (h : exec (step ⟨sdk, .approve⟩) d = (.ok o, u)) :
    ∃ res t, exec (touchOkay sdk) d = (res, t) ∧ u.screen = .idle ∧ u.storeKeyArgs = t.storeKeyArgs := by
  obtain ⟨reply, -, hr⟩ := step_reacts hd h
  cases hr with
  | ignored hs' he => exact absurd hs hs'
  | approved hs ha hf ht hi => exact ⟨_, _, ht, hi, rfl⟩
  | resetApproval hs ha hf ht => exact ⟨_, _, ht, rfl, rfl⟩

theorem clean_approve (hd : d.Ready) (hc : d.Clean) (hs : d.screen = .approval)
    (h : exec (step ⟨sdk, .approve⟩) d = (.ok o, u)) : u.Clean ↔ Wiped d ⟨sdk, .approve⟩ := by
  obtain ⟨r, ha, -⟩ := hd.pending hs
  have hcb := ha.callback
  obtain ⟨res, t, ht, hidle, hargs⟩ := step_touchOkay_args hd hs h
  have hu := not_overwriting_idle hidle
  rw [touchOkay_args ha ht] at hargs
  cases r with
  | storeKey slot key =>
    rw [wiped_approve_iff ha]
    cases hres : (sdk.storeKey slot key d.nStorage).1 with
    | ok v =>
      refine iff_of_true (fun _ => ?_) fun _ _ => rfl
      rw [hargs, Request.write, hres]
      rfl
    | error a =>
      rw [Request.write, hres] at hargs
      refine (clean_iff hc hu hargs).trans ?_
      simp
  | _ =>
    have hnot : ¬ d.Overwriting := not_overwriting_callback hcb (by simp [Request.callback])
    exact iff_of_true ((clean_iff hc hu hargs).mpr fun ho => absurd ho hnot) fun ho => absurd ho hnot

/-- A step from a clean device leaves it clean exactly when it does not take a candidate
key's prompt away. -/
theorem step_clean_iff (hd : d.Ready) (hc : d.Clean) (h : exec (step i) d = (.ok o, u)) :
    u.Clean ↔ Wiped d i := by
  obtain ⟨sdk, event⟩ := i
  have hignored (he : event = .approve ∨ event = .deny) (hs : d.screen ≠ .approval) :
      u.Clean ↔ Wiped d ⟨sdk, event⟩ := by
    rw [exec_step_ok (exec_react_ignored hs he)] at h
    cases h
    exact iff_of_true hc fun ho => absurd ho.1 hs
  cases event with
  | apdu apdu => exact clean_apdu hd hc h
  | approve =>
    by_cases hs : d.screen = .approval
    · exact clean_approve hd hc hs h
    · exact hignored (.inl rfl) hs
  | deny =>
    by_cases hs : d.screen = .approval
    · rw [exec_step_ok ((exec_react_deny hs).trans exec_touchDeny)] at h
      cases h
      refine clean_iff hc (not_overwriting_idle ?_) ?_
      · rfl
      · rfl
    · exact hignored (.inr rfl) hs
  | ioReset =>
    rw [exec_step_reset rfl hd.initialized] at h
    cases h
    refine clean_iff hc (not_overwriting_idle ?_) ?_
    · rfl
    · rfl

end Step

theorem started_clean {d : Device} (hd : Started d) : d.Clean := by
  obtain ⟨nv, seed, -, rfl⟩ := started_eq hd
  exact fun _ => rfl

/-- In every run whose inputs do not take a candidate key's prompt away, the candidate key
is wiped whenever its prompt is not on display. Such inputs are the only ones that leave a
clean device clean. -/
theorem candidate_wiped {d t : Device} {tr : List (Input × Output)} (hd : Started d)
    (h : Run step Wiped d tr t) :
    t.Clean ∧ ∀ i o u, exec (step i) t = (.ok o, u) → (u.Clean ↔ Wiped t i) := by
  have hinv : t.Ready ∧ t.Clean := by
    refine h.invariant (I := fun t => t.Ready ∧ t.Clean) ⟨started_ready hd, started_clean hd⟩ ?_
    rintro t i o u ⟨hr, hc⟩ hw he
    exact ⟨step_ready hr he, (step_clean_iff hr hc he).mpr hw⟩
  exact ⟨hinv.2, fun i o u he => step_clean_iff hinv.1 hinv.2 he⟩

/-- `STORE_KEY` for slot 3 and a key of 32 fives. -/
def overwriteSlot : Apdu := ⟨[0xE0, 1, 3, 0, 32] ++ List.replicate 32 5, by decide⟩

/-- Denying the overwriting of a filled slot leaves the candidate key in memory. -/
theorem denied_overwrite_lingers :
    ∃ t, Run step (fun _ _ => True) filledDevice
        [(⟨plainSdk, .apdu overwriteSlot⟩, ⟨none, some (ascii "Slot #3 already set.", ascii "Erase?")⟩),
          (⟨plainSdk, .deny⟩, ⟨some [0x68, 0x20], none⟩)] t ∧
      t.screen = .idle ∧ t.storeKeyArgs.key = List.Vector.replicate _ 5 ∧ ¬ t.Clean := by
  have h : ∀ t : Device, t.screen = .idle → t.storeKeyArgs.key = List.Vector.replicate _ 5 →
      ¬ t.Clean := by
    intro t hs hk hc
    have hz := hc (not_overwriting_idle hs)
    rw [hk] at hz
    revert hz
    decide
  refine ⟨_, Run.next (Run.next (.nil _) trivial (by decide +kernel)) trivial (by decide +kernel),
    by decide +kernel, by decide +kernel, h _ (by decide +kernel) (by decide +kernel)⟩

/-- Approving it wipes the key. -/
theorem candidate_wiped_overwriteSlot :
    let t := (exec (step ⟨plainSdk, .apdu overwriteSlot⟩) filledDevice).2
    t.Clean ∧ ∀ i o u, exec (step i) t = (.ok o, u) → (u.Clean ↔ Wiped t i) :=
  candidate_wiped filledDevice_started
    (Run.next (o := ⟨none, some (ascii "Slot #3 already set.", ascii "Erase?")⟩) (.nil _)
      (fun h => absurd h.1 (by decide +kernel)) (by decide +kernel))

end LedgerKeePass.App
