import LedgerKeePass.AppTouch

/-!
# Devices between two events

`Ready` is the invariant of the app while it waits for an event: what is on display is
the request that an approve press would serve. `Reacts` lists how a step from a ready
device can go, and no step but one that loses power can fail.
-/
namespace LedgerKeePass.App
open Bytes Program

/-- What is known of the name of a request that was asked. -/
def Request.Proper : Request → Prop
  | .getKeyFromName name _ => name.length ≤ kplMaxNameSize ∧ isNameValid name = true
  | _ => True

/-- The texts on display are those of the request. -/
def Device.Shows (d : Device) (r : Request) : Prop :=
  d.approveLine1.cString = r.line1 ∧ d.approveLine2.cString = r.line2

structure Device.Ready (d : Device) : Prop where
  tx : d.tx = 0
  initialized : d.nStorage.initialized = 0x01
  pending : d.screen = .approval → ∃ r, d.Armed r ∧ d.Shows r ∧ r.Proper

/-- The command of an APDU, read together with what the buffer held behind it. -/
def Device.commandOf (d : Device) (apdu : Apdu) : Command :=
  command d.nStorage (d.receive apdu).gIoApduBuffer

/-- The steps of a ready device that do not lose power. -/
inductive Reacts (sdk : Sdk) (d : Device) : Event → Option (List UInt8) → Device → Prop
  | empty {apdu : Apdu} (he : apdu.bytes = []) :
      Reacts sdk d (.apdu apdu) (some (statusBytes 0x6982))
        ((d.receive apdu).answer (statusBytes 0x6982))
  | command {apdu : Apdu} (hne : apdu.bytes ≠ [])
      (hnv : (d.commandOf apdu).isStore = true → sdk.WritesNv) :
      Reacts sdk d (.apdu apdu) ((d.commandOf apdu).sent d.nStorage)
        (((d.commandOf apdu).effect (d.receive apdu)).answer ((d.commandOf apdu).response d.nStorage))
  | faultyStore {apdu : Apdu} {nv : InternalStorage} (sw : UInt16) (hne : apdu.bytes ≠ [])
      (hc : (d.commandOf apdu).isStore = true) (hnv : ¬ sdk.WritesNv) (hg : d.nStorage.Grows nv) :
      Reacts sdk d (.apdu apdu) (some (statusBytes sw))
        (((d.receive apdu).setStorage nv).answer (statusBytes sw))
  | resetStore {apdu : Apdu} {nv : InternalStorage} (hne : apdu.bytes ≠ [])
      (hc : (d.commandOf apdu).isStore = true) (hnv : ¬ sdk.WritesNv) (hg : d.nStorage.Grows nv) :
      Reacts sdk d (.apdu apdu) none ((d.receive apdu).setStorage nv).restart
  | ignored {event : Event} (hs : d.screen ≠ .approval) (he : event = .approve ∨ event = .deny) :
      Reacts sdk d event none d
  | approved {r : Request} {reply : List UInt8} {t : Device} (hs : d.screen = .approval)
      (ha : d.Armed r) (hf : TouchFrame r d t)
      (ht : exec (touchOkay sdk) d = (.ok (some reply), t)) (hi : t.screen = .idle) :
      Reacts sdk d .approve (some reply) t
  | resetApproval {r : Request} {t : Device} (hs : d.screen = .approval) (ha : d.Armed r)
      (hf : TouchFrame r d t)
      (ht : exec (touchOkay sdk) d = (.error (.thrown exceptionIoReset), t)) :
      Reacts sdk d .approve none t.restart
  | denied (hs : d.screen = .approval) :
      Reacts sdk d .deny (some (statusBytes kplSwUnauthorizedAccess))
        (d.approved (statusBytes kplSwUnauthorizedAccess) d.touchTx)
  | reset : Reacts sdk d .ioReset none d.restart

section Step
variable {sdk : Sdk} {event : Event} {d t u : Device} {reply : Option (List UInt8)} {o : Output}

theorem exec_step_ok (h : exec (react sdk event) d = (.ok reply, t)) :
    exec (step ⟨sdk, event⟩) d = (.ok ⟨reply, t.display⟩, t) := by
  rw [step, exec_bind, exec_tryCatch]
  simp only [h]
  rfl

/-- An IO reset that was thrown is caught by the loop of `main`. -/
theorem exec_step_reset (h : exec (react sdk event) d = (.error (.thrown exceptionIoReset), t))
    (hi : t.nStorage.initialized = 0x01) :
    exec (step ⟨sdk, event⟩) d = (.ok ⟨none, t.restart.display⟩, t.restart) := by
  rw [step, exec_bind, exec_tryCatch]
  simp only [h, if_true]
  rw [exec_bind_ok (exec_mainBody hi)]
  rfl

theorem exec_step_powerLoss (h : exec (react sdk event) d = (.error .powerLoss, t)) :
    exec (step ⟨sdk, event⟩) d = (.error .powerLoss, t) := by
  rw [step, exec_bind, exec_tryCatch]
  simp only [h]
  rfl

theorem exec_react_approve (hs : d.screen = .approval) :
    exec (react sdk .approve) d = exec (touchOkay sdk) d := by
  rw [react, exec_bind_ok (exec_read _ _), exec_ite, if_pos hs]

theorem exec_react_deny (hs : d.screen = .approval) :
    exec (react sdk .deny) d = exec touchDeny d := by
  rw [react, exec_bind_ok (exec_read _ _), exec_ite, if_pos hs]

theorem exec_react_ignored (hs : d.screen ≠ .approval) (he : event = .approve ∨ event = .deny) :
    exec (react sdk event) d = (.ok none, d) := by
  rcases he with rfl | rfl <;> rw [react, exec_bind_ok (exec_read _ _), exec_ite, if_neg hs] <;> rfl

/-- What an APDU does to a ready device. -/
theorem apdu_cases (hd : d.Ready) (sdk : Sdk) (apdu : Apdu) :
    (∃ reply u, exec (step ⟨sdk, .apdu apdu⟩) d = (.ok ⟨reply, u.display⟩, u) ∧
      Reacts sdk d (.apdu apdu) reply u) ∨
    ∃ u, exec (step ⟨sdk, .apdu apdu⟩) d = (.error .powerLoss, u) ∧ ¬ sdk.WritesNv := by
  by_cases hne : apdu.bytes = []
  · exact .inl ⟨_, _, exec_step_ok (exec_receiveApdu_nil hne hd.tx), .empty hne⟩
  by_cases hnv : (d.commandOf apdu).isStore = true → sdk.WritesNv
  · exact .inl ⟨_, _, exec_step_ok (exec_receiveApdu hne hd.tx hnv), .command hne hnv⟩
  rw [Classical.not_imp] at hnv
  obtain ⟨slot, key, hc⟩ := isStore_eq hnv.1
  have h := @exec_receiveApdu_store sdk d apdu _ _ hne hd.tx hc
  have hg := @storeKey_grows sdk slot key d.nStorage
  have he := fun a => @caught_error (sdk.storeKey slot key d.nStorage).1 a
    (storeKey_ne_undefined _ _ _)
  generalize caught (sdk.storeKey slot key d.nStorage).1 = c at h he
  rcases c with a | sw
  · rcases (he a rfl).2 with rfl | rfl
    · exact .inl ⟨_, _, exec_step_reset h (hg.initialized.trans hd.initialized),
        .resetStore hne hnv.1 hnv.2 hg⟩
    · exact .inr ⟨_, exec_step_powerLoss h, hnv.2⟩
  · exact .inl ⟨_, _, exec_step_ok h, .faultyStore sw hne hnv.1 hnv.2 hg⟩

theorem approve_cases (hd : d.Ready) (sdk : Sdk) (hs : d.screen = .approval) :
    (∃ reply u, exec (step ⟨sdk, .approve⟩) d = (.ok ⟨reply, u.display⟩, u) ∧
      Reacts sdk d .approve reply u) ∨
    ∃ u, exec (step ⟨sdk, .approve⟩) d = (.error .powerLoss, u) ∧ ¬ sdk.WritesNv := by
  obtain ⟨r, ha, -⟩ := hd.pending hs
  have hreact := @exec_react_approve sdk d hs
  obtain ⟨t, hf, ⟨reply, ht, hi⟩ | ⟨a, ht, rfl | rfl⟩⟩ := @touchOkay_frame sdk d r ha
  · exact .inl ⟨_, _, exec_step_ok (hreact.trans ht), .approved hs ha hf ht hi⟩
  · exact .inl ⟨_, _, exec_step_reset (hreact.trans ht) (hf.initialized hd.initialized),
      .resetApproval hs ha hf ht⟩
  · refine .inr ⟨t, exec_step_powerLoss (hreact.trans ht), fun hnv => ?_⟩
    exact touchOkay_powered hnv ha ht

/-- Every step of a ready device goes one of the ways of `Reacts` or loses power. -/
theorem step_cases (hd : d.Ready) (sdk : Sdk) (event : Event) :
    (∃ reply u, exec (step ⟨sdk, event⟩) d = (.ok ⟨reply, u.display⟩, u) ∧
      Reacts sdk d event reply u) ∨
    ∃ u, exec (step ⟨sdk, event⟩) d = (.error .powerLoss, u) ∧ ¬ sdk.WritesNv := by
  cases event with
  | apdu apdu => exact apdu_cases hd sdk apdu
  | approve =>
    by_cases hs : d.screen = .approval
    · exact approve_cases hd sdk hs
    · exact .inl ⟨_, _, exec_step_ok (exec_react_ignored hs (.inl rfl)), .ignored hs (.inl rfl)⟩
  | deny =>
    by_cases hs : d.screen = .approval
    · exact .inl ⟨_, _, exec_step_ok ((exec_react_deny hs).trans exec_touchDeny), .denied hs⟩
    · exact .inl ⟨_, _, exec_step_ok (exec_react_ignored hs (.inr rfl)), .ignored hs (.inr rfl)⟩
  | ioReset => exact .inl ⟨_, _, exec_step_reset rfl hd.initialized, .reset⟩

/-- The step that was taken went one of the ways of `Reacts`. -/
theorem step_reacts (hd : d.Ready) (h : exec (step ⟨sdk, event⟩) d = (.ok o, u)) :
    ∃ reply, o = ⟨reply, u.display⟩ ∧ Reacts sdk d event reply u := by
  obtain ⟨reply, u', hs, hr⟩ | ⟨u', hs, -⟩ := step_cases hd sdk event
  · rw [hs] at h
    cases h
    exact ⟨reply, rfl, hr⟩
  · rw [hs] at h
    cases h

/-- With a working persistent storage no step fails. -/
theorem step_total (hd : d.Ready) (hnv : sdk.WritesNv) (event : Event) :
    ∃ o u, exec (step ⟨sdk, event⟩) d = (.ok o, u) := by
  obtain ⟨reply, u, hs, -⟩ | ⟨u, -, hn⟩ := step_cases hd sdk event
  · exact ⟨_, u, hs⟩
  · exact absurd hnv hn

end Step

section Ready
variable {sdk : Sdk} {event : Event} {d u : Device} {reply : Option (List UInt8)} {r : Request}

/-- A request is asked for well-formed names and occupied slots only. -/
theorem command_ask {nv : InternalStorage} {f : Buf ioApduBufferSize} (h : command nv f = .ask r) :
    r.Proper ∧ ∀ slot callerPub, r = .getKey slot callerPub → nv.valid slot.val = true := by
  unfold command at h
  split at h
  · cases h
  split at h
  · cases h
  · unfold storeCommand at h
    split at h
    · split at h
      · cases h
        exact ⟨trivial, by simp⟩
      · cases h
    · cases h
  · unfold getKeyCommand at h
    split at h
    · split at h
      · rename_i hv
        cases h
        exact ⟨trivial, by rintro _ _ ⟨⟩; exact hv⟩
      · cases h
    · cases h
  · unfold getKeyFromNameCommand at h
    split at h
    · rename_i hl
      split at h
      · rename_i hv
        cases h
        refine ⟨⟨?_, hv⟩, by simp⟩
        rw [List.Vector.toList_length]
        simp only [x25519PtSize] at hl
        omega
      · cases h
    · cases h
  · cases h
  · cases h
    exact ⟨trivial, by simp⟩
  · cases h

theorem ask_armed (hp : r.Proper)
    (hv : ∀ slot callerPub, r = .getKey slot callerPub → d.nStorage.valid slot.val = true) :
    (d.ask r).Armed r := by
  cases r with
  | storeKey slot key => exact ⟨rfl, rfl⟩
  | getKey slot callerPub => exact ⟨rfl, rfl, hv slot callerPub rfl⟩
  | getKeyFromName name callerPub =>
    refine ⟨rfl, rfl, rfl, ?_, hp.1⟩
    have hl : (seedPrefix ++ name).length = seedPrefixLen + name.length := by
      rw [List.length_append]
      rfl
    have hle : 0 + (seedPrefix ++ name).length ≤ seedPrefixLen + kplMaxNameSize := by
      have := hp.1
      omega
    have hw := d.getKeyFromNameArgs.name.window_overwrite_toList hle
    rw [hl] at hw
    exact hw
  | eraseAllSlots => exact rfl

theorem isNameValid_ne_zero {name : List UInt8} (h : isNameValid name = true) :
    (0 : UInt8) ∉ name := by
  intro h0
  have h1 := List.all_eq_true.mp h 0 h0
  revert h1
  decide

theorem digit_ne_zero (slot : Fin kplSlotCount) : Request.digit slot ≠ 0 := by
  revert slot
  decide

/-- The texts of a proper request are short and hold no NUL. -/
theorem line1_fits (r : Request) : r.line1.length < 32 ∧ (0 : UInt8) ∉ r.line1 := by
  cases r with
  | storeKey slot key =>
    have hl : (Request.storeKey slot key).line1.length = 20 := rfl
    refine ⟨by omega, ?_⟩
    rw [Request.line1, List.mem_append, List.mem_append, List.mem_singleton]
    rintro ((h | h) | h)
    · revert h
      decide
    · exact digit_ne_zero slot h.symm
    · revert h
      decide
  | _ => exact ⟨by rw [Request.line1]; decide, by rw [Request.line1]; decide⟩

theorem line2_fits (hp : r.Proper) : r.line2.length < 32 ∧ (0 : UInt8) ∉ r.line2 := by
  cases r with
  | getKey slot callerPub =>
    have hl : (Request.getKey slot callerPub).line2.length = 7 := rfl
    refine ⟨by omega, ?_⟩
    rw [Request.line2, List.mem_append, List.mem_singleton]
    rintro (h | h)
    · revert h
      decide
    · exact digit_ne_zero slot h.symm
  | getKeyFromName name callerPub =>
    have hl : name.length ≤ 20 := hp.1
    refine ⟨?_, ?_⟩
    · simp only [Request.line2, List.length_append, List.length_cons, List.length_nil]
      omega
    · rw [Request.line2, List.mem_append, List.mem_append, List.mem_singleton]
      rintro ((h | h) | h)
      · cases h
      · exact isNameValid_ne_zero hp.2 h
      · cases h
  | _ => exact ⟨by rw [Request.line2]; decide, by rw [Request.line2]; decide⟩

theorem ask_shows (hp : r.Proper) : (d.ask r).Shows r := by
  obtain ⟨h₁, h₁'⟩ := line1_fits r
  obtain ⟨h₂, h₂'⟩ := line2_fits hp
  constructor
  · rw [Device.ask]
    exact Buf.cString_overwrite _ h₁ h₁'
  · rw [Device.ask]
    exact Buf.cString_overwrite _ h₂ h₂'

end Ready

section Prompt
variable {sdk : Sdk} {event : Event} {d t u : Device} {reply : Option (List UInt8)} {r : Request}

/-- The callback, its arguments and the texts are the same in two devices. -/
structure SamePrompt (d t : Device) : Prop where
  approveCb : t.approveCb = d.approveCb
  storeKeyArgs : t.storeKeyArgs = d.storeKeyArgs
  getKeyArgs : t.getKeyArgs = d.getKeyArgs
  getKeyFromNameArgs : t.getKeyFromNameArgs = d.getKeyFromNameArgs
  approveLine1 : t.approveLine1 = d.approveLine1
  approveLine2 : t.approveLine2 = d.approveLine2

theorem InternalStorage.Grows.refl (nv : InternalStorage) : nv.Grows nv :=
  ⟨rfl, fun _ h => h⟩

theorem store_grows (nv : InternalStorage) (slot : Fin kplSlotCount) (key : Key) :
    nv.Grows (nv.store slot key) :=
  grows_or nv _ _

/-- An approve press serves what the callback and its own arguments say. -/
theorem Device.Armed.congr (ha : d.Armed r) (hg : d.nStorage.Grows t.nStorage)
    (hcb : t.approveCb = d.approveCb)
    (hs : d.approveCb = some .handleStoreKeyConfirmErase → t.storeKeyArgs = d.storeKeyArgs)
    (hk : d.approveCb = some .handleGetKeyAfterApprove → t.getKeyArgs = d.getKeyArgs)
    (hn : d.approveCb = some .handleGetKeyFromNameAfterApprove →
      t.getKeyFromNameArgs = d.getKeyFromNameArgs) : t.Armed r := by
  cases r with
  | storeKey slot key => exact ⟨hcb.trans ha.1, (hs ha.1).trans ha.2⟩
  | getKey slot callerPub => exact ⟨hcb.trans ha.1, (hk ha.1).trans ha.2.1, hg.valid _ ha.2.2⟩
  | getKeyFromName name callerPub =>
    rw [Device.Armed, hcb, hn ha.1]
    exact ha
  | eraseAllSlots => exact hcb.trans ha

theorem SamePrompt.armed (h : SamePrompt d t) (hg : d.nStorage.Grows t.nStorage)
    (ha : d.Armed r) : t.Armed r :=
  ha.congr hg h.approveCb (fun _ => h.storeKeyArgs) (fun _ => h.getKeyArgs)
    fun _ => h.getKeyFromNameArgs

theorem SamePrompt.shows (h : SamePrompt d t) (hs : d.Shows r) : t.Shows r := by
  rw [Device.Shows, h.approveLine1, h.approveLine2]
  exact hs

/-- A new caller key in the arguments of `handleGetKeyFromName`, whatever is pending. -/
def Request.setCallerPub (callerPub : Point) : Request → Request
  | .getKeyFromName name _ => .getKeyFromName name callerPub
  | r => r

theorem badName_armed (callerPub : Point) (ha : d.Armed r) :
    ((Command.badName callerPub).effect d).Armed (r.setCallerPub callerPub) := by
  cases r with
  | getKeyFromName name pub => exact ⟨ha.1, rfl, ha.2.2⟩
  | _ => exact ha

theorem setCallerPub_shows (callerPub : Point) (hs : d.Shows r) :
    d.Shows (r.setCallerPub callerPub) := by
  cases r <;> exact hs

theorem setCallerPub_proper (callerPub : Point) (hp : r.Proper) :
    (r.setCallerPub callerPub).Proper := by
  cases r <;> exact hp

/-- What is pending after a command that was processed. -/
def Command.pending : Command → Request → Request
  | .ask r, _ => r
  | .badName callerPub, r => r.setCallerPub callerPub
  | _, r => r

theorem receive_samePrompt (apdu : Apdu) : SamePrompt d (d.receive apdu) :=
  ⟨rfl, rfl, rfl, rfl, rfl, rfl⟩

theorem answer_samePrompt (data : List UInt8) : SamePrompt d (d.answer data) :=
  ⟨rfl, rfl, rfl, rfl, rfl, rfl⟩

theorem setStorage_samePrompt (nv : InternalStorage) : SamePrompt d (d.setStorage nv) :=
  ⟨rfl, rfl, rfl, rfl, rfl, rfl⟩

/-- A command leaves the request that it asks for or the one that was pending. -/
theorem effect_pending {c : Command} (ha : d.Armed r) (hs : d.Shows r) (hp : r.Proper)
    (hc : ∀ q, c = .ask q → q.Proper ∧
      ∀ slot callerPub, q = .getKey slot callerPub → d.nStorage.valid slot.val = true) :
    (c.effect d).Armed (c.pending r) ∧ (c.effect d).Shows (c.pending r) ∧ (c.pending r).Proper := by
  cases c with
  | ask q =>
    obtain ⟨hq, hv⟩ := hc q rfl
    exact ⟨ask_armed hq hv, ask_shows hq, hq⟩
  | badName callerPub =>
    exact ⟨badName_armed callerPub ha, setCallerPub_shows callerPub hs,
      setCallerPub_proper callerPub hp⟩
  | store slot key =>
    have h : SamePrompt d (d.setStorage (d.nStorage.store slot key)) := setStorage_samePrompt _
    exact ⟨h.armed (store_grows _ _ _) ha, h.shows hs, hp⟩
  | _ => exact ⟨ha, hs, hp⟩

theorem effect_initialized (c : Command) :
    (c.effect d).nStorage.initialized = d.nStorage.initialized := by
  cases c with
  | ask q => cases q <;> rfl
  | _ => rfl

theorem effect_grows (c : Command) : d.nStorage.Grows (c.effect d).nStorage := by
  cases c with
  | ask q => cases q <;> exact .refl _
  | store slot key => exact store_grows _ _ _
  | _ => exact .refl _

theorem Device.Ready.command (hd : d.Ready) (apdu : Apdu) (data : List UInt8) :
    (((d.commandOf apdu).effect (d.receive apdu)).answer data).Ready := by
  have hr := @receive_samePrompt d apdu
  generalize hc : d.commandOf apdu = c
  have hask : ∀ q, c = .ask q → q.Proper ∧
      ∀ slot callerPub, q = .getKey slot callerPub → d.nStorage.valid slot.val = true := by
    rintro q rfl
    exact command_ask hc
  have ha := @answer_samePrompt (c.effect (d.receive apdu)) data
  refine ⟨rfl, (effect_initialized c).trans hd.initialized, fun hs => ?_⟩
  cases c with
  | ask q =>
    obtain ⟨hq, hv⟩ := hask q rfl
    exact ⟨q, ha.armed (.refl _) (ask_armed hq hv), ha.shows (ask_shows hq), hq⟩
  | _ =>
    obtain ⟨r, hr₁, hr₂, hr₃⟩ := hd.pending hs
    obtain ⟨h₁, h₂, h₃⟩ := effect_pending (hr.armed (.refl _) hr₁) (hr.shows hr₂) hr₃ hask
    exact ⟨_, ha.armed (.refl _) h₁, ha.shows h₂, h₃⟩

/-- A failed write of a key keeps what is pending. -/
theorem Device.Ready.faultyStore (hd : d.Ready) (apdu : Apdu) {nv : InternalStorage}
    (hg : d.nStorage.Grows nv) (data : List UInt8) :
    (((d.receive apdu).setStorage nv).answer data).Ready := by
  have hr : SamePrompt d (((d.receive apdu).setStorage nv).answer data) :=
    ⟨rfl, rfl, rfl, rfl, rfl, rfl⟩
  refine ⟨rfl, hg.initialized.trans hd.initialized, fun hs => ?_⟩
  obtain ⟨r, h₁, h₂, h₃⟩ := hd.pending hs
  exact ⟨r, hr.armed hg h₁, hr.shows h₂, h₃⟩

theorem ready_restart (hi : d.nStorage.initialized = 0x01) : d.restart.Ready :=
  ⟨rfl, hi, nofun⟩

/-- The invariant survives every step that does not lose power. -/
theorem Reacts.ready (h : Reacts sdk d event reply u) (hd : d.Ready) : u.Ready := by
  cases h with
  | @empty apdu he =>
    have hr : SamePrompt d ((d.receive apdu).answer (statusBytes 0x6982)) :=
      ⟨rfl, rfl, rfl, rfl, rfl, rfl⟩
    refine ⟨rfl, hd.initialized, fun hs => ?_⟩
    obtain ⟨r, h₁, h₂, h₃⟩ := hd.pending hs
    exact ⟨r, hr.armed (.refl _) h₁, hr.shows h₂, h₃⟩
  | command hne hnv => exact hd.command _ _
  | faultyStore sw hne hc hnv hg => exact hd.faultyStore _ hg _
  | resetStore hne hc hnv hg => exact ready_restart (hg.initialized.trans hd.initialized)
  | ignored hs he => exact hd
  | approved hs ha hf ht hi =>
    refine ⟨?_, hf.initialized hd.initialized, fun h => ?_⟩
    · rw [hf.frame]
      exact hd.tx
    · rw [hi] at h
      cases h
  | resetApproval hs ha hf ht => exact ready_restart (hf.initialized hd.initialized)
  | denied hs => exact ⟨hd.tx, hd.initialized, nofun⟩
  | reset => exact ready_restart hd.initialized

theorem step_ready (hd : d.Ready) {i : Input} {o : Output} (h : exec (step i) d = (.ok o, u)) :
    u.Ready := by
  obtain ⟨reply, -, hr⟩ := step_reacts hd h
  exact hr.ready hd

end Prompt

/-- A device that `main` has started is as it was powered up, its storage being set up. -/
theorem started_eq {d : Device} (h : Started d) :
    ∃ nv seed, nv.initialized = 0x01 ∧ d = powerUp nv seed := by
  obtain ⟨sdk, nv, seed, hnv, he⟩ := h
  by_cases hi : nv.initialized = 0x01
  · rw [exec_mainBody (d := powerUp nv seed) hi] at he
    cases he
    exact ⟨nv, seed, hi, rfl⟩
  · have hb : ((powerUp nv seed).nStorage.initialized != 0x01) = true := bne_iff_ne.mpr hi
    have hinit : exec (nvAppStateInit sdk false) (powerUp nv seed) =
        (.ok (), (powerUp nv seed).setStorage .cleared) := by
      rw [nvAppStateInit, exec_bind_ok (exec_read _ _), Bool.false_or,
        if_pos hb, exec_nvmWrite, write_eq hnv]
      rfl
    rw [mainBody, exec_bind_ok hinit] at he
    cases he
    exact ⟨.cleared, seed, rfl, rfl⟩

theorem started_ready {d : Device} (h : Started d) : d.Ready := by
  obtain ⟨nv, seed, hi, rfl⟩ := started_eq h
  exact ⟨rfl, hi, nofun⟩

/-- An SDK that is simple enough to run the app on: writes work, a scalar multiplication
returns its point, digests are zero. -/
def plainSdk : Sdk where
  nvmWrite _ := .written
  cxRng := .ok (Buf.zeros _)
  cxEcfpScalarMult point _ := .ok (some point)
  cxBlake2b _ := .ok (Buf.zeros _)
  cxHashSha256 _ := .ok (Buf.zeros _)
  osPersoDeriveNodeBip32 _ _ := .ok (Buf.zeros _, Buf.zeros _)

/-- A device with empty storage that has just been started. -/
def freshDevice : Device := powerUp .cleared []

theorem freshDevice_started : Started freshDevice :=
  ⟨plainSdk, .cleared, [], fun _ => rfl, exec_mainBody rfl⟩

/-- What an app that was started can reach, whatever the SDK does. -/
theorem run_ready {A : Device → Input → Prop} {d t : Device} {tr : List (Input × Output)}
    (h : Run step A d tr t) (hd : d.Ready) : t.Ready :=
  h.invariant hd fun _ _ _ _ hr _ he => step_ready hr he

end LedgerKeePass.App
