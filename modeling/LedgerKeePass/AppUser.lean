import LedgerKeePass.AppSlotMap

/-!
# A request with the user's answer to its prompt

`serveRequest` is the device together with its user: a request is answered at once, or
after the button press that its prompt waits for.
-/
namespace LedgerKeePass.App
open Bytes Program

/-- The reply to a request and the device afterwards; `approve` is the user's choice. There
is no reply where the app stops or the request does not fit its buffer. -/
def serveRequest (sdk : Sdk) (approve : Bool) (request : List UInt8) (d : Device) :
    Option (List UInt8) × Device :=
  if h : request.length ≤ ioApduBufferSize then
    match exec (step ⟨sdk, .apdu ⟨request, h⟩⟩) d with
    | (.ok ⟨some reply, _⟩, t) => (some reply, t)
    | (.ok ⟨none, _⟩, t) =>
      match exec (step ⟨sdk, if approve then .approve else .deny⟩) t with
      | (.ok o, u) => (o.reply, u)
      | (.error _, u) => (none, u)
    | (.error _, t) => (none, t)
  else (none, d)

def Command.isAsk : Command → Bool
  | .ask _ => true
  | _ => false

/-- A device that waits for a request with no prompt on display. -/
structure Device.Resting (d : Device) : Prop where
  ready : d.Ready
  idle : d.screen = .idle

theorem started_resting {d : Device} (h : Started d) : d.Resting := by
  refine ⟨started_ready h, ?_⟩
  obtain ⟨nv, seed, -, rfl⟩ := started_eq h
  rfl

section
variable {sdk : Sdk} {approve : Bool} {d t : Device} {apdu : Apdu} {c : Command} {r : Request}
  {reply : List UInt8}

theorem exec_step_command (hd : d.Ready) (hne : apdu.bytes ≠ []) (hc : d.commandOf apdu = c)
    (hnv : c.isStore = true → sdk.WritesNv) :
    exec (step ⟨sdk, .apdu apdu⟩) d =
      (.ok ⟨c.sent d.nStorage, ((c.effect (d.receive apdu)).answer (c.response d.nStorage)).display⟩,
        (c.effect (d.receive apdu)).answer (c.response d.nStorage)) := by
  subst hc
  exact @exec_step_ok sdk (.apdu apdu) _ _ _ (exec_receiveApdu hne hd.tx hnv)

theorem serve_now (h : exec (step ⟨sdk, .apdu apdu⟩) d = (.ok ⟨some reply, t.display⟩, t)) :
    serveRequest sdk approve apdu.bytes d = (some reply, t) := by
  rw [serveRequest, dif_pos apdu.fits, h]

theorem serve_press {u : Device} {o : Output}
    (h : exec (step ⟨sdk, .apdu apdu⟩) d = (.ok ⟨none, t.display⟩, t))
    (hp : exec (step ⟨sdk, if approve then .approve else .deny⟩) t = (.ok o, u)) :
    serveRequest sdk approve apdu.bytes d = (o.reply, u) := by
  rw [serveRequest, dif_pos apdu.fits, h]
  dsimp only
  rw [hp]

/-- A command without a prompt is answered at once. -/
theorem serve_command (hd : d.Resting) (hne : apdu.bytes ≠ [])
    (hnv : c.isStore = true → sdk.WritesNv) (hc : d.commandOf apdu = c) (hask : c.isAsk = false) :
    ∃ t, serveRequest sdk approve apdu.bytes d = (some (c.response d.nStorage), t) ∧ t.Resting ∧
      t.nStorage = (c.effect d).nStorage := by
  have hstep := @exec_step_command sdk d _ _ hd.ready hne hc hnv
  have hready := step_ready hd.ready hstep
  have hsent : c.sent d.nStorage = some (c.response d.nStorage) := by
    cases c with
    | ask r => cases hask
    | _ => rfl
  rw [hsent] at hstep
  refine ⟨_, serve_now hstep, ⟨hready, ?_⟩, ?_⟩
  · cases c with
    | ask r => cases hask
    | _ => exact hd.idle
  · cases c with
    | ask r => cases hask
    | _ => rfl

/-- The device while the prompt of a request is on display. -/
def Device.asking (d : Device) (apdu : Apdu) (r : Request) : Device :=
  ((d.receive apdu).ask r).answer (statusBytes kplSwSuccess)

theorem exec_step_ask (hd : d.Ready) (hne : apdu.bytes ≠ []) (hc : d.commandOf apdu = .ask r) :
    exec (step ⟨sdk, .apdu apdu⟩) d =
      (.ok ⟨none, (d.asking apdu r).display⟩, d.asking apdu r) :=
  exec_step_command hd hne hc (by simp [Command.isStore])

theorem asking_storage : (d.asking apdu r).nStorage = d.nStorage := by
  cases r <;> rfl

theorem asking_armed (hc : d.commandOf apdu = .ask r) : (d.asking apdu r).Armed r := by
  obtain ⟨hp, hv⟩ := command_ask hc
  exact (answer_samePrompt _).armed (.refl _) (ask_armed hp hv)

/-- Denying a prompt is answered with `KPL_SW_UNAUTHORIZED_ACCESS`. -/
theorem serve_denied (hd : d.Resting) (hne : apdu.bytes ≠ []) (hc : d.commandOf apdu = .ask r) :
    ∃ t, serveRequest sdk false apdu.bytes d = (some (statusBytes kplSwUnauthorizedAccess), t) ∧
      t.Resting ∧ t.nStorage = d.nStorage := by
  have hstep := @exec_step_ask sdk _ _ _ hd.ready hne hc
  have hpress := @exec_step_ok sdk .deny (d.asking apdu r) _ _
    ((exec_react_deny rfl).trans exec_touchDeny)
  exact ⟨_, @serve_press sdk false _ _ _ _ _ hstep hpress,
    ⟨step_ready (step_ready hd.ready hstep) hpress, rfl⟩, asking_storage⟩

/-- Approving a prompt is answered with what `touch_okay` sends. -/
theorem serve_approved (hd : d.Resting) (hne : apdu.bytes ≠ []) (hnv : sdk.WritesNv)
    (hc : d.commandOf apdu = .ask r)
    (ht : exec (touchOkay sdk) (d.asking apdu r) = (.ok (some reply), t)) (hi : t.screen = .idle) :
    serveRequest sdk true apdu.bytes d = (some reply, t) ∧ t.Resting ∧
      t.nStorage = r.store d.nStorage := by
  have hstep := @exec_step_ask sdk _ _ _ hd.ready hne hc
  have hpress := @exec_step_ok sdk .approve _ _ _ ((exec_react_approve rfl).trans ht)
  refine ⟨@serve_press sdk true _ _ _ _ _ hstep hpress,
    ⟨step_ready (step_ready hd.ready hstep) hpress, hi⟩, ?_⟩
  rw [approved_storage hnv (asking_armed hc) ht, asking_storage]

theorem serve_approved_storeKey {slot : Fin kplSlotCount} {key : Key} (hd : d.Resting)
    (hne : apdu.bytes ≠ []) (hnv : sdk.WritesNv) (hc : d.commandOf apdu = .ask (.storeKey slot key)) :
    ∃ t, serveRequest sdk true apdu.bytes d = (some (statusBytes kplSwSuccess), t) ∧ t.Resting ∧
      t.nStorage = d.nStorage.store slot key :=
  ⟨_, serve_approved hd hne hnv hc (exec_touchOkay_storeKey hnv (asking_armed hc)) rfl⟩

theorem serve_approved_eraseAllSlots (hd : d.Resting) (hne : apdu.bytes ≠ []) (hnv : sdk.WritesNv)
    (hc : d.commandOf apdu = .ask .eraseAllSlots) :
    ∃ t, serveRequest sdk true apdu.bytes d = (some (statusBytes kplSwSuccess), t) ∧ t.Resting ∧
      t.nStorage = .cleared :=
  ⟨_, serve_approved hd hne hnv hc (exec_touchOkay_eraseAllSlots hnv (asking_armed hc)) rfl⟩

theorem serve_approved_getKey {slot : Fin kplSlotCount} {callerPub own : Point} {cipher : Key}
    (hd : d.Resting) (hne : apdu.bytes ≠ []) (hnv : sdk.WritesNv)
    (hc : d.commandOf apdu = .ask (.getKey slot callerPub))
    (hs : sealKey sdk (d.nStorage.keys slot) callerPub = .ok (some (own, cipher))) :
    ∃ t, serveRequest sdk true apdu.bytes d =
        (some (own.toList ++ cipher.toList ++ statusBytes kplSwSuccess), t) ∧
      t.Resting ∧ t.nStorage = d.nStorage := by
  obtain ⟨b, hk⟩ := @exec_touchOkay_key sdk (d.asking apdu (.getKey slot callerPub)) _
    (asking_armed hc) rfl
  rw [asking_storage, Request.sealed, hs] at hk
  exact ⟨_, serve_approved hd hne hnv hc hk rfl⟩

end

end LedgerKeePass.App
