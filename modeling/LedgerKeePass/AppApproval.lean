import LedgerKeePass.AppReady

/-!
# Approval prompts

Whatever is on display, its texts describe what an approve press will do. A command that
is answered at once leaves the pending request alone, with one exception: a rejected
`GET_KEY_FROM_NAME` has already replaced the caller's public key.
-/
namespace LedgerKeePass.App
open Bytes Program

/-- The texts on display describe the callback and its current arguments. -/
def Device.Described (d : Device) : Prop :=
  match d.approveCb with
  | some .handleStoreKeyConfirmErase =>
    d.storeKeyArgs.slot.toNat < kplSlotCount ∧
      d.approveLine1.cString =
        ascii ("Slot #" ++ toString d.storeKeyArgs.slot.toNat ++ " already set.") ∧
      d.approveLine2.cString = ascii "Erase?"
  | some .handleGetKeyAfterApprove =>
    d.getKeyArgs.slot.toNat < kplSlotCount ∧
      d.approveLine1.cString = ascii "Database open slot" ∧
      d.approveLine2.cString = ascii ("Slot #" ++ toString d.getKeyArgs.slot.toNat)
  | some .handleGetKeyFromNameAfterApprove =>
    d.approveLine1.cString = ascii "Database open name" ∧
      ∃ name, d.approveLine2.cString = ascii "'" ++ name ++ ascii "'" ∧
        (d.getKeyFromNameArgs.name.slice 0 d.getKeyFromNameArgs.nameLen.toNat).map
          List.Vector.toList = some (seedPrefix ++ name)
  | some .handleEraseAllSlotsApprove =>
    d.approveLine1.cString = ascii "Erase all slots?" ∧
      d.approveLine2.cString = ascii "They will be erased forever!"
  | none => False

section Texts
variable {d : Device}

theorem storeKey_text (slot : Fin kplSlotCount) (key : Key) :
    (Request.storeKey slot key).line1 =
      ascii ("Slot #" ++ toString (UInt8.ofNat slot.val).toNat ++ " already set.") := by
  rw [Request.line1]
  revert slot
  decide

theorem getKey_text (slot : Fin kplSlotCount) (callerPub : Point) :
    (Request.getKey slot callerPub).line2 =
      ascii ("Slot #" ++ toString (UInt8.ofNat slot.val).toNat) := by
  rw [Request.line2]
  revert slot
  decide

/-- The part of the buffer that is hashed for an armed name. -/
theorem armed_name {name : List UInt8} {callerPub : Point}
    (ha : d.Armed (.getKeyFromName name callerPub)) :
    (d.getKeyFromNameArgs.name.slice 0 d.getKeyFromNameArgs.nameLen.toNat).map
      List.Vector.toList = some (seedPrefix ++ name) := by
  obtain ⟨hn, hs⟩ := ha.nameLen_toNat
  obtain ⟨-, -, -, hname, -⟩ := ha
  rw [hn, Buf.slice_eq hs, Option.map_some, hname]

theorem Device.Armed.described {r : Request} (ha : d.Armed r) (hs : d.Shows r) : d.Described := by
  obtain ⟨h₁, h₂⟩ := hs
  unfold Device.Described
  rw [ha.callback]
  cases r with
  | storeKey slot key =>
    have hslot : d.storeKeyArgs.slot = UInt8.ofNat slot.val := by rw [ha.2]
    refine ⟨?_, ?_, h₂⟩
    · rw [hslot, ofNat_slot_toNat]
      exact slot.isLt
    · rw [h₁, hslot, storeKey_text]
  | getKey slot callerPub =>
    have hslot : d.getKeyArgs.slot = UInt8.ofNat slot.val := by rw [ha.2.1]
    refine ⟨?_, h₁, ?_⟩
    · rw [hslot, ofNat_slot_toNat]
      exact slot.isLt
    · rw [h₂, hslot, getKey_text]
  | getKeyFromName name callerPub => exact ⟨h₁, name, h₂, armed_name ha⟩
  | eraseAllSlots => exact ⟨h₁, h₂⟩

end Texts

/-- In every state that a started app reaches, whatever it receives and whatever the SDK
does, a prompt on display describes what an approve press will do. -/
theorem prompt_described {d t : Device} {tr : List (Input × Output)} (hd : Started d)
    (h : Run step (fun _ _ => True) d tr t) (hs : t.screen = .approval) : t.Described := by
  obtain ⟨r, ha, hsh, -⟩ := (run_ready h (started_ready hd)).pending hs
  exact ha.described hsh

theorem prompt_described_eraseAllSlots :
    (exec (step ⟨plainSdk, .apdu ⟨[0xE0, 5, 0, 0, 0], by decide⟩⟩) freshDevice).2.Described :=
  prompt_described freshDevice_started
    (Run.next (o := ⟨none, some (Request.eraseAllSlots.line1, Request.eraseAllSlots.line2)⟩)
      (.nil _) trivial (by decide +kernel))
    (by decide +kernel)

/-- The request that was asked last. While a prompt is on display it is the one shown. -/
def lastAsked (last : Option Request) (d : Device) (i : Input) : Option Request :=
  match i.event with
  | .apdu apdu =>
    if apdu.bytes = [] then last
    else match d.commandOf apdu with
      | .ask r => some r
      | _ => last
  | _ => last

/-- The pending request as a whole: callback, texts, and the arguments of that callback. -/
structure Intact (d u : Device) : Prop where
  screen : u.screen = d.screen
  approveCb : u.approveCb = d.approveCb
  approveLine1 : u.approveLine1 = d.approveLine1
  approveLine2 : u.approveLine2 = d.approveLine2
  storeKey : d.approveCb = some .handleStoreKeyConfirmErase → u.storeKeyArgs = d.storeKeyArgs
  getKey : d.approveCb = some .handleGetKeyAfterApprove → u.getKeyArgs = d.getKeyArgs
  getKeyFromName : d.approveCb = some .handleGetKeyFromNameAfterApprove →
    u.getKeyFromNameArgs = d.getKeyFromNameArgs

/-- The input is not a `GET_KEY_FROM_NAME` with an invalid name and another public key
than that of a name request on display. -/
def Undisturbing (d : Device) (i : Input) : Prop :=
  match i.event with
  | .apdu apdu =>
    apdu.bytes ≠ [] → d.screen = .approval →
      d.approveCb = some .handleGetKeyFromNameAfterApprove →
      ∀ callerPub, d.commandOf apdu = .badName callerPub →
        callerPub = d.getKeyFromNameArgs.callerPub
  | _ => True

section Pending
variable {sdk : Sdk} {d t u : Device} {apdu : Apdu} {reply : List UInt8} {r : Request}
  {display : Option (List UInt8 × List UInt8)} {last : Option Request}

theorem SamePrompt.intact (h : SamePrompt d u) (hs : u.screen = d.screen) : Intact d u :=
  ⟨hs, h.approveCb, h.approveLine1, h.approveLine2, fun _ => h.storeKeyArgs,
    fun _ => h.getKeyArgs, fun _ => h.getKeyFromNameArgs⟩

/-- A rejected name leaves a pending name request intact if its public key is the same. -/
theorem badName_intact_iff (callerPub : Point) (data : List UInt8) :
    Intact d (((Command.badName callerPub).effect (d.receive apdu)).answer data) ↔
      (d.approveCb = some .handleGetKeyFromNameAfterApprove →
        callerPub = d.getKeyFromNameArgs.callerPub) := by
  constructor
  · intro h hcb
    have hargs := h.getKeyFromName hcb
    exact congrArg GetKeyFromNameArgs.callerPub hargs
  · intro h
    refine ⟨rfl, rfl, rfl, rfl, fun _ => rfl, fun _ => rfl, fun hcb => ?_⟩
    rw [h hcb]
    rfl

/-- An APDU that is answered at once leaves the pending request intact exactly when it
does not redirect it. -/
theorem answered_intact_iff (hd : d.Ready) (hs : d.screen = .approval)
    (h : exec (step ⟨sdk, .apdu apdu⟩) d = (.ok ⟨some reply, display⟩, u)) :
    Intact d u ↔ Undisturbing d ⟨sdk, .apdu apdu⟩ := by
  obtain ⟨reply', ho, hr⟩ := step_reacts hd h
  have hreply : reply' = some reply := by
    cases ho
    rfl
  cases hr with
  | empty he =>
    have hi : Intact d ((d.receive apdu).answer (statusBytes 0x6982)) :=
      SamePrompt.intact ⟨rfl, rfl, rfl, rfl, rfl, rfl⟩ rfl
    exact ⟨fun _ hne => absurd he hne, fun _ => hi⟩
  | command hne hnv =>
    generalize hc : d.commandOf apdu = c at hreply ⊢
    cases c with
    | ask r => cases hreply
    | badName callerPub =>
      rw [badName_intact_iff]
      constructor
      · intro h _ _ hcb pub hpub
        rw [hc] at hpub
        cases hpub
        exact h hcb
      · intro h hcb
        exact h hne hs hcb callerPub hc
    | _ =>
      refine ⟨fun _ _ _ _ pub hpub => ?_, fun _ => ?_⟩
      · rw [hc] at hpub
        cases hpub
      · exact SamePrompt.intact ⟨rfl, rfl, rfl, rfl, rfl, rfl⟩ rfl
  | faultyStore sw hne hc hnv hg =>
    refine ⟨fun _ _ _ _ pub hpub => ?_, fun _ => ?_⟩
    · rw [hpub] at hc
      cases hc
    · exact SamePrompt.intact ⟨rfl, rfl, rfl, rfl, rfl, rfl⟩ rfl
  | resetStore hne hc hnv hg => cases hreply
  | ignored hs' he => cases hreply

/-- A prompt on display is the request that was asked last. -/
structure Watched (d : Device) (last : Option Request) : Prop where
  ready : d.Ready
  shown : d.screen = .approval → ∃ r, last = some r ∧ d.Armed r ∧ d.Shows r ∧ r.Proper

theorem lastAsked_of_ne {c : Command} (hc : d.commandOf apdu = c) (hn : ∀ r, c ≠ .ask r) :
    lastAsked last d ⟨sdk, .apdu apdu⟩ = last := by
  rw [lastAsked]
  dsimp only
  split
  · rfl
  · rw [hc]
    cases c with
    | ask r => exact absurd rfl (hn r)
    | _ => rfl

/-- A prompt on display is one that `P` relates to the request that was asked last. -/
structure Tracks (P : Request → Option Request → Prop) (d : Device) (last : Option Request) : Prop where
  ready : d.Ready
  shown : d.screen = .approval → ∃ r, d.Armed r ∧ d.Shows r ∧ r.Proper ∧ P r last

variable {P : Request → Option Request → Prop}

theorem Tracks.keep (h : Tracks P d last) (hu : u.Ready) (hg : d.nStorage.Grows u.nStorage)
    (hp : SamePrompt d u) (hs : u.screen = d.screen) : Tracks P u last := by
  refine ⟨hu, fun hs' => ?_⟩
  obtain ⟨r, ha, hsh, hproper, hr⟩ := h.shown (hs.symm.trans hs')
  exact ⟨r, hp.armed hg ha, hp.shows hsh, hproper, hr⟩

/-- A command asks for a new request, or keeps the pending one up to its public key. -/
theorem Tracks.command (h : Tracks P d last) (hask : ∀ r, P r (some r)) (hne : apdu.bytes ≠ [])
    (hbad : ∀ r callerPub, d.commandOf apdu = .badName callerPub → d.screen = .approval → d.Armed r →
      P r last → P (r.setCallerPub callerPub) last) (data : List UInt8) :
    Tracks P (((d.commandOf apdu).effect (d.receive apdu)).answer data)
      (lastAsked last d ⟨sdk, .apdu apdu⟩) := by
  have hready := h.ready.command apdu data
  have hgrows := @effect_grows (d.receive apdu) (d.commandOf apdu)
  generalize hc : d.commandOf apdu = c at hready hgrows ⊢
  cases c with
  | ask r =>
    have hl : lastAsked last d ⟨sdk, .apdu apdu⟩ = some r := by
      rw [lastAsked]
      dsimp only
      rw [if_neg hne, hc]
    obtain ⟨hp, hv⟩ := command_ask hc
    have ha := @answer_samePrompt ((d.receive apdu).ask r) data
    rw [hl]
    exact ⟨hready, fun _ => ⟨r, ha.armed (.refl _) (ask_armed hp hv), ha.shows (ask_shows hp), hp,
      hask r⟩⟩
  | badName callerPub =>
    rw [lastAsked_of_ne hc (by simp)]
    refine ⟨hready, fun hs => ?_⟩
    obtain ⟨r, ha, hsh, hp, hr⟩ := h.shown hs
    have hrec := @receive_samePrompt d apdu
    have hans := @answer_samePrompt ((Command.badName callerPub).effect (d.receive apdu)) data
    exact ⟨r.setCallerPub callerPub,
      hans.armed (.refl _) (badName_armed callerPub (hrec.armed (.refl _) ha)),
      hans.shows (setCallerPub_shows callerPub (hrec.shows hsh)), setCallerPub_proper callerPub hp,
      hbad r callerPub hc hs ha hr⟩
  | _ =>
    rw [lastAsked_of_ne hc (by simp)]
    exact h.keep hready hgrows ⟨rfl, rfl, rfl, rfl, rfl, rfl⟩ rfl

theorem Tracks.step {event : Event} {o : Output} (h : Tracks P d last) (hask : ∀ r, P r (some r))
    (hbad : ∀ apdu r callerPub, event = .apdu apdu → apdu.bytes ≠ [] →
      d.commandOf apdu = .badName callerPub → d.screen = .approval → d.Armed r → P r last →
      P (r.setCallerPub callerPub) last)
    (he : exec (step ⟨sdk, event⟩) d = (.ok o, u)) :
    Tracks P u (lastAsked last d ⟨sdk, event⟩) := by
  have hready := step_ready h.ready he
  obtain ⟨reply, -, hr⟩ := step_reacts h.ready he
  cases hr with
  | empty hnil =>
    have hl : lastAsked last d ⟨sdk, .apdu _⟩ = last := if_pos hnil
    rw [hl]
    exact h.keep hready (.refl _) ⟨rfl, rfl, rfl, rfl, rfl, rfl⟩ rfl
  | @command apdu hne hnv =>
    exact h.command hask hne (fun r callerPub hc => hbad apdu r callerPub rfl hne hc) _
  | faultyStore sw hne hc hnv hg =>
    rw [lastAsked_of_ne rfl (fun r hr => by rw [hr] at hc; cases hc)]
    exact h.keep hready hg ⟨rfl, rfl, rfl, rfl, rfl, rfl⟩ rfl
  | resetStore hne hc hnv hg => exact ⟨hready, by simp [Device.restart]⟩
  | ignored hs hev =>
    have hl : lastAsked last d ⟨sdk, event⟩ = last := by
      rcases hev with rfl | rfl <;> rfl
    rw [hl]
    exact h
  | approved hs ha hf ht hi => exact ⟨hready, by simp [hi]⟩
  | resetApproval hs ha hf ht => exact ⟨hready, by simp [Device.restart]⟩
  | denied hs => exact ⟨hready, by simp [Device.approved]⟩
  | reset => exact ⟨hready, by simp [Device.restart]⟩

theorem started_tracks (hd : Started d) : Tracks P d none := by
  obtain ⟨nv, seed, hi, rfl⟩ := started_eq hd
  exact ⟨⟨rfl, hi, by simp [powerUp]⟩, by simp [powerUp]⟩

theorem watched_iff_tracks : Watched d last ↔ Tracks (fun r last => last = some r) d last := by
  constructor
  · rintro ⟨hready, hshown⟩
    refine ⟨hready, fun hs => ?_⟩
    obtain ⟨r, hl, ha, hsh, hp⟩ := hshown hs
    exact ⟨r, ha, hsh, hp, hl⟩
  · rintro ⟨hready, hshown⟩
    refine ⟨hready, fun hs => ?_⟩
    obtain ⟨r, ha, hsh, hp, hl⟩ := hshown hs
    exact ⟨r, hl, ha, hsh, hp⟩

theorem Watched.step {event : Event} {o : Output} (hw : Watched d last)
    (hu : Undisturbing d ⟨sdk, event⟩) (h : exec (step ⟨sdk, event⟩) d = (.ok o, u)) :
    Watched u (lastAsked last d ⟨sdk, event⟩) := by
  rw [watched_iff_tracks] at hw ⊢
  refine hw.step (fun _ => rfl) (fun apdu r callerPub hev hne hc hs ha hl => ?_) h
  subst hev
  rw [hl]
  cases r with
  | getKeyFromName name pub =>
    have hpub : callerPub = pub := (hu hne hs ha.1 callerPub hc).trans ha.2.1
    rw [hpub]
    rfl
  | _ => rfl

theorem started_watched (hd : Started d) : Watched d none :=
  watched_iff_tracks.mpr (started_tracks hd)

/-- The reply to an approved request for a key, encrypted to its caller. -/
theorem exec_step_approve {own : Point} {cipher : Key} (hs : d.screen = .approval)
    (ha : d.Armed r) (hc : r.sealed sdk d.nStorage d.seed = .ok (some (own, cipher))) :
    exec (App.step ⟨sdk, .approve⟩) d =
      (.ok ⟨some (own.toList ++ cipher.toList ++ statusBytes kplSwSuccess), none⟩,
        d.approved (own.toList ++ cipher.toList ++ statusBytes kplSwSuccess) 66) := by
  have hr : r.isKey = true := by
    cases r with
    | storeKey slot key => cases hc
    | eraseAllSlots => cases hc
    | _ => rfl
  obtain ⟨b, hk⟩ := @exec_touchOkay_key sdk d r ha hr
  rw [hc] at hk
  exact exec_step_ok ((exec_react_approve hs).trans hk)

end Pending

/-- Commands that are answered at once leave a pending request intact, unless they are
rejected names with another public key: in every run without one, an approve press serves
the request that was shown. -/
theorem pending_request_intact {d t : Device} {tr : List (Input × Output)} {last : Option Request}
    (hd : Started d) (h : Observed step Undisturbing lastAsked d none tr t last)
    (hs : t.screen = .approval) :
    (∃ r, last = some r ∧ t.Armed r ∧ t.Shows r ∧
      ∀ sdk own cipher, r.sealed sdk t.nStorage t.seed = .ok (some (own, cipher)) →
        (exec (step ⟨sdk, .approve⟩) t).1 =
          .ok ⟨some (own.toList ++ cipher.toList ++ statusBytes kplSwSuccess), none⟩) ∧
    ∀ sdk apdu reply display u,
      exec (step ⟨sdk, .apdu apdu⟩) t = (.ok ⟨some reply, display⟩, u) →
        (Intact t u ↔ Undisturbing t ⟨sdk, .apdu apdu⟩) := by
  have hw : Watched t last :=
    h.invariant (started_watched hd) fun _ _ _ _ _ hw hu he => hw.step hu he
  obtain ⟨r, hl, ha, hsh, -⟩ := hw.shown hs
  refine ⟨⟨r, hl, ha, hsh, fun sdk own cipher hc => ?_⟩, fun sdk apdu reply display u hstep => ?_⟩
  · rw [exec_step_approve hs ha hc]
  · exact answered_intact_iff hw.ready hs hstep

/-- `GET_KEY_FROM_NAME` for the name `"a"` and the public key of 32 zeros. -/
def askName : Apdu := ⟨[0xE0, 3, 0, 0, 33] ++ List.replicate 32 0 ++ [97], by decide⟩

/-- `GET_KEY_FROM_NAME` for an unprintable name and the public key of 32 ones. -/
def rejectedName : Apdu := ⟨[0xE0, 3, 0, 0, 33] ++ List.replicate 32 1 ++ [0], by decide⟩

/-- While the prompt for `askName` is shown, the rejected APDU changes the key that the
reply will be encrypted to. -/
theorem rejectedName_redirects :
    ∃ t u, Run step (fun _ _ => True) freshDevice
        [(⟨plainSdk, .apdu askName⟩, ⟨none, some (ascii "Database open name", ascii "'a'")⟩)] t ∧
      t.screen = .approval ∧
      exec (step ⟨plainSdk, .apdu rejectedName⟩) t = (.ok ⟨some [0x68, 0x22], t.display⟩, u) ∧
      ¬ Intact t u := by
  refine ⟨_, _, Run.next (.nil _) trivial (by decide +kernel), by decide +kernel,
    Prod.ext (by decide +kernel) rfl, fun h => ?_⟩
  have hargs := h.getKeyFromName (by decide +kernel)
  revert hargs
  decide +kernel

/-- After `askName` its request is armed and shown, and only a redirection disturbs it. -/
theorem pending_request_intact_askName :
    let t := (exec (step ⟨plainSdk, .apdu askName⟩) freshDevice).2
    (∃ r, lastAsked none freshDevice ⟨plainSdk, .apdu askName⟩ = some r ∧ t.Armed r ∧ t.Shows r ∧
      ∀ sdk own cipher, r.sealed sdk t.nStorage t.seed = .ok (some (own, cipher)) →
        (exec (step ⟨sdk, .approve⟩) t).1 =
          .ok ⟨some (own.toList ++ cipher.toList ++ statusBytes kplSwSuccess), none⟩) ∧
    ∀ sdk apdu reply display u,
      exec (step ⟨sdk, .apdu apdu⟩) t = (.ok ⟨some reply, display⟩, u) →
        (Intact t u ↔ Undisturbing t ⟨sdk, .apdu apdu⟩) :=
  pending_request_intact freshDevice_started
    (Observed.next (o := ⟨none, some (ascii "Database open name", ascii "'a'")⟩) (.nil _ _)
      (by intro _ hs; cases hs) (by decide +kernel)) (by decide +kernel)

end LedgerKeePass.App
