import LedgerKeePass.AppReceived
import LedgerKeePass.EndToEnd

/-!
# Which names raise a prompt

The library checks the length of a name, the app its length and its characters. `recorded`
keeps the requests that a call hands to its transport, so that the prompt of a call can be
read off the device that is there to serve them.
-/
namespace LedgerKeePass.App
open Bytes Program

/-- The names that are accepted: one to twenty printable ASCII characters. -/
def ValidName (name : List UInt8) : Prop :=
  (1 ≤ name.length ∧ name.length ≤ 20) ∧ ∀ c ∈ name, 0x20 ≤ c.toNat ∧ c.toNat ≤ 0x7E

instance (name : List UInt8) : Decidable (ValidName name) := inferInstanceAs (Decidable (_ ∧ _))

/-- The name in the APDU buffer: what is behind the public key. -/
def nameField (f : Buf ioApduBufferSize) : List UInt8 :=
  (f.window 37 ((f.byteAt 4).toNat - 32)).toList

theorem isNameValid_printable (name : List UInt8) :
    isNameValid name = true ↔ ∀ c ∈ name, 0x20 ≤ c.toNat ∧ c.toNat ≤ 0x7E := by
  simp only [isNameValid, List.all_eq_true, Bool.not_eq_true', Bool.or_eq_false_iff,
    decide_eq_false_iff_not, ge_iff_le, UInt8.le_iff_toNat_le]
  refine forall₂_congr fun c _ => ?_
  change ¬ c.toNat ≤ 31 ∧ ¬ 127 ≤ c.toNat ↔ _
  omega

theorem nameField_length (f : Buf ioApduBufferSize) :
    (nameField f).length = (f.byteAt 4).toNat - 32 := by
  simp [nameField]

section Request
variable {nv : InternalStorage} {f : Buf ioApduBufferSize}

theorem command_name (h₀ : f.byteAt 0 = cla) (h₁ : f.byteAt 1 = 3) :
    command nv f = getKeyFromNameCommand (f.byteAt 4) (f.window 5 x25519PtSize) (nameField f) := by
  rw [command_of_cla h₀, h₁]
  rfl

theorem command_name_valid (h₀ : f.byteAt 0 = cla) (h₁ : f.byteAt 1 = 3) (hv : ValidName (nameField f)) :
    command nv f = .ask (.getKeyFromName (nameField f) (f.window 5 x25519PtSize)) := by
  have hl := nameField_length f
  have hlc : x25519PtSize < (f.byteAt 4).toNat ∧ (f.byteAt 4).toNat ≤ x25519PtSize + kplMaxNameSize := by
    have h1 := hv.1
    simp only [x25519PtSize, kplMaxNameSize]
    omega
  rw [command_name h₀ h₁, getKeyFromNameCommand, if_pos hlc,
    if_pos ((isNameValid_printable _).mpr hv.2)]

theorem command_name_length (h₀ : f.byteAt 0 = cla) (h₁ : f.byteAt 1 = 3)
    (hl : ¬ (1 ≤ (nameField f).length ∧ (nameField f).length ≤ 20)) :
    command nv f = .fail invalidParameter := by
  have hlen := nameField_length f
  have hlc : ¬ (x25519PtSize < (f.byteAt 4).toNat ∧
      (f.byteAt 4).toNat ≤ x25519PtSize + kplMaxNameSize) := by
    simp only [x25519PtSize, kplMaxNameSize]
    omega
  rw [command_name h₀ h₁, getKeyFromNameCommand, if_neg hlc]

theorem command_name_bad (h₀ : f.byteAt 0 = cla) (h₁ : f.byteAt 1 = 3)
    (hl : 1 ≤ (nameField f).length ∧ (nameField f).length ≤ 20) (hv : ¬ ValidName (nameField f)) :
    command nv f = .badName (f.window 5 x25519PtSize) := by
  have hlen := nameField_length f
  have hlc : x25519PtSize < (f.byteAt 4).toNat ∧ (f.byteAt 4).toNat ≤ x25519PtSize + kplMaxNameSize := by
    simp only [x25519PtSize, kplMaxNameSize]
    omega
  have hn : ¬ isNameValid (nameField f) = true := fun h =>
    hv ⟨hl, (isNameValid_printable _).mp h⟩
  rw [command_name h₀ h₁, getKeyFromNameCommand, if_pos hlc, if_neg hn]

end Request

/-- What the app replies to a request with this name, and what it displays. -/
def nameOutput (name : List UInt8) : Output :=
  if ValidName name then ⟨none, some (ascii "Database open name", [39] ++ name ++ [39])⟩
  else if 1 ≤ name.length ∧ name.length ≤ 20 then ⟨some (statusBytes kplSwInvalidName), none⟩
  else ⟨some (statusBytes kplSwInvalidParameter), none⟩

theorem nameOutput_display (name : List UInt8) : (nameOutput name).display.isSome ↔ ValidName name := by
  rw [nameOutput]
  split
  · simp [*]
  · split <;> simp [*]

section Step
variable {sdk : Sdk} {d t : Device} {apdu : Apdu} {r : Request}

theorem display_idle (h : t.screen = .idle) : t.display = none := by
  simp [Device.display, h]

/-- A command that asks nothing and stores nothing shows nothing. -/
theorem step_rejected {c : Command} (hd : d.Ready) (hi : d.screen = .idle) (hne : apdu.bytes ≠ [])
    (hc : d.commandOf apdu = c) (hs : c.isStore = false) (ha : c.isAsk = false) :
    (exec (step ⟨sdk, .apdu apdu⟩) d).1 = .ok ⟨some (c.response d.nStorage), none⟩ := by
  have hst : c.isStore = true → sdk.WritesNv := by simp [hs]
  rw [exec_step_command hd hne hc hst, display_idle]
  · cases c with
    | ask r => cases ha
    | _ => rfl
  · cases c with
    | ask r => cases ha
    | _ => exact hi

theorem display_shows (h : t.screen = .approval) (hs : t.Shows r) :
    t.display = some (r.line1, r.line2) := by
  simp [Device.display, h, hs.1, hs.2]

/-- The app with no prompt on display takes a request for a name. -/
theorem step_name (hd : d.Ready) (hi : d.screen = .idle) (hne : apdu.bytes ≠ [])
    (h₀ : (d.receive apdu).gIoApduBuffer.byteAt 0 = cla)
    (h₁ : (d.receive apdu).gIoApduBuffer.byteAt 1 = 3) :
    (exec (step ⟨sdk, .apdu apdu⟩) d).1 =
      .ok (nameOutput (nameField (d.receive apdu).gIoApduBuffer)) := by
  have hc : d.commandOf apdu = command d.nStorage (d.receive apdu).gIoApduBuffer := rfl
  generalize (d.receive apdu).gIoApduBuffer = f at h₀ h₁ hc ⊢
  rw [nameOutput]
  by_cases hl : 1 ≤ (nameField f).length ∧ (nameField f).length ≤ 20
  · by_cases hv : ValidName (nameField f)
    · rw [command_name_valid h₀ h₁ hv] at hc
      rw [if_pos hv, exec_step_ask hd hne hc]
      have hp := (command_ask hc).1
      have hs : (d.asking apdu _).Shows _ := (answer_samePrompt _).shows (ask_shows hp)
      rw [display_shows rfl hs]
      rfl
    · rw [command_name_bad h₀ h₁ hl hv] at hc
      rw [if_neg hv, if_pos hl]
      exact step_rejected hd hi hne hc rfl rfl
  · have hv : ¬ ValidName (nameField f) := fun h => hl h.1
    rw [command_name_length h₀ h₁ hl] at hc
    rw [if_neg hv, if_neg hl]
    exact step_rejected hd hi hne hc rfl rfl

variable {p1 p2 lc : UInt8} {data : List UInt8}

theorem received_ins (h : apdu.bytes = [cla, 3, p1, p2, lc] ++ data) :
    apdu.bytes ≠ [] ∧ (d.receive apdu).gIoApduBuffer.byteAt 0 = cla ∧
      (d.receive apdu).gIoApduBuffer.byteAt 1 = 3 ∧ (d.receive apdu).gIoApduBuffer.byteAt 4 = lc := by
  have hb : ∀ i < 5, (d.receive apdu).gIoApduBuffer.byteAt i = apdu.bytes.getD i 0 := by
    intro i hi
    exact frame_received (by simp [h]; omega)
  rw [h] at hb
  exact ⟨by simp [h], hb 0 (by omega), hb 1 (by omega), hb 4 (by omega)⟩

/-- A request that was received whole carries the name in its data. -/
theorem nameField_received (h : apdu.bytes = [cla, 3, p1, p2, lc] ++ data) (hl : lc.toNat ≤ data.length) :
    nameField (d.receive apdu).gIoApduBuffer = (data.take lc.toNat).drop 32 := by
  have hlc := lc.toNat_lt
  have hf : (d.receive apdu).gIoApduBuffer = d.gIoApduBuffer.overwrite 0 apdu.bytes := rfl
  have h37 : 37 = [cla, 3, p1, p2, lc].length + 32 := rfl
  rw [nameField, (received_ins h).2.2.2, Buf.window_toList _ (by simp only [ioApduBufferSize]; omega), hf,
    Buf.overwrite_zero_toList _ apdu.fits, h, List.append_assoc, h37, List.drop_length_add_append,
    ← List.drop_take, List.take_append_of_le_length hl]

/-- The device shows a prompt on receipt of a request. -/
def Prompts (sdk : Sdk) (d : Device) (request : List UInt8) : Prop :=
  ∃ (h : request.length ≤ ioApduBufferSize) (o : Output) (t : Device),
    exec (step ⟨sdk, .apdu ⟨request, h⟩⟩) d = (.ok o, t) ∧ o.display.isSome

theorem prompts_iff {o : Output} (h : (exec (step ⟨sdk, .apdu apdu⟩) d).1 = .ok o) :
    Prompts sdk d apdu.bytes ↔ o.display.isSome := by
  constructor
  · rintro ⟨hl, o', t, he, hd⟩
    rw [he] at h
    cases h
    exact hd
  · intro hd
    exact ⟨apdu.fits, o, _, Prod.ext h rfl, hd⟩

end Step

end LedgerKeePass.App

namespace LedgerKeePass.Kpl
open Bytes Program App

/-- A transport handle with the requests that were handed to it. -/
abbrev Recorded (σ : Type) := Option σ × List (List UInt8)

section Recorded
variable {σ α : Type} {m : ℕ}

/-- An exchange that also keeps its request. -/
def recorded (exchange : Exchange σ) : Exchange (Recorded σ) := fun request timeoutMS =>
  ExceptT.mk fun l =>
    match l.dev with
    | none => (.error .assertion, l)
    | some (dev, sent) =>
      let (r, l') := exec (exchange request timeoutMS) ⟨dev, l.out⟩
      (r, ⟨some (l'.dev, sent ++ [request]), l'.out⟩)

/-- The requests of a call, which starts on an open handle. -/
def requestsOf (call : KplM (Recorded σ) α) (s : σ) : List (List UInt8) :=
  match (exec call (some (some s, []))).2 with
  | none => []
  | some (_, sent) => sent

variable {exchange : Exchange σ} {host : Host} {timeoutMS : UInt32} {s : σ} {ins p1 p2 : UInt8}
  {data : List UInt8}

/-- What `apduExchange` does behind the exchange changes nothing. -/
theorem apduExchange_state (h : data.length ≤ 255) (l : Link σ m) :
    (exec (apduExchange exchange (apduStream ins p1 p2 ++ data) timeoutMS) l).2 =
      (exec (exchange (apdu ins p1 p2 data) timeoutMS) l).2 := by
  rw [apduExchange_eq h]
  exact exec_bind_keeps (fun res => (keeps_pure res).ite fun _ => rfl) l

theorem withAnswer_dev (uninit : Buf m) (p : LibM σ m α) (dev : Option σ) :
    (exec (withAnswer uninit p) dev).2 = (exec p ⟨dev, .fresh uninit⟩).2.dev := by
  rw [exec_withAnswer_eq]
  rcases exec p ⟨dev, .fresh uninit⟩ with ⟨_ | a, l⟩ <;> rfl

theorem decryptAnswer_keeps {n : ℕ} (ans : LedgerAnswer (64 + swSize)) (out : Buf n)
    (ownPrivKey ownPubKey : Buf 32) :
    Keeps (decryptAnswer host ans out ownPrivKey ownPubKey : KplM σ (Result × Buf n)) := by
  refine (keeps_demand _ _).bind fun appPubKey => (keeps_demand _ _).bind fun key =>
    (keeps_demand _ _).bind fun out => ?_
  cases x25519DecryptKey host key appPubKey ownPubKey ownPrivKey with
  | none => exact keeps_pure _
  | some key => exact (keeps_demand _ _).bind fun out => keeps_pure _

theorem sendKeyApduAndDecrypt_dev {n : ℕ} (out : Buf n) (stream : List UInt8)
    (ownPrivKey ownPubKey : Buf 32) (dev : Option σ) :
    (exec (sendKeyApduAndDecrypt exchange host out stream ownPrivKey ownPubKey timeoutMS) dev).2 =
      (exec (apduExchange exchange stream timeoutMS)
        ⟨dev, .fresh (host.uninit (64 + swSize))⟩).2.dev := by
  rw [← withAnswer_dev, sendKeyApduAndDecrypt]
  refine exec_bind_keeps (fun x => ?_) dev
  refine (keeps_pure _).ite ((keeps_demand _ _).bind fun sw => ?_)
  exact (keeps_pure _).ite ((keeps_pure _).ite (decryptAnswer_keeps _ _ _ _))

theorem short_name {name : List UInt8} (pub : Buf 32) (hn : name.length ≤ 20) :
    (pub.toList ++ name).length ≤ 255 := by
  rw [List.length_append, List.Vector.toList_length]
  omega

/-- `getKeyFromName` sends one request for a name that is short enough, and none otherwise. -/
theorem requestsOf_getKeyFromName (exchange : Exchange σ) (host : Host) (name : List UInt8) (out : Key)
    (timeoutMS : UInt32) (s : σ) :
    requestsOf (getKeyFromName (recorded exchange) host name out timeoutMS) s =
      if name.length ≤ 20 then
        [apdu Instrs.getKeyFromName 0 0 ((x25519GenPrivKey host).2.toList ++ name)]
      else [] := by
  by_cases hn : name.length ≤ 20
  · have hc : ¬ (name.length > kplMaxNameSize ∨ kplKeySize ≠ kplKeySize) := by simpa using hn
    have hl := short_name (x25519GenPrivKey host).2 hn
    rw [requestsOf, getKeyFromName, if_neg hc, if_pos hn]
    dsimp only
    rw [sendKeyApduAndDecrypt_dev, List.append_assoc, apduExchange_state hl]
    rfl
  · have hc : name.length > kplMaxNameSize ∨ kplKeySize ≠ kplKeySize := .inl (not_le.mp hn)
    rw [requestsOf, getKeyFromName, if_pos hc, if_neg hn]
    rfl

end Recorded

section Library
variable {σ : Type} {T : FaultFree σ} {sdk : Sdk} {host : Host} {approve : Bool} {name : List UInt8}
  {out : Key} {timeoutMS : UInt32} {s : σ} {d : Device}

/-- The request of a name as the app reads it. -/
theorem request_name (pub : Buf 32) (hn : name.length ≤ 20) :
    let f := (d.receive (request Instrs.getKeyFromName 0 (pub.toList ++ name)
      (short_name pub hn))).gIoApduBuffer
    f.byteAt 0 = cla ∧ f.byteAt 1 = 3 ∧ nameField f = name := by
  have hl : (pub.toList ++ name).length = 32 + name.length := by
    rw [List.length_append, List.Vector.toList_length]
  have hlc : (UInt8.ofNat (pub.toList ++ name).length).toNat = (pub.toList ++ name).length := by
    rw [UInt8.toNat_ofNat', hl]
    omega
  have hb : (request Instrs.getKeyFromName 0 (pub.toList ++ name) (short_name pub hn)).bytes =
      [cla, 3, 0, 0, UInt8.ofNat (pub.toList ++ name).length] ++ (pub.toList ++ name) := rfl
  obtain ⟨-, h₀, h₁, -⟩ := @received_ins d _ _ _ _ _ hb
  refine ⟨h₀, h₁, ?_⟩
  rw [nameField_received hb hlc.le, hlc, List.take_length]
  exact List.drop_left' (List.Vector.toList_length pub)

/-- A name that the app rejects comes back as the error for its status word. -/
theorem getKeyFromName_rejected {c : Command} {sw : UInt16} (hd : d.Resting) (hs : T.At s d)
    (hn : name.length ≤ 20)
    (hc : d.commandOf (request Instrs.getKeyFromName 0 ((x25519GenPrivKey host).2.toList ++ name)
      (short_name _ hn)) = c)
    (hst : c.isStore = false) (ha : c.isAsk = false) (hr : c.response d.nStorage = statusBytes sw)
    (hsw : parseAppSW sw ≠ .success) :
    (exec (getKeyFromName (T.exchange sdk approve) host name out timeoutMS) (some s)).1 =
      .ok (parseAppSW sw, out) := by
  have hnv : c.isStore = true → sdk.WritesNv := by simp [hst]
  obtain ⟨t, hserve, -, -⟩ := @serve_command sdk approve d _ _ hd (request_ne_nil _) hnv hc ha
  rw [hr] at hserve
  obtain ⟨s', x, -, hx, he⟩ := @exec_request _ T _ _ timeoutMS _ _ _ _ _ _ _ _ hs (short_name _ hn)
    (host.uninit (64 + swSize)) (by decide) le_rfl (Nat.le_add_left _ 64) hserve
  rw [← List.append_assoc] at he
  rw [exec_getKeyFromName hn he hx, decode_statusBytes hsw]

/-- The answers of a call, by the name. -/
theorem getKeyFromName_answers (hd : d.Resting) (hs : T.At s d) :
    (20 < name.length → (exec (getKeyFromName (T.exchange sdk approve) host name out timeoutMS)
      (some s)).1 = .ok (.libBadLength, out)) ∧
    (name = [] → (exec (getKeyFromName (T.exchange sdk approve) host name out timeoutMS)
      (some s)).1 = .ok (.protocolBadParam, out)) ∧
    (1 ≤ name.length ∧ name.length ≤ 20 → ¬ ValidName name →
      (exec (getKeyFromName (T.exchange sdk approve) host name out timeoutMS) (some s)).1 =
        .ok (.appInvalidName, out)) := by
  refine ⟨fun hn => ?_, ?_, fun hl hv => ?_⟩
  · rw [getKeyFromName, if_pos (.inl hn)]
    rfl
  · rintro rfl
    obtain ⟨h₀, h₁, hname⟩ := @request_name [] d (x25519GenPrivKey host).2 (Nat.zero_le _)
    have hc := @command_name_length d.nStorage _ h₀ h₁ (by rw [hname]; simp)
    exact getKeyFromName_rejected hd hs (Nat.zero_le _) hc rfl rfl rfl (by decide)
  · obtain ⟨h₀, h₁, hname⟩ := @request_name name d (x25519GenPrivKey host).2 hl.2
    have hc := @command_name_bad d.nStorage _ h₀ h₁ (by rw [hname]; exact hl) (by rw [hname]; exact hv)
    exact getKeyFromName_rejected hd hs hl.2 hc rfl rfl rfl (by decide)

theorem getKeyFromName_prompts (hd : d.Resting) :
    (∃ req ∈ requestsOf (getKeyFromName (recorded (T.exchange sdk approve)) host name out timeoutMS) s,
      Prompts sdk d req) ↔ ValidName name := by
  rw [requestsOf_getKeyFromName]
  by_cases hn : name.length ≤ 20
  · obtain ⟨h₀, h₁, hname⟩ := @request_name name d (x25519GenPrivKey host).2 hn
    have hstep := @step_name sdk d _ hd.ready hd.idle (request_ne_nil _) h₀ h₁
    rw [hname] at hstep
    rw [if_pos hn, ← nameOutput_display, ← prompts_iff hstep]
    simp only [List.mem_singleton, exists_eq_left]
    rfl
  · rw [if_neg hn]
    simp only [List.not_mem_nil, false_and, exists_false, false_iff]
    exact fun hv => hn hv.1.2

end Library

/-- Names are accepted by their grammar, in the library and in the app. -/
theorem names_accepted {σ : Type} (T : FaultFree σ) {s : σ} {d₀ d : Device} {tr : List (Input × Output)}
    (hd : Started d₀) (h : Run step (fun _ _ => True) d₀ tr d) (hi : d.screen = .idle) (hs : T.At s d) :
    (∀ (sdk : Sdk) (approve : Bool) (host : Host) (name : List UInt8) (out : Key) (timeoutMS : UInt32),
      ((∃ req ∈ requestsOf (getKeyFromName (recorded (T.exchange sdk approve)) host name out timeoutMS) s,
        Prompts sdk d req) ↔ ValidName name) ∧
      (20 < name.length → requestsOf (getKeyFromName (recorded (T.exchange sdk approve)) host name out
        timeoutMS) s = []) ∧
      (20 < name.length → (exec (getKeyFromName (T.exchange sdk approve) host name out timeoutMS)
        (some s)).1 = .ok (.libBadLength, out)) ∧
      (name = [] → (exec (getKeyFromName (T.exchange sdk approve) host name out timeoutMS)
        (some s)).1 = .ok (.protocolBadParam, out)) ∧
      (1 ≤ name.length ∧ name.length ≤ 20 → ¬ ValidName name →
        (exec (getKeyFromName (T.exchange sdk approve) host name out timeoutMS) (some s)).1 =
          .ok (.appInvalidName, out))) ∧
    ∀ (sdk : Sdk) (apdu : Apdu), apdu.bytes.take 2 = [cla, 3] →
      (Prompts sdk d apdu.bytes ↔ ValidName (nameField (d.receive apdu).gIoApduBuffer)) ∧
      (exec (step ⟨sdk, .apdu apdu⟩) d).1 =
        .ok (nameOutput (nameField (d.receive apdu).gIoApduBuffer)) ∧
      ∀ p1 p2 lc data, apdu.bytes = [cla, 3, p1, p2, lc] ++ data → lc.toNat ≤ data.length →
        nameField (d.receive apdu).gIoApduBuffer = (data.take lc.toNat).drop 32 := by
  have hrest : d.Resting := ⟨run_ready h (started_ready hd), hi⟩
  refine ⟨fun sdk approve host name out timeoutMS => ⟨getKeyFromName_prompts hrest, fun hn => ?_,
    getKeyFromName_answers hrest hs⟩, fun sdk apdu hins => ?_⟩
  · rw [requestsOf_getKeyFromName, if_neg (not_le.mpr hn)]
  · obtain ⟨hne, h₀, h₁⟩ := received_header hins
    have hstep := @step_name sdk d apdu hrest.ready hi hne h₀ h₁
    refine ⟨?_, hstep, fun _ _ _ _ hb hl => nameField_received hb hl⟩
    rw [prompts_iff hstep, nameOutput_display]

/-- A name of two letters raises the prompt, a letter with an accent does not. -/
theorem names_accepted_letters :
    (∃ req ∈ requestsOf (getKeyFromName (recorded (tcpFaultFree.exchange plainSdk true)) exchangeHost
        [0x64, 0x62] (Buf.zeros 32) 60000) ⟨freshDevice, [], [], 0⟩, Prompts plainSdk freshDevice req) ∧
      (exec (getKeyFromName (tcpFaultFree.exchange plainSdk true) exchangeHost [0xC3, 0xA9]
        (Buf.zeros 32) 60000) (some ⟨freshDevice, [], [], 0⟩)).1 = .ok (.appInvalidName, Buf.zeros 32) := by
  have h := (names_accepted tcpFaultFree (s := ⟨freshDevice, [], [], 0⟩) freshDevice_started (.nil _) rfl
    ⟨⟨rfl, rfl⟩, rfl⟩).1 plainSdk true exchangeHost
  obtain ⟨hp, -⟩ := h [0x64, 0x62] (Buf.zeros 32) 60000
  obtain ⟨-, -, -, -, hr⟩ := h [0xC3, 0xA9] (Buf.zeros 32) 60000
  exact ⟨hp.mpr (by simp [ValidName]), hr (by simp) (by simp [ValidName])⟩

end LedgerKeePass.Kpl
