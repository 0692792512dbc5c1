import LedgerKeePass.AppCrash
import LedgerKeePass.LibSession

/-!
# Connections between power losses

The library connects to a device and works over the connection until the device loses power,
between two calls or in the middle of one. It connects again once the device has started again. A call that
was cut does not succeed. It took place or it did not, and what was there before stays.
-/
namespace LedgerKeePass.Kpl
open Bytes Program App

/-- The device when the power goes off while it serves a request. `pressed` says whether the user
came to press a button. -/
def serveUntilCut (sdk : Sdk) (approve pressed : Bool) (request : List UInt8) (d : Device) : Device :=
  if h : request.length ≤ ioApduBufferSize then
    match exec (step ⟨sdk, .apdu ⟨request, h⟩⟩) d with
    | (.ok ⟨none, _⟩, t) =>
      if pressed then (exec (step ⟨sdk, if approve then .approve else .deny⟩) t).2 else t
    | (_, t) => t
  else d

/-- An exchange that fails with `lost`, as the device loses power. -/
def cutExchange (sdk : Sdk) (approve pressed : Bool) (lost : Result) : Exchange Device :=
  fun request _ => do
    onHandle fun d => ((), serveUntilCut sdk approve pressed request d)
    return lost

/-- A call during which the device loses power. -/
structure CutCall where
  sdk : Sdk
  host : Host
  approve : Bool
  pressed : Bool
  lost : Result
  timeoutMS : UInt32
  op : LibraryOp

def CutCall.run (c : CutCall) : KplM Device (Result × List UInt8) :=
  c.op.over (cutExchange c.sdk c.approve c.pressed c.lost) c.host c.timeoutMS

/-- The calls over one kind of connection, until the power goes off. -/
structure Episode where
  connection : Connection
  calls : List LibraryCall
  cut : Option CutCall
  boot : Sdk

/-- The power goes off, in the middle of a call where there is one, and `main` starts again. -/
def powerOff (cut : Option CutCall) (boot : Sdk) : Prog Fault Device (List (Result × List UInt8)) := do
  let seed ← read fun d => d.seed
  let outs ← within some (fun d dev => dev.getD d) (cut.toList.mapM CutCall.run)
  update fun d => (exec (mainBody boot) (powerUp d.nStorage seed)).2
  return outs

def Episode.session (e : Episode) : Prog Fault Device (List (Result × List UInt8)) :=
  within Port.closed (fun _ p => p.device) (e.calls.mapM (LibraryCall.run e.connection))

def Episode.run (e : Episode) : Prog Fault Device (List (Result × List UInt8)) := do
  let outs ← e.session
  let last ← powerOff e.cut e.boot
  return outs ++ last

/-- What the call that was cut returned, and the map that it left. -/
inductive CutEffect (names : List UInt8 → Key) : Option CutCall → SlotMap → List (Result × List UInt8) →
    SlotMap → Prop
  | between (m : SlotMap) : CutEffect names none m [] m
  | undone (c : CutCall) (m : SlotMap) {out : Result × List UInt8} (failed : out.1 ≠ .success) :
      CutEffect names (some c) m [out] m
  | done (c : CutCall) (m : SlotMap) {out : Result × List UInt8} (failed : out.1 ≠ .success) :
      CutEffect names (some c) m [out] (c.op.apply names (c.pressed && c.approve) m).2

/-- What an episode may return and make of a map of slots. -/
def Episode.Effect (names : List UInt8 → Key) (e : Episode) (m : SlotMap)
    (outs : List (Result × List UInt8)) (n : SlotMap) : Prop :=
  let session := runAll (fun c => c.op.apply names c.approve) e.calls m
  ∃ last, outs = session.1 ++ last ∧ CutEffect names e.cut session.2 last n

/-- The calls are sound, and connect before they use the device; during the one that is cut, writes
are done until the power goes off. -/
structure Episode.Sound (sha : List UInt8 → Buf 32) (derive : List UInt8 → List UInt32 → Buf 32 × Buf 32)
    (e : Episode) : Prop where
  calls : ∀ c ∈ e.calls, c.Sound sha derive
  connects : Connects false (e.calls.map LibraryCall.op ++ e.cut.toList.map CutCall.op)
  writes : ∀ c ∈ e.cut, c.sdk.WritesUntilCut
  failed : ∀ c ∈ e.cut, c.lost ≠ .success

/-- The calls that may change a slot. -/
def LibraryOp.Writes (slot : Fin kplSlotCount) : LibraryOp → Prop
  | .slots (.setKey s _) => s.toNat = slot.val
  | .slots .eraseAllSlots => True
  | _ => False

/-- No call of the episode may change this slot. -/
structure Episode.Spares (slot : Fin kplSlotCount) (e : Episode) : Prop where
  calls : ∀ c ∈ e.calls, ¬ c.op.Writes slot
  cut : ∀ c ∈ e.cut, ¬ c.op.Writes slot

section Commands
variable {nv : InternalStorage} {m : SlotMap} {approve : Bool} {c : Command}

/-- The slots after a command and, where `approve` says so, the approval of its prompt. -/
def afterCommand (approve : Bool) (m : SlotMap) (c : Command) : SlotMap :=
  if approve then (c.slots ⟨m, none⟩).approve.slots else (c.slots ⟨m, none⟩).slots

theorem after_storeCommand (slot : UInt8) (key : Key) :
    afterCommand approve nv.slotMap (storeCommand nv slot 32 key) =
      ((SlotCall.setKey slot key.toList).apply approve nv.slotMap).2 := by
  rw [SlotCall.apply, dif_pos (List.Vector.toList_length key), storeCommand]
  by_cases hslot : slot.toNat < 8
  · rw [dif_pos hslot, dif_pos ⟨hslot, rfl⟩]
    cases hv : nv.valid slot.toNat with
    | true =>
      have hm : nv.slotMap ⟨slot.toNat, hslot⟩ = _ := slotMap_eq_some hv
      rw [if_pos rfl]
      cases approve with
      | true =>
        rw [if_pos (.inr rfl)]
        rfl
      | false =>
        rw [if_neg (by simp [hm])]
        rfl
    | false =>
      have hm : nv.slotMap ⟨slot.toNat, hslot⟩ = _ := slotMap_eq_none hv
      rw [if_neg (by simp), if_pos (.inl hm)]
      cases approve <;> rfl
  · rw [dif_neg hslot, dif_neg fun h => hslot h.1]
    cases approve <;> rfl

theorem after_getKeyCommand (p1 lc : UInt8) (callerPub : Point) :
    afterCommand approve m (getKeyCommand nv p1 lc callerPub) = m := by
  rw [getKeyCommand]
  split_ifs <;> cases approve <;> rfl

theorem after_getKeyFromNameCommand (lc : UInt8) (callerPub : Point) (name : List UInt8) :
    afterCommand approve m (getKeyFromNameCommand lc callerPub name) = m := by
  rw [getKeyFromNameCommand]
  split_ifs <;> cases approve <;> rfl

theorem apply_getKey (m : SlotMap) (slot : UInt8) (out : Key) :
    ((SlotCall.getKey slot out).apply approve m).2 = m := by
  rw [SlotCall.apply]
  split
  · split
    · rfl
    · split <;> rfl
  · rfl

end Commands

section Cut
variable {sdk : Sdk} {host : Host} {approve pressed : Bool} {lost : Result} {timeoutMS : UInt32} {m : ℕ}
  {apdu : Apdu} {c : Command} {r : Request} {slot : Fin kplSlotCount} {key : Key} {d t : Device}
  {display : Option (List UInt8 × List UInt8)} {names : List UInt8 → Key}

theorem storeKey_result (h : sdk.WritesUntilCut) (slot : Fin kplSlotCount) (key : Key)
    (nv : InternalStorage) :
    (sdk.storeKey slot key nv).1 = .ok () ∨ (sdk.storeKey slot key nv).1 = .error .powerLoss := by
  have hbit (nv') : sdk.write (.keyValids (nv'.keyValids ||| UInt8.ofNat (1 <<< slot.val))) nv' = _ ∨ _ :=
    write_cut h _ nv'
  rcases write_cut h (.key slot key) nv with hk | hk
  · rw [Sdk.storeKey, hk]
    rcases hbit (NvWrite.apply (.key slot key) nv) with hb | hb
    · dsimp only
      rw [hb]
      exact .inl rfl
    · dsimp only
      rw [hb]
      exact .inr rfl
  · rw [Sdk.storeKey, hk]
    exact .inr rfl

/-- A store that returns has been replied to. -/
theorem store_replies (hd : d.Ready) (hsdk : sdk.WritesUntilCut) (hne : apdu.bytes ≠ [])
    (hc : d.commandOf apdu = .store slot key) :
    exec (step ⟨sdk, .apdu apdu⟩) d ≠ (.ok ⟨none, display⟩, t) := by
  have hr := @exec_receiveApdu_store sdk d apdu _ _ hne hd.tx hc
  rcases storeKey_result hsdk slot key d.nStorage with h | h
  · rw [h] at hr
    rw [@exec_step_ok sdk (.apdu apdu) _ _ _ hr]
    exact fun he => by cases he
  · rw [h] at hr
    rw [@exec_step_powerLoss sdk (.apdu apdu) _ _ hr]
    exact fun he => by cases he

/-- So only a request that raised a prompt waits for a button. -/
theorem waits_ask (hd : d.Ready) (hsdk : sdk.WritesUntilCut) (hne : apdu.bytes ≠ [])
    (hs : exec (step ⟨sdk, .apdu apdu⟩) d = (.ok ⟨none, display⟩, t)) :
    ∃ r, d.commandOf apdu = .ask r := by
  cases hc : d.commandOf apdu with
  | ask r => exact ⟨r, rfl⟩
  | store slot key => exact absurd hs (store_replies hd hsdk hne hc)
  | _ =>
    rw [exec_step_command hd hne hc (by simp [Command.isStore])] at hs
    cases hs

/-- Without the approval of a prompt a command leaves what it has stored itself. -/
theorem afterCommand_same (hc : ∀ r, c ≠ .ask r) (m : SlotMap) :
    afterCommand approve m c = (c.slots ⟨m, none⟩).slots := by
  cases c with
  | ask r => exact absurd rfl (hc r)
  | _ => cases approve <;> rfl

theorem resting_implements (hd : d.Resting) : Implements d ⟨d.nStorage.slotMap, none⟩ := by
  refine ⟨hd.ready, rfl, fun h => ?_, fun _ => rfl⟩
  rw [hd.idle] at h
  cases h

/-- The button press that is cut. -/
theorem press_cut (hd : d.Resting) (hsdk : sdk.WritesUntilCut) (hc : d.commandOf apdu = .ask r) :
    Halfway (exec (step ⟨sdk, if approve then .approve else .deny⟩) (d.asking apdu r)).2
      d.nStorage.slotMap (afterCommand approve d.nStorage.slotMap (.ask r)) := by
  have hasked := (resting_implements hd).command apdu (statusBytes kplSwSuccess)
  rw [receive_command rfl, hc] at hasked
  have hcmd : command d.nStorage (d.receive apdu).gIoApduBuffer = .ask r := hc
  rw [hcmd] at hasked
  have hcut := @Implements.cut sdk (if approve then .approve else .deny) _ _ _ _ hasked hsdk
    (Prod.ext rfl rfl)
  cases approve with
  | true => exact hcut
  | false => exact hcut

/-- Wherever the power goes off, the slots are those from before the request or those that it
leaves once it is done. -/
theorem serveUntilCut_slots (hd : d.Resting) (hsdk : sdk.WritesUntilCut) (hne : apdu.bytes ≠ []) :
    Halfway (serveUntilCut sdk approve pressed apdu.bytes d) d.nStorage.slotMap
      (afterCommand (pressed && approve) d.nStorage.slotMap (d.commandOf apdu)) := by
  rw [serveUntilCut, dif_pos apdu.fits]
  by_cases hask : ∃ r, d.commandOf apdu = .ask r
  · obtain ⟨r, hc⟩ := hask
    rw [exec_step_ask hd.ready hne hc, hc]
    cases pressed with
    | true => exact press_cut hd hsdk hc
    | false =>
      refine ⟨?_, .inl ?_⟩
      · exact (congrArg InternalStorage.initialized asking_storage).trans hd.ready.initialized
      · exact congrArg InternalStorage.slotMap asking_storage
  · have hkeep := @afterCommand_same (pressed && approve) _ (fun r h => hask ⟨r, h⟩) d.nStorage.slotMap
    rcases hs : exec (step ⟨sdk, .apdu apdu⟩) d with ⟨res, t⟩
    have hcut := (resting_implements hd).cut hsdk hs
    have hn : SlotSpec.next ⟨d.nStorage.slotMap, none⟩ d ⟨sdk, .apdu apdu⟩ =
        (d.commandOf apdu).slots ⟨d.nStorage.slotMap, none⟩ := (if_neg hne).trans (receive_command rfl)
    rw [hn, ← hkeep] at hcut
    rcases res with a | ⟨_ | reply, display⟩
    · exact hcut
    · exact absurd (waits_ask hd.ready hsdk hne hs) hask
    · exact hcut

/-- The exchange fails, whatever the device has done of it. -/
theorem exec_cut {ins p1 : UInt8} {data : List UInt8} (hdata : data.length ≤ 255) (hlost : lost ≠ .success)
    (uninit : Buf m) (d : Device) :
    ∃ x, Exchanged uninit (.failed lost) x ∧
      exec (withAnswer uninit (apduExchange (cutExchange sdk approve pressed lost)
        (apduStream ins p1 0 ++ data) timeoutMS)) (some d) =
        (.ok x, some (serveUntilCut sdk approve pressed (request ins p1 data hdata).bytes d)) := by
  have hc : exec (cutExchange sdk approve pressed lost (apdu ins p1 0 data) timeoutMS)
      ⟨some d, .fresh uninit⟩ = (.ok lost, ⟨some (serveUntilCut sdk approve pressed
        (request ins p1 data hdata).bytes d), .fresh uninit⟩) := rfl
  have hx := exec_apduExchange hdata hc
  rw [if_neg fun h => hlost h.1] at hx
  exact ⟨_, .failed _ hlost, exec_withAnswer hx⟩

/-- A call that was cut: it fails, and the slots are those of before or after it. -/
def Interrupted (p : KplM Device (Result × List UInt8)) (d : Device) (after : SlotMap) : Prop :=
  ∃ out t, exec p (some d) = (.ok out, some t) ∧ out.1 ≠ .success ∧ Halfway t d.nStorage.slotMap after

/-- A call that the library refuses by itself. -/
theorem interrupted_refused {p : KplM Device (Result × List UInt8)} {out : Result × List UInt8}
    (hd : d.Resting) (h : exec p (some d) = (.ok out, some d)) (ho : out.1 ≠ .success) (after : SlotMap) :
    Interrupted p d after :=
  ⟨out, d, h, ho, hd.ready.initialized, .inl rfl⟩

theorem cut_request {ins p1 : UInt8} {data : List UInt8} (hdata : data.length ≤ 255) (hd : d.Resting)
    (hsdk : sdk.WritesUntilCut) (hc : d.commandOf (request ins p1 data hdata) = c) :
    Halfway (serveUntilCut sdk approve pressed (request ins p1 data hdata).bytes d) d.nStorage.slotMap
      (afterCommand (pressed && approve) d.nStorage.slotMap c) :=
  hc ▸ serveUntilCut_slots hd hsdk (request_ne_nil _)

theorem cut_fromDevice (hd : d.Resting) (hsdk : sdk.WritesUntilCut) (hlost : lost ≠ .success)
    (connected : Result) :
    Interrupted (LibraryOp.over (cutExchange sdk approve pressed lost) host timeoutMS (.fromDevice connected))
      d d.nStorage.slotMap := by
  by_cases hconn : connected = .success
  · subst hconn
    obtain ⟨x, hx, he⟩ := @exec_cut sdk approve pressed lost timeoutMS _ _ 0 [] (Nat.zero_le _) hlost
      (host.uninit (3 + swSize)) d
    have hk := @exec_fillAppVersion _ _ _ _ _ _ _ (Buf.zeros 3) _ he hx
    have hc := @cut_request sdk approve pressed _ _ _ _ _ (Nat.zero_le _) hd hsdk command_getAppConfiguration
    rw [afterCommand_same (by simp)] at hc
    refine ⟨(lost, []), _, exec_bind_ok (t := some _) (a := lost) ?_, hlost, hc⟩
    rw [fromDevice, if_neg (by simp), exec_bind_ok hk]
    simp only [Outcome.decode, ne_eq, hlost, not_false_eq_true, if_true]
    rfl
  · refine interrupted_refused hd (exec_bind_ok (a := connected) ?_) hconn _
    rw [fromDevice, if_pos hconn]
    rfl

theorem cut_setKey (hd : d.Resting) (hsdk : sdk.WritesUntilCut) (hlost : lost ≠ .success) (slot : UInt8)
    (key : List UInt8) :
    Interrupted (LibraryOp.over (cutExchange sdk approve pressed lost) host timeoutMS
      (.slots (.setKey slot key))) d
      ((SlotCall.setKey slot key).apply (pressed && approve) d.nStorage.slotMap).2 := by
  by_cases hl : key.length = 32
  · obtain ⟨key, rfl⟩ : ∃ k : Key, key = k.toList := ⟨⟨key, hl⟩, rfl⟩
    obtain ⟨x, hx, he⟩ := @exec_cut sdk approve pressed lost timeoutMS _ _ slot _ (short_key key) hlost
      (host.uninit (0 + swSize)) d
    have hc := @cut_request sdk approve pressed _ _ _ _ _ (short_key key) hd hsdk
      (@command_storeKey _ _ slot key)
    rw [after_storeCommand] at hc
    exact ⟨(lost, []), _, exec_bind_ok (exec_setKey hl he hx), hlost, hc⟩
  · refine interrupted_refused hd (exec_bind_ok (a := .libBadLength) ?_) (by simp) _
    rw [setKey, if_pos hl]
    rfl

theorem cut_getKey (hd : d.Resting) (hsdk : sdk.WritesUntilCut) (hlost : lost ≠ .success) (slot : UInt8)
    (out : Key) :
    Interrupted (LibraryOp.over (cutExchange sdk approve pressed lost) host timeoutMS
      (.slots (.getKey slot out))) d
      ((SlotCall.getKey slot out).apply (pressed && approve) d.nStorage.slotMap).2 := by
  obtain ⟨x, hx, he⟩ := @exec_cut sdk approve pressed lost timeoutMS _ _ slot _
    (short_key (x25519GenPrivKey host).2) hlost (host.uninit (64 + swSize)) d
  have hc := @cut_request sdk approve pressed _ _ _ _ _ (short_key (x25519GenPrivKey host).2) hd hsdk
    (@command_getKey _ _ slot _)
  rw [after_getKeyCommand] at hc
  rw [apply_getKey]
  exact ⟨(lost, out.toList), _, exec_bind_ok (exec_getKey he hx), hlost, hc⟩

theorem cut_getKeyFromName (hd : d.Resting) (hsdk : sdk.WritesUntilCut) (hlost : lost ≠ .success)
    (name : List UInt8) (out : Key) :
    Interrupted (LibraryOp.over (cutExchange sdk approve pressed lost) host timeoutMS
      (.getKeyFromName name out)) d d.nStorage.slotMap := by
  by_cases hn : name.length ≤ 20
  · obtain ⟨x, hx, he⟩ := @exec_cut sdk approve pressed lost timeoutMS _ _ 0 _
      (short_name (x25519GenPrivKey host).2 hn) hlost (host.uninit (64 + swSize)) d
    obtain ⟨h₀, h₁, -⟩ := @request_name name d (x25519GenPrivKey host).2 hn
    have hc := @cut_request sdk approve pressed _ _ _ _ _ (short_name (x25519GenPrivKey host).2 hn) hd hsdk
      (command_name h₀ h₁)
    rw [after_getKeyFromNameCommand] at hc
    rw [← List.append_assoc] at he
    exact ⟨(lost, out.toList), _, exec_bind_ok (exec_getKeyFromName hn he hx), hlost, hc⟩
  · refine interrupted_refused hd (exec_bind_ok (a := (.libBadLength, out)) ?_) (by simp) _
    rw [getKeyFromName, if_pos (.inl (not_le.mp hn))]
    rfl

theorem cut_getValidKeySlots (hd : d.Resting) (hsdk : sdk.WritesUntilCut) (hlost : lost ≠ .success)
    (out : List UInt8) :
    Interrupted (LibraryOp.over (cutExchange sdk approve pressed lost) host timeoutMS
      (.slots (.getValidKeySlots out))) d d.nStorage.slotMap := by
  obtain ⟨x, hx, he⟩ := @exec_cut sdk approve pressed lost timeoutMS _ _ 0 [] (Nat.zero_le _) hlost
    (host.uninit (1 + swSize)) d
  have hc := @cut_request sdk approve pressed _ _ _ _ _ (Nat.zero_le _) hd hsdk command_getValidKeySlots
  rw [afterCommand_same (by simp)] at hc
  exact ⟨(lost, out), _, exec_getValidKeySlots he hx, hlost, hc⟩

theorem cut_eraseAllSlots (hd : d.Resting) (hsdk : sdk.WritesUntilCut) (hlost : lost ≠ .success) :
    Interrupted (LibraryOp.over (cutExchange sdk approve pressed lost) host timeoutMS
      (.slots .eraseAllSlots)) d
      (SlotCall.eraseAllSlots.apply (pressed && approve) d.nStorage.slotMap).2 := by
  obtain ⟨x, hx, he⟩ := @exec_cut sdk approve pressed lost timeoutMS _ _ 0 [] (Nat.zero_le _) hlost
    (host.uninit (1 + swSize)) d
  have hc := @cut_request sdk approve pressed _ _ _ _ _ (Nat.zero_le _) hd hsdk command_eraseAllSlots
  refine ⟨(lost, []), _, exec_bind_ok (exec_eraseAllSlots he hx), hlost, ?_⟩
  cases hp : pressed && approve with
  | true =>
    rw [hp] at hc
    exact hc
  | false =>
    rw [hp] at hc
    exact hc

theorem cut_call {c : CutCall} (hd : d.Resting) (hsdk : c.sdk.WritesUntilCut) (hlost : c.lost ≠ .success)
    (names : List UInt8 → Key) :
    Interrupted c.run d (c.op.apply names (c.pressed && c.approve) d.nStorage.slotMap).2 := by
  obtain ⟨sdk, host, approve, pressed, lost, timeoutMS, op⟩ := c
  rcases op with connected | (⟨slot, key⟩ | ⟨slot, out⟩ | out | _) | ⟨name, out⟩
  · exact cut_fromDevice hd hsdk hlost connected
  · exact cut_setKey hd hsdk hlost slot key
  · exact cut_getKey hd hsdk hlost slot out
  · exact cut_getValidKeySlots hd hsdk hlost out
  · exact cut_eraseAllSlots hd hsdk hlost
  · exact cut_getKeyFromName hd hsdk hlost name out

end Cut

section Episodes
variable {sha : List UInt8 → Buf 32} {derive : List UInt8 → List UInt32 → Buf 32 × Buf 32}
  {names : List UInt8 → Key} {cut : Option CutCall} {boot : Sdk} {d t : Device} {seed : List UInt8}
  {m n : SlotMap} {slot : Fin kplSlotCount} {approve : Bool} {e : Episode} {op : LibraryOp}
  {outs : List (Result × List UInt8)}

/-- A device that has just started. -/
structure Starts (seed : List UInt8) (d : Device) (m : SlotMap) : Prop where
  started : Started d
  seed : d.seed = seed
  slots : d.nStorage.slotMap = m

theorem session_simulates (hc : ∀ c ∈ e.calls, c.Sound sha derive)
    (ho : Connects false (e.calls.map LibraryCall.op)) :
    Simulates (Rests seed) e.session
      (runAll (fun c => c.op.apply (nameKey sha derive seed) c.approve) e.calls) := by
  intro d m hd
  have hclosed : (Port.closed d : Port e.connection).Holds seed false m := .closed hd
  obtain ⟨p, he, hp⟩ := exec_mapM_follows
    (fun _ c hmem hcon p m hp => libraryCall_port (hc c hmem) hcon hp) (follows_map.mp ho) hclosed
  exact ⟨p.device, exec_within he, hp.rests⟩

theorem started_powerUp (hi : t.nStorage.initialized = 0x01) (boot : Sdk) (seed : List UInt8) :
    exec (mainBody boot) (powerUp t.nStorage seed) = (.ok (), powerUp t.nStorage seed) ∧
      Starts seed (powerUp t.nStorage seed) t.nStorage.slotMap :=
  ⟨exec_restart hi boot seed, ⟨plainSdk, t.nStorage, seed, fun _ => rfl, exec_restart hi _ _⟩, rfl, rfl⟩

theorem exec_powerOff (h : exec (cut.toList.mapM CutCall.run) (some d) = (.ok outs, some t))
    (hi : t.nStorage.initialized = 0x01) :
    exec (powerOff cut boot) d = (.ok outs, powerUp t.nStorage d.seed) := by
  rw [powerOff, exec_bind_ok (exec_read _ _), exec_bind_ok (exec_within h), exec_bind_ok (exec_update _ _)]
  change (Except.ok outs, (exec (mainBody boot) (powerUp t.nStorage d.seed)).2) = _
  rw [(started_powerUp hi boot d.seed).1]

theorem powerOff_permits (hd : Rests seed d m) (hw : ∀ c ∈ cut, c.sdk.WritesUntilCut)
    (hf : ∀ c ∈ cut, c.lost ≠ .success) (boot : Sdk) (names : List UInt8 → Key) :
    ∃ outs t n, exec (powerOff cut boot) d = (.ok outs, t) ∧ CutEffect names cut m outs n ∧
      Starts seed t n := by
  obtain ⟨hrest, rfl, rfl⟩ := hd
  cases cut with
  | none =>
    have hi := hrest.ready.initialized
    exact ⟨[], _, _, exec_powerOff rfl hi, .between _, (started_powerUp hi boot d.seed).2⟩
  | some c =>
    obtain ⟨out, t, hrun, hout, hhalf⟩ := cut_call hrest (hw c rfl) (hf c rfl) names
    have hlist : exec ((some c).toList.mapM CutCall.run) (some d) = (.ok [out], some t) := by
      rw [Option.toList_some, List.mapM_cons, exec_bind_ok hrun]
      rfl
    have hp := @exec_powerOff _ boot _ _ _ hlist hhalf.initialized
    have hs := (started_powerUp hhalf.initialized boot d.seed).2
    rcases hhalf.slots with hm | hm
    · rw [hm] at hs
      exact ⟨_, _, _, hp, .undone c _ hout, hs⟩
    · rw [hm] at hs
      exact ⟨_, _, _, hp, .done c _ hout, hs⟩

/-- One episode. -/
theorem episode_permits (he : e.Sound sha derive) :
    Permits (Starts seed) (e.Effect (nameKey sha derive seed)) e.run := by
  intro d m h
  have ho := (follows_append.mp he.connects).1
  obtain ⟨u, hs, hu⟩ := session_simulates he.calls ho d m ⟨started_resting h.started, h.seed, h.slots⟩
  obtain ⟨last, t, n, hp, heff, ht⟩ := powerOff_permits hu he.writes he.failed e.boot
    (nameKey sha derive seed)
  refine ⟨_, t, n, ?_, ⟨last, rfl, heff⟩, ht⟩
  rw [Episode.run, exec_bind_ok hs, exec_bind_ok hp]
  rfl

theorem update_spares {slot' : UInt8} (h : ¬ slot'.toNat = slot.val) (hs : slot'.toNat < 8)
    (value : Option Key) (m : SlotMap) : Function.update m ⟨slot'.toNat, hs⟩ value slot = m slot :=
  Function.update_of_ne (fun he => h (congrArg Fin.val he).symm) _ _

/-- A call that does not write a slot leaves it as it is. -/
theorem apply_spares (h : ¬ op.Writes slot) (m : SlotMap) : (op.apply names approve m).2 slot = m slot := by
  rcases op with connected | (⟨slot', key⟩ | ⟨slot', out⟩ | out | _) | ⟨name, out⟩
  · rfl
  · rw [LibraryOp.apply, SlotCall.apply]
    split_ifs with hl hs hw
    · exact update_spares h hs _ m
    · rfl
    · rfl
    · rfl
  · rw [LibraryOp.apply, apply_getKey]
  · rfl
  · exact absurd trivial h
  · rfl

theorem session_spares {calls : List LibraryCall} (h : ∀ c ∈ calls, ¬ c.op.Writes slot) (m : SlotMap) :
    (runAll (fun c => c.op.apply names c.approve) calls m).2 slot = m slot := by
  induction calls generalizing m with
  | nil => rfl
  | cons c calls ih =>
    have hc := @apply_spares names slot c.approve c.op (h c List.mem_cons_self) m
    rw [← hc]
    exact ih (fun c' h' => h c' (List.mem_cons_of_mem _ h')) _

theorem effect_spares (h : e.Spares slot) (he : e.Effect names m outs n) : n slot = m slot := by
  obtain ⟨last, -, hcut⟩ := he
  rw [← @session_spares names slot e.calls h.calls m]
  have hc := h.cut
  generalize e.cut = cut at hc hcut
  cases hcut with
  | between => rfl
  | undone c _ _ => rfl
  | done c _ _ => exact apply_spares (hc c rfl) _

end Episodes

/-- However often a started device is connected, used and loses power in the middle of a call, the
calls that were answered gave what they give on a map of slots and a table of name keys, each call
that was cut failed, and took place or did not. The seed and the slots that no call wrote stay, and
the device is ready for the next connection. -/
theorem durable {d : Device} (hd : Started d) {sha : List UInt8 → Buf 32}
    {derive : List UInt8 → List UInt32 → Buf 32 × Buf 32} (episodes : List Episode)
    (he : ∀ e ∈ episodes, e.Sound sha derive) :
    ∃ outs t, exec (episodes.mapM Episode.run) d = (.ok outs, t) ∧
      RunsTo (Episode.Effect (nameKey sha derive d.seed)) d.nStorage.slotMap episodes outs
        t.nStorage.slotMap ∧
      Started t ∧ t.seed = d.seed ∧
      ∀ slot, (∀ e ∈ episodes, e.Spares slot) → t.nStorage.slotMap slot = d.nStorage.slotMap slot := by
  have hrun := Permits.mapM (fun e h => @episode_permits sha derive d.seed e (he e h)) d
    d.nStorage.slotMap ⟨hd, rfl, rfl⟩
  obtain ⟨outs, t, n, hexec, hruns, ht, hseed, rfl⟩ := hrun
  refine ⟨outs, t, hexec, hruns, ht, hseed, fun slot hspares => ?_⟩
  refine hruns.invariant (I := fun m => m slot = d.nStorage.slotMap slot) rfl ?_
  rintro e hmem m outs n hm heff
  exact (effect_spares (hspares e hmem) heff).trans hm

/-- Two episodes of a device with a key in slot 3. The power goes off between the writes of a key for
slot 5, and later between two calls, where it took two attempts to connect. -/
def twoEpisodes : List Episode :=
  let call (op : LibraryOp) : LibraryCall := ⟨nameSdk, exchangeHost, true, 60000, op⟩
  [⟨tcpConnection, [call (.fromDevice .success), call (.slots (.setKey 4 (List.replicate 32 7)))],
      some ⟨cutSdk, exchangeHost, true, false, .transportTimeout, 60000,
        .slots (.setKey 5 (List.replicate 32 8))⟩, plainSdk⟩,
    ⟨usbConnection fun _ => Buf.zeros 64, [call (.fromDevice .transportConnectionFailed),
      call (.fromDevice .success), call (.slots (.getValidKeySlots []))], none, plainSdk⟩]

theorem durable_twoEpisodes :
    let key : Key := List.Vector.replicate 32 5
    ∃ outs t, exec (twoEpisodes.mapM Episode.run) (powerUp (InternalStorage.cleared.store 3 key) []) =
        (.ok outs, t) ∧ Started t ∧ t.nStorage.slotMap 3 = some key := by
  intro key
  have hstart : Started (powerUp (InternalStorage.cleared.store 3 key) []) :=
    ⟨plainSdk, _, _, fun _ => rfl, exec_mainBody rfl⟩
  have hsound : ∀ e ∈ twoEpisodes, e.Sound shaA deriveA := by
    intro e he
    simp only [twoEpisodes, List.mem_cons, List.not_mem_nil, or_false] at he
    rcases he with rfl | rfl
    · refine ⟨by simp [nameSdk_sound], ?_, ?_, ?_⟩
      · simp [Connects, Follows, LibraryOp.Connected, LibraryOp.live]
      · rintro c ⟨⟩
        exact cutSdk_cut
      · rintro c ⟨⟩
        simp
    · refine ⟨by simp [nameSdk_sound], ?_, ?_, ?_⟩
      · simp [Connects, Follows, LibraryOp.Connected, LibraryOp.live]
      · rintro c ⟨⟩
      · rintro c ⟨⟩
  have hspares : ∀ e ∈ twoEpisodes, e.Spares 3 := by
    intro e he
    simp only [twoEpisodes, List.mem_cons, List.not_mem_nil, or_false] at he
    rcases he with rfl | rfl
    · refine ⟨?_, ?_⟩
      · simp only [List.mem_cons, List.not_mem_nil, or_false, forall_eq_or_imp, forall_eq]
        exact ⟨id, (by decide : ¬ (4 : UInt8).toNat = 3)⟩
      · rintro c ⟨⟩
        exact (by decide : ¬ (5 : UInt8).toNat = 3)
    · refine ⟨by simp [LibraryOp.Writes], ?_⟩
      rintro c ⟨⟩
  obtain ⟨outs, t, he, -, ht, -, hkeep⟩ := durable hstart twoEpisodes hsound
  refine ⟨outs, t, he, ht, (hkeep 3 hspares).trans ?_⟩
  change (InternalStorage.cleared.store 3 key).slotMap 3 = some key
  rw [store_slotMap]
  exact Function.update_self _ _ _

end LedgerKeePass.Kpl
