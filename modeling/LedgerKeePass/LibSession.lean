import LedgerKeePass.AppNames
import LedgerKeePass.KplSet
import LedgerKeePass.LibPort
import LedgerKeePass.NameAcceptance

/-!
# Sessions with the whole library

A session makes `KPL` objects, works on the slots and asks for the keys of names. Over a
fault-free transport it runs as on a map of slots and a fixed table of name keys. Making an object
connects the device, and where that fails there is nothing to call until it succeeds.
-/
namespace LedgerKeePass.Kpl
open Bytes Program App

inductive LibraryOp
  | fromDevice (connected : Result)
  | slots (op : SlotCall)
  | getKeyFromName (name : List UInt8) (out : Key)

/-- A call with the SDK and libsodium during it, and the user's choice. -/
structure LibraryCall where
  sdk : Sdk
  host : Host
  approve : Bool
  timeoutMS : UInt32
  op : LibraryOp

def LibraryOp.over {σ : Type} (exchange : Exchange σ) (host : Host) (timeoutMS : UInt32) :
    LibraryOp → KplM σ (Result × List UInt8)
  | .fromDevice connected => do return (← Kpl.fromDevice exchange host connected timeoutMS, [])
  | .slots op => op.kpl.run exchange host timeoutMS
  | .getKeyFromName name out => (KplCall.getKeyFromName name out).run exchange host timeoutMS

def LibraryCall.over {σ : Type} (T : FaultFree σ) (c : LibraryCall) : KplM σ (Result × List UInt8) :=
  c.op.over (T.exchange c.sdk c.approve) c.host c.timeoutMS

/-- What a call does to the handle first. -/
def LibraryOp.connect {C : Connection} (p : Port C) : LibraryOp → Port C
  | .fromDevice connected => p.connect connected
  | .slots _ => p
  | .getKeyFromName _ _ => p

def LibraryCall.run (C : Connection) (c : LibraryCall) : Prog Fault (Port C) (Result × List UInt8) := do
  update c.op.connect
  onPort (c.over C.transport)

/-- Whether the handle is open after a call. -/
def LibraryOp.live (live : Bool) : LibraryOp → Bool
  | .fromDevice connected => connected = .success
  | .slots _ => live
  | .getKeyFromName _ _ => live

/-- A call connects, or it finds the handle open. -/
def LibraryOp.Connected (live : Bool) : LibraryOp → Prop
  | .fromDevice _ => True
  | .slots _ => live = true
  | .getKeyFromName _ _ => live = true

/-- Every call is on an object whose `connect` succeeded, with no other `connect` that failed
since. -/
def Connects (live : Bool) (ops : List LibraryOp) : Prop :=
  Follows LibraryOp.Connected LibraryOp.live live ops

/-- What a request for the key of a name ends in, where the key is `key`. -/
def nameResult (approve : Bool) (name : List UInt8) (out key : Key) : Result × Key :=
  if 20 < name.length then (.libBadLength, out)
  else if name = [] then (.protocolBadParam, out)
  else if ¬ ValidName name then (.appInvalidName, out)
  else if approve then (.success, key) else (.appUnauthorizedAccess, out)

/-- A call on a map of slots, with the table of name keys. -/
def LibraryOp.apply (names : List UInt8 → Key) (approve : Bool) (m : SlotMap) :
    LibraryOp → (Result × List UInt8) × SlotMap
  | .fromDevice connected => ((connected, []), m)
  | .slots op => op.apply approve m
  | .getKeyFromName name out =>
    let (res, key) := nameResult approve name out (names name)
    ((res, key.toList), m)

/-- The two ends exchange keys as `Call.Sound` says, and the SDK hashes and derives by fixed
functions. -/
structure LibraryCall.Sound (sha : List UInt8 → Buf 32)
    (derive : List UInt8 → List UInt32 → Buf 32 × Buf 32) (c : LibraryCall) : Prop where
  exchange : ∀ op, Call.Sound ⟨c.sdk, c.host, c.approve, c.timeoutMS, op⟩
  derives : c.sdk.Derives sha derive

section Seed
variable {σ : Type} {T : FaultFree σ} {sdk : Sdk} {host : Host} {approve : Bool} {timeoutMS : UInt32}
  {request reply name : List UInt8} {out : Key} {s : σ} {d t : Device}
  {sha : List UInt8 → Buf 32} {derive : List UInt8 → List UInt32 → Buf 32 × Buf 32}

/-- Serving a request leaves the device ready, with the seed it has. -/
theorem serveRequest_seed (hd : d.Ready) (h : serveRequest sdk approve request d = (some reply, t)) :
    t.Ready ∧ t.seed = d.seed := by
  rw [serveRequest] at h
  split at h
  · rcases he : exec (step ⟨sdk, .apdu ⟨request, _⟩⟩) d with ⟨_ | ⟨reply', disp⟩, u⟩
    · rw [he] at h
      cases h
    · have hu := step_ready hd he
      have hseed := step_seed hd he
      rw [he] at h
      cases reply' with
      | some r =>
        cases h
        exact ⟨hu, hseed⟩
      | none =>
        dsimp only at h
        rcases hp : exec (step ⟨sdk, if approve then .approve else .deny⟩) u with ⟨_ | o, v⟩
        · rw [hp] at h
          cases h
        · rw [hp] at h
          obtain rfl : v = t := congrArg Prod.snd h
          exact ⟨step_ready hu hp, (step_seed hu hp).trans hseed⟩
  · cases h

/-- The transport with a device of this seed. -/
def FaultFree.seeded (T : FaultFree σ) (seed : List UInt8) : FaultFree σ where
  exchange := T.exchange
  At s d := T.At s d ∧ d.Ready ∧ d.seed = seed
  delivers uninit timeoutMS fits hm hsw hs hr := by
    obtain ⟨s', hs', he⟩ := T.delivers uninit timeoutMS fits hm hsw hs.1 hr
    obtain ⟨hready, hseed⟩ := serveRequest_seed hs.2.1 hr
    exact ⟨s', ⟨hs', hready, hseed.trans hs.2.2⟩, he⟩

end Seed

section Names
variable {σ : Type} {T : FaultFree σ} {sdk : Sdk} {host : Host} {approve : Bool} {timeoutMS : UInt32}
  {reply name : List UInt8} {out : Key} {s : σ} {d t : Device}
  {sha : List UInt8 → Buf 32} {derive : List UInt8 → List UInt32 → Buf 32 × Buf 32}

/-- The request of a name that is short enough. -/
def nameRequest (host : Host) (name : List UInt8) (hn : name.length ≤ 20) : Apdu :=
  request Instrs.getKeyFromName 0 ((x25519GenPrivKey host).2.toList ++ name) (short_name _ hn)

theorem nameRequest_pub (hn : name.length ≤ 20) :
    (d.receive (nameRequest host name hn)).gIoApduBuffer.window 5 x25519PtSize =
      (x25519GenPrivKey host).2 := by
  set pub := (x25519GenPrivKey host).2
  have hl : (pub.toList ++ name).length = 32 + name.length := by
    rw [List.length_append, List.Vector.toList_length]
  have hb : (nameRequest host name hn).bytes =
      [cla, 3, 0, 0, UInt8.ofNat (pub.toList ++ name).length] ++ pub.toList ++ name :=
    (List.append_assoc _ _ _).symm
  have hw := @Buf.window_overwrite_infix _ d.gIoApduBuffer
    [cla, 3, 0, 0, UInt8.ofNat (pub.toList ++ name).length] pub.toList name (by
      simp only [List.length_append, List.Vector.toList_length, List.length_cons, List.length_nil,
        ioApduBufferSize]
      omega)
  rw [← hb, List.Vector.toList_length] at hw
  exact List.Vector.toList_injective hw

theorem commandOf_nameRequest (hv : ValidName name) : d.commandOf (nameRequest host name hv.1.2) =
    .ask (.getKeyFromName name (x25519GenPrivKey host).2) := by
  obtain ⟨h₀, h₁, hname⟩ := @request_name name d (x25519GenPrivKey host).2 hv.1.2
  have hcmd := @command_name_valid d.nStorage _ h₀ h₁ (by rw [hname]; exact hv)
  rw [hname] at hcmd
  exact hcmd.trans (congrArg (fun p => Command.ask (.getKeyFromName name p)) (nameRequest_pub hv.1.2))

/-- A request that the app rejects. -/
theorem replied_rejected {c : LibraryCall} {request : Apdu} {code : UInt16} (hd : d.Resting)
    (hne : request.bytes ≠ []) {cmd : Command} (hc : d.commandOf request = cmd) (hst : cmd.isStore = false)
    (ha : cmd.isAsk = false) (hr : cmd.response d.nStorage = statusBytes code)
    (hsw : parseAppSW code ≠ .success) (hnv : (cmd.effect d).nStorage = d.nStorage) :
    ∃ reply t, Replied c.sdk c.host c.approve d request out reply t (parseAppSW code) out := by
  obtain ⟨t, hserve, ht, htn⟩ := @serve_command c.sdk c.approve d _ _ hd hne (by simp [hst]) hc ha
  rw [hr] at hserve
  exact ⟨_, t, replied_status ⟨hserve, ht, htn.trans hnv⟩ hsw⟩

/-- A name that raises the prompt. -/
theorem replied_asked {c : LibraryCall} (hc : c.Sound sha derive) (hd : d.Resting) (hv : ValidName name)
    (out : Key) :
    ∃ reply t res key, Replied c.sdk c.host c.approve d (nameRequest c.host name hv.1.2) out reply t res key ∧
      (res, key) = if c.approve then (.success, nameKey sha derive d.seed name)
        else (.appUnauthorizedAccess, out) := by
  have hcmd := @commandOf_nameRequest c.host _ d hv
  have hne : (nameRequest c.host name hv.1.2).bytes ≠ [] := request_ne_nil _
  have hx := hc.exchange .eraseAllSlots
  cases happrove : c.approve with
  | false =>
    obtain ⟨t, h⟩ := @serve_denied c.sdk d _ _ hd hne hcmd
    exact ⟨_, t, _, _, replied_status h (by decide), rfl⟩
  | true =>
    obtain ⟨own, cipher, hseal, hkey⟩ := hx.seals (nameKey sha derive d.seed name)
    obtain ⟨b, ht⟩ := @exec_touchOkay_key c.sdk _ _ (asking_armed hcmd) rfl
    have hseed : (d.asking (nameRequest c.host name hv.1.2) (.getKeyFromName name
        (x25519GenPrivKey c.host).2)).seed = d.seed := rfl
    rw [Request.sealed, deriveNameKey_eq hc.derives, hseed] at ht
    dsimp only [bind, Except.bind] at ht
    rw [show sealKey c.sdk _ _ = _ from hseal] at ht
    obtain ⟨hserve, hrest, htn⟩ := serve_approved hd hne hx.writesNv hcmd ht rfl
    have hl := sealed_length own cipher
    have hdec := @decode_data _ out (keyOf c.host (x25519GenPrivKey c.host).1 (x25519GenPrivKey c.host).2)
      (own.toList ++ cipher.toList)
    rw [hl, hkey] at hdec
    refine ⟨_, _, _, _, ⟨hserve, hrest, htn, ?_, ?_, hdec⟩, rfl⟩
    · rw [List.length_append, hl]
      exact Nat.le_add_left _ 64
    · rw [List.length_append, hl]
      exact le_rfl

/-- What the device replies to a name that the library sends. -/
theorem replied_name {c : LibraryCall} (hc : c.Sound sha derive) (hd : d.Resting) (hn : name.length ≤ 20)
    (out : Key) :
    ∃ reply t res key, Replied c.sdk c.host c.approve d (nameRequest c.host name hn) out reply t res key ∧
      (res, key) = nameResult c.approve name out (nameKey sha derive d.seed name) := by
  have hne : (nameRequest c.host name hn).bytes ≠ [] := request_ne_nil _
  obtain ⟨h₀, h₁, hname⟩ := @request_name name d (x25519GenPrivKey c.host).2 hn
  rw [nameResult, if_neg (not_lt.mpr hn)]
  by_cases he : name = []
  · subst he
    have hcmd := @command_name_length d.nStorage _ h₀ h₁ (by rw [hname]; simp)
    obtain ⟨reply, t, hr⟩ := @replied_rejected out d c _ _ hd hne _ hcmd rfl rfl rfl (by decide) rfl
    exact ⟨reply, t, _, _, hr, by rw [if_pos rfl]; rfl⟩
  have hl : 1 ≤ name.length ∧ name.length ≤ 20 := ⟨List.length_pos_of_ne_nil he, hn⟩
  rw [if_neg he]
  by_cases hv : ValidName name
  · rw [if_neg (not_not.mpr hv)]
    exact replied_asked hc hd hv out
  · have hcmd := @command_name_bad d.nStorage _ h₀ h₁ (by rw [hname]; exact hl) (by rw [hname]; exact hv)
    obtain ⟨reply, t, hr⟩ := @replied_rejected out d c _ _ hd hne _ hcmd rfl rfl rfl (by decide) rfl
    exact ⟨reply, t, _, _, hr, by rw [if_pos hv]; rfl⟩

theorem exec_getKeyFromName_result {c : LibraryCall} (hc : c.Sound sha derive) (hs : T.At s d)
    (hd : d.Resting) (name : List UInt8) (out : Key) :
    ∃ s' t, exec (getKeyFromName (T.exchange c.sdk c.approve) c.host name out c.timeoutMS) (some s) =
        (.ok (nameResult c.approve name out (nameKey sha derive d.seed name)), some s') ∧
      T.At s' t ∧ t.Resting ∧ t.nStorage = d.nStorage := by
  by_cases hn : name.length ≤ 20
  · obtain ⟨reply, t, res, key, hr, hres⟩ := replied_name hc hd hn out
    obtain ⟨s', x, hs', hx, he⟩ := @exec_request _ T _ _ c.timeoutMS _ _ _ _ _ _ _ _ hs (short_name _ hn)
      (c.host.uninit (64 + swSize)) (by decide) hr.hasSw hr.fits hr.served
    rw [← List.append_assoc] at he
    have hk := @exec_getKeyFromName _ _ _ _ _ _ _ _ out _ hn he hx
    rw [hr.decoded, hres] at hk
    exact ⟨s', t, hk, hs', hr.resting, hr.storage⟩
  · rw [nameResult, if_pos (not_le.mp hn), getKeyFromName, if_pos (.inl (not_le.mp hn))]
    exact ⟨s, d, rfl, hs, hd, rfl⟩

end Names

section Session
variable {σ : Type} {T : FaultFree σ} {sdk : Sdk} {host : Host} {approve : Bool} {timeoutMS : UInt32}
  {s : σ} {d : Device} {seed : List UInt8} {sha : List UInt8 → Buf 32}
  {derive : List UInt8 → List UInt32 → Buf 32 × Buf 32}

/-- A device that is connected has the version that the library is for. -/
theorem fromDevice_simulates (connected : Result) :
    Simulates (T.Holds seed) (fromDevice (T.exchange sdk approve) host connected timeoutMS)
      fun m => (connected, m) := by
  intro dev m hdev
  by_cases hc : connected = .success
  · subst hc
    obtain ⟨s, d, rfl, hs, hd, rfl, rfl⟩ := hdev
    have hs' : (T.seeded d.seed).At s d := ⟨hs, hd.ready, rfl⟩
    obtain ⟨s₁, t, he, hs₁, ht, hst⟩ := @exec_fromDevice _ (T.seeded d.seed) sdk host approve _ _ hs' hd
      timeoutMS
    exact ⟨some s₁, he, s₁, t, rfl, hs₁.1, ht, hs₁.2.2, congrArg _ hst⟩
  · exact ⟨dev, fromDevice_failed hc dev, hdev⟩

/-- One call on a handle that is open. -/
theorem libraryCall_simulates {c : LibraryCall} (hc : c.Sound sha derive) :
    Simulates (T.Holds seed) (c.over T) (c.op.apply (nameKey sha derive seed) c.approve) := by
  obtain ⟨sdk, host, approve, timeoutMS, op⟩ := c
  cases op with
  | fromDevice connected => exact (fromDevice_simulates connected).bind fun res => Simulates.pure (res, [])
  | slots op =>
    rintro - - ⟨s, d, rfl, hs, hd, rfl, rfl⟩
    have hs' : (T.seeded d.seed).At s d := ⟨hs, hd.ready, rfl⟩
    obtain ⟨s₁, t, he, hs₁, ht, hm⟩ := call_refines (hc.exchange op) hs' hd
    exact ⟨some s₁, he, s₁, t, rfl, hs₁.1, ht, hs₁.2.2, hm⟩
  | getKeyFromName name out =>
    rintro - - ⟨s, d, rfl, hs, hd, rfl, rfl⟩
    have hs' : (T.seeded d.seed).At s d := ⟨hs, hd.ready, rfl⟩
    obtain ⟨s₁, t, he, hs₁, ht, hst⟩ := exec_getKeyFromName_result hc hs' hd name out
    exact ⟨some s₁, exec_bind_ok he, s₁, t, rfl, hs₁.1, ht, hs₁.2.2, congrArg _ hst⟩

variable {C : Connection} {live : Bool} {p : Port C} {m : SlotMap} {c : LibraryCall}

/-- A failed `connect` is all that a call is. -/
theorem exec_fromDevice_closed {connected : Result} (hc : connected ≠ .success) (d : Device) :
    exec (onPort (LibraryCall.over C.transport ⟨sdk, host, approve, timeoutMS, .fromDevice connected⟩))
      (.closed d : Port C) = (.ok (connected, []), .closed d) := by
  have hf : exec (LibraryCall.over C.transport ⟨sdk, host, approve, timeoutMS, .fromDevice connected⟩) none =
      (.ok (connected, []), none) := exec_bind_ok (fromDevice_failed hc none)
  exact @exec_within _ _ _ _ Port.handle Port.leave _ (.closed d) _ _ hf

/-- One call, which connects or finds the handle open. -/
theorem libraryCall_port (hc : c.Sound sha derive) (ho : c.op.Connected live) (hp : p.Holds seed live m) :
    ∃ p', exec (c.run C) p = (.ok (c.op.apply (nameKey sha derive seed) c.approve m).1, p') ∧
      p'.Holds seed (c.op.live live) (c.op.apply (nameKey sha derive seed) c.approve m).2 := by
  have hopen := onPort_simulates (@libraryCall_simulates _ C.transport seed _ _ c hc)
  obtain ⟨sdk, host, approve, timeoutMS, op⟩ := c
  cases op with
  | fromDevice connected =>
    have hcon := hp.connect connected
    by_cases hok : connected = .success
    · rw [decide_eq_true hok] at hcon
      rw [LibraryOp.live, decide_eq_true hok]
      exact hopen _ m hcon
    · rw [Port.connect, if_neg hok, decide_eq_false hok] at hcon
      refine ⟨.closed p.device, ?_, ?_⟩
      · rw [LibraryCall.run, exec_bind_ok (exec_update _ _), LibraryOp.connect, Port.connect, if_neg hok]
        exact exec_fromDevice_closed hok p.device
      · rw [LibraryOp.live, decide_eq_false hok]
        exact hcon
  | slots op =>
    obtain rfl : live = true := ho
    exact hopen p m hp
  | getKeyFromName name out =>
    obtain rfl : live = true := ho
    exact hopen p m hp

end Session

/-- Over every fault-free transport, a session of any calls on a started device, each on an object
that is connected, gives the results of the same calls on a map of slots and one table of name keys,
which is that of the seed. -/
theorem session_slotMap (C : Connection) {d : Device} (hd : Started d) {sha : List UInt8 → Buf 32}
    {derive : List UInt8 → List UInt32 → Buf 32 × Buf 32} (calls : List LibraryCall)
    (hc : ∀ c ∈ calls, c.Sound sha derive) (ho : Connects false (calls.map LibraryCall.op)) :
    let session := runAll (fun c => c.op.apply (nameKey sha derive d.seed) c.approve) calls
      d.nStorage.slotMap
    ∃ p, exec (calls.mapM (LibraryCall.run C)) (.closed d) = (.ok session.1, p) ∧
      p.Holds d.seed ((calls.map LibraryCall.op).foldl LibraryOp.live false) session.2 := by
  have hs : (Port.closed d : Port C).Holds d.seed false d.nStorage.slotMap :=
    .closed ⟨started_resting hd, rfl, rfl⟩
  rw [List.foldl_map]
  exact exec_mapM_follows (fun _ c hmem hcon p m hp => libraryCall_port (hc c hmem) hcon hp)
    (follows_map.mp ho) hs

/-- The SDK of `exchangeSdk` with the digests and the node of the name `"a"`. -/
def nameSdk : Sdk :=
  { exchangeSdk with
    cxHashSha256 := fun bytes => .ok (shaA bytes)
    osPersoDeriveNodeBip32 := fun seed path => .ok (deriveA seed path) }

theorem nameSdk_agrees :
    x25519 nameSdk curve25519G appPriv = .ok (some appPub) ∧
      x25519 nameSdk libPub appPriv = .ok (some sharedSecret) ∧
      exchangeHost.cryptoScalarmult libPriv appPub = some sharedSecret := by
  decide +kernel

theorem nameSdk_sound (approve : Bool) (timeoutMS : UInt32) (op : LibraryOp) :
    LibraryCall.Sound shaA deriveA ⟨nameSdk, exchangeHost, approve, timeoutMS, op⟩ where
  exchange _ :=
    { writesNv := fun _ => rfl
      agree := ⟨appPriv, appPub, sharedSecret, rfl, nameSdk_agrees⟩
      blake2b := fun _ => rfl }
  derives := ⟨fun _ => rfl, fun _ _ => rfl⟩

/-- The key of `"a"` before and after all slots are erased and the device is connected again, which
fails at first. -/
def nameCalls : List LibraryCall :=
  let call (approve : Bool) (op : LibraryOp) : LibraryCall := ⟨nameSdk, exchangeHost, approve, 60000, op⟩
  [call false (.fromDevice .success), call true (.getKeyFromName [97] (Buf.zeros _)),
    call false (.slots (.setKey 3 (List.replicate 32 5))), call true (.slots .eraseAllSlots),
    call false (.fromDevice .transportConnectionFailed), call false (.fromDevice .success),
    call true (.getKeyFromName [97] (Buf.zeros _)), call false (.slots (.getValidKeySlots []))]

theorem session_slotMap_nameA :
    ∃ p, exec (nameCalls.mapM (LibraryCall.run tcpConnection)) (.closed seededDevice) =
        (.ok [(.success, []), (.success, keyA.toList), (.success, []), (.success, []),
          (.transportConnectionFailed, []), (.success, []), (.success, keyA.toList), (.success, [])], p) ∧
      p.Holds seededDevice.seed true fun _ => none := by
  have hstart : Started seededDevice := ⟨plainSdk, .cleared, _, fun _ => rfl, exec_mainBody rfl⟩
  have hc : ∀ c ∈ nameCalls, c.Sound shaA deriveA := by simp [nameCalls, nameSdk_sound]
  have ho : Connects false (nameCalls.map LibraryCall.op) := by
    simp [nameCalls, Connects, Follows, LibraryOp.Connected, LibraryOp.live]
  have h := session_slotMap tcpConnection hstart nameCalls hc ho
  have hout : (runAll (fun c : LibraryCall => c.op.apply (nameKey shaA deriveA seededDevice.seed) c.approve)
      nameCalls seededDevice.nStorage.slotMap).1 = [(.success, []), (.success, keyA.toList),
        (.success, []), (.success, []), (.transportConnectionFailed, []), (.success, []),
        (.success, keyA.toList), (.success, [])] := by
    decide +kernel
  have hm : (runAll (fun c : LibraryCall => c.op.apply (nameKey shaA deriveA seededDevice.seed) c.approve)
      nameCalls seededDevice.nStorage.slotMap).2 = fun _ => none := by
    decide +kernel
  dsimp only at h
  rw [hout, hm] at h
  exact h

end LedgerKeePass.Kpl
