import LedgerKeePass.LinkFaultFree
import LedgerKeePass.Simulation

/-!
# Library and app together

Over a fault-free transport a sequence of calls gives what the same sequence gives on a
partial map from slots to keys.
-/
namespace LedgerKeePass.Kpl
open Bytes Program App

/-- The calls that work on the slots. -/
inductive SlotCall
  | setKey (slot : UInt8) (key : List UInt8)
  | getKey (slot : UInt8) (out : Key)
  | getValidKeySlots (out : List UInt8)
  | eraseAllSlots

namespace SlotCall

def kpl : SlotCall → KplCall
  | .setKey slot key => .setKey slot key
  | .getKey slot out => .getKey slot out
  | .getValidKeySlots out => .getValidKeySlots out
  | .eraseAllSlots => .eraseAllSlots

end SlotCall

/-- The slots of a map that hold a key, in ascending order. -/
def occupied (m : SlotMap) : List UInt8 :=
  ((List.finRange kplSlotCount).filter fun slot => (m slot).isSome).map fun slot => UInt8.ofNat slot.val

/-- The bits that the app sends are the slots that hold a key. -/
theorem slotsOf_keyValids (nv : InternalStorage) : slotsOf nv.keyValids = occupied nv.slotMap := by
  have hv : ∀ slot : Fin kplSlotCount, (nv.slotMap slot).isSome = nv.keyValids.toNat.testBit slot.val := by
    intro slot
    rw [InternalStorage.slotMap, ← InternalStorage.valid]
    cases nv.valid slot.val <;> rfl
  simp only [occupied, hv]
  have hr : List.range 8 = (List.finRange kplSlotCount).map Fin.val := by decide
  rw [slotsOf, hr, List.filter_map, List.map_map]
  rfl

/-- A call on a map of slots: its result, what the caller's buffer holds and the map afterwards. -/
def SlotCall.apply (approve : Bool) (m : SlotMap) : SlotCall → (Result × List UInt8) × SlotMap
  | .setKey slot key =>
    if h : key.length = 32 then
      if hs : slot.toNat < 8 then
        if m ⟨slot.toNat, hs⟩ = none ∨ approve = true then
          ((.success, []), Function.update m ⟨slot.toNat, hs⟩ (some ⟨key, h⟩))
        else ((.appUnauthorizedAccess, []), m)
      else ((.protocolBadParam, []), m)
    else ((.libBadLength, []), m)
  | .getKey slot out =>
    if hs : slot.toNat < 8 then
      match m ⟨slot.toNat, hs⟩ with
      | none => ((.appEmptySlot, out.toList), m)
      | some key =>
        if approve then ((.success, key.toList), m) else ((.appUnauthorizedAccess, out.toList), m)
    else ((.protocolBadParam, out.toList), m)
  | .getValidKeySlots out => ((.success, out ++ occupied m), m)
  | .eraseAllSlots =>
    if approve then ((.success, []), fun _ => none) else ((.appUnauthorizedAccess, []), m)

/-- A call with the SDK and libsodium during it, and the user's choice. -/
structure Call where
  sdk : Sdk
  host : Host
  approve : Bool
  timeoutMS : UInt32
  op : SlotCall

/-- Persistent writes are done, the two ends of the key exchange agree, and the two
implementations of BLAKE2b-256 are one function. -/
structure Call.Sound (c : Call) : Prop where
  writesNv : c.sdk.WritesNv
  agree : ∃ priv own secret, c.sdk.cxRng = .ok priv ∧ x25519 c.sdk curve25519G priv = .ok (some own) ∧
    x25519 c.sdk (x25519GenPrivKey c.host).2 priv = .ok (some secret) ∧
    c.host.cryptoScalarmult (x25519GenPrivKey c.host).1 own = some secret
  blake2b : ∀ input, c.sdk.cxBlake2b input = .ok (c.host.cryptoGenerichash input)

section
variable {σ : Type} (T : FaultFree σ)

def Call.run (c : Call) : KplM σ (Result × List UInt8) :=
  c.op.kpl.run (T.exchange c.sdk c.approve) c.host c.timeoutMS

end

section Calls
variable {σ : Type} {T : FaultFree σ} {sdk : Sdk} {host : Host} {approve : Bool} {timeoutMS : UInt32}
  {s : σ} {d : Device}

/-- A call ends as on the map of the device's slots, and the device has the map that the call
leaves. -/
def Call.Refines (T : FaultFree σ) (c : Call) (s : σ) (d : Device) : Prop :=
  ∃ s' t, exec (c.run T) (some s) = (.ok (c.op.apply c.approve d.nStorage.slotMap).1, some s') ∧
    T.At s' t ∧ t.Resting ∧ t.nStorage.slotMap = (c.op.apply c.approve d.nStorage.slotMap).2

/-- The four ways in which the device serves a request to store a key. -/
theorem storeKey_served (hd : d.Resting) (slot : UInt8) (hnv : slot.toNat < 8 → sdk.WritesNv) (key : Key) :
    ∃ sw t, serveRequest sdk approve (request Instrs.storeKey slot key.toList (short_key key)).bytes d =
        (some (statusBytes sw), t) ∧ t.Resting ∧
      (SlotCall.setKey slot key.toList).apply approve d.nStorage.slotMap =
        ((parseAppSW sw, []), t.nStorage.slotMap) := by
  have hc : d.commandOf (request Instrs.storeKey slot key.toList (short_key key)) =
      storeCommand d.nStorage slot 32 key := command_storeKey key
  have hne : (request Instrs.storeKey slot key.toList (short_key key)).bytes ≠ [] := request_ne_nil _
  rw [SlotCall.apply, dif_pos (List.Vector.toList_length key)]
  by_cases hslot : slot.toNat < 8
  · have hnv := hnv hslot
    rw [dif_pos hslot]
    rw [storeCommand, dif_pos ⟨hslot, rfl⟩] at hc
    cases hv : d.nStorage.valid slot.toNat with
    | true =>
      have hm : d.nStorage.slotMap ⟨slot.toNat, hslot⟩ = _ := slotMap_eq_some hv
      rw [if_pos hv] at hc
      cases approve with
      | true =>
        obtain ⟨t, hr, ht, hst⟩ := serve_approved_storeKey hd hne hnv hc
        refine ⟨kplSwSuccess, t, hr, ht, ?_⟩
        rw [if_pos (.inr rfl), hst, store_slotMap]
        rfl
      | false =>
        obtain ⟨t, hr, ht, hst⟩ := @serve_denied sdk _ _ _ hd hne hc
        refine ⟨kplSwUnauthorizedAccess, t, hr, ht, ?_⟩
        rw [if_neg (by simp [hm]), hst]
        rfl
    | false =>
      have hm : d.nStorage.slotMap ⟨slot.toNat, hslot⟩ = _ := slotMap_eq_none hv
      rw [if_neg (by simp [hv])] at hc
      obtain ⟨t, hr, ht, hst⟩ := @serve_command _ approve _ _ _ hd hne (fun _ => hnv) hc rfl
      refine ⟨kplSwSuccess, t, hr, ht, ?_⟩
      rw [if_pos (.inl hm), hst]
      exact congrArg _ (store_slotMap _ _).symm
  · rw [dif_neg hslot]
    rw [storeCommand, dif_neg fun h => hslot h.1] at hc
    obtain ⟨t, hr, ht, hst⟩ := @serve_command _ approve _ _ _ hd hne (by simp [Command.isStore]) hc rfl
    refine ⟨statusWord invalidParameter, t, hr, ht, ?_⟩
    rw [hst]
    rfl

/-- `setKey` as on the map of the device's slots. -/
theorem exec_setKey_slotMap (hs : T.At s d) (hd : d.Resting) (slot : UInt8) (key : List UInt8)
    (hnv : key.length = 32 → slot.toNat < 8 → sdk.WritesNv) :
    ∃ s' t, exec (setKey (T.exchange sdk approve) host slot key timeoutMS) (some s) =
        (.ok ((SlotCall.setKey slot key).apply approve d.nStorage.slotMap).1.1, some s') ∧
      T.At s' t ∧ t.Resting ∧
      t.nStorage.slotMap = ((SlotCall.setKey slot key).apply approve d.nStorage.slotMap).2 := by
  by_cases hl : key.length = 32
  · obtain ⟨key, rfl⟩ : ∃ k : Key, key = k.toList := ⟨⟨key, hl⟩, rfl⟩
    obtain ⟨sw, t, hr, ht, hm⟩ := @storeKey_served sdk approve d hd slot (hnv hl) key
    obtain ⟨s', x, hs', hx, he⟩ := @exec_request _ T _ _ timeoutMS _ _ _ _ _ _ _ _ hs (short_key key)
      (host.uninit (0 + swSize)) (by decide) le_rfl le_rfl hr
    have hk := exec_setKey hl he hx
    rw [status_statusBytes] at hk
    rw [hm]
    exact ⟨s', t, hk, hs', ht, rfl⟩
  · refine ⟨s, d, ?_, hs, hd, ?_⟩
    · rw [SlotCall.apply, dif_neg hl, setKey, if_pos hl]
      rfl
    · rw [SlotCall.apply, dif_neg hl]

theorem apply_setKey_out (m : SlotMap) (slot : UInt8) (key : List UInt8) :
    ((SlotCall.setKey slot key).apply approve m).1.2 = [] := by
  rw [SlotCall.apply]
  split
  · split
    · split <;> rfl
    · rfl
  · rfl

theorem setKey_refines (hs : T.At s d) (hd : d.Resting) (hnv : sdk.WritesNv) (slot : UInt8)
    (key : List UInt8) : Call.Refines T ⟨sdk, host, approve, timeoutMS, .setKey slot key⟩ s d := by
  obtain ⟨s', t, hk, hs', ht, hm⟩ := @exec_setKey_slotMap _ T sdk host approve timeoutMS _ _ hs hd slot
    key fun _ _ => hnv
  refine ⟨s', t, (exec_bind_ok hk).trans ?_, hs', ht, hm⟩
  have ho := @apply_setKey_out approve d.nStorage.slotMap slot key
  exact congrArg (fun r => (Except.ok r, some s')) (Prod.ext rfl ho.symm)

theorem eraseAllSlots_served (hd : d.Resting) (hnv : sdk.WritesNv) :
    ∃ sw t, serveRequest sdk approve (request Instrs.eraseAllSlots 0 [] (Nat.zero_le _)).bytes d =
        (some (statusBytes sw), t) ∧ t.Resting ∧
      SlotCall.eraseAllSlots.apply approve d.nStorage.slotMap =
        ((parseAppSW sw, []), t.nStorage.slotMap) := by
  have hc : d.commandOf (request Instrs.eraseAllSlots 0 [] (Nat.zero_le _)) = .ask .eraseAllSlots :=
    command_eraseAllSlots
  have hne : (request Instrs.eraseAllSlots 0 [] (Nat.zero_le _)).bytes ≠ [] := request_ne_nil _
  cases approve with
  | true =>
    obtain ⟨t, hr, ht, hst⟩ := serve_approved_eraseAllSlots hd hne hnv hc
    refine ⟨kplSwSuccess, t, hr, ht, ?_⟩
    rw [hst, cleared_slotMap]
    rfl
  | false =>
    obtain ⟨t, hr, ht, hst⟩ := @serve_denied sdk _ _ _ hd hne hc
    refine ⟨kplSwUnauthorizedAccess, t, hr, ht, ?_⟩
    rw [hst]
    rfl

theorem eraseAllSlots_refines (hs : T.At s d) (hd : d.Resting) (hnv : sdk.WritesNv) :
    Call.Refines T ⟨sdk, host, approve, timeoutMS, .eraseAllSlots⟩ s d := by
  obtain ⟨sw, t, hr, ht, hm⟩ := @eraseAllSlots_served sdk approve d hd hnv
  obtain ⟨s', x, hs', hx, he⟩ := @exec_request _ T _ _ timeoutMS _ _ _ _ _ _ _ _ hs (Nat.zero_le _)
    (host.uninit (1 + swSize)) (by decide) le_rfl (Nat.le_add_left _ 1) hr
  have hk := exec_eraseAllSlots he hx
  rw [status_statusBytes] at hk
  refine ⟨s', t, ?_, hs', ht, ?_⟩
  · rw [hm]
    exact exec_bind_ok hk
  · rw [hm]

theorem getValidKeySlots_refines (hs : T.At s d) (hd : d.Resting) (hnv : sdk.WritesNv)
    (out : List UInt8) :
    Call.Refines T ⟨sdk, host, approve, timeoutMS, .getValidKeySlots out⟩ s d := by
  have hc : d.commandOf (request Instrs.getValidKeySlots 0 [] (Nat.zero_le _)) = .getValidSlots :=
    command_getValidKeySlots
  obtain ⟨t, hr, ht, hst⟩ := @serve_command _ approve _ _ _ hd (request_ne_nil _) (fun _ => hnv) hc rfl
  obtain ⟨s', x, hs', hx, he⟩ := @exec_request _ T _ _ timeoutMS _ _ _ _ _ _ _ _ hs (Nat.zero_le _)
    (host.uninit (1 + swSize)) (by decide) (Nat.le_add_left _ 1) le_rfl hr
  have hk := @exec_getValidKeySlots _ _ _ _ _ _ _ out _ he hx
  refine ⟨s', t, ?_, hs', ht, ?_⟩
  · have hd := @decode_data _ out (fun src => (.success, out ++ slotsOf (src.getD 0 0)))
      [d.nStorage.keyValids]
    rw [SlotCall.apply, ← slotsOf_keyValids]
    exact hk.trans (congrArg (fun r => (Except.ok r, some s')) hd)
  · rw [hst]
    rfl

/-- The key exchange of a call, seen from the app and from the library. -/
theorem Call.Sound.seals {c : Call} (hc : c.Sound) (key : Key) :
    ∃ own cipher, sealKey c.sdk key (x25519GenPrivKey c.host).2 = .ok (some (own, cipher)) ∧
      keyOf c.host (x25519GenPrivKey c.host).1 (x25519GenPrivKey c.host).2
        (own.toList ++ cipher.toList ++ statusBytes kplSwSuccess) = (.success, key) := by
  obtain ⟨priv, own, secret, hrng, hown, hsecret, hs⟩ := hc.agree
  refine ⟨own, _, ?_, keyOf_sealed hs rfl⟩
  simp only [sealKey, hrng, hown, hsecret, hc.blake2b, bind, Except.bind, pure, Except.pure]

/-- A request for a key is replied to, and the library makes `res` and `key` of the reply. -/
structure Replied (sdk : Sdk) (host : Host) (approve : Bool) (d : Device) (request : Apdu) (out : Key)
    (reply : List UInt8) (t : Device) (res : Result) (key : Key) : Prop where
  served : serveRequest sdk approve request.bytes d = (some reply, t)
  resting : t.Resting
  storage : t.nStorage = d.nStorage
  hasSw : swSize ≤ reply.length
  fits : reply.length ≤ 64 + swSize
  decoded : (Outcome.answered reply).decode 64 out
    (keyOf host (x25519GenPrivKey host).1 (x25519GenPrivKey host).2) = (res, key)

theorem replied_status {request : Apdu} {out : Key} {t : Device} {sw : UInt16}
    (h : serveRequest sdk approve request.bytes d = (some (statusBytes sw), t) ∧ t.Resting ∧
      t.nStorage = d.nStorage) (hsw : parseAppSW sw ≠ .success) :
    Replied sdk host approve d request out (statusBytes sw) t (parseAppSW sw) out :=
  ⟨h.1, h.2.1, h.2.2, le_rfl, Nat.le_add_left _ 64, decode_statusBytes hsw⟩

/-- The request of `getKey`. -/
def keyRequest (host : Host) (slot : UInt8) : Apdu :=
  request Instrs.getKey slot (x25519GenPrivKey host).2.toList (short_key _)

/-- The four ways in which the device serves a request for a key. -/
theorem getKey_served {c : Call} (hc : c.Sound) (hd : d.Resting) (slot : UInt8) (out : Key) :
    ∃ reply t res key,
      Replied c.sdk c.host c.approve d (keyRequest c.host slot) out reply t res key ∧
      (SlotCall.getKey slot out).apply c.approve d.nStorage.slotMap =
        ((res, key.toList), d.nStorage.slotMap) := by
  have hcmd : d.commandOf (keyRequest c.host slot) =
      getKeyCommand d.nStorage slot 32 (x25519GenPrivKey c.host).2 := command_getKey _
  have hne : (keyRequest c.host slot).bytes ≠ [] := request_ne_nil _
  have hnv := hc.writesNv
  rw [SlotCall.apply]
  by_cases hslot : slot.toNat < 8
  · rw [dif_pos hslot]
    rw [getKeyCommand, dif_pos ⟨hslot, rfl⟩] at hcmd
    cases hv : d.nStorage.valid slot.toNat with
    | true =>
      have hm : d.nStorage.slotMap ⟨slot.toNat, hslot⟩ = _ := slotMap_eq_some hv
      rw [if_pos hv] at hcmd
      rw [hm]
      cases happrove : c.approve with
      | true =>
        obtain ⟨own, cipher, hseal, hkey⟩ := hc.seals (d.nStorage.keys ⟨slot.toNat, hslot⟩)
        obtain ⟨t, hr, ht, hst⟩ := serve_approved_getKey hd hne hnv hcmd hseal
        have hl := sealed_length own cipher
        have hdec := @decode_data _ out (keyOf c.host (x25519GenPrivKey c.host).1
          (x25519GenPrivKey c.host).2) (own.toList ++ cipher.toList)
        rw [hl, hkey] at hdec
        refine ⟨_, t, _, _, ⟨hr, ht, hst, ?_, ?_, hdec⟩, rfl⟩
        · rw [List.length_append, hl]
          exact Nat.le_add_left _ 64
        · rw [List.length_append, hl]
          exact le_rfl
      | false =>
        obtain ⟨t, h⟩ := @serve_denied c.sdk _ _ _ hd hne hcmd
        exact ⟨_, t, _, _, replied_status h (by decide), rfl⟩
    | false =>
      have hm : d.nStorage.slotMap ⟨slot.toNat, hslot⟩ = _ := slotMap_eq_none hv
      rw [if_neg (by simp [hv])] at hcmd
      rw [hm]
      obtain ⟨t, h⟩ := @serve_command _ c.approve _ _ _ hd hne (fun _ => hnv) hcmd rfl
      exact ⟨_, t, _, _, replied_status h (by decide), rfl⟩
  · rw [dif_neg hslot]
    rw [getKeyCommand, dif_neg fun h => hslot h.1] at hcmd
    obtain ⟨t, h⟩ := @serve_command _ c.approve _ _ _ hd hne (fun _ => hnv) hcmd rfl
    exact ⟨_, t, _, _, replied_status h (by decide), rfl⟩

theorem getKey_refines {slot : UInt8} {out : Key}
    (hc : Call.Sound ⟨sdk, host, approve, timeoutMS, .getKey slot out⟩) (hs : T.At s d) (hd : d.Resting) :
    Call.Refines T ⟨sdk, host, approve, timeoutMS, .getKey slot out⟩ s d := by
  obtain ⟨reply, t, res, key, hk, hm⟩ := getKey_served hc hd slot out
  obtain ⟨s', x, hs', hx, he⟩ := @exec_request _ T _ _ timeoutMS _ _ _ _ _ _ _ _ hs (short_key _)
    (host.uninit (64 + swSize)) (by decide) hk.hasSw hk.fits hk.served
  have hget := @exec_getKey _ _ _ _ _ _ _ _ out _ he hx
  rw [hk.decoded] at hget
  refine ⟨s', t, ?_, hs', hk.resting, ?_⟩
  · rw [hm]
    exact exec_bind_ok hget
  · rw [hm, hk.storage]

/-- One call. -/
theorem call_refines {c : Call} (hc : c.Sound) (hs : T.At s d) (hd : d.Resting) : c.Refines T s d := by
  obtain ⟨sdk, host, approve, timeoutMS, op⟩ := c
  cases op with
  | setKey slot key => exact setKey_refines hs hd hc.writesNv slot key
  | getKey slot out => exact getKey_refines hc hs hd
  | getValidKeySlots out => exact getValidKeySlots_refines hs hd hc.writesNv out
  | eraseAllSlots => exact eraseAllSlots_refines hs hd hc.writesNv

end Calls

/-- Over every fault-free transport, every sequence of calls on a started device gives the
results of the same calls on a partial map from slots to keys. -/
theorem library_slotMap {σ : Type} (T : FaultFree σ) {s : σ} {d : Device} (hd : Started d)
    (hs : T.At s d) (calls : List Call) (hc : ∀ c ∈ calls, c.Sound) :
    let session := runAll (fun c m => c.op.apply c.approve m) calls d.nStorage.slotMap
    ∃ s' t, exec (calls.mapM (Call.run T)) (some s) = (.ok session.1, some s') ∧
      T.At s' t ∧ t.nStorage.slotMap = session.2 := by
  have hsim (c : Call) (h : c ∈ calls) :
      Simulates (fun dev m => ∃ s d, dev = some s ∧ T.At s d ∧ d.Resting ∧ d.nStorage.slotMap = m) (c.run T)
        fun m => c.op.apply c.approve m := by
    rintro - - ⟨s, d, rfl, hs, hd, rfl⟩
    obtain ⟨s', t, he, hs', ht, hm⟩ := call_refines (hc c h) hs hd
    exact ⟨some s', he, s', t, rfl, hs', ht, hm⟩
  obtain ⟨-, he, s', t, rfl, hs', -, hm⟩ :=
    Simulates.mapM hsim (some s) d.nStorage.slotMap ⟨s, d, rfl, hs, started_resting hd, rfl⟩
  exact ⟨s', t, he, hs', hm⟩

section Exchange

/-- A key pair on either side, the secret they share and the digest of what both hash. -/
def libPriv : Buf 32 :=
  .ofList 32 (toBe 32 0x0102030405060708090a0b0c0d0e0f101112131415161718191a1b1c1d1e1f20)

def libPub : Buf 32 :=
  .ofList 32 (toBe 32 0x07a37cbc142093c8b755dc1b10e86cb426374ad16aa853ed0bdfc0b2b86d1c7c)

def appPriv : Buf 32 :=
  .ofList 32 (toBe 32 0x65666768696a6b6c6d6e6f707172737475767778797a7b7c7d7e7f8081828384)

def appPub : Buf 32 :=
  .ofList 32 (toBe 32 0x5714769d116bf76436ae74bc793d2c30ad1903c59ac5273805c7e2698b410c36)

def sharedSecret : Buf 32 :=
  .ofList 32 (toBe 32 0xc9ea6a3f79a000b60b076d4afc990b272f3f0b5aaa3f0b8713c209273e363863)

def keystream : Buf 32 :=
  .ofList 32 (toBe 32 0xa95b06770680652e5a3bbc40f294cb44915b4a42767be0e02c194c573986d948)

def digest (input : List UInt8) : Buf 32 :=
  if input = sharedSecret.toList ++ libPub.toList ++ appPub.toList then keystream else Buf.zeros _

def exchangeHost : Host where
  randombytesBuf := libPriv
  cryptoScalarmultBase _ := libPub
  cryptoScalarmult priv pub := if priv = libPriv ∧ pub = appPub then some sharedSecret else none
  cryptoGenerichash := digest
  uninit := Buf.zeros

/-- An SDK that knows the two scalar multiplications of the exchange. -/
def exchangeSdk : Sdk where
  nvmWrite _ := .written
  cxRng := .ok appPriv
  cxEcfpScalarMult point scalar :=
    if scalar.toList.reverse =
        toBe 32 0x60666768696a6b6c6d6e6f707172737475767778797a7b7c7d7e7f8081828344 then
      if point.toList = 2 :: curve25519G.toList.reverse then
        .ok (some (.ofList 33 (2 :: appPub.toList.reverse)))
      else if point.toList = 2 :: libPub.toList.reverse then
        .ok (some (.ofList 33 (2 :: sharedSecret.toList.reverse)))
      else .ok none
    else .ok none
  cxBlake2b input := .ok (digest input)
  cxHashSha256 _ := .ok (Buf.zeros _)
  osPersoDeriveNodeBip32 _ _ := .ok (Buf.zeros _, Buf.zeros _)

theorem exchange_agrees :
    x25519 exchangeSdk curve25519G appPriv = .ok (some appPub) ∧
      x25519 exchangeSdk libPub appPriv = .ok (some sharedSecret) ∧
      exchangeHost.cryptoScalarmult libPriv appPub = some sharedSecret := by
  decide +kernel

theorem exchange_sound (approve : Bool) (timeoutMS : UInt32) (op : SlotCall) :
    Call.Sound ⟨exchangeSdk, exchangeHost, approve, timeoutMS, op⟩ where
  writesNv _ := rfl
  agree := ⟨appPriv, appPub, sharedSecret, rfl, exchange_agrees⟩
  blake2b _ := rfl

/-- Slot 3 is stored, read back, not overwritten without approval, and listed. -/
def exchangeCalls : List Call :=
  let call (approve : Bool) (op : SlotCall) : Call := ⟨exchangeSdk, exchangeHost, approve, 60000, op⟩
  [call false (.setKey 3 (List.replicate 32 5)), call true (.getKey 3 (Buf.zeros _)),
    call false (.setKey 3 (List.replicate 32 6)), call false (.getValidKeySlots [])]

theorem library_slotMap_exchange :
    ∃ s' t, exec (exchangeCalls.mapM (Call.run tcpFaultFree)) (some ⟨freshDevice, [], [], 0⟩) =
        (.ok [(.success, []), (.success, List.replicate 32 5), (.appUnauthorizedAccess, []),
          (.success, [3])], some s') ∧
      tcpFaultFree.At s' t ∧
      t.nStorage.slotMap = Function.update (fun _ => none) 3 (some (List.Vector.replicate 32 5)) := by
  have h := library_slotMap tcpFaultFree freshDevice_started (s := ⟨freshDevice, [], [], 0⟩)
    ⟨⟨rfl, rfl⟩, rfl⟩ exchangeCalls (by simp [exchangeCalls, exchange_sound])
  have ho : (runAll (fun (c : Call) m => c.op.apply c.approve m) exchangeCalls
      freshDevice.nStorage.slotMap).1 = [(.success, []),
      (.success, List.replicate 32 5), (.appUnauthorizedAccess, []), (.success, [3])] := by
    decide +kernel
  have hm : (runAll (fun (c : Call) m => c.op.apply c.approve m) exchangeCalls
      freshDevice.nStorage.slotMap).2 =
      Function.update (fun _ => none) 3 (some (List.Vector.replicate 32 5)) := by
    decide +kernel
  dsimp only at h
  rw [ho, hm] at h
  exact h

end Exchange

end LedgerKeePass.Kpl
