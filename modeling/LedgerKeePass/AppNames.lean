import LedgerKeePass.AppApproval

/-!
# Keys derived from names

The name of a request waits in a static buffer until its prompt is approved. The key that
is then encrypted depends on the name and the seed alone, and the derivation path of a name
holds its whole digest.
-/
namespace LedgerKeePass.App
open Bytes Program

section Path
variable {hashName : Buf 32} {path : List UInt32}

theorem pathElement_lo (hashName : Buf 32) (i : ℕ) :
    (pathElement hashName i).toUInt8 = hashName.byteAt (2 * i) := by
  rw [pathElement]
  generalize hashName.byteAt (2 * i + 1) = hi
  have hz : (hi.toUInt32 <<< 8).toUInt8 = 0 := by
    revert hi
    decide +kernel
  have hp : (0x80000000 : UInt32).toUInt8 = 0 := rfl
  rw [UInt32.toUInt8_or, UInt32.toUInt8_or, hz, hp]
  simp

theorem pathElement_hi (hashName : Buf 32) (i : ℕ) :
    (pathElement hashName i >>> 8).toUInt8 = hashName.byteAt (2 * i + 1) := by
  rw [pathElement]
  generalize hashName.byteAt (2 * i) = lo
  generalize hashName.byteAt (2 * i + 1) = hi
  have hl : ((lo.toUInt32 >>> 8 : UInt32)).toUInt8 = 0 := by
    revert lo
    decide +kernel
  have hh : (hi.toUInt32 <<< 8 >>> 8).toUInt8 = hi := by
    revert hi
    decide +kernel
  have hp : ((0x80000000 : UInt32) >>> 8).toUInt8 = 0 := rfl
  rw [UInt32.shiftRight_or, UInt32.shiftRight_or, UInt32.toUInt8_or, UInt32.toUInt8_or,
    hl, hh, hp]
  simp

/-- The digest that a path was made from. -/
def pathDigest (path : List UInt32) (i : ℕ) : UInt8 :=
  if i % 2 = 0 then (path.getD (i / 2 + 1) 0).toUInt8 else (path.getD (i / 2 + 1) 0 >>> 8).toUInt8

theorem namePath_getD {i : ℕ} (h : i < 16) :
    (namePath hashName).getD (i + 1) 0 = pathElement hashName i := by
  rw [namePath, List.getD_cons_succ, List.getD_eq_getElem _ _ (by simpa using h), List.getElem_map,
    List.getElem_range]

theorem pathDigest_namePath {i : ℕ} (h : i < 32) :
    pathDigest (namePath hashName) i = hashName.byteAt i := by
  have hi : i / 2 < 16 := by omega
  rw [pathDigest, namePath_getD hi]
  by_cases h2 : i % 2 = 0
  · have he : 2 * (i / 2) = i := by omega
    rw [if_pos h2, pathElement_lo, he]
  · have he : 2 * (i / 2) + 1 = i := by omega
    rw [if_neg h2, pathElement_hi, he]

/-- A path holds the whole digest. -/
theorem namePath_injective : Function.Injective namePath := by
  intro a b h
  apply Buf.ext_byteAt
  intro i hi
  rw [← pathDigest_namePath hi, ← pathDigest_namePath hi, h]

theorem namePath_length (hashName : Buf 32) : (namePath hashName).length = 17 := by
  simp [namePath]

theorem namePath_hardened {p : UInt32} (h : p ∈ namePath hashName) : 0x80000000 ≤ p := by
  rw [namePath, List.mem_cons, List.mem_map] at h
  rcases h with rfl | ⟨i, -, rfl⟩
  · decide
  · rw [pathElement, UInt32.le_iff_toNat_le, UInt32.toNat_or, UInt32.toNat_or]
    exact Nat.left_le_or.trans Nat.left_le_or

end Path

/-- SHA-256 and the derivation as fixed functions. -/
structure Sdk.Derives (sdk : Sdk) (sha : List UInt8 → Buf 32)
    (derive : List UInt8 → List UInt32 → Buf 32 × Buf 32) : Prop where
  cxHashSha256 : ∀ bytes, sdk.cxHashSha256 bytes = .ok (sha bytes)
  osPersoDeriveNodeBip32 : ∀ seed path, sdk.osPersoDeriveNodeBip32 seed path = .ok (derive seed path)

/-- The digest of a name and the path it is derived by. -/
def pathOf (sha : List UInt8 → Buf 32) (name : List UInt8) : List UInt32 :=
  namePath (sha (seedPrefix ++ name))

/-- The key of a name under a seed. -/
def nameKey (sha : List UInt8 → Buf 32) (derive : List UInt8 → List UInt32 → Buf 32 × Buf 32)
    (seed name : List UInt8) : Key :=
  sha ((derive seed (pathOf sha name)).1.toList ++ (derive seed (pathOf sha name)).2.toList)

/-- On the device `d` an approve press puts `key` at 32 and encrypts it there. -/
structure Encrypts (sdk : Sdk) (d : Device) (key : Key) : Prop where
  callback : d.approveCb = some .handleGetKeyFromNameAfterApprove
  runs : exec (handleGetKeyFromNameAfterApprove sdk) { d with touchTx := 0 } =
    exec (answerKey sdk d.getKeyFromNameArgs.callerPub)
      { d with touchTx := 0, gIoApduBuffer := d.gIoApduBuffer.overwrite 32 key.toList }

/-- The name that a request is for. -/
def Request.name : Request → Option (List UInt8)
  | .storeKey _ _ => none
  | .getKey _ _ => none
  | .getKeyFromName name _ => some name
  | .eraseAllSlots => none

/-- A request for the same name as the one that was asked last. -/
def SameName (r : Request) (last : Option Request) : Prop := last.map Request.name = some r.name

section Names
variable {sdk : Sdk} {sha : List UInt8 → Buf 32} {derive : List UInt8 → List UInt32 → Buf 32 × Buf 32}
  {d t u : Device} {event : Event} {o : Output} {r : Request} {apdu : Apdu}
  {last : Option Request} {name : List UInt8}

theorem deriveNameKey_eq (hsdk : sdk.Derives sha derive) (seed name : List UInt8) :
    deriveNameKey sdk seed (seedPrefix ++ name) = .ok (nameKey sha derive seed name) := by
  rw [deriveNameKey, hsdk.cxHashSha256]
  dsimp only [bind, Except.bind]
  rw [hsdk.osPersoDeriveNodeBip32]
  exact hsdk.cxHashSha256 _

theorem armed_encrypts (hsdk : sdk.Derives sha derive) {callerPub : Point}
    (ha : d.Armed (.getKeyFromName name callerPub)) : Encrypts sdk d (nameKey sha derive d.seed name) := by
  obtain ⟨buf, hb, hl⟩ := Option.map_eq_some_iff.mp (armed_name ha)
  have hkey : x25519PtSize + (nameKey sha derive d.seed name).toList.length ≤ ioApduBufferSize := by
    rw [List.Vector.toList_length]
    decide
  refine ⟨ha.1, ?_⟩
  rw [handleGetKeyFromNameAfterApprove, exec_bind_ok (exec_read _ _), hb,
    exec_bind_ok (exec_demand_some _ _ _), hl, hsdk.cxHashSha256, exec_bind_ok (exec_ofSdk_ok _),
    exec_bind_ok (exec_read _ _), hsdk.osPersoDeriveNodeBip32, exec_bind_ok (exec_ofSdk_ok _),
    hsdk.cxHashSha256, exec_bind_ok (exec_ofSdk_ok _)]
  exact (exec_bind_ok (exec_writeBuffer hkey)).trans (exec_bind_ok (exec_read _ _))

theorem setCallerPub_name (callerPub : Point) (r : Request) :
    (r.setCallerPub callerPub).name = r.name := by
  cases r <;> rfl

theorem effect_seed {c : Command} : (c.effect d).seed = d.seed := by
  cases c with
  | ask r => cases r <;> rfl
  | _ => rfl

/-- The seed is that of the start. -/
theorem step_seed (hd : d.Ready) (he : exec (step ⟨sdk, event⟩) d = (.ok o, u)) : u.seed = d.seed := by
  obtain ⟨reply, -, hr⟩ := step_reacts hd he
  cases hr with
  | command hne hnv => exact @effect_seed (d.receive _) _
  | approved hs ha hf ht hi => rw [hf.frame]
  | resetApproval hs ha hf ht =>
    rw [hf.frame]
    rfl
  | _ => rfl

/-- A prompt on display is for the name that was asked last, whatever public key it has by
now. -/
theorem sameName_step (h : Tracks SameName d last) (he : exec (step ⟨sdk, event⟩) d = (.ok o, u)) :
    Tracks SameName u (lastAsked last d ⟨sdk, event⟩) := by
  refine h.step (fun _ => rfl) (fun _ r callerPub _ _ _ _ _ hn => ?_) he
  rw [SameName, setCallerPub_name]
  exact hn

end Names

/-- An approve press on the prompt for a name encrypts the key that this name has under the
seed, whatever came before; and names with different digests have different paths. -/
theorem name_key_determined {sha : List UInt8 → Buf 32}
    {derive : List UInt8 → List UInt32 → Buf 32 × Buf 32} {d t : Device} {tr : List (Input × Output)}
    {name : List UInt8} {pub : Point} (hd : Started d)
    (h : Observed step (fun _ _ => True) lastAsked d none tr t (some (.getKeyFromName name pub)))
    (hs : t.screen = .approval) {sdk : Sdk} (hsdk : sdk.Derives sha derive) :
    t.approveLine2.cString = [39] ++ name ++ [39] ∧
      Encrypts sdk t (nameKey sha derive d.seed name) ∧
      (∀ own cipher, sealKey sdk (nameKey sha derive d.seed name) t.getKeyFromNameArgs.callerPub =
          .ok (some (own, cipher)) →
        (exec (step ⟨sdk, .approve⟩) t).1 =
          .ok ⟨some (own.toList ++ cipher.toList ++ statusBytes kplSwSuccess), none⟩) ∧
      Function.Injective namePath ∧
      (∀ hashName, (namePath hashName).length = 17 ∧ ∀ p ∈ namePath hashName, 0x80000000 ≤ p) ∧
      ∀ names : Set (List UInt8), Set.InjOn (fun n => sha (seedPrefix ++ n)) names →
        Set.InjOn (pathOf sha) names := by
  obtain ⟨hn, hseed⟩ := h.invariant (R := fun t last => Tracks SameName t last ∧ t.seed = d.seed)
    ⟨started_tracks hd, rfl⟩
    fun _ _ _ _ _ hn _ he => ⟨sameName_step hn.1 he, (step_seed hn.1.ready he).trans hn.2⟩
  obtain ⟨r, ha, hsh, -, hname⟩ := hn.shown hs
  obtain ⟨callerPub, rfl⟩ : ∃ callerPub, r = .getKeyFromName name callerPub := by
    cases r with
    | getKeyFromName n callerPub =>
      cases hname
      exact ⟨callerPub, rfl⟩
    | _ => cases hname
  have hkey := armed_encrypts hsdk ha
  rw [hseed] at hkey
  refine ⟨hsh.2, hkey, fun own cipher hc => ?_, namePath_injective, fun hashName => ?_,
    fun names hi => ?_⟩
  · have hpub : t.getKeyFromNameArgs.callerPub = callerPub := ha.2.1
    rw [hpub] at hc
    have hsealed : Request.sealed sdk t.nStorage t.seed (.getKeyFromName name callerPub) =
        .ok (some (own, cipher)) := by
      rw [Request.sealed, deriveNameKey_eq hsdk, hseed]
      exact hc
    rw [exec_step_approve hs ha hsealed]
  · exact ⟨namePath_length hashName, fun p hp => namePath_hardened hp⟩
  · exact namePath_injective.comp_injOn hi

/-- The digest of the prefixed name `"a"`. -/
def digestA : Buf 32 :=
  .ofList 32 (toBe 32 0x85f71466b52e5519be8caa41bd8c1b0e08501918c93488b24632a55eb2ab3bcc)

/-- The private key and the chain code of its path under the seed `00 01 .. 0F`. -/
def nodeA : Buf 32 × Buf 32 :=
  (.ofList 32 (toBe 32 0xa494ed84fcef369ea1e50c01a9f054fdd23f013714a0167bea79064b31ec8712),
    .ofList 32 (toBe 32 0x39bc7794df6ffe021d65fe1ee8e2d783f9f4d22a7e4aff32a18706c47de4e6f2))

def keyA : Key :=
  .ofList 32 (toBe 32 0x96f6de491e55ca523b337891626690f1508b7eb53937465916e7736ae4eb6e6e)

def shaA (bytes : List UInt8) : Buf 32 :=
  if bytes = seedPrefix ++ [97] then digestA
  else if bytes = nodeA.1.toList ++ nodeA.2.toList then keyA
  else Buf.zeros 32

def deriveA (seed : List UInt8) (path : List UInt32) : Buf 32 × Buf 32 :=
  if seed = (List.range 16).map UInt8.ofNat ∧ path = namePath digestA then nodeA
  else (Buf.zeros 32, Buf.zeros 32)

def seededDevice : Device := powerUp .cleared ((List.range 16).map UInt8.ofNat)

/-- The key of the name `"a"` under that seed. -/
theorem name_key_determined_askName :
    Encrypts { plainSdk with
        cxHashSha256 := fun bytes => .ok (shaA bytes)
        osPersoDeriveNodeBip32 := fun seed path => .ok (deriveA seed path) }
      (exec (step ⟨plainSdk, .apdu askName⟩) seededDevice).2 keyA := by
  have hstart : Started seededDevice := ⟨plainSdk, .cleared, _, fun _ => rfl, exec_mainBody rfl⟩
  have hkey : nameKey shaA deriveA seededDevice.seed [97] = keyA := by decide +kernel
  rw [← hkey]
  exact (name_key_determined hstart
    (Observed.next (o := ⟨none, some (ascii "Database open name", ascii "'a'")⟩) (.nil _ none)
      trivial (by decide +kernel)) (by decide +kernel) ⟨fun _ => rfl, fun _ _ => rfl⟩).2.1

end LedgerKeePass.App
