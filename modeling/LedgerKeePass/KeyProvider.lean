import LedgerKeePass.KeyForm

/-!
# Unlocking a database (`LedgerKeyProvider` of `plugin.cs`)

`GetKey` makes a `KPL` object, lists the slots and shows the form. Over a fault-free transport it
returns what was stored in a slot, or the key of a name, or no key. The next database is unlocked
once it has returned and no task of its form goes on.
-/
namespace LedgerKeePass.Kpl
open Bytes Program App CStrings

inductive GetKeyEnd
  | message (text : List UInt8)
  | form (f : KeyForm)

/-- What `GetKey` returned: the null of a failure is `some none`, and a form may be open. -/
def GetKeyEnd.returned : GetKeyEnd → Option (Option (List UInt8))
  | .message _ => some none
  | .form f => f.returned

/-- `GetKey` has returned, and has left no task behind. -/
def GetKeyEnd.Over : GetKeyEnd → Prop
  | .message _ => True
  | .form f => f.returned ≠ none ∧ f.openings = []

instance (e : GetKeyEnd) : Decidable e.Over :=
  match e with
  | .message _ => .isTrue trivial
  | .form f => inferInstanceAs (Decidable (f.returned ≠ none ∧ f.openings = []))

def toUpper (c : UInt8) : UInt8 := if 97 ≤ c ∧ c ≤ 122 then c - 32 else c

/-- The message of `showException`, none where `Msg[0]` is out of range. -/
def showException (e : KPLException) : Option (List UInt8) :=
  match e.message with
  | [] => none
  | c :: s => some (toUpper c :: s)

/-- The SDK and the host during a call, and the user's choice. -/
structure CallEnv where
  sdk : Sdk
  host : Host
  approve : Bool

/-- What happens during a call of `GetKey`: what `connect` gives, what is around the constructor
and the listing of the slots, and the inputs of the form. -/
structure Unlock where
  connected : Result
  constructing : CallEnv
  listing : CallEnv
  inputs : List FormInput

/-- `LedgerKeyProvider`: `Dev_`, and how the last `GetKey` went. -/
structure LedgerKeyProvider (C : Connection) where
  dev : Port C
  last : Option GetKeyEnd

section Unlocks
variable {σ : Type} (T : FaultFree σ) (C : Connection) (ansi : String → List UInt8)

/-- `GetKey` from where the constructor of `KPL` has connected `Dev_`. -/
def LedgerKeyProvider.getKey (u : Unlock) : KplM σ GetKeyEnd := do
  match ← KPL.new (T.exchange u.constructing.sdk u.constructing.approve) u.constructing.host
      u.connected 500 with
  | .error e => return .message (← demand .outOfBounds (showException e))
  | .ok _ =>
    match ← KPL.getValidSlots (T.exchange u.listing.sdk u.listing.approve) u.listing.host 500 with
    | .error e => return .message (← demand .outOfBounds (showException e))
    | .ok slots => return .form (← u.inputs.foldlM (FormInput.run T.exchange ansi) (KeyForm.new slots))

def LedgerKeyProvider.unlock (u : Unlock) : Prog Fault (LedgerKeyProvider C) GetKeyEnd := do
  update fun p => { p with dev := p.dev.connect u.connected }
  let e ← within (fun p => p.dev) (fun p dev => { p with dev }) (onPort (getKey C.transport ansi u))
  update fun p => { p with last := some e }
  return e

end Unlocks

section Meaning
variable (names : List UInt8 → Key) (ansi : String → List UInt8) (m : SlotMap)

def FormRequest.library : FormRequest → LibraryOp
  | .name dbName => .getKeyFromName (ansi dbName) (Buf.zeros _)
  | .slot n => .slots (.getKey (UInt8.ofNat n) (Buf.zeros _))

def FormRequest.answer (approve : Bool) (req : FormRequest) : Except KPLException (List UInt8) :=
  gave ((req.library ansi).apply names approve m).1

def FormInput.apply (f : KeyForm) : FormInput → KeyForm
  | .event e => f.react e
  | .call n _ _ approve =>
    match f.request n with
    | some req => f.callEnds n ⟨req, approve, req.answer names ansi m approve⟩
    | none => f

/-- `GetKey` on a map of slots and a table of name keys. -/
def Unlock.apply (u : Unlock) : GetKeyEnd :=
  if u.connected = .success then
    .form (u.inputs.foldl (FormInput.apply names ansi m) (KeyForm.new ((occupied m).map UInt8.toNat)))
  else .message ((showException ⟨u.connected.code, ascii (errorText u.connected)⟩).getD [])

/-- The key that a request opens. -/
def FormRequest.Opens (key : List UInt8) : FormRequest → Prop
  | .name dbName => ValidName (ansi dbName) ∧ key = (names (ansi dbName)).toList
  | .slot n => ∃ h : n < kplSlotCount, (m ⟨n, h⟩).map List.Vector.toList = some key

end Meaning

def CallEnv.Sound (sha : List UInt8 → Buf 32) (derive : List UInt8 → List UInt32 → Buf 32 × Buf 32)
    (e : CallEnv) : Prop :=
  ∀ timeoutMS op, LibraryCall.Sound sha derive ⟨e.sdk, e.host, e.approve, timeoutMS, op⟩

/-- All that is around the calls is sound. -/
structure Unlock.Sound (sha : List UInt8 → Buf 32) (derive : List UInt8 → List UInt32 → Buf 32 × Buf 32)
    (u : Unlock) : Prop where
  listing : u.listing.Sound sha derive
  inputs : ∀ n sdk host approve, .call n sdk host approve ∈ u.inputs →
    CallEnv.Sound sha derive ⟨sdk, host, approve⟩

/-- When a database is unlocked. -/
def LedgerKeyProvider.Unlocks {C : Connection} (sha : List UInt8 → Buf 32)
    (derive : List UInt8 → List UInt32 → Buf 32 × Buf 32) (p : LedgerKeyProvider C) (u : Unlock) : Prop :=
  (∀ e ∈ p.last, e.Over) ∧ u.Sound sha derive

section
variable {σ : Type} {T : FaultFree σ} {ansi : String → List UInt8} {seed : List UInt8}
  {names : List UInt8 → Key} {m : SlotMap} {sha : List UInt8 → Buf 32}
  {derive : List UInt8 → List UInt32 → Buf 32 × Buf 32}

theorem process_eq {α : Type} (res : Result) (a : α) :
    process (.result res) a =
      if res = .success then .ok a else .error ⟨res.code, ascii (errorText res)⟩ := by
  have hs : res.code = 0 ↔ res = .success := by
    cases res <;> decide
  rw [process, KPLResult.code, kplErrorStr, KPLResult.code, errorStr_code]
  by_cases h : res = .success
  · rw [if_neg (not_not.mpr (hs.mpr h)), if_pos h]
  · rw [if_pos (mt hs.mp h), if_neg h]

/-- A message can always be shown. -/
theorem showException_result (res : Result) :
    showException ⟨res.code, ascii (errorText res)⟩ ≠ none := by
  have hne := errorText_ne_nil res
  rw [showException]
  cases h : ascii (errorText res) with
  | nil => exact absurd h hne
  | cons c s => simp

theorem new_simulates (sdk : Sdk) (host : Host) (approve : Bool) (timeoutMS : UInt32) (connected : Result) :
    Simulates (T.Holds seed) (KPL.new (T.exchange sdk approve) host connected timeoutMS)
      fun m => (process (.result connected) (), m) :=
  (fromDevice_simulates connected).bind fun res => Simulates.pure (process (.result res) ())

theorem occupied_slotList (nv : InternalStorage) : SlotList (occupied nv.slotMap) :=
  slotsOf_keyValids nv ▸ slotList_slotsOf _

/-- The bytes that were written are read back. -/
theorem take_overwrite {n : ℕ} (b : Buf n) {src : List UInt8} (h : src.length ≤ n) :
    (b.overwrite 0 src).toList.take src.length = src := by
  have hl : (b.overwrite 0 src).toList = (src ++ b.toList.drop src.length).take n := by
    simp [Buf.overwrite]
  rw [hl, List.take_take, min_eq_left h, List.take_left]

theorem getValidSlots_simulates {e : CallEnv} (he : e.Sound sha derive) (timeoutMS : UInt32) :
    Simulates (T.Holds seed) (KPL.getValidSlots (T.exchange e.sdk e.approve) e.host timeoutMS)
      fun m => (.ok ((occupied m).map UInt8.toNat), m) := by
  intro handle m hs
  have hcall := he timeoutMS (.slots (.getValidKeySlots []))
  obtain ⟨handle', hx, hs'⟩ := libraryCall_simulates hcall handle m hs
  obtain ⟨s, d, rfl, -, -, -, hm⟩ := hs
  obtain ⟨s', d', rfl, hrest⟩ := id hs'
  have hlist : SlotList (occupied m) := hm ▸ occupied_slotList d.nStorage
  have hslots : exec (getValidKeySlots (T.exchange e.sdk e.approve) e.host [] timeoutMS) (some s) =
      (.ok (.success, occupied m), some s') := hx
  have hc := @exec_kplGetValidKeySlots _ _ _ _ _ kplSlotCount (Buf.zeros _) 0 _ _ _ hslots hlist
  rw [if_neg (by simp), if_pos hlist.count] at hc
  refine ⟨some s', ?_, hs'⟩
  rw [KPL.getValidSlots, exec_bind_ok hc]
  simp [kplSuccess, process_eq, take_overwrite _ hlist.count]

theorem answer_simulates {sdk : Sdk} {host : Host} {approve : Bool}
    (hc : CallEnv.Sound sha derive ⟨sdk, host, approve⟩) (req : FormRequest) :
    Simulates (T.Holds seed) (req.call T.exchange ansi sdk host approve)
      fun m => (req.answer (nameKey sha derive seed) ansi m approve, m) := by
  have hcall := (@libraryCall_simulates _ T seed _ _ _ (hc timeoutKeyMS (req.library ansi))).bind
    fun r => Simulates.pure (gave r)
  rw [call_eq]
  cases req with
  | name dbName => exact hcall
  | slot n =>
    refine hcall.congr fun m => ?_
    have hm : ((FormRequest.library ansi (.slot n)).apply (nameKey sha derive seed) approve m).2 = m := by
      rw [FormRequest.library, LibraryOp.apply, SlotCall.apply]
      split
      · split
        · rfl
        · split <;> rfl
      · rfl
    dsimp only
    rw [hm, FormRequest.answer]

theorem formInput_simulates {i : FormInput}
    (hi : ∀ n sdk host approve, i = .call n sdk host approve →
      CallEnv.Sound sha derive ⟨sdk, host, approve⟩) (f : KeyForm) :
    Simulates (T.Holds seed) (i.run T.exchange ansi f)
      fun m => (i.apply (nameKey sha derive seed) ansi m f, m) := by
  cases i with
  | event e => exact Simulates.pure _
  | call n sdk host approve =>
    rw [FormInput.run]
    simp only [FormInput.apply]
    cases f.request n with
    | none => exact Simulates.pure _
    | some req =>
      exact (answer_simulates (hi n sdk host approve rfl) req).bind fun result =>
        Simulates.pure (f.callEnds n ⟨req, approve, result⟩)

/-- Without a device `GetKey` shows a message. -/
theorem exec_getKey_failed {u : Unlock} (hc : u.connected ≠ .success) (handle : Option σ) :
    exec (LedgerKeyProvider.getKey T ansi u) handle = (.ok (u.apply names ansi m), handle) := by
  have hnew : exec (KPL.new (T.exchange u.constructing.sdk u.constructing.approve) u.constructing.host
      u.connected 500) handle = (.ok (process (.result u.connected) ()), handle) :=
    exec_bind_ok (fromDevice_failed hc handle)
  rw [LedgerKeyProvider.getKey, exec_bind_ok hnew, process_eq, if_neg hc, Unlock.apply, if_neg hc]
  have hne := showException_result u.connected
  cases hshow : showException ⟨u.connected.code, ascii (errorText u.connected)⟩ with
  | none => exact absurd hshow hne
  | some text =>
    dsimp only
    rw [hshow]
    rfl

theorem unlock_simulates {u : Unlock} (hu : u.Sound sha derive) :
    Simulates (T.Holds seed) (LedgerKeyProvider.getKey T ansi u)
      fun m => (u.apply (nameKey sha derive seed) ansi m, m) := by
  intro handle m hs
  by_cases hc : u.connected = .success
  · obtain ⟨h₁, he₁, hs₁⟩ := @new_simulates _ T seed u.constructing.sdk u.constructing.host
      u.constructing.approve 500 u.connected handle m hs
    obtain ⟨h₂, he₂, hs₂⟩ := getValidSlots_simulates hu.listing 500 h₁ m hs₁
    have hform := Simulates.foldlM (R := T.Holds seed)
      (fun i hi => @formInput_simulates _ _ ansi _ _ _ i fun n sdk host approve h =>
        hu.inputs n sdk host approve (h ▸ hi))
      (KeyForm.new ((occupied m).map UInt8.toNat))
    obtain ⟨h₃, he₃, hs₃⟩ := hform h₂ m hs₂
    rw [LedgerKeyProvider.getKey, exec_bind_ok he₁, process_eq]
    simp only [Unlock.apply, if_pos hc]
    rw [exec_bind_ok he₂]
    exact ⟨h₃, exec_bind_ok he₃, hs₃⟩
  · exact ⟨handle, exec_getKey_failed hc handle, hs⟩

/-- One database, whether `Dev_` had a handle or not. -/
theorem unlock_provider {C : Connection} {u : Unlock} (hu : u.Sound sha derive) {p : LedgerKeyProvider C}
    {live : Bool} (hp : p.dev.Holds seed live m) :
    ∃ dev live', exec (LedgerKeyProvider.unlock C ansi u) p =
        (.ok (u.apply (nameKey sha derive seed) ansi m),
          ⟨dev, some (u.apply (nameKey sha derive seed) ansi m)⟩) ∧
      dev.Holds seed live' m := by
  have hcon := hp.connect u.connected
  have hport : ∃ dev live', exec (onPort (LedgerKeyProvider.getKey C.transport ansi u))
      (p.dev.connect u.connected) = (.ok (u.apply (nameKey sha derive seed) ansi m), dev) ∧
      dev.Holds seed live' m := by
    by_cases hc : u.connected = .success
    · rw [decide_eq_true hc] at hcon
      obtain ⟨dev, he, hdev⟩ := onPort_simulates (unlock_simulates hu) _ m hcon
      exact ⟨dev, true, he, hdev⟩
    · rw [Port.connect, if_neg hc, decide_eq_false hc] at hcon
      rw [Port.connect, if_neg hc]
      have hf := @exec_getKey_failed _ C.transport ansi (nameKey sha derive seed) m u hc none
      exact ⟨_, false, @exec_within _ _ _ _ Port.handle Port.leave _ (.closed p.dev.device) _ _ hf, hcon⟩
  obtain ⟨dev, live', he, hdev⟩ := hport
  refine ⟨dev, live', ?_, hdev⟩
  rw [LedgerKeyProvider.unlock, exec_bind_ok (exec_update _ _)]
  rw [exec_bind_ok (@exec_within _ _ _ _ _ _ _ (⟨_, p.last⟩ : LedgerKeyProvider C) _ _ he)]
  rfl

/-- After any databases the device is as before, and each `GetKey` ended as on the map. -/
theorem run_provider {C : Connection} {d : Device} (hd : Started d) {tr : List (Unlock × GetKeyEnd)}
    {p : LedgerKeyProvider C}
    (h : Run (LedgerKeyProvider.unlock C ansi) (LedgerKeyProvider.Unlocks sha derive) ⟨.closed d, none⟩
      tr p) :
    (∃ live, p.dev.Holds d.seed live d.nStorage.slotMap) ∧
      ∀ c ∈ tr, c.2 = c.1.apply (nameKey sha derive d.seed) ansi d.nStorage.slotMap := by
  induction h with
  | nil => exact ⟨⟨false, .closed ⟨started_resting hd, rfl, rfl⟩⟩, fun c hc => absurd hc List.not_mem_nil⟩
  | @snoc p p' tr u e _ hu he ih =>
    obtain ⟨⟨live, hp⟩, htr⟩ := ih
    obtain ⟨dev, live', he', hdev⟩ := @unlock_provider ansi d.seed _ sha derive C u hu.2 p live hp
    obtain ⟨hout, rfl⟩ := Prod.mk.inj (he.symm.trans he')
    obtain rfl := Except.ok.inj hout
    refine ⟨⟨live', hdev⟩, fun c hc => ?_⟩
    rcases List.mem_append.mp hc with hc | hc
    · exact htr c hc
    · rw [List.mem_singleton.mp hc]

/-- A key is given for a request that opens it, and with the user's approval. -/
theorem answer_ok {approve : Bool} {req : FormRequest} {key : List UInt8}
    (hn : ∀ n, req = .slot n → n < kplSlotCount) (h : req.answer names ansi m approve = .ok key) :
    approve = true ∧ req.Opens names ansi m key := by
  cases req with
  | name dbName =>
    simp only [FormRequest.answer, FormRequest.library, LibraryOp.apply, gave, process_eq, nameResult] at h
    split_ifs at h with h₁ h₂ hv ha <;> simp_all [FormRequest.Opens]
  | slot n =>
    have hlt := hn n rfl
    have h8 : n < 8 := hlt
    have hto : (UInt8.ofNat n).toNat = n := by
      rw [UInt8.toNat_ofNat']
      omega
    simp only [FormRequest.answer, FormRequest.library, LibraryOp.apply, SlotCall.apply, gave, hto,
      dif_pos h8] at h
    cases hm : m ⟨n, h8⟩ with
    | none => simp [hm, process_eq] at h
    | some k =>
      cases approve with
      | false => simp [hm, process_eq] at h
      | true =>
        refine ⟨rfl, hlt, ?_⟩
        simpa [hm, process_eq] using h

/-- The slots that are listed exist. -/
theorem occupied_lt {n : ℕ} (h : n ∈ (occupied m).map UInt8.toNat) : n < kplSlotCount := by
  obtain ⟨slot, hs, rfl⟩ := List.mem_map.mp h
  obtain ⟨i, -, rfl⟩ := List.mem_map.mp hs
  have hi : i.val < 8 := i.isLt
  rw [UInt8.toNat_ofNat']
  exact lt_of_le_of_lt (Nat.mod_le _ _) hi

/-- A call gives a key that its request opens, and only with the user's approval. -/
def FormCall.Approved (names : List UInt8 → Key) (ansi : String → List UInt8) (m : SlotMap)
    (c : FormCall) : Prop :=
  ∀ key, c.result = .ok key → c.approve = true ∧ c.request.Opens names ansi m key

theorem apply_working {all inputs : List FormInput} (hsub : ∀ i ∈ inputs, i ∈ all) {f g : KeyForm}
    (hf : KeyForm.Working (Offered ((occupied m).map UInt8.toNat) all) (FormCall.Approved names ansi m)
      True g f) :
    KeyForm.Working (Offered ((occupied m).map UInt8.toNat) all) (FormCall.Approved names ansi m) True g
      (inputs.foldl (FormInput.apply names ansi m) f) := by
  induction inputs generalizing f with
  | nil => exact hf
  | cons i inputs ih =>
    obtain ⟨hi, hsub⟩ := List.forall_mem_cons.mp hsub
    refine ih hsub ?_
    have hr : KeyForm.Reacts (FormCall.Approved names ansi m) f i (i.apply names ansi m f) := by
      cases i with
      | event e => exact .event e
      | call n sdk host approve =>
        rw [FormInput.apply]
        cases hreq : f.request n with
        | none => exact .idle n sdk host approve
        | some req =>
          refine .call n sdk host approve hreq fun key hkey => ?_
          have hoff := hf.chosen.request hreq
          have hslot : ∀ k, req = .slot k → k < kplSlotCount := by
            rintro k rfl
            exact occupied_lt hoff
          exact answer_ok hslot hkey
    exact hr.working hf (fun text ht => .inr (ht ▸ hi)) fun _ => trivial

/-- The request that the fields of a form make. -/
def KeyForm.selected (f : KeyForm) : Option FormRequest :=
  if f.typeIndex = 0 then some (.name f.dbName) else f.slotItem.map .slot

/-- A request that opens a key is answered with it where the user approves. -/
theorem answer_opens {req : FormRequest} {key : List UInt8} (h : req.Opens names ansi m key) :
    req.answer names ansi m true = .ok key := by
  cases req with
  | name dbName =>
    obtain ⟨hv, rfl⟩ := h
    have h20 : ¬ 20 < (ansi dbName).length := not_lt.mpr hv.1.2
    have hne : ansi dbName ≠ [] := List.ne_nil_of_length_pos hv.1.1
    simp [FormRequest.answer, FormRequest.library, LibraryOp.apply, gave, process_eq, nameResult, h20, hne,
      hv]
  | slot n =>
    obtain ⟨hlt, hm⟩ := h
    have h8 : n < 8 := hlt
    have hto : (UInt8.ofNat n).toNat = n := by
      rw [UInt8.toNat_ofNat']
      omega
    obtain ⟨k, hk, rfl⟩ := Option.map_eq_some_iff.mp hm
    simp only [FormRequest.answer, FormRequest.library, LibraryOp.apply, SlotCall.apply, gave, hto,
      dif_pos h8]
    simp [hk, process_eq]

/-- The selected key is asked for, and approved on the device. -/
def approvedOpening (sdk : Sdk) (host : Host) : List FormInput :=
  [.event .clickOpen, .event (.worker 0), .event (.worker 0), .call 0 sdk host true,
    .event (.continuation 0)]

theorem opened_form {f : KeyForm} (hf : f.Phase) (hr : f.returned = none) (hb : f.btnOpen = true)
    {req : FormRequest} {key : List UInt8} (hsel : f.selected = some req)
    (hopens : req.Opens names ansi m key) (sdk : Sdk) (host : Host) :
    ((approvedOpening sdk host).foldl (FormInput.apply names ansi m) f).returned = some (some key) := by
  have ho := hf.enabled hb
  have hans := answer_opens hopens
  rw [KeyForm.selected] at hsel
  simp only [approvedOpening, List.foldl_cons, List.foldl_nil, FormInput.apply, KeyForm.react, hr, hb,
    and_self, if_true, KeyForm.openKey, ho, List.nil_append, KeyForm.worker, List.getElem?_cons_zero,
    List.set_cons_zero]
  cases ht : f.typeIndex with
  | zero =>
    obtain rfl : FormRequest.name f.dbName = req := by simpa [ht] using hsel
    simp [KeyForm.request, KeyForm.callEnds, KeyForm.continueWith, KeyForm.leave, hans, Except.mapError]
  | succ k =>
    obtain ⟨n, hn, rfl⟩ : ∃ n, f.slotItem = some n ∧ FormRequest.slot n = req := by simpa [ht] using hsel
    simp [KeyForm.request, KeyForm.callEnds, KeyForm.continueWith, KeyForm.leave, hans, Except.mapError,
      hn]

/-- A key that `GetKey` returns is that of its last call. -/
theorem apply_returned {u : Unlock} {key : List UInt8}
    (hk : (u.apply names ansi m).returned = some (some key)) :
    ∃ f earlier req, u.apply names ansi m = .form f ∧ f.calls = earlier ++ [⟨req, true, .ok key⟩] ∧
      Failed earlier ∧ Offered ((occupied m).map UInt8.toNat) u.inputs req ∧ req.Opens names ansi m key := by
  rw [Unlock.apply] at hk ⊢
  split at hk
  · next hc =>
    have hw := @apply_working ansi names m u.inputs u.inputs (fun _ h => h) _ _
      (KeyForm.working_new (fun n hn => hn) (.inl rfl))
    obtain ⟨earlier, req, approve, hcalls, hfailed⟩ := hw.phase.lastGave hk
    obtain ⟨hoff, happ⟩ := hw.chosen.calls ⟨req, approve, .ok key⟩ (by rw [hcalls]; simp)
    obtain ⟨rfl, hopens⟩ := happ key rfl
    exact ⟨_, earlier, req, if_pos hc, hcalls, hfailed, hoff, hopens⟩
  · cases hk

end

/-- Any databases unlocked one after the other over a fault-free transport: whatever the users of the
forms do and in whatever order their tasks go on, and whether `Dev_` could be connected or not,
`GetKey` ends as on the map of slots and the table of name keys, and changes neither. A key that it
returns is that of the last call of its form, which the user approved; its request was offered by the
form and opens it, and no call before gave a key. Wherever a form got to, a selected request that opens
a key returns it once it is approved. -/
theorem unlock_slotMap (C : Connection) {d : Device} (hd : Started d) (ansi : String → List UInt8)
    {sha : List UInt8 → Buf 32} {derive : List UInt8 → List UInt32 → Buf 32 × Buf 32}
    {tr : List (Unlock × GetKeyEnd)} {p : LedgerKeyProvider C}
    (h : Run (LedgerKeyProvider.unlock C ansi) (LedgerKeyProvider.Unlocks sha derive) ⟨.closed d, none⟩
      tr p) :
    let names := nameKey sha derive d.seed
    let m := d.nStorage.slotMap
    (∀ c ∈ tr, c.2 = c.1.apply names ansi m) ∧ Rests d.seed p.dev.device m ∧
    (∀ u, p.Unlocks sha derive u → ∃ p', exec (LedgerKeyProvider.unlock C ansi u) p =
      (.ok (u.apply names ansi m), p')) ∧
    (∀ c ∈ tr, ∀ key, c.2.returned = some (some key) →
      ∃ f earlier req, c.2 = .form f ∧ f.calls = earlier ++ [⟨req, true, .ok key⟩] ∧ Failed earlier ∧
        Offered ((occupied m).map UInt8.toNat) c.1.inputs req ∧ req.Opens names ansi m key) ∧
    ∀ (u : Unlock) f req key sdk host, u.apply names ansi m = .form f → f.returned = none → f.btnOpen = true →
      f.selected = some req → req.Opens names ansi m key →
      (Unlock.apply names ansi m { u with inputs := u.inputs ++ approvedOpening sdk host }).returned =
        some (some key) := by
  intro names m
  obtain ⟨⟨live, hp⟩, htr⟩ := run_provider hd h
  refine ⟨htr, hp.rests, fun u hu => ?_, fun c hc key hk => ?_,
    fun u f req key sdk host hf hr hb hsel hopens => ?_⟩
  · obtain ⟨dev, -, he, -⟩ := @unlock_provider ansi d.seed m sha derive C u hu.2 p live hp
    exact ⟨_, he⟩
  · rw [htr c hc] at hk ⊢
    exact apply_returned hk
  · rw [Unlock.apply] at hf ⊢
    split at hf
    · next hc =>
      cases hf
      have hw := @apply_working ansi names m u.inputs u.inputs (fun _ h => h) _ _
        (KeyForm.working_new (fun n hn => hn) (.inl rfl))
      rw [if_pos hc, List.foldl_append]
      exact opened_form hw.phase hr hb hsel hopens sdk host
    · cases hf

/-- The run of databases whose forms all come to their end. -/
theorem exists_run {C : Connection} {ansi : String → List UInt8} {seed : List UInt8} {m : SlotMap}
    {sha : List UInt8 → Buf 32} {derive : List UInt8 → List UInt32 → Buf 32 × Buf 32} {unlocks : List Unlock}
    (hu : ∀ u ∈ unlocks, u.Sound sha derive)
    (ho : ∀ u ∈ unlocks, (u.apply (nameKey sha derive seed) ansi m).Over) {p : LedgerKeyProvider C}
    {live : Bool} (hp : p.dev.Holds seed live m) (hlast : ∀ e ∈ p.last, e.Over) :
    ∃ p', Run (LedgerKeyProvider.unlock C ansi) (LedgerKeyProvider.Unlocks sha derive) p
      (unlocks.map fun u => (u, u.apply (nameKey sha derive seed) ansi m)) p' := by
  induction unlocks generalizing p live with
  | nil => exact ⟨p, .nil p⟩
  | cons u unlocks ih =>
    obtain ⟨hsound, hu⟩ := List.forall_mem_cons.mp hu
    obtain ⟨hover, ho⟩ := List.forall_mem_cons.mp ho
    obtain ⟨dev, live', he, hdev⟩ := @unlock_provider ansi seed m sha derive C u hsound p live hp
    obtain ⟨p', hrun⟩ := ih hu ho (p := ⟨dev, some _⟩) hdev (by simpa using hover)
    exact ⟨p', .cons ⟨hlast, hsound⟩ he hrun⟩

/-- The device cannot be connected, then a name is typed and denied, slot 3 is chosen and approved. A
second form is closed by its box while it waits for the user, who approves for nothing. -/
def unlockCalls : List Unlock :=
  let env : CallEnv := ⟨nameSdk, exchangeHost, true⟩
  let opened : List FormInput := [.event .clickOpen, .event (.worker 0), .event (.worker 0)]
  [⟨.transportConnectionFailed, env, env, []⟩,
    ⟨.success, env, env, [.event (.typeName "a")] ++ opened ++ [.call 0 nameSdk exchangeHost false,
      .event (.tick 0), .event (.continuation 0), .event (.selectType 1)] ++ opened ++
      [.call 0 nameSdk exchangeHost true, .event (.continuation 0)]⟩,
    ⟨.success, env, env, opened ++ [.event .close, .call 0 nameSdk exchangeHost true,
      .event (.continuation 0)]⟩]

theorem unlockCalls_sound : ∀ u ∈ unlockCalls, u.Sound shaA deriveA := by
  have henv : ∀ approve, CallEnv.Sound shaA deriveA ⟨nameSdk, exchangeHost, approve⟩ :=
    fun approve timeoutMS op => nameSdk_sound approve timeoutMS op
  intro u h
  simp only [unlockCalls, List.mem_cons, List.not_mem_nil, or_false] at h
  rcases h with rfl | rfl | rfl
  · exact ⟨henv true, fun n sdk host approve hi => absurd hi List.not_mem_nil⟩
  · refine ⟨henv true, fun n sdk host approve hi => ?_⟩
    simp only [List.cons_append, List.nil_append, List.mem_cons, FormInput.call.injEq, reduceCtorEq,
      List.not_mem_nil, or_false, false_or] at hi
    rcases hi with ⟨-, rfl, rfl, rfl⟩ | ⟨-, rfl, rfl, rfl⟩
    · exact henv false
    · exact henv true
  · refine ⟨henv true, fun n sdk host approve hi => ?_⟩
    simp only [List.cons_append, List.nil_append, List.mem_cons, FormInput.call.injEq, reduceCtorEq,
      List.not_mem_nil, or_false, false_or] at hi
    obtain ⟨-, rfl, rfl, rfl⟩ := hi
    exact henv true

theorem unlock_slotMap_slot3 :
    ∃ tr p, Run (LedgerKeyProvider.unlock tcpConnection ascii) (LedgerKeyProvider.Unlocks shaA deriveA)
        ⟨.closed filledDevice, none⟩ tr p ∧
      tr.map (fun c => c.2.returned) = [some none, some (some (List.replicate 32 0)), some none] ∧
      Rests filledDevice.seed p.dev.device filledDevice.nStorage.slotMap := by
  have ho : ∀ u ∈ unlockCalls, (u.apply (nameKey shaA deriveA filledDevice.seed) ascii
      filledDevice.nStorage.slotMap).Over := by
    decide +kernel
  obtain ⟨p, hrun⟩ := @exists_run tcpConnection ascii filledDevice.seed filledDevice.nStorage.slotMap
    shaA deriveA unlockCalls unlockCalls_sound ho ⟨.closed filledDevice, none⟩ false
    (.closed ⟨started_resting filledDevice_started, rfl, rfl⟩) (by simp)
  obtain ⟨htr, hrest, -⟩ := unlock_slotMap tcpConnection filledDevice_started ascii hrun
  refine ⟨_, p, hrun, ?_, hrest⟩
  rw [List.map_map]
  decide +kernel

end LedgerKeePass.Kpl
