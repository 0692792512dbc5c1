import LedgerKeePass.AppUser
import LedgerKeePass.AppApproval

/-!
# One reply for every APDU

Services of the SDK may fail or throw. As long as they throw neither an IO reset nor the
success status, and APDUs come when no prompt is on display, every APDU is answered once:
at once, or at the button press that ends its prompt.
-/
namespace LedgerKeePass.App
open Bytes Program

/-- An exception that the app turns into an error status. -/
def Fault (e : UInt16) : Prop := e ≠ 0 ∧ e ≠ exceptionIoReset ∧ e ≠ kplSwSuccess

/-- The power stays on, and services that throw do so with an error. -/
structure Sdk.Faulty (sdk : Sdk) : Prop where
  powered : ∀ w, sdk.nvmWrite w ≠ .powerLoss
  nvmWrite : ∀ w e, sdk.nvmWrite w = .thrown e → Fault e
  cxRng : ∀ e, sdk.cxRng = .error e → Fault e
  cxEcfpScalarMult : ∀ point scalar e, sdk.cxEcfpScalarMult point scalar = .error e → Fault e
  cxBlake2b : ∀ data e, sdk.cxBlake2b data = .error e → Fault e
  cxHashSha256 : ∀ data e, sdk.cxHashSha256 data = .error e → Fault e
  osPersoDeriveNodeBip32 : ∀ seed path e, sdk.osPersoDeriveNodeBip32 seed path = .error e → Fault e

/-- Non-empty APDUs while no prompt is on display, and button presses. -/
def Paced (d : Device) (i : Input) : Prop :=
  i.sdk.Faulty ∧ match i.event with
    | .apdu apdu => apdu.bytes ≠ [] ∧ d.screen = .idle
    | .approve => True
    | .deny => True
    | .ioReset => False

/-- The data of a successful reply to a command. -/
inductive Command.Data (sdk : Sdk) (d : Device) : Command → List UInt8 → Prop
  | version : Data sdk d .getAppConfiguration
      [ledgerMajorVersion, ledgerMinorVersion, ledgerPatchVersion]
  | bitfield : Data sdk d .getValidSlots [d.nStorage.keyValids]
  | store (slot : Fin kplSlotCount) (key : Key) : Data sdk d (.store slot key) []
  | key {r : Request} {own : Point} {cipher : Key}
      (h : r.sealed sdk d.nStorage d.seed = .ok (some (own, cipher))) :
      Data sdk d (.ask r) (own.toList ++ cipher.toList)
  | written {r : Request} (h : r.isKey = false) : Data sdk d (.ask r) []

/-- A reply carries the data of its command with the success status, or an error status
alone. -/
def Answers (sdk : Sdk) (d : Device) (c : Command) (reply : List UInt8) : Prop :=
  ∃ data sw, reply = data ++ statusBytes sw ∧ (sw = kplSwSuccess → c.Data sdk d data) ∧
    (sw ≠ kplSwSuccess → data = [])

/-- Runs in which every APDU is answered once, at once or at the button press that ends its
prompt. The last index is the command whose prompt is on display. -/
inductive Replies (d : Device) : List (Input × Output) → Device → Option Command → Prop
  | nil : Replies d [] d none
  | answered {tr : List (Input × Output)} {t u : Device} {sdk : Sdk} {apdu : Apdu}
      {reply : List UInt8} (prior : Replies d tr t none)
      (last : exec (step ⟨sdk, .apdu apdu⟩) t = (.ok ⟨some reply, none⟩, u))
      (hr : Answers sdk t (t.commandOf apdu) reply) :
      Replies d (tr ++ [(⟨sdk, .apdu apdu⟩, ⟨some reply, none⟩)]) u none
  | prompted {tr : List (Input × Output)} {t u : Device} {sdk : Sdk} {apdu : Apdu}
      {texts : List UInt8 × List UInt8} (prior : Replies d tr t none)
      (last : exec (step ⟨sdk, .apdu apdu⟩) t = (.ok ⟨none, some texts⟩, u)) :
      Replies d (tr ++ [(⟨sdk, .apdu apdu⟩, ⟨none, some texts⟩)]) u (some (t.commandOf apdu))
  | pressed {tr : List (Input × Output)} {t u : Device} {sdk : Sdk} {event : Event} {c : Command}
      {reply : List UInt8} (prior : Replies d tr t (some c)) (he : event = .approve ∨ event = .deny)
      (last : exec (step ⟨sdk, event⟩) t = (.ok ⟨some reply, none⟩, u))
      (hr : Answers sdk t c reply) :
      Replies d (tr ++ [(⟨sdk, event⟩, ⟨some reply, none⟩)]) u none
  | ignored {tr : List (Input × Output)} {t : Device} {sdk : Sdk} {event : Event}
      (prior : Replies d tr t none) (he : event = .approve ∨ event = .deny)
      (last : exec (step ⟨sdk, event⟩) t = (.ok ⟨none, none⟩, t)) :
      Replies d (tr ++ [(⟨sdk, event⟩, ⟨none, none⟩)]) t none

section Faults
variable {sdk : Sdk} {nv : InternalStorage} {e : UInt16}

theorem statusWord_ne (h : e ≠ kplSwSuccess) : statusWord e ≠ kplSwSuccess := by
  unfold statusWord
  split
  · exact h
  split
  · exact h
  · intro hs
    have hbit : (0x6800 ||| (e &&& 0x7FF)).toNat.testBit 15 = kplSwSuccess.toNat.testBit 15 := by
      rw [hs]
    rw [UInt16.toNat_or, UInt16.toNat_and, Nat.testBit_or, Nat.testBit_and] at hbit
    have h₁ : (0x6800 : UInt16).toNat.testBit 15 = false := by decide
    have h₂ : (0x7FF : UInt16).toNat.testBit 15 = false := by decide
    have h₃ : kplSwSuccess.toNat.testBit 15 = true := by decide
    rw [h₁, h₂, h₃, Bool.and_false] at hbit
    cases hbit

/-- A chain of services fails where one of them does. -/
theorem bind_error {α β : Type} {x : Except UInt16 α} {f : α → Except UInt16 β}
    (h : x >>= f = .error e) : x = .error e ∨ ∃ a, f a = .error e := by
  rcases x with e' | a
  · cases h
    exact .inl rfl
  · exact .inr ⟨a, h⟩

theorem x25519_fault (h : sdk.Faulty) {pub : Point} {priv : Buf x25519ScalarSize}
    (he : x25519 sdk pub priv = .error e) : Fault e := by
  rcases bind_error he with hs | ⟨_ | out, he⟩
  · exact h.cxEcfpScalarMult _ _ _ hs
  · cases he
  · cases he

theorem sealKey_fault (h : sdk.Faulty) {key : Key} {callerPub : Point}
    (he : sealKey sdk key callerPub = .error e) : Fault e := by
  rcases bind_error he with hs | ⟨priv, he⟩
  · exact h.cxRng _ hs
  rcases bind_error he with hs | ⟨_ | own, he⟩
  · exact x25519_fault h hs
  · cases he
  rcases bind_error he with hs | ⟨_ | secret, he⟩
  · exact x25519_fault h hs
  · cases he
  rcases bind_error he with hs | ⟨keystream, he⟩
  · exact h.cxBlake2b _ _ hs
  · cases he

theorem deriveNameKey_fault (h : sdk.Faulty) {seed name : List UInt8}
    (he : deriveNameKey sdk seed name = .error e) : Fault e := by
  rcases bind_error he with hs | ⟨hashName, he⟩
  · exact h.cxHashSha256 _ _ hs
  rcases bind_error he with hs | ⟨tmp, he⟩
  · exact h.osPersoDeriveNodeBip32 _ _ _ hs
  · exact h.cxHashSha256 _ _ he

theorem sealed_fault (h : sdk.Faulty) {seed : List UInt8} {r : Request}
    (he : r.sealed sdk nv seed = .error e) : Fault e := by
  cases r with
  | getKey slot callerPub => exact sealKey_fault h he
  | getKeyFromName name callerPub =>
    rcases bind_error he with hs | ⟨key, he⟩
    · exact deriveNameKey_fault h hs
    · exact sealKey_fault h he
  | storeKey slot key => cases he
  | eraseAllSlots => cases he

theorem write_fault (h : sdk.Faulty) {w : NvWrite} {a : Abort}
    (he : (sdk.write w nv).1 = .error a) : ∃ e, a = .thrown e ∧ Fault e := by
  rcases write_cases sdk w nv with hw | hw | ⟨e, ht, hw⟩ | ⟨hp, -⟩
  · rw [hw] at he
    cases he
  · rw [hw] at he
    cases he
  · rw [hw] at he
    cases he
    exact ⟨e, rfl, h.nvmWrite w e ht⟩
  · exact absurd hp (h.powered w)

theorem storeKey_fault (h : sdk.Faulty) {slot : Fin kplSlotCount} {key : Key} {a : Abort}
    (he : (sdk.storeKey slot key nv).1 = .error a) : ∃ e, a = .thrown e ∧ Fault e := by
  have hw := fun a => @write_fault sdk nv h (.key slot key) a
  rw [Sdk.storeKey] at he
  generalize sdk.write (.key slot key) nv = w at he hw
  rcases w with ⟨a' | _, nv'⟩
  · cases he
    exact hw _ rfl
  · exact write_fault h he

theorem Request.write_fault (h : sdk.Faulty) {r : Request} {a : Abort}
    (he : (r.write sdk nv).1 = .error a) : ∃ e, a = .thrown e ∧ Fault e := by
  cases r with
  | storeKey slot key => exact storeKey_fault h he
  | eraseAllSlots => exact App.write_fault h he
  | getKey slot callerPub => cases he
  | getKeyFromName name callerPub => cases he

/-- Writes that end normally or with a fault are answered. -/
theorem caught_fault {r : Except Abort Unit} (h : ∀ a, r = .error a → ∃ e, a = .thrown e ∧ Fault e) :
    ∃ sw, caught r = .ok sw := by
  rcases r with a | _
  · obtain ⟨e, rfl, he⟩ := h a rfl
    exact ⟨statusWord e, if_neg he.2.1⟩
  · exact ⟨kplSwSuccess, rfl⟩

end Faults

/-- The device waits for an event, with the prompt of a command on display or with none. -/
def Waiting (d : Device) (pending : Option Command) : Prop :=
  d.tx = 0 ∧ match pending with
    | none => d.screen = .idle
    | some c => d.screen = .approval ∧ ∃ r, c = .ask r ∧ d.Armed r

section Step
variable {sdk : Sdk} {event : Event} {d t u : Device} {pending : Option Command} {apdu : Apdu}
  {r : Request} {tr : List (Input × Output)} {i : Input} {o : Output}

theorem idle_display (h : d.screen = .idle) : d.display = none := by
  rw [Device.display, if_neg (by rw [h]; simp)]

theorem answers_status {c : Command} {sw : UInt16} (h : sw ≠ kplSwSuccess) :
    Answers sdk d c (statusBytes sw) :=
  ⟨[], sw, rfl, fun hs => absurd hs h, fun _ => rfl⟩

/-- What is sent for a command at once answers it. -/
theorem answers_sent {reply : List UInt8} (hs : (d.commandOf apdu).sent d.nStorage = some reply) :
    Answers sdk d (d.commandOf apdu) reply := by
  generalize hc : d.commandOf apdu = c at hs ⊢
  cases c with
  | fail code =>
    cases hs
    refine answers_status (statusWord_ne ?_)
    rcases command_code hc with rfl | rfl | rfl | rfl <;> decide
  | getAppConfiguration =>
    cases hs
    exact ⟨_, _, rfl, fun _ => .version, fun h => absurd rfl h⟩
  | getValidSlots =>
    cases hs
    exact ⟨_, _, rfl, fun _ => .bitfield, fun h => absurd rfl h⟩
  | store slot key =>
    cases hs
    exact ⟨[], _, rfl, fun _ => .store slot key, fun _ => rfl⟩
  | badName callerPub =>
    cases hs
    exact answers_status (by decide)
  | ask r => cases hs

/-- A step that can be taken and continues the exchange of replies. -/
def Continues (d : Device) (pending : Option Command) (i : Input) : Prop :=
  ∃ o u pending', exec (step i) d = (.ok o, u) ∧ Waiting u pending' ∧
    ∀ d₀ tr, Replies d₀ tr d pending → Replies d₀ (tr ++ [(i, o)]) u pending'

theorem continues_answered {reply : List UInt8}
    (hr : exec (receiveApdu sdk apdu) d = (.ok (some reply), u)) (htx : u.tx = 0)
    (hs : u.screen = .idle) (ha : Answers sdk d (d.commandOf apdu) reply) :
    Continues d none ⟨sdk, .apdu apdu⟩ := by
  have hstep := @exec_step_ok sdk (.apdu apdu) _ _ _ hr
  rw [idle_display hs] at hstep
  exact ⟨_, u, none, hstep, ⟨htx, hs⟩, fun _ _ h => h.answered hstep ha⟩

theorem continues_pressed {c : Command} {reply : List UInt8} (he : event = .approve ∨ event = .deny)
    (hr : exec (react sdk event) d = (.ok (some reply), u)) (htx : u.tx = 0)
    (hs : u.screen = .idle) (ha : Answers sdk d c reply) :
    Continues d (some c) ⟨sdk, event⟩ := by
  have hstep := exec_step_ok hr
  rw [idle_display hs] at hstep
  exact ⟨_, u, none, hstep, ⟨htx, hs⟩, fun _ _ h => h.pressed he hstep ha⟩

theorem continues_ignored (hw : Waiting d none) (he : event = .approve ∨ event = .deny) :
    Continues d none ⟨sdk, event⟩ := by
  have hs : d.screen = .idle := hw.2
  have hstep := @exec_step_ok sdk event _ _ _ (exec_react_ignored (by rw [hs]; simp) he)
  rw [idle_display hs] at hstep
  exact ⟨_, d, none, hstep, hw, fun _ _ h => h.ignored he hstep⟩

theorem continues_apdu (hw : Waiting d none) (hf : sdk.Faulty) (hne : apdu.bytes ≠ []) :
    Continues d none ⟨sdk, .apdu apdu⟩ := by
  obtain ⟨htx, hs⟩ := hw
  by_cases hstore : (d.commandOf apdu).isStore = true
  · obtain ⟨slot, key, hc⟩ := isStore_eq hstore
    have hr := @exec_receiveApdu_store sdk d apdu _ _ hne htx hc
    obtain ⟨sw, hsw⟩ := caught_fault fun a => @storeKey_fault sdk d.nStorage hf slot key a
    rw [hsw] at hr
    refine continues_answered hr rfl hs ?_
    rw [hc]
    exact ⟨[], sw, rfl, fun _ => .store slot key, fun _ => rfl⟩
  · have hr := @exec_receiveApdu sdk d apdu hne htx fun h => absurd h hstore
    change exec (receiveApdu sdk apdu) d = (.ok ((d.commandOf apdu).sent d.nStorage),
      ((d.commandOf apdu).effect (d.receive apdu)).answer
        ((d.commandOf apdu).response d.nStorage)) at hr
    have hans := @answers_sent sdk d apdu
    have hask := fun r (h : d.commandOf apdu = .ask r) => asking_armed h
    have hprompted := fun d₀ tr (texts : List UInt8 × List UInt8) =>
      @Replies.prompted d₀ tr d (((d.commandOf apdu).effect (d.receive apdu)).answer
        ((d.commandOf apdu).response d.nStorage)) sdk apdu texts
    have hstep := @exec_step_ok sdk (.apdu apdu) _ _ _ hr
    cases hc : d.commandOf apdu with
    | ask r =>
      rw [hc] at hstep hprompted
      exact ⟨_, _, some (.ask r), hstep, ⟨rfl, rfl, r, rfl, hask r hc⟩,
        fun d₀ tr h => hprompted d₀ tr _ h hstep⟩
    | _ =>
      rw [hc] at hr hans
      refine continues_answered hr rfl hs ?_
      rw [hc]
      exact hans rfl

theorem continues_approve (hw : Waiting d (some (.ask r))) (ha : d.Armed r) (hf : sdk.Faulty) :
    Continues d (some (.ask r)) ⟨sdk, .approve⟩ := by
  obtain ⟨htx, hs, -⟩ := hw
  have hreact := @exec_react_approve sdk d hs
  cases hr : r.isKey with
  | true =>
    obtain ⟨b, hk⟩ := @exec_touchOkay_key sdk d r ha hr
    have hfault := fun e => @sealed_fault sdk d.nStorage e hf d.seed r
    have hdata := fun own cipher => @Command.Data.key sdk d r own cipher
    generalize r.sealed sdk d.nStorage d.seed = s at hk hfault hdata
    rcases s with e | _ | ⟨own, cipher⟩
    · have he := hfault e rfl
      simp only [if_neg he.2.1] at hk
      exact continues_pressed (.inl rfl) (hreact.trans hk) htx rfl (answers_status (statusWord_ne he.2.2))
    · exact continues_pressed (.inl rfl) (hreact.trans hk) htx rfl (answers_status (by decide))
    · exact continues_pressed (.inl rfl) (hreact.trans hk) htx rfl
        ⟨_, _, rfl, fun _ => hdata own cipher rfl, fun h => absurd rfl h⟩
  | false =>
    have ht := hreact.trans (@exec_touchOkay_write sdk d r ha hr)
    obtain ⟨sw, hsw⟩ := caught_fault fun a => @Request.write_fault sdk d.nStorage hf r a
    rw [hsw] at ht
    exact continues_pressed (.inl rfl) ht htx rfl ⟨[], sw, rfl, fun _ => .written hr, fun _ => rfl⟩

/-- Every input of a paced run can be taken, and what it replies goes on with the exchange. -/
theorem Waiting.step (hw : Waiting d pending) (hp : Paced d i) : Continues d pending i := by
  obtain ⟨sdk, event⟩ := i
  obtain ⟨hf, he⟩ := hp
  cases event with
  | apdu apdu =>
    obtain ⟨hne, hs⟩ := he
    cases pending with
    | none => exact continues_apdu hw hf hne
    | some c =>
      have hs' := hw.2.1
      rw [hs] at hs'
      cases hs'
  | approve =>
    cases pending with
    | none => exact continues_ignored hw (.inl rfl)
    | some c =>
      obtain ⟨r, rfl, ha⟩ := hw.2.2
      exact continues_approve hw ha hf
  | deny =>
    cases pending with
    | none => exact continues_ignored hw (.inr rfl)
    | some c =>
      exact continues_pressed (.inr rfl) ((exec_react_deny hw.2.1).trans exec_touchDeny) hw.1 rfl
        (answers_status (by decide))
  | ioReset => exact absurd he id

/-- A paced run is an exchange of replies. -/
theorem run_replies (h : Run App.step Paced d tr t) (hd : Waiting d none) :
    ∃ pending, Replies d tr t pending ∧ Waiting t pending := by
  induction h with
  | nil => exact ⟨none, .nil, hd⟩
  | snoc _ hp he ih =>
    obtain ⟨pending, hr, hw⟩ := ih
    obtain ⟨o, u, pending', hs, hw', hc⟩ := hw.step hp
    rw [he] at hs
    cases hs
    exact ⟨pending', hc _ _ hr, hw'⟩

def Event.isApdu : Event → Bool
  | .apdu _ => true
  | _ => false

/-- The replies and a pending one are as many as the APDUs. -/
theorem Replies.count {pending : Option Command} (h : Replies d tr t pending) :
    (tr.filterMap fun io => io.2.reply).length + (if pending.isSome then 1 else 0) =
      (tr.filter fun io => io.1.event.isApdu).length := by
  induction h with
  | nil => rfl
  | answered _ _ _ ih => simp_all [Event.isApdu]
  | prompted _ _ ih => simp_all [Event.isApdu]
  | pressed _ he _ _ ih => rcases he with rfl | rfl <;> simp_all [Event.isApdu]
  | ignored _ he _ ih => rcases he with rfl | rfl <;> simp_all [Event.isApdu]

theorem mainBody_waiting {nv : InternalStorage} {seed : List UInt8}
    (h : exec (mainBody sdk) (powerUp nv seed) = (.ok (), d)) : Waiting d none := by
  rw [mainBody, exec_bind] at h
  generalize exec (nvAppStateInit sdk false) (powerUp nv seed) = e at h
  rcases e with ⟨_ | _, s⟩
  · cases h
  · cases h
    exact ⟨rfl, rfl⟩

end Step

/-- Each APDU of a paced run has one reply, at once if it raises no prompt and otherwise at
the button press that ends its prompt. No step of such a run fails. -/
theorem reply_discipline {sdk : Sdk} {nv : InternalStorage} {seed : List UInt8} {d t : Device}
    {tr : List (Input × Output)} (hd : exec (mainBody sdk) (powerUp nv seed) = (.ok (), d))
    (h : Run step Paced d tr t) :
    (∃ pending, Replies d tr t pending ∧ (pending.isSome ↔ t.screen = .approval)) ∧
    (tr.filterMap fun io => io.2.reply).length + (if t.screen = .approval then 1 else 0) =
      (tr.filter fun io => io.1.event.isApdu).length ∧
    ∀ i, Paced t i → ∃ o u, exec (step i) t = (.ok o, u) := by
  obtain ⟨pending, hr, hw⟩ := run_replies h (mainBody_waiting hd)
  have hs : pending.isSome ↔ t.screen = .approval := by
    cases pending with
    | none => simp [hw.2]
    | some c => simp [hw.2.1]
  refine ⟨⟨pending, hr, hs⟩, ?_, fun i hp => ?_⟩
  · have hc := hr.count
    simp only [hs] at hc
    exact hc
  · obtain ⟨o, u, -, hstep, -⟩ := hw.step hp
    exact ⟨o, u, hstep⟩

/-- An SDK whose storage and random generator throw. -/
def failingSdk : Sdk :=
  { plainSdk with
    nvmWrite := fun _ => .thrown 1
    cxRng := .error 3 }

theorem failingSdk_faulty : failingSdk.Faulty where
  powered _ h := by cases h
  nvmWrite _ _ h := by
    cases h
    exact ⟨by decide, by decide, by decide⟩
  cxRng _ h := by
    cases h
    exact ⟨by decide, by decide, by decide⟩
  cxEcfpScalarMult _ _ _ h := by cases h
  cxBlake2b _ _ h := by cases h
  cxHashSha256 _ _ h := by cases h
  osPersoDeriveNodeBip32 _ _ _ h := by cases h

/-- `STORE_KEY` and a failing storage: the exception's status word and no data. -/
theorem reply_discipline_failing :
    let io : Input × Output := (⟨failingSdk, .apdu ⟨[0xE0, 1, 0, 0, 32] ++ List.replicate 32 5, by decide⟩⟩,
      ⟨some [0x68, 0x01], none⟩)
    (∃ pending, Replies freshDevice [io] (exec (step io.1) freshDevice).2 pending ∧
      (pending.isSome ↔ (exec (step io.1) freshDevice).2.screen = .approval)) ∧
    ([io].filterMap fun io => io.2.reply).length +
        (if (exec (step io.1) freshDevice).2.screen = .approval then 1 else 0) =
      ([io].filter fun io => io.1.event.isApdu).length ∧
    ∀ i, Paced (exec (step io.1) freshDevice).2 i →
      ∃ o u, exec (step i) (exec (step io.1) freshDevice).2 = (.ok o, u) :=
  @reply_discipline plainSdk .cleared [] _ _ _ (exec_mainBody rfl)
    (Run.next (.nil _) ⟨failingSdk_faulty, by simp, rfl⟩ (by decide +kernel))

end LedgerKeePass.App
