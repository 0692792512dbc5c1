import LedgerKeePass.EventRun
import LedgerKeePass.LibDecode
import LedgerKeePass.TransportEquivalence

/-!
# Requests and their answers over a session

A session is a run of exchanges on one connection, with answers as late as they please.
Nothing in an answer names its request, so an answer that was late is taken for the answer
to the next one. Where every exchange starts on a quiet link the answers are the right ones.
-/
namespace LedgerKeePass.Kpl
open Bytes Program App

/-- A call of `exchange` with a `LedgerAnswer<n>`. -/
structure ExchangeCall where
  n : ℕ
  uninit : Buf (n + 2)
  data : List UInt8
  timeoutMS : UInt32

/-- The result of an exchange, and the bytes of its answer. -/
structure ExchangeEnd where
  result : Result
  answer : List UInt8
  deriving DecidableEq

section
variable {τ : Type}

namespace FifoLink

def call (L : FifoLink τ) (c : ExchangeCall) : KplM L.State ExchangeEnd := do
  let (result, ans) ← withAnswer c.uninit (L.exchange c.data c.timeoutMS)
  return ⟨result, ans.bytes⟩

abbrev Trace := List (ExchangeCall × ExchangeEnd)

/-- The device once it has served the requests of a session. -/
def deviceAfter (L : FifoLink τ) (serve : Serve τ) (d : τ) (tr : Trace) : τ :=
  tr.foldl (fun d p => if p.1.data.length ≤ L.limit then (serve p.1.data d).2 else d) d

/-- Sessions from a new connection to the device `d`, each exchange starting in a state
that satisfies `A`. -/
def Session (L : FifoLink τ) (A : Option L.State → Prop) (d : τ) (tr : Trace) (t : Option L.State) :
    Prop :=
  Run L.call (fun t _ => A t) (some (L.start d)) tr t

/-- A link on which nothing is under way. -/
def Quiet (L : FifoLink τ) (t : Option L.State) : Prop := ∃ s, t = some s ∧ L.quiet s

/-- In every session a successful exchange has the answer to its own request, and a
successful key request the key in its own answer. -/
structure Paired (L : FifoLink τ) (serve : Serve τ) (A : Option L.State → Prop) : Prop where
  answer (d : τ) (tr : Trace) (c : ExchangeCall) (o : ExchangeEnd) (t : Option L.State) :
    L.Session A d (tr ++ [(c, o)]) t → o.result = .success →
      o.answer = (serve c.data (L.deviceAfter serve d tr)).1.bytes
  getKey (d : τ) (tr : Trace) (t t' : Option L.State) (host : Host) (slot : UInt8) (out key : Key)
      (timeoutMS : UInt32) :
    L.Session A d tr t → A t →
      exec (Kpl.getKey L.exchange host slot out timeoutMS) t = (.ok (.success, key), t') →
      keyOf host (x25519GenPrivKey host).1 (x25519GenPrivKey host).2
        (serve (apdu Instrs.getKey slot 0 (x25519GenPrivKey host).2.toList)
          (L.deviceAfter serve d tr)).1.bytes = (.success, key)
  getKeyFromName (d : τ) (tr : Trace) (t t' : Option L.State) (host : Host) (name : List UInt8)
      (out key : Key) (timeoutMS : UInt32) :
    L.Session A d tr t → A t →
      exec (Kpl.getKeyFromName L.exchange host name out timeoutMS) t = (.ok (.success, key), t') →
      keyOf host (x25519GenPrivKey host).1 (x25519GenPrivKey host).2
        (serve (apdu Instrs.getKeyFromName 0 0 ((x25519GenPrivKey host).2.toList ++ name))
          (L.deviceAfter serve d tr)).1.bytes = (.success, key)

end FifoLink

variable {L : FifoLink τ} {serve : Serve τ} {prompt : Prop} {s : L.State} {t t' : Option L.State}
  {d : τ} {tr : FifoLink.Trace} {c : ExchangeCall} {o : ExchangeEnd}

/-- One exchange on a quiet link: the device has served the request, and a success has its
answer and leaves the link quiet. -/
theorem call_quiet (hL : L.Serves serve prompt) (hs : L.quiet s)
    (he : exec (L.call c) (some s) = (.ok o, t)) :
    ∃ s', t = some s' ∧
      L.device s' = (if c.data.length ≤ L.limit then (serve c.data (L.device s)).2 else L.device s) ∧
      (o.result = .success → o.answer = (serve c.data (L.device s)).1.bytes ∧ L.quiet s') := by
  rw [FifoLink.call] at he
  by_cases hd : c.data.length ≤ L.limit
  · obtain ⟨res, s', a', hx, hdev, hr⟩ := hL.served c.timeoutMS (.fresh c.uninit) hd hs
    rw [exec_bind_ok (exec_withAnswer hx)] at he
    cases he
    rw [if_pos hd]
    refine ⟨s', rfl, hdev, fun hres => ?_⟩
    generalize (serve c.data (L.device s)).1 = answer at hr
    cases hr with
    | whole hle hq => exact ⟨filled_bytes _ _, hq⟩
    | _ => cases hres
  · have hx := hL.tooLong c.timeoutMS s (.fresh c.uninit) (not_le.mp hd)
    rw [exec_bind_ok (exec_withAnswer hx)] at he
    cases he
    rw [if_neg hd]
    exact ⟨s, rfl, rfl, nofun⟩

/-- The device at the end of a session has served its requests, each once and in order. -/
theorem session_device (hL : L.Serves serve prompt) (h : L.Session L.Quiet d tr t) :
    ∃ s, t = some s ∧ L.device s = L.deviceAfter serve d tr := by
  unfold FifoLink.Session at h
  induction h with
  | nil => exact ⟨L.start d, rfl, (hL.start d).2⟩
  | snoc _ hA he ih =>
    obtain ⟨s, rfl, hdev⟩ := ih
    obtain ⟨s₁, h₁, hq⟩ := hA
    cases h₁
    obtain ⟨s', rfl, hdev', -⟩ := call_quiet hL hq he
    refine ⟨s', rfl, ?_⟩
    rw [hdev', FifoLink.deviceAfter, List.foldl_append, List.foldl_cons, List.foldl_nil, hdev]
    rfl

theorem session_snoc {A : Option L.State → Prop} (h : L.Session A d (tr ++ [(c, o)]) t) :
    ∃ t₀, L.Session A d tr t₀ ∧ A t₀ ∧ exec (L.call c) t₀ = (.ok o, t) := by
  unfold FifoLink.Session at h
  generalize htr : tr ++ [(c, o)] = tr' at h
  cases h with
  | nil => simp at htr
  | snoc prior hA he =>
    obtain ⟨h₁, h₂⟩ := List.append_inj' htr rfl
    cases h₂
    subst h₁
    exact ⟨_, prior, hA, he⟩

/-- The outcome of an APDU exchange on a quiet link is the answer of the device or an error. -/
theorem withAnswer_quiet (hL : L.Serves serve prompt) (hlim : 260 ≤ L.limit) (hs : L.quiet s)
    {m : ℕ} (uninit : Buf m) (ins p1 p2 : UInt8) {data : List UInt8} (hd : data.length ≤ 255)
    (timeoutMS : UInt32) :
    ∃ o x t, Exchanged uninit o x ∧
      exec (withAnswer uninit (apduExchange L.exchange (apduStream ins p1 p2 ++ data) timeoutMS))
        (some s) = (.ok x, t) ∧
      ∀ src, o = .answered src → src = (serve (apdu ins p1 p2 data) (L.device s)).1.bytes := by
  have hlen := apdu_length ins p1 p2 data
  obtain ⟨res, s', a', he, -, hr⟩ := hL.served timeoutMS (.fresh uninit)
    (by omega : (apdu ins p1 p2 data).length ≤ L.limit) hs
  have hx := exec_withAnswer (exec_apduExchange hd he)
  generalize (serve (apdu ins p1 p2 data) (L.device s)).1 = answer at hr
  cases hr with
  | whole hle hq =>
    have hsw : ¬ answer.bytes.length < swSize := not_lt.mpr answer.hasSw
    rw [if_neg fun h => hsw h.2] at hx
    refine ⟨.answered answer.bytes, _, _, .answered hle answer.hasSw, hx, fun src h => ?_⟩
    cases h
    rfl
  | _ =>
    rw [if_neg nofun] at hx
    refine ⟨.failed _, _, _, .failed _ ?_, hx, nofun⟩
    exact nofun

theorem decode_success {α : Type} {m len : ℕ} {uninit : Buf m} {o : Outcome} {x : Result × LedgerAnswer m}
    {out k : α} {f : List UInt8 → Result × α} (hx : Exchanged uninit o x)
    (h : o.decode len out f = (.success, k)) : ∃ src, o = .answered src ∧ f src = (.success, k) := by
  cases hx with
  | failed ans hne =>
    cases h
    exact absurd rfl hne
  | @answered src hle h2 =>
    refine ⟨src, rfl, ?_⟩
    by_cases hs : parseAppSW (swOf src) = .success
    · by_cases hl : src.length - swSize = len
      · rwa [Outcome.decode, if_neg (not_not.mpr hs), if_neg (not_not.mpr hl)] at h
      · rw [Outcome.decode, if_neg (not_not.mpr hs), if_pos hl] at h
        cases h
    · rw [Outcome.decode, if_pos hs] at h
      exact absurd (congrArg Prod.fst h) hs

theorem getKey_quiet (hL : L.Serves serve prompt) (hlim : 260 ≤ L.limit) (hs : L.quiet s) {host : Host}
    {slot : UInt8} {out key : Key} {timeoutMS : UInt32}
    (he : exec (getKey L.exchange host slot out timeoutMS) (some s) = (.ok (.success, key), t')) :
    keyOf host (x25519GenPrivKey host).1 (x25519GenPrivKey host).2
      (serve (apdu Instrs.getKey slot 0 (x25519GenPrivKey host).2.toList) (L.device s)).1.bytes =
        (.success, key) := by
  obtain ⟨o, x, t, hx, hw, ho⟩ := withAnswer_quiet hL hlim hs (host.uninit (64 + swSize)) Instrs.getKey
    slot 0 (by simp : (x25519GenPrivKey host).2.toList.length ≤ 255) timeoutMS
  rw [exec_getKey hw hx] at he
  obtain ⟨src, rfl, hk⟩ := decode_success hx (Except.ok.inj (congrArg Prod.fst he))
  rw [← ho src rfl]
  exact hk

theorem getKeyFromName_quiet (hL : L.Serves serve prompt) (hlim : 260 ≤ L.limit) (hs : L.quiet s)
    {host : Host} {name : List UInt8} {out key : Key} {timeoutMS : UInt32}
    (he : exec (getKeyFromName L.exchange host name out timeoutMS) (some s) =
      (.ok (.success, key), t')) :
    keyOf host (x25519GenPrivKey host).1 (x25519GenPrivKey host).2
      (serve (apdu Instrs.getKeyFromName 0 0 ((x25519GenPrivKey host).2.toList ++ name))
        (L.device s)).1.bytes = (.success, key) := by
  by_cases hn : name.length > kplMaxNameSize
  · rw [getKeyFromName, if_pos (.inl hn)] at he
    cases he
  · have hl : name.length ≤ 20 := not_lt.mp hn
    have hd : ((x25519GenPrivKey host).2.toList ++ name).length ≤ 255 := by
      rw [List.length_append, List.Vector.toList_length]
      omega
    obtain ⟨o, x, t, hx, hw, ho⟩ := withAnswer_quiet hL hlim hs (host.uninit (64 + swSize))
      Instrs.getKeyFromName 0 0 hd timeoutMS
    rw [← List.append_assoc] at hw
    rw [exec_getKeyFromName hl hw hx] at he
    obtain ⟨src, rfl, hk⟩ := decode_success hx (Except.ok.inj (congrArg Prod.fst he))
    rw [← ho src rfl]
    exact hk

theorem paired_quiet (hL : L.Serves serve prompt) (hlim : 260 ≤ L.limit) : L.Paired serve L.Quiet where
  answer d tr c o t h hres := by
    obtain ⟨t₀, h₀, hq, he⟩ := session_snoc h
    obtain ⟨s, rfl, hdev⟩ := session_device hL h₀
    obtain ⟨s₁, h₁, hq⟩ := hq
    cases h₁
    obtain ⟨s', -, -, hok⟩ := call_quiet hL hq he
    rw [(hok hres).1, hdev]
  getKey d tr t t' host slot out key timeoutMS h hq he := by
    obtain ⟨s, rfl, hdev⟩ := session_device hL h
    obtain ⟨s₁, h₁, hq⟩ := hq
    cases h₁
    rw [← hdev]
    exact getKey_quiet hL hlim hq he
  getKeyFromName d tr t t' host name out key timeoutMS h hq he := by
    obtain ⟨s, rfl, hdev⟩ := session_device hL h
    obtain ⟨s₁, h₁, hq⟩ := hq
    cases h₁
    rw [← hdev]
    exact getKeyFromName_quiet hL hlim hq he

end

/-- Over either transport, whatever is late: in every session whose exchanges all start on a
quiet link, requests and answers are paired. -/
theorem answers_paired {τ : Type} (serve : Serve τ) (tcpArrival : ℕ → ℕ → ℕ)
    (junk : List UInt8 → Buf 64) (usbArrival : ℕ → Bool) :
    (tcpFifo serve tcpArrival).Paired serve (tcpFifo serve tcpArrival).Quiet ∧
      (usbFifo serve junk usbArrival).Paired serve (usbFifo serve junk usbArrival).Quiet :=
  ⟨paired_quiet (tcpFifo_serves serve tcpArrival) (by simp [tcpFifo]),
    paired_quiet (usbFifo_serves serve junk usbArrival) (by simp [usbFifo])⟩

/-- A device that has a key for every request, made of the number of the request. -/
def numberedKeys : Serve ℕ := fun _ k =>
  (⟨List.replicate 64 (UInt8.ofNat k) ++ [0x90, 0x00], by simp [swSize], by simp⟩, k + 1)

/-- A host whose keystream is zero. -/
def plainHost : Host where
  randombytesBuf := Buf.zeros 32
  cryptoScalarmultBase := id
  cryptoScalarmult _ _ := some (Buf.zeros 32)
  cryptoGenerichash _ := Buf.zeros 32
  uninit := Buf.zeros

/-- An exchange and a `getKey` on a connection where nothing is late. -/
theorem answers_paired_numbered :
    let L := tcpFifo numberedKeys fun _ len => len
    let key : Key := List.Vector.replicate 32 1
    ∃ c tr t t', L.Session L.Quiet 0 (tr ++ [(c, ⟨.success, List.replicate 64 0 ++ [0x90, 0x00]⟩)]) t ∧
      (numberedKeys c.data (L.deviceAfter numberedKeys 0 tr)).1.bytes = List.replicate 64 0 ++ [0x90, 0x00] ∧
      exec (getKey L.exchange plainHost 3 (Buf.zeros 32) 60000) t = (.ok (.success, key), t') ∧
      keyOf plainHost (x25519GenPrivKey plainHost).1 (x25519GenPrivKey plainHost).2
        (numberedKeys (apdu Instrs.getKey 3 0 (x25519GenPrivKey plainHost).2.toList) 1).1.bytes =
          (.success, key) := by
  intro L key
  let c : ExchangeCall := ⟨64, Buf.zeros _, [1], 60000⟩
  let o : ExchangeEnd := ⟨.success, List.replicate 64 0 ++ [0x90, 0x00]⟩
  have hL := tcpFifo_serves numberedKeys fun _ len => len
  have hpaired := (answers_paired numberedKeys (fun _ len => len) (fun _ => Buf.zeros 64) fun _ => true).1
  have hstart : L.quiet (L.start 0) := ⟨rfl, rfl⟩
  have h₁ : (exec (L.call c) (some (L.start 0))).1 = .ok o := by
    decide +kernel
  have hk : (exec (getKey L.exchange plainHost 3 (Buf.zeros 32) 60000)
      (exec (L.call c) (some (L.start 0))).2).1 = .ok (.success, key) := by
    decide +kernel
  have hdev : L.deviceAfter numberedKeys 0 [(c, o)] = 1 := by
    decide +kernel
  generalize ht : (exec (L.call c) (some (L.start 0))).2 = t at hk
  have hcall : exec (L.call c) (some (L.start 0)) = (.ok o, t) := Prod.ext h₁ ht
  have hrun : L.Session L.Quiet 0 ([] ++ [(c, o)]) t := .snoc (.nil _) ⟨_, rfl, hstart⟩ hcall
  obtain ⟨s, hs, -, hok⟩ := call_quiet hL hstart hcall
  have hget := hpaired.getKey 0 _ t _ plainHost 3 _ key 60000 hrun ⟨s, hs, (hok rfl).2⟩ (Prod.ext hk rfl)
  have hanswer := hpaired.answer 0 [] c o t hrun rfl
  rw [List.nil_append] at hget
  rw [hdev] at hget
  exact ⟨c, [], t, _, hrun, hanswer.symm, Prod.ext hk rfl, hget⟩

/-- A device that numbers its answers. -/
def counting : Serve ℕ := fun _ k => (⟨[UInt8.ofNat k, 0x90, 0x00], by simp [swSize], by simp⟩, k + 1)

/-- Nothing has come in at the first `recv`, everything at the later ones. -/
def lateOnce : ℕ → ℕ → ℕ := fun k len => if k = 0 then 0 else len

/-- An exchange that timed out leaves its answer to the next one, which takes it for its own. -/
theorem lateAnswer_unpaired :
    ¬ (tcpFifo counting lateOnce).Paired counting fun _ => True := by
  intro h
  let c : ExchangeCall := ⟨1, Buf.zeros _, [1], 60000⟩
  let start : Option (tcpFifo counting lateOnce).State := some ⟨0, [], [], 0⟩
  have h₁ : (exec ((tcpFifo counting lateOnce).call c) start).1 =
      .ok ⟨.transportTimeout, [0, 0, 0]⟩ := by decide +kernel
  have h₂ : (exec ((tcpFifo counting lateOnce).call c)
      (exec ((tcpFifo counting lateOnce).call c) start).2).1 = .ok ⟨.success, [0, 0x90, 0x00]⟩ := by
    decide +kernel
  have hrun := ((Run.nil (A := fun _ _ => True) start).next trivial h₁).next trivial h₂
  have hans := h.answer 0 [(c, ⟨.transportTimeout, [0, 0, 0]⟩)] c _ _ hrun rfl
  exact absurd hans (by decide)

end LedgerKeePass.Kpl
