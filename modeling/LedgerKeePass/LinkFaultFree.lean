import LedgerKeePass.AppUser
import LedgerKeePass.LibDecode
import LedgerKeePass.TransportEquivalence

/-!
# The app behind a fault-free transport

`FaultFree` is a transport that hands every request to the device and its user and brings
back the reply; both links are one where nothing is late. What the library sends is then
the command that the app reads, and what the app replies is what the library decodes.
-/
namespace LedgerKeePass.Kpl
open Bytes Program App

/-- A transport with the states `σ`. `At s d` says that nothing is under way and the device
is `d`; an exchange depends on the SDK and on what the user chooses. -/
structure FaultFree (σ : Type) where
  exchange : Sdk → Bool → Exchange σ
  At : σ → Device → Prop
  delivers {m : ℕ} {sdk : Sdk} {approve : Bool} {request reply : List UInt8} {s : σ} {d t : Device}
      (uninit : Buf m) (timeoutMS : UInt32) (fits : reply.length ≤ m) :
    m ≤ 0xFFFF → swSize ≤ reply.length → At s d →
      serveRequest sdk approve request d = (some reply, t) →
      ∃ s', At s' t ∧ exec (exchange sdk approve request timeoutMS) ⟨some s, .fresh uninit⟩ =
        (.ok .success, ⟨some s', (LedgerAnswer.fresh uninit).filled reply fits⟩)

section Links

/-- The device and its user at the end of a link. A link wants an answer to everything, so
the status is made up where there is no reply. -/
def appServe (sdk : Sdk) (approve : Bool) : Serve Device := fun request d =>
  match serveRequest sdk approve request d with
  | (some reply, t) =>
    if h : swSize ≤ reply.length ∧ reply.length ≤ 0xFFFF then (⟨reply, h.1, h.2⟩, t)
    else (⟨statusBytes 0x6F00, by decide, by decide⟩, t)
  | (none, t) => (⟨statusBytes 0x6F00, by decide, by decide⟩, t)

variable {sdk : Sdk} {approve : Bool} {request reply : List UInt8} {d t : Device}

theorem appServe_reply (h : swSize ≤ reply.length) (h' : reply.length ≤ 0xFFFF)
    (hr : serveRequest sdk approve request d = (some reply, t)) :
    appServe sdk approve request d = (⟨reply, h, h'⟩, t) := by
  rw [appServe, hr]
  exact dif_pos ⟨h, h'⟩

theorem serveRequest_length (hr : serveRequest sdk approve request d = (some reply, t)) :
    request.length ≤ 260 := by
  by_contra hn
  rw [serveRequest, dif_neg hn] at hr
  cases hr

/-- A link on which nothing is late delivers. -/
theorem link_delivers {L : FifoLink Device} {prompt : Prop} {m : ℕ} {s : L.State}
    (hL : L.Serves (appServe sdk approve) prompt) (hp : prompt) (hlim : 260 ≤ L.limit)
    (uninit : Buf m) (timeoutMS : UInt32) (fits : reply.length ≤ m) (hm : m ≤ 0xFFFF)
    (hsw : swSize ≤ reply.length) (hq : L.quiet s)
    (hr : serveRequest sdk approve request (L.device s) = (some reply, t)) :
    ∃ s', (L.quiet s' ∧ L.device s' = t) ∧ exec (L.exchange request timeoutMS) ⟨some s, .fresh uninit⟩ =
      (.ok .success, ⟨some s', (LedgerAnswer.fresh uninit).filled reply fits⟩) := by
  obtain ⟨res, s', a', he, hdev, ha⟩ := hL.served timeoutMS (.fresh uninit)
    ((serveRequest_length hr).trans hlim) hq
  rw [appServe_reply hsw (fits.trans hm) hr] at hdev ha
  cases ha with
  | whole hs hq' => exact ⟨s', ⟨hq', hdev⟩, he⟩
  | tooLong hlt => exact absurd fits (not_le.mpr hlt)
  | late _ hlate => exact absurd hp hlate
  | oversized hlt => exact absurd hm (not_le.mpr hlt)

/-- TCP where every `recv` gives what it is asked for. -/
def tcpFaultFree : FaultFree (TcpLink Device) where
  exchange sdk approve := (tcpFifo (appServe sdk approve) fun _ len => len).exchange
  At s d := (s.sent = [] ∧ s.inbound = []) ∧ s.device = d
  delivers uninit timeoutMS fits hm hsw hs hr := by
    obtain ⟨hq, rfl⟩ := hs
    exact link_delivers (tcpFifo_serves _ _) (fun _ _ => le_rfl) (by simp [tcpFifo]) uninit timeoutMS
      fits hm hsw hq hr

/-- USB where every read gets a packet. -/
def usbFaultFree (junk : List UInt8 → Buf 64) : FaultFree (UsbLink Device) where
  exchange sdk approve := (usbFifo (appServe sdk approve) junk fun _ => true).exchange
  At s d := (s.partialRequest = none ∧ s.inbound = []) ∧ s.device = d
  delivers uninit timeoutMS fits hm hsw hs hr := by
    obtain ⟨hq, rfl⟩ := hs
    exact link_delivers (usbFifo_serves _ junk _) (fun _ => rfl) (by simp [usbFifo]) uninit timeoutMS
      fits hm hsw hq hr

end Links

section Requests
variable {nv : InternalStorage} {d : Device} {b : Buf ioApduBufferSize} {ins p1 p2 slot : UInt8}
  {data : List UInt8}

/-- The header of an APDU of the library as the app reads it. -/
theorem apdu_header : (b.overwrite 0 (apdu ins p1 p2 data)).byteAt 0 = cla ∧
    (b.overwrite 0 (apdu ins p1 p2 data)).byteAt 1 = ins ∧
    (b.overwrite 0 (apdu ins p1 p2 data)).byteAt 2 = p1 ∧
    (b.overwrite 0 (apdu ins p1 p2 data)).byteAt 4 = UInt8.ofNat data.length := by
  have hlen := apdu_length ins p1 p2 data
  have hb : ∀ i < 5, (b.overwrite 0 (apdu ins p1 p2 data)).byteAt i = (apdu ins p1 p2 data).getD i 0 := by
    intro i hi
    rw [Buf.byteAt_overwrite _ _ _ (by simp only [ioApduBufferSize]; omega),
      if_pos (by omega), Nat.sub_zero]
  exact ⟨hb 0 (by omega), hb 1 (by omega), hb 2 (by omega), hb 4 (by omega)⟩

theorem apdu_data (data : Buf 32) :
    (b.overwrite 0 (apdu ins p1 p2 data.toList)).window 5 32 = data := by
  rw [apdu, ← Buf.overwrite_append]
  exact Buf.window_overwrite _ 5 data (by simp only [ioApduBufferSize]; omega)

theorem command_storeKey (key : Key) :
    command nv (b.overwrite 0 (apdu Instrs.storeKey slot 0 key.toList)) = storeCommand nv slot 32 key := by
  obtain ⟨h₀, h₁, h₂, h₄⟩ := @apdu_header b Instrs.storeKey slot 0 key.toList
  rw [List.Vector.toList_length] at h₄
  rw [command, h₀, h₁, h₂, h₄, apdu_data]
  rfl

theorem command_getKey (callerPub : Point) :
    command nv (b.overwrite 0 (apdu Instrs.getKey slot 0 callerPub.toList)) =
      getKeyCommand nv slot 32 callerPub := by
  obtain ⟨h₀, h₁, h₂, h₄⟩ := @apdu_header b Instrs.getKey slot 0 callerPub.toList
  rw [List.Vector.toList_length] at h₄
  rw [command, h₀, h₁, h₂, h₄, apdu_data]
  rfl

theorem command_getAppConfiguration :
    command nv (b.overwrite 0 (apdu Instrs.getAppConfiguration 0 0 [])) = .getAppConfiguration := by
  obtain ⟨h₀, h₁, -, -⟩ := @apdu_header b Instrs.getAppConfiguration 0 0 []
  rw [command, h₀, h₁]
  rfl

theorem command_getValidKeySlots :
    command nv (b.overwrite 0 (apdu Instrs.getValidKeySlots 0 0 [])) = .getValidSlots := by
  obtain ⟨h₀, h₁, -, -⟩ := @apdu_header b Instrs.getValidKeySlots 0 0 []
  rw [command, h₀, h₁]
  rfl

theorem command_eraseAllSlots :
    command nv (b.overwrite 0 (apdu Instrs.eraseAllSlots 0 0 [])) = .ask .eraseAllSlots := by
  obtain ⟨h₀, h₁, -, -⟩ := @apdu_header b Instrs.eraseAllSlots 0 0 []
  rw [command, h₀, h₁]
  rfl

end Requests

section Replies
variable {host : Host} {data : List UInt8} {sw : UInt16}

theorem ofBe_statusBytes (sw : UInt16) : UInt16.ofNat (ofBe (statusBytes sw)) = sw := by
  have hhi : (sw >>> 8).toUInt8.toNat = sw.toNat / 256 % 256 := by
    rw [UInt16.toNat_toUInt8, UInt16.toNat_shiftRight, Nat.shiftRight_eq_div_pow]
    rfl
  have hlo : sw.toUInt8.toNat = sw.toNat % 256 := UInt16.toNat_toUInt8 sw
  have hlt := sw.toNat_lt
  apply UInt16.toNat_inj.mp
  simp only [statusBytes, ofBe, hhi, hlo, List.length_cons, List.length_nil, UInt16.toNat_ofNat']
  omega

/-- The status word behind the data of a reply. -/
theorem swOf_statusBytes (data : List UInt8) (sw : UInt16) : swOf (data ++ statusBytes sw) = sw := by
  have hd : (data ++ statusBytes sw).drop ((data ++ statusBytes sw).length - swSize) = statusBytes sw := by
    rw [List.length_append]
    exact List.drop_left' rfl
  rw [swOf, hd, ofBe_statusBytes]

theorem xorBytes_cancel {n : ℕ} (a b : Buf n) : xorBytes (xorBytes a b) b = a := by
  apply List.Vector.ext
  intro i
  simp only [xorBytes, List.Vector.get_map₂]
  rw [UInt8.xor_assoc, UInt8.xor_self, UInt8.xor_zero]

/-- Decrypting undoes the encryption of the app. -/
theorem x25519DecryptKey_sealed {own cipher : Buf 32} {key : Key} {priv pub secret : Buf 32}
    (hs : host.cryptoScalarmult priv own = some secret)
    (hk : cipher = xorBytes key (host.cryptoGenerichash (secret.toList ++ pub.toList ++ own.toList))) :
    x25519DecryptKey host cipher own pub priv = some key := by
  simp only [x25519DecryptKey, hs, hk]
  exact congrArg some (xorBytes_cancel _ _)

theorem keyOf_sealed {own cipher : Buf 32} {key : Key} {priv pub secret : Buf 32}
    (hs : host.cryptoScalarmult priv own = some secret)
    (hk : cipher = xorBytes key (host.cryptoGenerichash (secret.toList ++ pub.toList ++ own.toList))) :
    keyOf host priv pub (own.toList ++ cipher.toList ++ statusBytes kplSwSuccess) = (.success, key) := by
  have hlen : (own.toList ++ cipher.toList ++ statusBytes kplSwSuccess).length ≤ 64 + swSize := by
    rw [List.length_append, sealed_length]
    rfl
  have h₀ := @Buf.window_overwrite_infix _ (Buf.zeros (64 + swSize)) [] own.toList
    (cipher.toList ++ statusBytes kplSwSuccess) (by simpa using hlen)
  have h₁ := @Buf.window_overwrite_infix _ (Buf.zeros (64 + swSize)) own.toList cipher.toList
    (statusBytes kplSwSuccess) hlen
  rw [List.nil_append, ← List.append_assoc, List.Vector.toList_length, List.length_nil] at h₀
  rw [List.Vector.toList_length, List.Vector.toList_length] at h₁
  replace h₀ := List.Vector.toList_injective h₀
  replace h₁ := List.Vector.toList_injective h₁
  simp only [keyOf, Buf.ofList, h₀, h₁, x25519DecryptKey_sealed hs hk]

end Replies

section Exchange
variable {σ : Type} {T : FaultFree σ} {sdk : Sdk} {approve : Bool} {timeoutMS : UInt32} {s : σ}
  {d t : Device} {ins p1 : UInt8} {data reply : List UInt8} {sw : UInt16}

/-- An APDU of the library as the device receives it. -/
def request (ins p1 : UInt8) (data : List UInt8) (h : data.length ≤ 255) : Apdu :=
  ⟨apdu ins p1 0 data, by rw [apdu_length]; simp only [ioApduBufferSize]; omega⟩

/-- The outcome of an exchange is the reply of the device. -/
theorem exec_request {m : ℕ} (hs : T.At s d) (hd : data.length ≤ 255) (uninit : Buf m)
    (hm : m ≤ 0xFFFF) (hsw : swSize ≤ reply.length) (hfit : reply.length ≤ m)
    (hr : serveRequest sdk approve (request ins p1 data hd).bytes d = (some reply, t)) :
    ∃ s' x, T.At s' t ∧ Exchanged uninit (.answered reply) x ∧
      exec (withAnswer uninit (apduExchange (T.exchange sdk approve) (apduStream ins p1 0 ++ data)
        timeoutMS)) (some s) = (.ok x, some s') := by
  obtain ⟨s', hs', he⟩ := T.delivers uninit timeoutMS hfit hm hsw hs hr
  have hx := exec_apduExchange hd he
  have hle : ¬ reply.length < swSize := not_lt.mpr hsw
  rw [if_neg fun h => hle h.2] at hx
  exact ⟨s', _, hs', .answered hfit hsw, exec_withAnswer hx⟩

theorem status_statusBytes (sw : UInt16) : (Outcome.answered (statusBytes sw)).status = parseAppSW sw := by
  have h := swOf_statusBytes [] sw
  rw [List.nil_append] at h
  rw [Outcome.status, h]

theorem decode_statusBytes {α : Type} {len : ℕ} {out : α} {f : List UInt8 → Result × α}
    (h : parseAppSW sw ≠ .success) :
    (Outcome.answered (statusBytes sw)).decode len out f = (parseAppSW sw, out) := by
  have hw := swOf_statusBytes [] sw
  rw [List.nil_append] at hw
  rw [Outcome.decode, hw, if_pos h]

theorem decode_data {α : Type} {out : α} {f : List UInt8 → Result × α} (data : List UInt8) :
    (Outcome.answered (data ++ statusBytes kplSwSuccess)).decode data.length out f =
      f (data ++ statusBytes kplSwSuccess) := by
  have hl : (data ++ statusBytes kplSwSuccess).length - swSize = data.length := by
    rw [List.length_append]
    rfl
  have hs : parseAppSW kplSwSuccess = .success := by decide
  rw [Outcome.decode, swOf_statusBytes, hs, hl, if_neg (by simp), if_neg (by simp)]

theorem short_key (k : Buf 32) : k.toList.length ≤ 255 := by
  rw [List.Vector.toList_length]
  omega

theorem request_ne_nil (h : data.length ≤ 255) : (request ins p1 data h).bytes ≠ [] :=
  List.cons_ne_nil _ _

end Exchange

end LedgerKeePass.Kpl
