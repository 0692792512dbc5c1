import LedgerKeePass.LinkChannels

/-!
# The two transports are interchangeable

On a link where nothing is late an exchange delivers the answer of the device or says
that it does not fit, by the same rule over TCP and over USB.
-/
namespace LedgerKeePass.Kpl
open Bytes Program

/-- What the readers of an answer make of its content. -/
structure LedgerAnswer.Holds {m : ℕ} (a : LedgerAnswer m) (src : List UInt8) : Prop where
  dataSize : a.dataSize = src.length - 2
  data : a.buf.toList.take a.dataSize = src.take (src.length - 2)
  sw : a.sw = some (swOf src)

section
variable {τ : Type} {L : FifoLink τ} {serve : Serve τ} {prompt : Prop} {m : ℕ} {s : L.State}
  {ins p1 p2 : UInt8} {data : List UInt8}

theorem filled_holds (a : LedgerAnswer m) {src : List UInt8} (h : src.length ≤ m)
    (hl : swSize ≤ src.length) (hm : m < sizeTBound) : (a.filled src h).Holds src := by
  have hd := filled_dataSize a h hl hm
  refine ⟨hd, ?_, filled_sw a h hl⟩
  rw [hd]
  change (a.buf.overwrite 0 src).toList.take _ = _
  rw [Buf.overwrite_zero_toList _ h, List.take_append_of_le_length (Nat.sub_le _ _)]

theorem apdu_length (ins p1 p2 : UInt8) (data : List UInt8) :
    (apdu ins p1 p2 data).length = data.length + 5 := by
  rw [apdu, List.length_append, Nat.add_comm]
  rfl

/-- The device gets the APDU, and its answer is the outcome when it fits. -/
theorem apduExchange_fits (hL : L.Serves serve prompt) (hp : prompt) (hlim : 260 ≤ L.limit)
    (hs : L.quiet s) (hd : data.length ≤ 255) (hm : m ≤ 0xFFFF) (uninit : Buf m) (timeoutMS : UInt32)
    (hfit : (serve (apdu ins p1 p2 data) (L.device s)).1.bytes.length ≤ m) :
    ∃ s', L.quiet s' ∧ L.device s' = (serve (apdu ins p1 p2 data) (L.device s)).2 ∧
      exec (apduExchange L.exchange (apduStream ins p1 p2 ++ data) timeoutMS)
          ⟨some s, .fresh uninit⟩ =
        (.ok .success, ⟨some s', (LedgerAnswer.fresh uninit).filled _ hfit⟩) := by
  have hlen := apdu_length ins p1 p2 data
  obtain ⟨res, s', a', he, hdev, hr⟩ := hL.served timeoutMS (.fresh uninit)
    (by omega : (apdu ins p1 p2 data).length ≤ L.limit) hs
  have hx := exec_apduExchange hd he
  generalize (serve (apdu ins p1 p2 data) (L.device s)).1 = answer at hfit hr
  cases hr with
  | whole hle hq =>
    have hsw : ¬ answer.bytes.length < swSize := not_lt.mpr answer.hasSw
    rw [if_neg fun h => hsw h.2] at hx
    exact ⟨s', hq, hdev, hx⟩
  | tooLong hlt => exact absurd hfit (not_le.mpr hlt)
  | late _ hlate => exact absurd hp hlate
  | oversized hlt => exact absurd hm (not_le.mpr hlt)

theorem apduExchange_tooLong (hL : L.Serves serve prompt) (hp : prompt) (hlim : 260 ≤ L.limit)
    (hs : L.quiet s) (hd : data.length ≤ 255) (hm : m ≤ 0xFFFF) (uninit : Buf m) (timeoutMS : UInt32)
    (hlong : m < (serve (apdu ins p1 p2 data) (L.device s)).1.bytes.length) :
    ∃ s', exec (apduExchange L.exchange (apduStream ins p1 p2 ++ data) timeoutMS)
        ⟨some s, .fresh uninit⟩ = (.ok .protocolBadLength, ⟨some s', .fresh uninit⟩) := by
  have hlen := apdu_length ins p1 p2 data
  obtain ⟨res, s', a', he, hdev, hr⟩ := hL.served timeoutMS (.fresh uninit)
    (by omega : (apdu ins p1 p2 data).length ≤ L.limit) hs
  have hx := exec_apduExchange hd he
  generalize (serve (apdu ins p1 p2 data) (L.device s)).1 = answer at hlong hr
  cases hr with
  | whole hle hq => exact absurd hlong (not_lt.mpr hle)
  | tooLong hlt =>
    rw [if_neg nofun] at hx
    exact ⟨s', hx⟩
  | late _ hlate => exact absurd hp hlate
  | oversized hlt => exact absurd hm (not_le.mpr hlt)

/-- The result of an exchange with a device that answers at once, by the lengths alone. -/
def promptResult (m dataLen answerLen : ℕ) : Result :=
  if 255 < dataLen then .libBadLength
  else if m < answerLen then .protocolBadLength
  else .success

theorem apduExchange_prompt (hL : L.Serves serve prompt) (hp : prompt) (hlim : 260 ≤ L.limit)
    (hs : L.quiet s) (hm : m ≤ 0xFFFF) (ins p1 p2 : UInt8) (data : List UInt8) (uninit : Buf m)
    (timeoutMS : UInt32) {answer : DeviceAnswer}
    (ha : (serve (apdu ins p1 p2 data) (L.device s)).1 = answer) :
    ∃ s' a', exec (apduExchange L.exchange (apduStream ins p1 p2 ++ data) timeoutMS)
        ⟨some s, .fresh uninit⟩ =
          (.ok (promptResult m data.length answer.bytes.length), ⟨some s', a'⟩) ∧
      (promptResult m data.length answer.bytes.length = .success → a'.Holds answer.bytes) := by
  unfold promptResult
  by_cases hd : 255 < data.length
  · rw [if_pos hd]
    exact ⟨s, _, exec_apduExchange_tooLong hd, nofun⟩
  rw [if_neg hd]
  rw [not_lt] at hd
  subst ha
  by_cases hlong : m < (serve (apdu ins p1 p2 data) (L.device s)).1.bytes.length
  · obtain ⟨s', he⟩ := apduExchange_tooLong hL hp hlim hs hd hm uninit timeoutMS hlong
    rw [if_pos hlong]
    exact ⟨s', _, he, nofun⟩
  · obtain ⟨s', -, -, he⟩ := apduExchange_fits hL hp hlim hs hd hm uninit timeoutMS (not_lt.mp hlong)
    rw [if_neg hlong]
    refine ⟨s', _, he, fun _ => filled_holds _ _ (DeviceAnswer.hasSw _) ?_⟩
    simp only [sizeTBound]
    omega

end

/-- A device that gives one answer to everything. -/
def answering (answer : DeviceAnswer) : Serve Unit := fun _ _ => (answer, ())

/-- The links over which one answer comes back at once: every `recv` gives the bytes it
is asked for, every read a packet. -/
def tcpAnswering (answer : DeviceAnswer) : FifoLink Unit := tcpFifo (answering answer) fun _ len => len

def usbAnswering (answer : DeviceAnswer) (junk : List UInt8 → Buf 64) : FifoLink Unit :=
  usbFifo (answering answer) junk fun _ => true

/-- For every request and answer the two transports give the same result, and the same
answer when it is a success. They say that the answer is too long exactly when the request
was sent and the answer exceeds the buffer; a request that is too long leaves the link alone. -/
theorem transports_interchangeable (answer : DeviceAnswer) (junk : List UInt8 → Buf 64)
    (ins p1 p2 : UInt8) (data : List UInt8) {n : ℕ} (hn : n + 2 ≤ 0xFFFF) (uninit uninit' : Buf (n + 2))
    (timeoutMS : UInt32) :
    ∃ res tcp usb, ∃ tcpOut usbOut : LedgerAnswer (n + 2),
      exec (apduExchange (tcpAnswering answer).exchange (apduStream ins p1 p2 ++ data) timeoutMS)
          ⟨some ((tcpAnswering answer).start ()), .fresh uninit⟩ = (.ok res, ⟨some tcp, tcpOut⟩) ∧
      exec (apduExchange (usbAnswering answer junk).exchange (apduStream ins p1 p2 ++ data) timeoutMS)
          ⟨some ((usbAnswering answer junk).start ()), .fresh uninit'⟩ =
        (.ok res, ⟨some usb, usbOut⟩) ∧
      (res = .success → tcpOut.Holds answer.bytes ∧ usbOut.Holds answer.bytes) ∧
      (res = .protocolBadLength ↔ data.length ≤ 255 ∧ n + 2 < answer.bytes.length) ∧
      (255 < data.length → res = .libBadLength ∧
        tcp = (tcpAnswering answer).start () ∧ tcpOut = .fresh uninit ∧
        usb = (usbAnswering answer junk).start () ∧ usbOut = .fresh uninit') := by
  have ht := tcpFifo_serves (answering answer) fun _ len => len
  have hu := usbFifo_serves (answering answer) junk fun _ => true
  obtain ⟨tcp, tcpOut, he₁, hok₁⟩ := apduExchange_prompt ht (fun _ _ => le_rfl)
    (by simp [tcpFifo]) (ht.start ()).1 hn ins p1 p2 data uninit timeoutMS rfl
  obtain ⟨usb, usbOut, he₂, hok₂⟩ := apduExchange_prompt hu (fun _ => rfl)
    (by simp [usbFifo]) (hu.start ()).1 hn ins p1 p2 data uninit' timeoutMS rfl
  refine ⟨promptResult (n + 2) data.length answer.bytes.length, tcp, usb, tcpOut, usbOut, he₁, he₂,
    fun h => ⟨hok₁ h, hok₂ h⟩, ?_, fun hd => ?_⟩
  · unfold promptResult
    by_cases hd : 255 < data.length
    · rw [if_pos hd]
      exact ⟨nofun, fun h => absurd hd (not_lt.mpr h.1)⟩
    rw [if_neg hd]
    by_cases hlong : n + 2 < answer.bytes.length
    · rw [if_pos hlong]
      exact ⟨fun _ => ⟨not_lt.mp hd, hlong⟩, fun _ => rfl⟩
    · rw [if_neg hlong]
      exact ⟨nofun, fun h => absurd h.2 hlong⟩
  · have hl₁ := congrArg Prod.snd (he₁.symm.trans (exec_apduExchange_tooLong hd))
    have hl₂ := congrArg Prod.snd (he₂.symm.trans (exec_apduExchange_tooLong hd))
    simp only [Link.mk.injEq, Option.some.injEq] at hl₁ hl₂
    exact ⟨if_pos hd, hl₁.1, hl₁.2, hl₂.1, hl₂.2⟩

/-- Both transports take an answer of one byte of data, and refuse a request of 256 bytes. -/
theorem transports_interchangeable_oneByte :
    let answer : DeviceAnswer := ⟨[7, 0x90, 0x00], by decide, by decide⟩
    let run (L : FifoLink Unit) (data : List UInt8) :=
      exec (apduExchange L.exchange (apduStream 4 0 0 ++ data) 0)
        ⟨some (L.start ()), .fresh (Buf.zeros (1 + 2))⟩
    let usb := usbAnswering answer fun _ => Buf.zeros _
    (run (tcpAnswering answer) []).1 = (run usb []).1 ∧
      (run (tcpAnswering answer) (List.replicate 256 0)).1 = .ok .libBadLength ∧
      (run usb (List.replicate 256 0)).1 = .ok .libBadLength := by
  intro answer run usb
  have h := @transports_interchangeable answer (fun _ => Buf.zeros _) 4 0 0
  obtain ⟨res, t, u, a, b, ht, hu, -⟩ := @h [] 1 (by decide) (Buf.zeros _) (Buf.zeros _) 0
  obtain ⟨res', t', u', a', b', ht', hu', -, -, hlong⟩ :=
    @h (List.replicate 256 0) 1 (by decide) (Buf.zeros _) (Buf.zeros _) 0
  obtain ⟨rfl, -⟩ := hlong (by rw [List.length_replicate]; omega)
  exact ⟨(congrArg Prod.fst ht).trans (congrArg Prod.fst hu).symm, congrArg Prod.fst ht',
    congrArg Prod.fst hu'⟩

/-- A request of 256 bytes is refused with another error, however long the answer would
have been. -/
theorem longRequest_notSent :
    ¬ ∀ (answer : DeviceAnswer) (ins p1 p2 : UInt8) (data : List UInt8) (n : ℕ)
      (uninit : Buf (n + 2)) (timeoutMS : UInt32), n + 2 ≤ 0xFFFF →
      ((exec (apduExchange (tcpAnswering answer).exchange (apduStream ins p1 p2 ++ data) timeoutMS)
          ⟨some ((tcpAnswering answer).start ()), .fresh uninit⟩).1 = .ok .protocolBadLength ↔
        n + 2 < answer.bytes.length) := by
  intro h
  have hb := (h ⟨[7, 0x90, 0x00], by decide, by decide⟩ 4 0 0 (List.replicate 256 0) 0 (Buf.zeros _) 0
    (by decide)).mpr (by decide)
  rw [exec_apduExchange_tooLong (by rw [List.length_replicate]; omega)] at hb
  cases hb

end LedgerKeePass.Kpl
