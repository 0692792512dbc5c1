import LedgerKeePass.TransportBounds
import LedgerKeePass.UsbFraming

/-!
# Key requests that fail

`Out` is where the key is decrypted in place. An answer whose public key
`crypto_scalarmult` refuses leaves the encrypted key in it.
-/
namespace LedgerKeePass.Kpl
open Bytes Program App

/-- The two requests for a key. -/
inductive KeyRequest
  | getKey (slot : UInt8)
  | getKeyFromName (name : List UInt8)

namespace KeyRequest

section
variable {σ : Type} (exchange : Exchange σ) (host : Host)

def run (out : Key) (timeoutMS : UInt32) : KeyRequest → KplM σ (Result × Key)
  | .getKey slot => Kpl.getKey exchange host slot out timeoutMS
  | .getKeyFromName name => Kpl.getKeyFromName exchange host name out timeoutMS

/-- The requests that are sent. -/
def Sent : KeyRequest → Prop
  | .getKey _ => True
  | .getKeyFromName name => name.length ≤ kplMaxNameSize

/-- The APDU that is sent, without its length. -/
def stream : KeyRequest → List UInt8
  | .getKey slot => apduStream Instrs.getKey slot 0 ++ (x25519GenPrivKey host).2.toList
  | .getKeyFromName name =>
    apduStream Instrs.getKeyFromName 0 0 ++ (x25519GenPrivKey host).2.toList ++ name

/-- The exchange of a request and the answer on the stack. -/
def answer (timeoutMS : UInt32) (r : KeyRequest) : KplM σ (Result × LedgerAnswer (64 + swSize)) :=
  withAnswer (host.uninit (64 + swSize)) (apduExchange exchange (r.stream host) timeoutMS)

end

end KeyRequest

/-- A successful answer with a public key that `crypto_scalarmult` refuses, and with other
bytes behind it than `Out` holds. -/
structure Undecryptable (host : Host) (out : Key) (src : List UInt8) : Prop where
  length : src.length = 64 + swSize
  sw : swOf src = kplSwSuccess
  refused : host.cryptoScalarmult host.randombytesBuf ((Buf.ofList (64 + swSize) src).window 0 32) = none
  other : (Buf.ofList (64 + swSize) src).window 32 kplKeySize ≠ out

section
variable {σ : Type} {host : Host} {out : Key} {src : List UInt8} {o : Outcome}

theorem parseAppSW_success {sw : UInt16} : parseAppSW sw = .success ↔ sw = kplSwSuccess := by
  unfold parseAppSW
  split
  · simp [*]
  · rename_i h
    simp only [h, iff_false]
    split
    · simp
    split
    · simp
    split
    · simp
    split
    · simp
    split
    · simp
    · simp

theorem x25519DecryptKey_none {key appPubKey ownPubKey ownPrivKey : Buf 32} :
    x25519DecryptKey host key appPubKey ownPubKey ownPrivKey = none ↔
      host.cryptoScalarmult ownPrivKey appPubKey = none := by
  rw [x25519DecryptKey]
  cases host.cryptoScalarmult ownPrivKey appPubKey with
  | none => simp
  | some sharedSecret => simp

/-- The decryption of an answer changes `Out` and fails exactly when the public key is
refused. -/
theorem keyOf_failed {pub : Buf 32} :
    ((keyOf host host.randombytesBuf pub src).1 ≠ .success →
        (keyOf host host.randombytesBuf pub src).2 = out) ↔
      ¬ (host.cryptoScalarmult host.randombytesBuf ((Buf.ofList (64 + swSize) src).window 0 32) = none ∧
        (Buf.ofList (64 + swSize) src).window 32 kplKeySize ≠ out) := by
  rw [keyOf, ← @x25519DecryptKey_none host ((Buf.ofList (64 + swSize) src).window 32 kplKeySize) _ pub]
  cases x25519DecryptKey host ((Buf.ofList (64 + swSize) src).window 32 kplKeySize)
    ((Buf.ofList (64 + swSize) src).window 0 32) pub host.randombytesBuf with
  | none => simp
  | some key => simp

/-- What an outcome makes of `Out`. -/
theorem decode_failed {pub : Buf 32} :
    ((o.decode 64 out (keyOf host host.randombytesBuf pub)).1 ≠ .success →
        (o.decode 64 out (keyOf host host.randombytesBuf pub)).2 = out) ↔
      ¬ ∃ src, o = .answered src ∧ Undecryptable host out src := by
  cases o with
  | failed res => simp [Outcome.decode]
  | answered src =>
    simp only [Outcome.decode, Outcome.answered.injEq, exists_eq_left']
    by_cases hsw : swOf src = kplSwSuccess
    · rw [if_neg (not_not.mpr (parseAppSW_success.mpr hsw))]
      by_cases hl : src.length - swSize = 64
      · rw [if_neg (not_not.mpr hl), keyOf_failed]
        have hlen : src.length = 64 + swSize := by omega
        constructor
        · rintro h ⟨-, -, hr, hne⟩
          exact h ⟨hr, hne⟩
        · rintro h ⟨hr, hne⟩
          exact h ⟨hlen, hsw, hr, hne⟩
      · rw [if_pos hl]
        refine iff_of_true (fun _ => rfl) fun h => hl ?_
        rw [h.length]
        rfl
    · rw [if_pos fun h => hsw (parseAppSW_success.mp h)]
      exact iff_of_true (fun _ => rfl) fun h => hsw h.sw

/-- The outcome of an exchange and the answer on the stack. -/
theorem answered_iff {p : KplM σ (Result × LedgerAnswer (64 + swSize))} {dev t : Option σ}
    {uninit : Buf (64 + swSize)} {x : Result × LedgerAnswer (64 + swSize)}
    (he : exec p dev = (.ok x, t)) (hx : Exchanged uninit o x) (P : List UInt8 → Prop) :
    (∃ src, o = .answered src ∧ P src) ↔ ∃ ans t, exec p dev = (.ok (.success, ans), t) ∧ P ans.bytes := by
  cases hx with
  | failed ans hne =>
    rw [he]
    constructor
    · rintro ⟨src, ho, -⟩
      cases ho
    · rintro ⟨ans, t, h, -⟩
      cases h
      contradiction
  | @answered src h h2 =>
    rw [he]
    constructor
    · rintro ⟨src, ho, hp⟩
      cases ho
      exact ⟨_, _, rfl, by rwa [filled_bytes]⟩
    · rintro ⟨ans, t, heq, hp⟩
      cases heq
      exact ⟨src, rfl, by rwa [filled_bytes] at hp⟩

theorem exec_run_sent {exchange : Exchange σ} (h : Confined exchange) {r : KeyRequest} (hs : r.Sent)
    (timeoutMS : UInt32) (s : σ) :
    ∃ o x t, Exchanged (host.uninit (64 + swSize)) o x ∧
      exec (r.answer exchange host timeoutMS) (some s) = (.ok x, t) ∧
      exec (r.run exchange host out timeoutMS) (some s) =
        (.ok (o.decode 64 out (keyOf host (x25519GenPrivKey host).1 (x25519GenPrivKey host).2)), t) := by
  cases r with
  | getKey slot =>
    obtain ⟨o, t, ho⟩ := withAnswer_settled h (64 + swSize) Instrs.getKey slot 0
      (x25519GenPrivKey host).2.toList timeoutMS s
    obtain ⟨x, hx, he⟩ := ho (host.uninit (64 + swSize))
    exact ⟨o, x, some t, hx, he, exec_getKey he hx⟩
  | getKeyFromName name =>
    obtain ⟨o, t, ho⟩ := withAnswer_settled h (64 + swSize) Instrs.getKeyFromName 0 0
      ((x25519GenPrivKey host).2.toList ++ name) timeoutMS s
    obtain ⟨x, hx, he⟩ := ho (host.uninit (64 + swSize))
    rw [← List.append_assoc] at he
    exact ⟨o, x, some t, hx, he, exec_getKeyFromName hs he hx⟩

end

/-- A key request that fails leaves `Out` as it was exactly when it did not receive an answer
that it cannot decrypt. -/
theorem failure_keeps_out_iff {σ : Type} (device : LedgerDevice σ) (host : Host) (r : KeyRequest)
    (out : Key) (timeoutMS : UInt32) (s : σ) :
    ∃ res out' t, exec (r.run device.exchange host out timeoutMS) (some s) = (.ok (res, out'), t) ∧
      ((res ≠ .success → out' = out) ↔ ¬ (r.Sent ∧
        ∃ ans t, exec (r.answer device.exchange host timeoutMS) (some s) = (.ok (.success, ans), t) ∧
          Undecryptable host out ans.bytes)) := by
  by_cases hs : r.Sent
  · obtain ⟨o, x, t, hx, ha, hr⟩ := @exec_run_sent σ host out _ (exchange_confined device) r hs timeoutMS s
    refine ⟨_, _, t, hr, ?_⟩
    rw [← answered_iff ha hx, and_iff_right hs]
    exact decode_failed
  · cases r with
    | getKey slot => exact absurd trivial hs
    | getKeyFromName name =>
      have hn : ¬ name.length ≤ kplMaxNameSize := hs
      have hc : name.length > kplMaxNameSize ∨ kplKeySize ≠ kplKeySize := .inl (not_le.mp hn)
      refine ⟨.libBadLength, out, some s, ?_, ?_⟩
      · rw [KeyRequest.run, getKeyFromName, if_pos hc]
        rfl
      · simp [hs]

/-- libsodium for one call, its `crypto_scalarmult` refusing a public key of zeros. -/
def strictHost : Host where
  randombytesBuf := Buf.zeros 32
  cryptoScalarmultBase k := k
  cryptoScalarmult k pub := if pub = Buf.zeros 32 then none else some k
  cryptoGenerichash _ := Buf.zeros 32
  uninit := Buf.zeros

/-- An answer with a public key of zeros and bytes 9 for the key, in two packets. -/
def refusedPackets : List (Buf 64) :=
  [Buf.ofList 64 ([1, 1, 5, 0, 0, 0, 66] ++ List.replicate 32 0 ++ List.replicate 25 9),
    Buf.ofList 64 ([1, 1, 5, 0, 1] ++ List.replicate 7 9 ++ [0x90, 0])]

/-- The request for slot 0 fails and leaves the bytes 9 in `Out`. -/
theorem refused_answer_in_out :
    (exec ((KeyRequest.getKey 0).run (LedgerDevice.usb queueHid).exchange strictHost (Buf.zeros 32) 0)
        (some refusedPackets)).1 = .ok (.libX25519Fail, List.Vector.replicate 32 9) ∧
      List.Vector.replicate 32 9 ≠ Buf.zeros 32 := by
  constructor
  · decide +kernel
  · decide +kernel

end LedgerKeePass.Kpl
