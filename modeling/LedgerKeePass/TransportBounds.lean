import LedgerKeePass.LibDecode

/-!
# Bounds against a hostile device

Whatever a device or a connection gives back, an exchange ends without a fault and
leaves the answer with bytes it received at its start; nothing an operation of the
library reads after a success lies behind them.
-/
namespace LedgerKeePass.Kpl
open Bytes Program App

section
variable {σ α : Type} {m size : ℕ} {s s' : σ}

/-- From a device `s` and an answer of `size` bytes, `p` ends without a fault and stays
inside the answer: it puts received bytes at the start of the buffer and may lower the
size, to their number when it succeeds. What the buffer held makes no difference. -/
def BoundedAt (p : LibM σ m Result) (s : σ) (hsize : size ≤ m) : Prop :=
  ∃ res s' src size', src.length ≤ size ∧ size' ≤ size ∧
    (res = Result.success → src.length = size') ∧
    ∀ (buf : Buf m) (hsize' : size' ≤ m), exec p ⟨some s, ⟨buf, size, hsize⟩⟩ =
      (.ok res, ⟨some s', ⟨buf.overwrite 0 src, size', hsize'⟩⟩)

/-- An exchange that is bounded whatever the device and the request are. -/
def Confined (exchange : Exchange σ) : Prop :=
  ∀ (m size : ℕ) (hsize : size ≤ m) (data : List UInt8) (timeoutMS : UInt32) (s : σ),
    BoundedAt (m := m) (exchange data timeoutMS) s hsize

theorem BoundedAt.pure {res : Result} (hsize : size ≤ m) (h : res ≠ .success) :
    BoundedAt (Pure.pure res : LibM σ m Result) s hsize := by
  refine ⟨res, s, [], size, Nat.zero_le _, le_rfl, fun hr => absurd hr h, fun buf _ => ?_⟩
  rw [Buf.overwrite_nil]
  rfl

/-- A first part that leaves the answer alone. -/
theorem BoundedAt.bind {p : LibM σ m α} {f : α → LibM σ m Result} {a : α} {hsize : size ≤ m}
    (hp : ∀ out, exec p ⟨some s, out⟩ = (.ok a, ⟨some s', out⟩)) (hf : BoundedAt (f a) s' hsize) :
    BoundedAt (p >>= f) s hsize := by
  obtain ⟨res, t, src, size', h₁, h₂, h₃, he⟩ := hf
  refine ⟨res, t, src, size', h₁, h₂, h₃, fun buf hs => ?_⟩
  rw [exec_bind_ok (hp _), he buf hs]

/-- A read of the size. -/
theorem BoundedAt.bind_size {f : ℕ → LibM σ m Result} {hsize : size ≤ m}
    (hf : BoundedAt (f size) s hsize) :
    BoundedAt (Program.read (fun l : Link σ m => l.out.bufSize) >>= f) s hsize := by
  obtain ⟨res, t, src, size', h₁, h₂, h₃, he⟩ := hf
  refine ⟨res, t, src, size', h₁, h₂, h₃, fun buf hs => ?_⟩
  rw [exec_bind_ok (exec_read _ _), he buf hs]

theorem BoundedAt.ite {c : Prop} [Decidable c] {p q : LibM σ m Result} {hsize : size ≤ m}
    (hp : c → BoundedAt p s hsize) (hq : ¬ c → BoundedAt q s hsize) :
    BoundedAt (if c then p else q) s hsize := by
  by_cases h : c
  · rw [if_pos h]
    exact hp h
  · rw [if_neg h]
    exact hq h

end

section Tcp
variable {σ : Type} {m size : ℕ} {s : σ}

theorem tcpReadAnswer_bounded (sock : Socket σ) (hsize : size ≤ m) (prefixBytes : List UInt8)
    (timeoutMS : UInt32) (s : σ) :
    BoundedAt (tcpReadAnswer (m := m) sock prefixBytes timeoutMS) s hsize := by
  rw [tcpReadAnswer]
  refine .bind_size (.ite (fun _ => .pure hsize nofun) fun hlen => ?_)
  rw [not_lt] at hlen
  obtain ⟨res, data, s', -, hle, hok, he⟩ :=
    tcpRead_cases sock ((ofBe prefixBytes + swSize) % 4294967296) timeoutMS s
  refine ⟨res, s', data, _, hle.trans hlen, hlen, hok, fun buf hs => ?_⟩
  rw [exec_bind_ok (exec_resizeAnswer hlen), exec_bind_ok (he m _)]
  dsimp only
  rw [exec_bind_ok (exec_storeAnswer (by omega))]
  rfl

theorem tcpReceive_bounded (sock : Socket σ) (hsize : size ≤ m) (timeoutMS : UInt32) (s : σ) :
    BoundedAt (tcpReceive (m := m) sock timeoutMS) s hsize := by
  obtain ⟨res, data, s', -, -, -, he⟩ := tcpRead_cases sock 4 timeoutMS s
  rw [tcpReceive]
  refine .bind (he m) (.ite (fun h => .pure hsize h) fun _ => ?_)
  exact tcpReadAnswer_bounded sock hsize data timeoutMS s'

theorem tcpExchange_confined (sock : Socket σ) : Confined (tcpExchange sock) := by
  intro m size hsize data timeoutMS s
  change BoundedAt (tcpExchange sock data timeoutMS) s hsize
  rw [tcpExchange]
  refine .ite (fun _ => .pure hsize nofun) fun _ => ?_
  refine .bind (fun _ => exec_tcpSend) (.ite (fun h => .pure hsize h) fun _ => ?_)
  refine .bind (fun _ => exec_tcpSend) (.ite (fun h => .pure hsize h) fun _ => ?_)
  exact tcpReceive_bounded sock hsize timeoutMS _

end Tcp

section Usb
variable {σ : Type} {m size : ℕ} {s : σ}

/-- The reading loop copies at most the length that the first packet gave, and that much
when it succeeds. -/
theorem readLoop_bounded (hid : Hid σ) (t : Int32) (fuel : ℕ) (st : ReadState) (s : σ)
    (hit : st.it ≤ 7) (hfuel : st.inLen < fuel) :
    ∃ res s' src, src.length ≤ st.inLen ∧ (res = Result.success → src.length = st.inLen) ∧
      ∀ (m : ℕ) (a : LedgerAnswer m) (acc : List UInt8), st.off = acc.length →
        acc.length + st.inLen ≤ m →
        exec (loop .diverges fuel (readRound hid t) st) ⟨some s, a.fill acc⟩ =
          (.ok res, ⟨some s', a.fill (acc ++ src)⟩) := by
  induction fuel generalizing st s with
  | zero => omega
  | succ fuel ih =>
    have hlen := chunk_length st
    by_cases hz : st.inLen - st.chunk.length = 0
    · refine ⟨.success, s, st.chunk, by omega, fun _ => by omega, fun m a acc hoff hm => ?_⟩
      have hr := @exec_readRound σ m hid t s a acc st (by omega) hoff (by omega)
      rw [if_pos hz] at hr
      exact exec_loop_done hr
    rcases h : hid.readTimeout t s with ⟨_ | buf, s'⟩
    · refine ⟨.transportTimeout, s', st.chunk, by omega, nofun, fun m a acc hoff hm => ?_⟩
      have hr := @exec_readRound σ m hid t s a acc st (by omega) hoff (by omega)
      simp only [if_neg hz, h] at hr
      exact exec_loop_done hr
    by_cases hs : ofBe (buf.window 3 2).toList ≠ st.seqRef
    · refine ⟨.transportUsbBadSeq, s', st.chunk, by omega, nofun, fun m a acc hoff hm => ?_⟩
      have hr := @exec_readRound σ m hid t s a acc st (by omega) hoff (by omega)
      simp only [if_neg hz, h, if_pos hs] at hr
      exact exec_loop_done hr
    · obtain ⟨res, u, src, h₁, h₂, he⟩ := ih ⟨buf, 5, (st.seqRef + 1) % 65536,
        st.inLen - st.chunk.length, st.off + st.chunk.length⟩ s' (by simp) (by dsimp only; omega)
      dsimp only at h₁ h₂ he
      refine ⟨res, u, st.chunk ++ src, ?_, fun hr => ?_, fun m a acc hoff hm => ?_⟩
      · rw [List.length_append]
        omega
      · have := h₂ hr
        rw [List.length_append]
        omega
      · have hr := @exec_readRound σ m hid t s a acc st (by omega) hoff (by omega)
        simp only [if_neg hz, h, if_neg hs] at hr
        rw [exec_loop_next hr, he m a (acc ++ st.chunk) (by rw [List.length_append]; omega)
          (by rw [List.length_append]; omega), List.append_assoc]

/-- A read ends with at most `outLen` bytes in `Out`, and with `*OutLen` of them when it
succeeds. -/
theorem usbRead_cases (hid : Hid σ) (outLen : ℕ) (timeoutMS : UInt32) (s : σ) :
    ∃ res outLen' src s', src.length ≤ outLen ∧
      (res = Result.success → src.length = outLen') ∧
      ∀ (m : ℕ) (a : LedgerAnswer m), outLen ≤ m →
        exec (usbRead hid outLen timeoutMS) ⟨some s, a⟩ =
          (.ok (res, outLen'), ⟨some s', a.fill src⟩) := by
  by_cases hout : outLen > 0xFFFF
  · refine ⟨.libBadLength, outLen, [], s, Nat.zero_le _, by simp, fun m a _ => ?_⟩
    rw [usbRead, if_pos hout, fill_nil]
    rfl
  rcases h : hid.readTimeout (readTimeoutOf timeoutMS) s with ⟨_ | buf, s'⟩
  · refine ⟨.transportTimeout, outLen, [], s', Nat.zero_le _, by simp, fun m a _ => ?_⟩
    rw [usbRead, if_neg hout, exec_bind_ok (exec_onHandle _), h, fill_nil]
    rfl
  rcases hf : usbReadFirst buf outLen with res | inLen
  · refine ⟨res, outLen, [], s', Nat.zero_le _, fun hr => ?_, fun m a _ => ?_⟩
    · subst hr
      exact absurd hf (usbReadFirst_error buf outLen)
    · rw [usbRead, if_neg hout, exec_bind_ok (exec_onHandle _), h, fill_nil]
      simp only [hf]
      rfl
  · have hin := usbReadFirst_le hf
    obtain ⟨res, u, src, h₁, h₂, he⟩ := readLoop_bounded hid (readTimeoutOf timeoutMS) (inLen + 1)
      ⟨buf, 7, 1, inLen, 0⟩ s' le_rfl (Nat.lt_succ_self _)
    refine ⟨res, inLen, src, u, h₁.trans hin, h₂, fun m a hm => ?_⟩
    have hl := he m a [] rfl (by simpa using hin.trans hm)
    rw [fill_nil] at hl
    rw [usbRead, if_neg hout, exec_bind_ok (exec_onHandle _), h]
    simp only [hf]
    rw [exec_bind_ok hl]
    rfl

theorem usbReceive_bounded (hid : Hid σ) (hsize : size ≤ m) (timeoutMS : UInt32) (s : σ) :
    BoundedAt (usbReceive (m := m) hid timeoutMS) s hsize := by
  obtain ⟨res, outLen', src, s', hle, hok, he⟩ := usbRead_cases hid size timeoutMS s
  by_cases hr : res = .success
  · have hlen := hok hr
    refine ⟨.success, s', src, src.length, hle, hle, fun _ => rfl, fun buf hs => ?_⟩
    rw [usbReceive, exec_bind_ok (exec_read _ _), exec_bind_ok (he m _ hsize)]
    simp only [hr, ne_eq, not_true_eq_false, if_false]
    rw [← hlen, exec_bind_ok (exec_resizeAnswer hle)]
    rfl
  · refine ⟨res, s', src, size, hle, le_rfl, fun h => absurd h hr, fun buf hs => ?_⟩
    rw [usbReceive, exec_bind_ok (exec_read _ _), exec_bind_ok (he m _ hsize)]
    simp only [ne_eq, hr, not_false_eq_true, if_true]
    rfl

theorem usbExchange_confined (hid : Hid σ) : Confined (usbExchange hid) := by
  intro m size hsize data timeoutMS s
  change BoundedAt (usbExchange hid data timeoutMS) s hsize
  rw [usbExchange]
  by_cases hlen : 0xFFFF < data.length
  · exact .bind (fun _ => exec_usbSend_tooLong hlen)
      (.ite (fun h => .pure hsize h) fun h => absurd (nofun : Result.libBadLength ≠ .success) h)
  · refine .bind (fun _ => exec_usbSend (not_lt.mp hlen)) (.ite (fun h => .pure hsize h) fun _ => ?_)
    exact usbReceive_bounded hid hsize timeoutMS _

end Usb

theorem exchange_confined {σ : Type} (dev : LedgerDevice σ) : Confined dev.exchange := by
  cases dev with
  | tcp sock => exact tcpExchange_confined sock
  | usb hid => exact usbExchange_confined hid

section Apdu
variable {σ : Type} {exchange : Exchange σ} {ins p1 p2 : UInt8}

theorem apduExchange_bounded (h : Confined exchange) (m : ℕ) (ins p1 p2 : UInt8) (data : List UInt8)
    (timeoutMS : UInt32) (s : σ) :
    ∃ res s' src size, src.length ≤ m ∧ size ≤ m ∧
      (res = Result.success → src.length = size ∧ swSize ≤ size) ∧
      ∀ (uninit : Buf m) (hs : size ≤ m),
        exec (apduExchange exchange (apduStream ins p1 p2 ++ data) timeoutMS)
            ⟨some s, .fresh uninit⟩ =
          (.ok res, ⟨some s', ⟨uninit.overwrite 0 src, size, hs⟩⟩) := by
  by_cases hlen : 255 < data.length
  · refine ⟨.libBadLength, s, [], m, Nat.zero_le _, le_rfl, nofun, fun uninit hs => ?_⟩
    rw [exec_apduExchange_tooLong hlen, Buf.overwrite_nil]
    rfl
  · obtain ⟨res, s', src, size, h₁, h₂, h₃, he⟩ :=
      h m m le_rfl (apdu ins p1 p2 data) timeoutMS s
    refine ⟨if res = .success ∧ size < swSize then .protocolBadLength else res, s', src, size, h₁, h₂,
      fun hr => ?_, fun uninit hs => exec_apduExchange (not_lt.mp hlen) (he uninit hs)⟩
    by_cases hn : res = .success ∧ size < swSize
    · rw [if_pos hn] at hr
      cases hr
    · rw [if_neg hn] at hr
      have hsw : ¬ size < swSize := fun hlt => hn ⟨hr, hlt⟩
      exact ⟨h₃ hr, not_lt.mp hsw⟩

/-- The outcome of an exchange does not depend on what the stack held. -/
theorem withAnswer_settled (h : Confined exchange) (m : ℕ) (ins p1 p2 : UInt8) (data : List UInt8)
    (timeoutMS : UInt32) (s : σ) :
    ∃ o s', ∀ uninit : Buf m, ∃ x, Exchanged uninit o x ∧
      exec (withAnswer uninit (apduExchange exchange (apduStream ins p1 p2 ++ data) timeoutMS))
        (some s) = (.ok x, some s') := by
  obtain ⟨res, s', src, size, h₁, h₂, h₃, he⟩ :=
    apduExchange_bounded h m ins p1 p2 data timeoutMS s
  by_cases hr : res = .success
  · obtain ⟨rfl, hsw⟩ := h₃ hr
    subst hr
    refine ⟨.answered src, s', fun uninit => ⟨_, .answered h₁ hsw, ?_⟩⟩
    exact exec_withAnswer (he uninit h₁)
  · exact ⟨.failed res, s', fun uninit => ⟨_, .failed _ hr, exec_withAnswer (he uninit h₂)⟩⟩

/-- A program that ends without a fault, and in one way whatever the stack held. -/
def Settled {α : Type} (p : ((n : ℕ) → Buf n) → KplM σ α) (s : σ) : Prop :=
  ∃ r s', ∀ uninit, exec (p uninit) (some s) = (.ok r, some s')

/-- A call that is refused before anything is sent. -/
theorem settled_refused {α : Type} {p : ((n : ℕ) → Buf n) → KplM σ α} (r : α) (s : σ)
    (hp : ∀ uninit, p uninit = pure r) : Settled p s := by
  refine ⟨r, s, fun uninit => ?_⟩
  rw [hp]
  rfl

/-- What follows an exchange by a function of its outcome does not depend on it either. -/
theorem outcome_settled (h : Confined exchange) (m : ℕ) (ins p1 p2 : UInt8) (data : List UInt8)
    (timeoutMS : UInt32) (s : σ) {α : Type} {p : ((n : ℕ) → Buf n) → KplM σ α} (f : Outcome → α)
    (hp : ∀ uninit o x dev', Exchanged (uninit m) o x →
      exec (withAnswer (uninit m) (apduExchange exchange (apduStream ins p1 p2 ++ data) timeoutMS))
        (some s) = (.ok x, dev') → exec (p uninit) (some s) = (.ok (f o), dev')) : Settled p s := by
  obtain ⟨o, s', ho⟩ := withAnswer_settled h m ins p1 p2 data timeoutMS s
  refine ⟨f o, s', fun uninit => ?_⟩
  obtain ⟨x, hx, he⟩ := ho (uninit m)
  exact hp uninit o x _ hx he

theorem setKey_settled (h : Confined exchange) (slot : UInt8) (key : List UInt8) (host : Host)
    (timeoutMS : UInt32) (s : σ) :
    Settled (fun uninit => (KplCall.setKey slot key).run exchange { host with uninit } timeoutMS) s := by
  by_cases hl : key.length = kplKeySize
  · refine outcome_settled h (0 + swSize) Instrs.storeKey slot 0 key timeoutMS s (fun o => (o.status, []))
      fun uninit o x dev' hx he => ?_
    have hset : exec (setKey exchange { host with uninit := uninit } slot key timeoutMS) (some s) =
        (.ok o.status, dev') := exec_setKey hl he hx
    rw [KplCall.run, exec_bind_ok hset]
    rfl
  · refine settled_refused (.libBadLength, []) s fun uninit => ?_
    rw [KplCall.run, setKey, if_pos hl]
    rfl

theorem getKey_settled (h : Confined exchange) {n : ℕ} (slot : UInt8) (out : Buf n) (host : Host)
    (timeoutMS : UInt32) (s : σ) :
    Settled (fun uninit => (KplCall.getKey slot out).run exchange { host with uninit } timeoutMS) s := by
  by_cases hn : n = kplKeySize
  · subst hn
    let f (o : Outcome) := o.decode 64 out (keyOf host (x25519GenPrivKey host).1 (x25519GenPrivKey host).2)
    refine outcome_settled h (64 + swSize) Instrs.getKey slot 0 (x25519GenPrivKey host).2.toList timeoutMS s
      (fun o => ((f o).1, (f o).2.toList)) fun uninit o x dev' hx he => ?_
    have hget : exec (getKey exchange { host with uninit := uninit } slot out timeoutMS) (some s) =
        (.ok (f o), dev') := exec_getKey he hx
    rw [KplCall.run, exec_bind_ok hget]
    rfl
  · refine settled_refused (.libBadLength, out.toList) s fun uninit => ?_
    rw [KplCall.run, getKey, if_pos hn]
    rfl

theorem getKeyFromName_settled (h : Confined exchange) {n : ℕ} (name : List UInt8) (out : Buf n)
    (host : Host) (timeoutMS : UInt32) (s : σ) :
    Settled (fun uninit => (KplCall.getKeyFromName name out).run exchange { host with uninit }
      timeoutMS) s := by
  by_cases hn : name.length > kplMaxNameSize ∨ n ≠ kplKeySize
  · refine settled_refused (.libBadLength, out.toList) s fun uninit => ?_
    rw [KplCall.run, getKeyFromName, if_pos hn]
    rfl
  · rw [not_or, not_not] at hn
    obtain ⟨hl, rfl⟩ := hn
    let f (o : Outcome) := o.decode 64 out (keyOf host (x25519GenPrivKey host).1 (x25519GenPrivKey host).2)
    refine outcome_settled h (64 + swSize) Instrs.getKeyFromName 0 0
      ((x25519GenPrivKey host).2.toList ++ name)
      timeoutMS s (fun o => ((f o).1, (f o).2.toList)) fun uninit o x dev' hx he => ?_
    rw [← List.append_assoc] at he
    have hget : exec (getKeyFromName exchange { host with uninit := uninit } name out timeoutMS)
        (some s) = (.ok (f o), dev') := exec_getKeyFromName (not_lt.mp hl) he hx
    rw [KplCall.run, exec_bind_ok hget]
    rfl

/-- Every operation ends without a fault, and not in a way that depends on what the stack
held: nothing behind the bytes that were received is read. -/
theorem call_settled (h : Confined exchange) (call : KplCall) (host : Host) (timeoutMS : UInt32)
    (s : σ) : Settled (fun uninit => call.run exchange { host with uninit } timeoutMS) s := by
  cases call with
  | setKey slot key => exact setKey_settled h slot key host timeoutMS s
  | getKey slot out => exact getKey_settled h slot out host timeoutMS s
  | getKeyFromName name out => exact getKeyFromName_settled h name out host timeoutMS s
  | fillAppVersion appVer =>
    let f (o : Outcome) := o.decode 3 appVer fun src => (.success, versionOf src)
    refine outcome_settled h (3 + swSize) Instrs.getAppConfiguration 0 0 [] timeoutMS s
      (fun o => ((f o).1, (f o).2.toList)) fun uninit o x dev' hx he => ?_
    rw [List.append_nil] at he
    rw [KplCall.run, exec_bind_ok (exec_fillAppVersion he hx)]
    rfl
  | getValidKeySlots out =>
    refine outcome_settled h (1 + swSize) Instrs.getValidKeySlots 0 0 [] timeoutMS s
      (fun o => o.decode 1 out fun src => (.success, out ++ slotsOf (src.getD 0 0)))
      fun uninit o x dev' hx he => ?_
    rw [List.append_nil] at he
    exact exec_getValidKeySlots he hx
  | eraseAllSlots =>
    refine outcome_settled h (1 + swSize) Instrs.eraseAllSlots 0 0 [] timeoutMS s (fun o => (o.status, []))
      fun uninit o x dev' hx he => ?_
    rw [List.append_nil] at he
    rw [KplCall.run, exec_bind_ok (exec_eraseAllSlots he hx)]
    rfl

/-- Over either transport and whatever the device does, an APDU exchange ends without a
fault, and so does every operation of the library. A success leaves at least a status word,
all of it received. -/
theorem transports_bounded {σ : Type} (dev : LedgerDevice σ) (timeoutMS : UInt32) (s : σ) :
    (∀ (n : ℕ) (ins p1 p2 : UInt8) (data : List UInt8),
      ∃ res s' src size, src.length ≤ n + 2 ∧ size ≤ n + 2 ∧
        (res = Result.success → src.length = size ∧ 2 ≤ size) ∧
        ∀ (uninit : Buf (n + 2)) (hs : size ≤ n + 2),
          exec (apduExchange dev.exchange (apduStream ins p1 p2 ++ data) timeoutMS)
              ⟨some s, .fresh uninit⟩ =
            (.ok res, ⟨some s', ⟨uninit.overwrite 0 src, size, hs⟩⟩)) ∧
    ∀ (call : KplCall) (host : Host), ∃ r s', ∀ uninit : (n : ℕ) → Buf n,
      exec (call.run dev.exchange { host with uninit := uninit } timeoutMS) (some s) =
        (.ok r, some s') := by
  have h := exchange_confined dev
  refine ⟨fun n ins p1 p2 data => ?_, fun call host => call_settled h call host timeoutMS s⟩
  exact apduExchange_bounded h (n + 2) ins p1 p2 data timeoutMS s

end Apdu

end LedgerKeePass.Kpl
