import LedgerKeePass.LinkPairing

/-!
# Connecting again (`LedgerDeviceTCP::connect`)

A connection that has lost step, because an answer was late, is closed and a new one opened to the
same device. What was under way on the old one is gone, so that requests and answers are paired
again up to the next exchange that fails.
-/
namespace LedgerKeePass.Kpl
open Bytes Program App

/-- What is done with a TCP device. -/
inductive LinkOp
  | exchange (c : ExchangeCall)
  | connect

section
variable {τ : Type} (serve : Serve τ) (arrival : ℕ → ℕ → ℕ)

/-- A new connection to the device of the old one. -/
def TcpLink.reconnect (l : TcpLink τ) : TcpLink τ := { l with sent := [], inbound := [] }

/-- An exchange with its end, or a `connect` that succeeds. -/
def operateLink : LinkOp → KplM (TcpLink τ) (Option ExchangeEnd)
  | .exchange c => do return some (← (tcpFifo serve arrival).call c)
  | .connect => do
    update (Option.map TcpLink.reconnect)
    return none

/-- The device once it has served the requests of a run. -/
def servedBy (d : τ) (tr : List (LinkOp × Option ExchangeEnd)) : τ :=
  tr.foldl (fun d p => match p.1 with
    | .exchange c => if c.data.length ≤ 4294967295 then (serve c.data d).2 else d
    | .connect => d) d

/-- No exchange has failed since the last `connect`, as far as its caller sees. -/
def inStep (tr : List (LinkOp × Option ExchangeEnd)) : Bool :=
  tr.foldl (fun b p => match p with
    | (.exchange _, some o) => b && decide (o.result = .success)
    | (.exchange _, none) => b
    | (.connect, _) => true) true

end

section Receiving
variable {τ : Type} {m : ℕ} {serve : Serve τ} {arrival : ℕ → ℕ → ℕ} {l : TcpLink τ} {a : LedgerAnswer m}
  {data : List UInt8} {timeoutMS : UInt32}

/-- A read takes bytes off the connection and does nothing else to it. -/
theorem tcpRead_takes (len : ℕ) :
    ∃ res data k, data.length ≤ len ∧
      exec (tcpRead (tcpLink serve arrival) len timeoutMS) (⟨some l, a⟩ : Link _ m) =
        (.ok (res, data), ⟨some (l.taken k), a⟩) := by
  obtain ⟨res, data, -, rfl, hd, -, he⟩ := tcpRead_cases (tcpLink serve arrival) len timeoutMS l
  exact ⟨res, data, _, hd, he m a⟩

theorem tcpReceive_keeps (l : TcpLink τ) (a : LedgerAnswer m) :
    ∃ res l' a', exec (tcpReceive (tcpLink serve arrival) timeoutMS) (⟨some l, a⟩ : Link _ m) =
      (.ok res, ⟨some l', a'⟩) ∧ l'.device = l.device ∧ l'.sent = l.sent := by
  obtain ⟨res, prefixBytes, k, -, he⟩ := @tcpRead_takes τ m serve arrival l a timeoutMS 4
  rw [tcpReceive, exec_bind_ok he]
  by_cases hr : res = .success
  · subst hr
    simp only [ne_eq, not_true_eq_false, if_false]
    simp only [tcpReadAnswer]
    rw [exec_bind_ok (exec_read _ _)]
    by_cases hs : (ofBe prefixBytes + swSize) % 4294967296 > a.bufSize
    · rw [if_pos hs]
      exact ⟨_, _, _, rfl, rfl, rfl⟩
    · have hle := not_lt.mp hs
      rw [if_neg hs, exec_bind_ok (exec_resizeAnswer hle)]
      obtain ⟨res, data, k', hd, he'⟩ := @tcpRead_takes τ m serve arrival (l.taken k)
        ⟨a.buf, _, hle.trans a.fits⟩ timeoutMS ((ofBe prefixBytes + swSize) % 4294967296)
      rw [exec_bind_ok he']
      dsimp only
      rw [exec_bind_ok (exec_storeAnswer (by rw [Nat.zero_add]; exact hd.trans (hle.trans a.fits)))]
      exact ⟨_, _, _, rfl, rfl, rfl⟩
  · simp only [ne_eq, hr, not_false_eq_true, if_true]
    exact ⟨_, _, _, rfl, rfl, rfl⟩

/-- Whatever is still on the connection, an exchange makes the device serve its request. -/
theorem tcpExchange_serves (hs : l.sent = []) (hd : data.length ≤ 4294967295) (a : LedgerAnswer m) :
    ∃ res l' a', exec (tcpExchange (tcpLink serve arrival) data timeoutMS) (⟨some l, a⟩ : Link _ m) =
      (.ok res, ⟨some l', a'⟩) ∧ l'.device = (serve data l.device).2 ∧ l'.sent = [] := by
  rw [exec_tcpExchange_sent hs hd]
  exact tcpReceive_keeps { l.served serve data with sent := [] } a

end Receiving

section Runs
variable {τ : Type} {serve : Serve τ} {arrival : ℕ → ℕ → ℕ} {l : TcpLink τ} {d : τ}
  {tr : List (LinkOp × Option ExchangeEnd)} {t : Option (TcpLink τ)}

theorem call_serves (hs : l.sent = []) (c : ExchangeCall) :
    ∃ o l', exec ((tcpFifo serve arrival).call c) (some l) = (.ok o, some l') ∧ l'.sent = [] ∧
      l'.device = if c.data.length ≤ 4294967295 then (serve c.data l.device).2 else l.device := by
  rw [FifoLink.call]
  by_cases hd : c.data.length ≤ 4294967295
  · obtain ⟨res, l', a', he, hdev, hsent⟩ := @tcpExchange_serves τ _ serve arrival l c.data c.timeoutMS hs hd
      (.fresh c.uninit)
    exact ⟨⟨res, a'.bytes⟩, l', exec_bind_ok (exec_withAnswer he), hsent, by rw [hdev, if_pos hd]⟩
  · have hx := (tcpFifo_serves serve arrival).tooLong c.timeoutMS l (.fresh c.uninit) (not_le.mp hd)
    exact ⟨_, l, exec_bind_ok (exec_withAnswer hx), hs, by rw [if_neg hd]⟩

/-- A connection after a run: the device has served all requests, and there is nothing left to
read where the run is in step. -/
def Rejoined (serve : Serve τ) (d : τ) (tr : List (LinkOp × Option ExchangeEnd)) (t : Option (TcpLink τ)) :
    Prop :=
  ∃ l, t = some l ∧ l.sent = [] ∧ l.device = servedBy serve d tr ∧ (inStep tr = true → l.inbound = [])

theorem inStep_snoc (tr : List (LinkOp × Option ExchangeEnd)) (c : ExchangeCall) (o : ExchangeEnd) :
    inStep (tr ++ [(.exchange c, some o)]) = (inStep tr && decide (o.result = .success)) := by
  rw [inStep, List.foldl_append]
  rfl

theorem servedBy_snoc (serve : Serve τ) (d : τ) (tr : List (LinkOp × Option ExchangeEnd)) (c : ExchangeCall)
    (o : Option ExchangeEnd) :
    servedBy serve d (tr ++ [(.exchange c, o)]) =
      if c.data.length ≤ 4294967295 then (serve c.data (servedBy serve d tr)).2 else servedBy serve d tr := by
  rw [servedBy, List.foldl_append]
  rfl

/-- The run lemma. -/
theorem run_connected
    (h : Run (operateLink serve arrival) (fun _ _ => True) (some ((tcpFifo serve arrival).start d)) tr t) :
    Rejoined serve d tr t := by
  generalize hstart : some ((tcpFifo serve arrival).start d) = start at h
  induction h with
  | nil =>
    subst hstart
    exact ⟨_, rfl, rfl, rfl, fun _ => rfl⟩
  | @snoc t u tr i o prior _ he ih =>
    obtain ⟨l, rfl, hsent, hdev, hin⟩ := ih
    cases i with
    | exchange c =>
      obtain ⟨end', l', hx, hsent', hdev'⟩ := @call_serves τ serve arrival l hsent c
      have hop : exec (operateLink serve arrival (.exchange c)) (some l) = (.ok (some end'), some l') :=
        exec_bind_ok hx
      rw [hop] at he
      obtain ⟨rfl, rfl⟩ : some end' = o ∧ some l' = u := by
        cases he
        exact ⟨rfl, rfl⟩
      refine ⟨l', rfl, hsent', ?_, fun hstep => ?_⟩
      · rw [hdev', servedBy_snoc, hdev]
      · rw [inStep_snoc, Bool.and_eq_true, decide_eq_true_eq] at hstep
        obtain ⟨l₁, h₁, -, hok⟩ := call_quiet (tcpFifo_serves serve arrival) ⟨hsent, hin hstep.1⟩ hx
        cases h₁
        exact (hok hstep.2).2.2
    | connect =>
      have hx : exec (operateLink serve arrival .connect) (some l) = (.ok none, some l.reconnect) := rfl
      rw [hx] at he
      obtain ⟨rfl, rfl⟩ : none = o ∧ some l.reconnect = u := by
        cases he
        exact ⟨rfl, rfl⟩
      refine ⟨l.reconnect, rfl, rfl, ?_, fun _ => rfl⟩
      rw [servedBy, List.foldl_append]
      exact hdev

end Runs

/-- Over TCP, with answers as late as they please and connections made whenever the caller likes: as
long as no exchange has failed since the last `connect`, a success has the answer to its own request
and a key is decrypted from the answer to its own request. -/
theorem reconnect_pairs {τ : Type} (serve : Serve τ) (arrival : ℕ → ℕ → ℕ) (d : τ)
    (tr : List (LinkOp × Option ExchangeEnd)) (t : Option (TcpLink τ))
    (h : Run (operateLink serve arrival) (fun _ _ => True) (some ((tcpFifo serve arrival).start d)) tr t)
    (hstep : inStep tr = true) :
    (∀ c o t', exec ((tcpFifo serve arrival).call c) t = (.ok o, t') → o.result = .success →
      o.answer = (serve c.data (servedBy serve d tr)).1.bytes) ∧
    (∀ host slot out key timeoutMS t',
      exec (getKey (tcpFifo serve arrival).exchange host slot out timeoutMS) t = (.ok (.success, key), t') →
      keyOf host (x25519GenPrivKey host).1 (x25519GenPrivKey host).2
        (serve (apdu Instrs.getKey slot 0 (x25519GenPrivKey host).2.toList) (servedBy serve d tr)).1.bytes =
          (.success, key)) ∧
    ∀ host name out key timeoutMS t',
      exec (getKeyFromName (tcpFifo serve arrival).exchange host name out timeoutMS) t =
        (.ok (.success, key), t') →
      keyOf host (x25519GenPrivKey host).1 (x25519GenPrivKey host).2
        (serve (apdu Instrs.getKeyFromName 0 0 ((x25519GenPrivKey host).2.toList ++ name))
          (servedBy serve d tr)).1.bytes = (.success, key) := by
  obtain ⟨l, rfl, hsent, hdev, hin⟩ := run_connected h
  have hL := tcpFifo_serves serve arrival
  have hquiet : (tcpFifo serve arrival).quiet l := ⟨hsent, hin hstep⟩
  have hlim : 260 ≤ (tcpFifo serve arrival).limit := by simp [tcpFifo]
  have hdev' : (tcpFifo serve arrival).device l = servedBy serve d tr := hdev
  rw [← hdev']
  refine ⟨fun c o t' he hres => ?_, fun host slot out key timeoutMS t' he => ?_,
    fun host name out key timeoutMS t' he => ?_⟩
  · obtain ⟨s', -, -, hans⟩ := call_quiet hL hquiet he
    exact (hans hres).1
  · exact getKey_quiet hL hlim hquiet he
  · exact getKeyFromName_quiet hL hlim hquiet he

/-- The first answer of a device that numbers them is late, and lost with its connection. -/
theorem reconnect_pairs_counting : ∃ tr t,
    Run (operateLink counting lateOnce) (fun _ _ => True) (some ((tcpFifo counting lateOnce).start 0)) tr t ∧
      inStep tr = true ∧ tr.length = 2 ∧
      ∀ o t', exec ((tcpFifo counting lateOnce).call ⟨1, Buf.zeros _, [1], 60000⟩) t = (.ok o, t') →
        o.result = .success → o.answer = [1, 0x90, 0x00] := by
  let c : ExchangeCall := ⟨1, Buf.zeros _, [1], 60000⟩
  have h₁ : (exec (operateLink counting lateOnce (.exchange c))
      (some ((tcpFifo counting lateOnce).start 0))).1 = .ok (some ⟨.transportTimeout, [0, 0, 0]⟩) := by
    decide +kernel
  have hrun := ((Run.nil (A := fun _ _ => True) _).next trivial h₁).next
    (i := LinkOp.connect) (o := none) trivial rfl
  exact ⟨_, _, hrun, rfl, rfl, fun o t' he hres =>
    (reconnect_pairs counting lateOnce 0 _ _ hrun rfl).1 _ o t' he hres⟩

end LedgerKeePass.Kpl
