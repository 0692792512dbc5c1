import LedgerKeePass.AppReplies
import LedgerKeePass.AppReceived

/-!
# A client, the app and its user in any order

The client sends a request and waits for the reply. Until it has it, messages are under way, the
user presses buttons and the app reacts, in any order. `serveRequest` takes all of it for one
step: what the client gets is what it gets from requests that are served one after the other.
-/
namespace LedgerKeePass.App
open Bytes Program

/-- The client, the messages under way in either direction, and the device. -/
structure Network where
  waiting : Bool
  requests : List Apdu
  replies : List (List UInt8)
  device : Device

def Network.start (d : Device) : Network := ⟨false, [], [], d⟩

inductive NetworkEvent
  | send (apdu : Apdu)
  | deliver (sdk : Sdk)
  | press (sdk : Sdk) (approve : Bool)
  | receive

/-- The app reacts, and its reply is under way. -/
def appReacts (i : Input) : Prog Abort Network Unit := do
  let o ← within (fun n => n.device) (fun n d => { n with device := d }) (step i)
  update fun n => { n with replies := n.replies ++ o.reply.toList }

/-- What happens at an event, and what the client receives. -/
def networkStep : NetworkEvent → Prog Abort Network (Option (List UInt8))
  | .send apdu => do
    update fun n => { n with waiting := true, requests := n.requests ++ [apdu] }
    return none
  | .deliver sdk => do
    match ← read fun n => n.requests with
    | [] => return none
    | apdu :: requests =>
      update fun n => { n with requests }
      appReacts ⟨sdk, .apdu apdu⟩
      return none
  | .press sdk approve => do
    appReacts ⟨sdk, if approve then .approve else .deny⟩
    return none
  | .receive => do
    match ← read fun n => n.replies with
    | [] => return none
    | reply :: replies =>
      update fun n => { n with waiting := false, replies }
      return some reply

/-- The client sends while it does not wait, and the services of the SDK may fail. -/
def NetworkEvent.Allowed (n : Network) : NetworkEvent → Prop
  | .send apdu => n.waiting = false ∧ apdu.bytes ≠ []
  | .deliver sdk => sdk.Faulty
  | .press sdk _ => sdk.Faulty
  | .receive => n.waiting = true

def NetworkEvent.sent : NetworkEvent → Option Apdu
  | .send apdu => some apdu
  | _ => none

def sentRequests (tr : List (NetworkEvent × Option (List UInt8))) : List Apdu :=
  tr.filterMap fun io => io.1.sent

def receivedReplies (tr : List (NetworkEvent × Option (List UInt8))) : List (List UInt8) :=
  tr.filterMap fun io => io.2

/-- The messages under way, a prompt on display being one. -/
def Network.inFlight (n : Network) : ℕ :=
  n.requests.length + n.replies.length + if n.device.screen = .approval then 1 else 0

/-- The buttons that were pressed on a prompt, `true` being approval. -/
def pressed (presses : List Bool) (n : Network) : NetworkEvent → List Bool
  | .send _ => presses
  | .deliver _ => presses
  | .press _ approve => if n.device.screen = .approval then presses ++ [approve] else presses
  | .receive => presses

/-- Requests that are served one after the other, and their replies. `presses` are the buttons for
those that raise a prompt, in their order. -/
inductive Served (d : Device) : List Bool → List (Apdu × List UInt8) → Device → Prop
  | nil : Served d [] [] d
  | answered {presses : List Bool} {exchanges : List (Apdu × List UInt8)} {t u : Device} {apdu : Apdu}
      {reply : List UInt8} (prior : Served d presses exchanges t) (sdk : Sdk) (faulty : sdk.Faulty)
      (shown : (exec (step ⟨sdk, .apdu apdu⟩) t).2.screen = .idle)
      (last : ∀ approve, serveRequest sdk approve apdu.bytes t = (some reply, u)) :
      Served d presses (exchanges ++ [(apdu, reply)]) u
  | prompted {presses : List Bool} {exchanges : List (Apdu × List UInt8)} {t u : Device} {apdu : Apdu}
      {reply : List UInt8} (prior : Served d presses exchanges t) (sdk : Sdk) (approve : Bool)
      (faulty : sdk.Faulty) (shown : (exec (step ⟨sdk, .apdu apdu⟩) t).2.screen = .approval)
      (last : serveRequest sdk approve apdu.bytes t = (some reply, u)) :
      Served d (presses ++ [approve]) (exchanges ++ [(apdu, reply)]) u

section App
variable {sdk : Sdk} {event : Event} {approve : Bool} {d t u : Device} {apdu : Apdu} {r : Request}
  {tr : List (Input × Output)} {pending pending' : Option Command} {i : Input} {o : Output} {c : Command}

/-- A step replies or leaves a prompt as it has been asked or finds one. -/
theorem Replies.step_count (h : Replies d tr t pending) (h' : Replies d (tr ++ [(i, o)]) u pending') :
    o.reply.toList.length + (if pending'.isSome then 1 else 0) =
      (if i.event.isApdu then 1 else 0) + (if pending.isSome then 1 else 0) := by
  have hc := h.count
  have hc' := h'.count
  rw [List.filterMap_append, List.filter_append, List.length_append, List.length_append] at hc'
  have ho : ([(i, o)].filterMap fun io : Input × Output => io.2.reply).length = o.reply.toList.length := by
    obtain ⟨_ | reply, display⟩ := o <;> rfl
  have hi : ([(i, o)].filter fun io : Input × Output => io.1.event.isApdu).length =
      if i.event.isApdu then 1 else 0 := by
    cases h : i.event.isApdu <;> simp [h]
  rw [ho, hi] at hc'
  omega

theorem Waiting.resting (h : Waiting d none) (hd : d.Ready) : d.Resting :=
  ⟨hd, h.2⟩

theorem resting_waiting (h : d.Resting) : Waiting d none :=
  ⟨h.ready.tx, h.idle⟩

theorem sent_none {c : Command} {nv : InternalStorage} (h : c.sent nv = none) : ∃ r, c = .ask r := by
  cases c with
  | ask r => exact ⟨r, rfl⟩
  | _ => cases h

/-- A reaction to an APDU that does not reply: it asks, or the app has started again. -/
theorem apdu_unanswered (ht : t.Ready) (hs : exec (step ⟨sdk, .apdu apdu⟩) t = (.ok o, u))
    (ho : o.reply = none) : (∃ r, t.commandOf apdu = .ask r) ∨ u.screen = .idle := by
  obtain ⟨reply, rfl, hr⟩ := step_reacts ht hs
  dsimp only at ho
  generalize he : Event.apdu apdu = event at hr
  cases hr with
  | command hne hnv =>
    cases he
    exact .inl (sent_none ho)
  | resetStore hne hc hnv hg => exact .inr rfl
  | empty he' => cases ho
  | faultyStore sw hne hc hnv hg => cases ho
  | ignored hs he' => rcases he' with rfl | rfl <;> cases he
  | approved hs ha hf ht hi => cases ho
  | resetApproval hs ha hf ht => cases he
  | denied hs => cases ho
  | reset => cases he

/-- After a button press there is no prompt. -/
theorem press_idle (ht : t.Ready)
    (hs : exec (step ⟨sdk, if approve then .approve else .deny⟩) t = (.ok o, u)) : u.screen = .idle := by
  obtain ⟨reply, -, hr⟩ := step_reacts ht hs
  generalize he : (if approve then Event.approve else .deny) = event at hr
  cases hr with
  | approved hs ha hf ht hi => exact hi
  | ignored hn he' =>
    cases hd : t.screen with
    | idle => rfl
    | approval => exact absurd hd hn
  | resetApproval hs ha hf ht => rfl
  | denied hs => rfl
  | reset => rfl
  | _ => cases approve <;> cases he

/-- A request without a prompt is replied to. -/
theorem replied_now (hr : Replies d tr t none) (ht : t.Resting) (hf : sdk.Faulty) (hne : apdu.bytes ≠ [])
    (hask : ∀ r, t.commandOf apdu ≠ .ask r) :
    ∃ reply display u, exec (step ⟨sdk, .apdu apdu⟩) t = (.ok ⟨some reply, display⟩, u) ∧ u.Resting ∧
      Replies d (tr ++ [(⟨sdk, .apdu apdu⟩, ⟨some reply, display⟩)]) u none := by
  obtain ⟨⟨reply, display⟩, u, pending, hs, hw, hc⟩ := continues_apdu (resting_waiting ht) hf hne
  have hcount := hr.step_count (hc d tr hr)
  cases pending with
  | none =>
    cases reply with
    | none => simp [Event.isApdu] at hcount
    | some reply => exact ⟨reply, display, u, hs, hw.resting (step_ready ht.ready hs), hc d tr hr⟩
  | some c =>
    cases reply with
    | none =>
      rcases apdu_unanswered ht.ready hs rfl with ⟨r, h⟩ | h
      · exact absurd h (hask r)
      · rw [hw.2.1] at h
        cases h
    | some reply => simp [Event.isApdu] at hcount

/-- A request with a prompt waits for a button. -/
theorem prompted_now (hr : Replies d tr t none) (ht : t.Resting) (hf : sdk.Faulty) (hne : apdu.bytes ≠ [])
    (hc : t.commandOf apdu = .ask r) :
    ∃ c tr', Replies d tr' (t.asking apdu r) (some c) ∧ Waiting (t.asking apdu r) (some c) := by
  obtain ⟨o, u, pending, hs, hw, hrep⟩ := continues_apdu (resting_waiting ht) hf hne
  rw [exec_step_ask ht.ready hne hc] at hs
  cases hs
  cases pending with
  | none => cases hw.2
  | some c => exact ⟨c, _, hrep d tr hr, hw⟩

/-- The button press that a prompt waits for is replied to. -/
theorem pressed_now (hr : Replies d tr t (some c)) (hw : Waiting t (some c)) (ht : t.Ready) (hf : sdk.Faulty)
    (approve : Bool) :
    ∃ reply display u,
      exec (step ⟨sdk, if approve then .approve else .deny⟩) t = (.ok ⟨some reply, display⟩, u) ∧
      u.Resting ∧ ∃ tr', Replies d tr' u none := by
  have hp : Paced t ⟨sdk, if approve then .approve else .deny⟩ := by
    cases approve with
    | true => exact ⟨hf, trivial⟩
    | false => exact ⟨hf, trivial⟩
  obtain ⟨⟨reply, display⟩, u, pending, hs, hw', hc⟩ := hw.step hp
  have hidle := press_idle ht hs
  have hcount := hr.step_count (hc d tr hr)
  cases pending with
  | none =>
    cases reply with
    | none => cases approve <;> simp [Event.isApdu] at hcount
    | some reply => exact ⟨reply, display, u, hs, ⟨step_ready ht hs, hidle⟩, _, hc d tr hr⟩
  | some c =>
    rw [hw'.2.1] at hidle
    cases hidle

end App

/-- Requests that were served, and a device that waits for the next. -/
structure ServedTo (d : Device) (presses : List Bool) (exchanges : List (Apdu × List UInt8))
    (t : Device) : Prop where
  served : Served d presses exchanges t
  resting : t.Resting
  replies : ∃ tr, Replies d tr t none

/-- How far the exchange is that the client waits for. -/
inductive NetworkPhase (d : Device) (presses : List Bool) (sent : List Apdu) (received : List (List UInt8)) :
    Network → Prop
  | idle {exchanges : List (Apdu × List UInt8)} {t : Device} (h : ServedTo d presses exchanges t)
      (hs : sent = exchanges.map Prod.fst) (hr : received = exchanges.map Prod.snd) :
      NetworkPhase d presses sent received (.start t)
  | requested {exchanges : List (Apdu × List UInt8)} {t : Device} {apdu : Apdu}
      (h : ServedTo d presses exchanges t) (hne : apdu.bytes ≠ [])
      (hs : sent = exchanges.map Prod.fst ++ [apdu]) (hr : received = exchanges.map Prod.snd) :
      NetworkPhase d presses sent received ⟨true, [apdu], [], t⟩
  | prompting {exchanges : List (Apdu × List UInt8)} {t : Device} {apdu : Apdu} {r : Request}
      (h : ServedTo d presses exchanges t) (hne : apdu.bytes ≠ []) (hc : t.commandOf apdu = .ask r)
      (hs : sent = exchanges.map Prod.fst ++ [apdu]) (hr : received = exchanges.map Prod.snd) :
      NetworkPhase d presses sent received ⟨true, [], [], t.asking apdu r⟩
  | replied {exchanges : List (Apdu × List UInt8)} {u : Device} {apdu : Apdu} {reply : List UInt8}
      (h : ServedTo d presses (exchanges ++ [(apdu, reply)]) u)
      (hs : sent = exchanges.map Prod.fst ++ [apdu]) (hr : received = exchanges.map Prod.snd) :
      NetworkPhase d presses sent received ⟨true, [], [reply], u⟩

section Network
variable {sdk : Sdk} {approve : Bool} {d t u : Device} {apdu : Apdu} {r : Request} {i : Input} {o : Output}
  {n : Network} {e : NetworkEvent} {exchanges : List (Apdu × List UInt8)} {presses : List Bool}
  {sent : List Apdu} {received : List (List UInt8)} {tr : List (NetworkEvent × Option (List UInt8))}

theorem exec_appReacts {waiting : Bool} {requests : List Apdu} {replies : List (List UInt8)}
    (h : exec (step i) d = (.ok o, u)) :
    exec (appReacts i) ⟨waiting, requests, replies, d⟩ =
      (.ok (), ⟨waiting, requests, replies ++ o.reply.toList, u⟩) := by
  have hw := @exec_within _ _ _ _ (fun n : Network => n.device) (fun n d => { n with device := d }) (step i)
    ⟨waiting, requests, replies, d⟩ _ _ h
  rw [appReacts, exec_bind_ok hw]
  rfl

/-- A button press while no prompt is on display. -/
theorem press_ignored (hn : n.device.Resting) (sdk : Sdk) (approve : Bool) :
    exec (networkStep (.press sdk approve)) n = (.ok none, n) := by
  obtain ⟨waiting, requests, replies, t⟩ := n
  have hs : t.screen ≠ .approval := by
    intro h
    have hidle : t.screen = .idle := hn.idle
    rw [h] at hidle
    cases hidle
  have he : exec (step ⟨sdk, if approve then .approve else .deny⟩) t = (.ok ⟨none, t.display⟩, t) := by
    cases approve with
    | true => exact exec_step_ok (exec_react_ignored hs (.inl rfl))
    | false => exact exec_step_ok (exec_react_ignored hs (.inr rfl))
  rw [networkStep, exec_bind_ok (exec_appReacts he)]
  exact congrArg (fun l => (Except.ok none, Network.mk waiting requests l t)) (List.append_nil replies)

/-- The app takes a request up: it replies, or it shows the prompt. -/
theorem takes_up (h : ServedTo d presses exchanges t) (hne : apdu.bytes ≠ []) (hf : sdk.Faulty) :
    (∃ reply display u, exec (step ⟨sdk, .apdu apdu⟩) t = (.ok ⟨some reply, display⟩, u) ∧
        ServedTo d presses (exchanges ++ [(apdu, reply)]) u) ∨
      ∃ r, t.commandOf apdu = .ask r ∧ exec (step ⟨sdk, .apdu apdu⟩) t =
        (.ok ⟨none, (t.asking apdu r).display⟩, t.asking apdu r) := by
  obtain ⟨tr, hr⟩ := h.replies
  by_cases hask : ∃ r, t.commandOf apdu = .ask r
  · obtain ⟨r, hc⟩ := hask
    exact .inr ⟨r, hc, exec_step_ask h.resting.ready hne hc⟩
  · obtain ⟨reply, display, u, hs, hu, hru⟩ := replied_now hr h.resting hf hne fun r hc => hask ⟨r, hc⟩
    refine .inl ⟨reply, display, u, hs, h.served.answered sdk hf ?_ fun approve => ?_, hu, _, hru⟩
    · rw [hs]
      exact hu.idle
    · rw [serveRequest, dif_pos apdu.fits, hs]

/-- The user decides, and the request is served. -/
theorem user_decides (h : ServedTo d presses exchanges t) (hne : apdu.bytes ≠ [])
    (hc : t.commandOf apdu = .ask r) (hf : sdk.Faulty) (approve : Bool) :
    ∃ reply display u, exec (step ⟨sdk, if approve then .approve else .deny⟩) (t.asking apdu r) =
        (.ok ⟨some reply, display⟩, u) ∧
      ServedTo d (presses ++ [approve]) (exchanges ++ [(apdu, reply)]) u := by
  obtain ⟨tr, hr⟩ := h.replies
  obtain ⟨c, tr', hr', hw⟩ := prompted_now hr h.resting hf hne hc
  have hask := @exec_step_ask sdk t apdu r h.resting.ready hne hc
  obtain ⟨reply, display, u, hs, hu, hru⟩ := pressed_now hr' hw (step_ready h.resting.ready hask) hf approve
  have hshown : (exec (step ⟨sdk, .apdu apdu⟩) t).2.screen = .approval := by
    rw [hask]
    rfl
  exact ⟨reply, display, u, hs, h.served.prompted sdk approve hf hshown (serve_press hask hs), hu, hru⟩

/-- An event that can happen, after which the exchange is in one of its phases again. -/
def Proceeds (d : Device) (presses : List Bool) (sent : List Apdu) (received : List (List UInt8))
    (n : Network) (e : NetworkEvent) : Prop :=
  ∃ o n', exec (networkStep e) n = (.ok o, n') ∧
    NetworkPhase d (pressed presses n e) (sent ++ e.sent.toList) (received ++ o.toList) n'

/-- An event by which nothing happens. -/
theorem proceeds_same (h : NetworkPhase d presses sent received n) (he : e.sent = none)
    (hp : pressed presses n e = presses) (hx : exec (networkStep e) n = (.ok none, n)) :
    Proceeds d presses sent received n e := by
  refine ⟨none, n, hx, ?_⟩
  rw [he, hp]
  simpa using h

theorem proceeds_send (h : NetworkPhase d presses sent received n) (hw : n.waiting = false)
    (hne : apdu.bytes ≠ []) : Proceeds d presses sent received n (.send apdu) := by
  cases h with
  | idle h hs hr =>
    subst hs
    exact ⟨none, _, rfl, .requested h hne rfl ((List.append_nil _).trans hr)⟩
  | requested => cases hw
  | prompting => cases hw
  | replied => cases hw

theorem proceeds_deliver (h : NetworkPhase d presses sent received n) (hf : sdk.Faulty) :
    Proceeds d presses sent received n (.deliver sdk) := by
  have hphase := h
  cases h with
  | idle h hs hr => exact proceeds_same hphase rfl rfl rfl
  | @requested _ _ apdu h hne hs hr =>
    rcases takes_up h hne hf with ⟨reply, display, u, he, hu⟩ | ⟨r, hc, he⟩
    · refine ⟨none, _, ?_, .replied hu ((List.append_nil _).trans hs) ((List.append_nil _).trans hr)⟩
      exact exec_bind_ok (exec_appReacts he)
    · refine ⟨none, _, ?_, .prompting h hne hc ((List.append_nil _).trans hs) ((List.append_nil _).trans hr)⟩
      exact exec_bind_ok (exec_appReacts he)
  | prompting h hne hc hs hr => exact proceeds_same hphase rfl rfl rfl
  | replied h hs hr => exact proceeds_same hphase rfl rfl rfl

/-- A button press for which there is no prompt. -/
theorem proceeds_press_idle (h : NetworkPhase d presses sent received n) (hn : n.device.Resting) (sdk : Sdk)
    (approve : Bool) : Proceeds d presses sent received n (.press sdk approve) := by
  refine proceeds_same h rfl ?_ (press_ignored hn sdk approve)
  rw [pressed, hn.idle, if_neg (by simp)]

theorem proceeds_press (h : NetworkPhase d presses sent received n) (hf : sdk.Faulty) (approve : Bool) :
    Proceeds d presses sent received n (.press sdk approve) := by
  have hphase := h
  cases h with
  | idle h hs hr => exact proceeds_press_idle hphase h.resting sdk approve
  | requested h hne hs hr => exact proceeds_press_idle hphase h.resting sdk approve
  | prompting h hne hc hs hr =>
    obtain ⟨reply, display, u, he, hu⟩ := user_decides h hne hc hf approve
    refine ⟨none, _, ?_, .replied hu ((List.append_nil _).trans hs) ((List.append_nil _).trans hr)⟩
    exact exec_bind_ok (exec_appReacts he)
  | replied h hs hr => exact proceeds_press_idle hphase h.resting sdk approve

theorem proceeds_receive (h : NetworkPhase d presses sent received n) (hw : n.waiting = true) :
    Proceeds d presses sent received n .receive := by
  have hphase := h
  cases h with
  | idle h hs hr => cases hw
  | requested h hne hs hr => exact proceeds_same hphase rfl rfl rfl
  | prompting h hne hc hs hr => exact proceeds_same hphase rfl rfl rfl
  | @replied _ _ _ reply h hs hr =>
    refine ⟨some reply, _, rfl, .idle h ?_ ?_⟩
    · rw [hs, List.map_append]
      exact List.append_nil _
    · rw [hr, List.map_append]
      rfl

theorem NetworkPhase.step (h : NetworkPhase d presses sent received n) (he : e.Allowed n) :
    Proceeds d presses sent received n e := by
  cases e with
  | send apdu => exact proceeds_send h he.1 he.2
  | deliver sdk => exact proceeds_deliver h he
  | press sdk approve => exact proceeds_press h he approve
  | receive => exact proceeds_receive h he

theorem sentRequests_snoc (tr : List (NetworkEvent × Option (List UInt8))) (e : NetworkEvent)
    (reply : Option (List UInt8)) : sentRequests (tr ++ [(e, reply)]) = sentRequests tr ++ e.sent.toList := by
  rw [sentRequests, List.filterMap_append]
  cases e <;> rfl

theorem receivedReplies_snoc (tr : List (NetworkEvent × Option (List UInt8))) (e : NetworkEvent)
    (reply : Option (List UInt8)) :
    receivedReplies (tr ++ [(e, reply)]) = receivedReplies tr ++ reply.toList := by
  rw [receivedReplies, List.filterMap_append]
  cases reply <;> rfl

/-- A run in any order. -/
theorem run_phase (hd : Started d)
    (h : Observed networkStep (fun n e => e.Allowed n) pressed (.start d) [] tr n presses) :
    NetworkPhase d presses (sentRequests tr) (receivedReplies tr) n := by
  generalize hv : ([] : List Bool) = v at h
  induction h with
  | nil =>
    subst hv
    exact .idle ⟨.nil, started_resting hd, [], .nil⟩ rfl rfl
  | snoc _ hA he ih =>
    obtain ⟨o, n', hx, hp⟩ := (ih hv).step hA
    rw [he] at hx
    cases hx
    rw [sentRequests_snoc, receivedReplies_snoc]
    exact hp

theorem NetworkPhase.inFlight (h : NetworkPhase d presses sent received n) :
    n.inFlight = if n.waiting then 1 else 0 := by
  cases h with
  | idle h hs hr => simp [Network.inFlight, Network.start, h.resting.idle]
  | requested h hne hs hr => simp [Network.inFlight, h.resting.idle]
  | prompting h hne hc hs hr =>
    change 0 + 0 + (if Screen.approval = .approval then 1 else 0) = 1
    rfl
  | replied h hs hr => simp [Network.inFlight, h.resting.idle]

/-- These requests got these replies, one after the other, with these buttons pressed. -/
def Serial (d : Device) (presses : List Bool) (sent : List Apdu) (received : List (List UInt8))
    (t : Device) : Prop :=
  ∃ exchanges, Served d presses exchanges t ∧ sent = exchanges.map Prod.fst ∧
    received = exchanges.map Prod.snd

theorem NetworkPhase.serial (h : NetworkPhase d presses sent received n) (hw : n.waiting = false) :
    Serial d presses sent received n.device := by
  cases h with
  | idle h hs hr => exact ⟨_, h.served, hs, hr⟩
  | requested => cases hw
  | prompting => cases hw
  | replied => cases hw

/-- These events bring the exchange to its end. -/
def Completes (events : List NetworkEvent) (d : Device) (presses : List Bool) (sent : List Apdu)
    (received : List (List UInt8)) (n : Network) : Prop :=
  ∃ rest u presses',
    Observed networkStep (fun n e => e.Allowed n) pressed n presses rest (.start u) presses' ∧
    rest.map Prod.fst = events ∧ Serial d presses' sent (received ++ receivedReplies rest) u

theorem completes_replied {reply : List UInt8} (h : ServedTo d presses (exchanges ++ [(apdu, reply)]) u) :
    Completes [.receive] d presses (exchanges.map Prod.fst ++ [apdu]) (exchanges.map Prod.snd)
      ⟨true, [], [reply], u⟩ := by
  have hA : NetworkEvent.receive.Allowed ⟨true, [], [reply], u⟩ := rfl
  refine ⟨_, u, presses, .cons (o := some reply) hA rfl (.nil _ _), rfl, _, h.served, ?_, ?_⟩
  · rw [List.map_append]
    rfl
  · rw [List.map_append]
    rfl

/-- One more event before the end. -/
theorem Completes.after {events : List NetworkEvent} {n' : Network}
    (h : Completes events d (pressed presses n e) sent received n') (he : e.Allowed n)
    (hx : exec (networkStep e) n = (.ok none, n')) : Completes (e :: events) d presses sent received n := by
  obtain ⟨rest, u, presses', hrun, hrest, hserial⟩ := h
  exact ⟨_, u, presses', hrun.cons he hx, congrArg (e :: ·) hrest, hserial⟩

theorem completes_prompting (h : ServedTo d presses exchanges t) (hne : apdu.bytes ≠ [])
    (hc : t.commandOf apdu = .ask r) (hf : sdk.Faulty) (approve : Bool) :
    Completes [.press sdk approve, .receive] d presses (exchanges.map Prod.fst ++ [apdu])
      (exchanges.map Prod.snd) ⟨true, [], [], t.asking apdu r⟩ := by
  obtain ⟨reply, display, u, he, hu⟩ := user_decides h hne hc hf approve
  have hx : exec (networkStep (.press sdk approve)) ⟨true, [], [], t.asking apdu r⟩ =
      (.ok none, ⟨true, [], [reply], u⟩) := exec_bind_ok (exec_appReacts he)
  exact (completes_replied hu).after (e := .press sdk approve) hf hx

/-- The request is replied to at once or after a button press. -/
theorem completes_requested (h : ServedTo d presses exchanges t) (hne : apdu.bytes ≠ []) (hf : sdk.Faulty)
    (approve : Bool) :
    ∃ events, events.Sublist [.press sdk approve, .receive] ∧
      Completes (.deliver sdk :: events) d presses (exchanges.map Prod.fst ++ [apdu])
        (exchanges.map Prod.snd) ⟨true, [apdu], [], t⟩ := by
  rcases takes_up h hne hf with ⟨reply, display, u, he, hu⟩ | ⟨r, hc, he⟩
  · have hx : exec (networkStep (.deliver sdk)) ⟨true, [apdu], [], t⟩ =
        (.ok none, ⟨true, [], [reply], u⟩) := exec_bind_ok (exec_appReacts he)
    exact ⟨[.receive], List.sublist_cons_self _ _,
      (completes_replied hu).after (e := .deliver sdk) hf hx⟩
  · have hx : exec (networkStep (.deliver sdk)) ⟨true, [apdu], [], t⟩ =
        (.ok none, ⟨true, [], [], t.asking apdu r⟩) := exec_bind_ok (exec_appReacts he)
    exact ⟨_, List.Sublist.refl _,
      (completes_prompting h hne hc hf approve).after (e := .deliver sdk) hf hx⟩

theorem NetworkPhase.completes (h : NetworkPhase d presses sent received n) (hw : n.waiting = true)
    (hf : sdk.Faulty) (approve : Bool) :
    ∃ events, events.Sublist [.deliver sdk, .press sdk approve, .receive] ∧
      Completes events d presses sent received n := by
  cases h with
  | idle => cases hw
  | requested h hne hs hr =>
    subst hs hr
    obtain ⟨events, hsub, hc⟩ := completes_requested h hne hf approve
    exact ⟨_, hsub.cons_cons _, hc⟩
  | prompting h hne hc hs hr =>
    subst hs hr
    exact ⟨_, List.sublist_cons_self _ _, completes_prompting h hne hc hf approve⟩
  | replied h hs hr =>
    subst hs hr
    exact ⟨_, (List.sublist_cons_self _ _).trans (List.sublist_cons_self _ _), completes_replied h⟩

end Network

/-- In whatever order a client, the app and its user take their turns, exactly one message is under way
while the client waits, a prompt on display being one, and none while it does not. What the client
has received are the replies to its requests as they are served one after the other, where each
that raises a prompt is decided by the button that the user pressed on it. While the client waits,
either button brings it the reply. -/
theorem requests_serializable {d : Device} {tr : List (NetworkEvent × Option (List UInt8))} {n : Network}
    {presses : List Bool} (hd : Started d)
    (h : Observed networkStep (fun n e => e.Allowed n) pressed (.start d) [] tr n presses) :
    n.inFlight = (if n.waiting then 1 else 0) ∧
    (n.waiting = false → Serial d presses (sentRequests tr) (receivedReplies tr) n.device) ∧
    (n.waiting = true → ∀ (sdk : Sdk) (approve : Bool), sdk.Faulty →
      ∃ events, events.Sublist [.deliver sdk, .press sdk approve, .receive] ∧
        Completes events d presses (sentRequests tr) (receivedReplies tr) n) ∧
    ∀ e : NetworkEvent, e.Allowed n → ∃ o n', exec (networkStep e) n = (.ok o, n') := by
  have hphase := run_phase hd h
  refine ⟨hphase.inFlight, hphase.serial, fun hw sdk approve hf => hphase.completes hw hf approve,
    fun e he => ?_⟩
  obtain ⟨o, n', hx, -⟩ := hphase.step he
  exact ⟨o, n', hx⟩

/-- A button is pressed too early, and a storage that throws makes the app reply with an error. Then the
user denies the key of a name. -/
theorem requests_serializable_failing :
    ∃ n, Observed networkStep (fun n e => e.Allowed n) pressed (.start freshDevice) []
        [(.send wholeStore, none), (.press failingSdk true, none), (.deliver failingSdk, none),
          (.receive, some [0x68, 0x01]), (.send askName, none), (.deliver failingSdk, none),
          (.press failingSdk false, none), (.receive, some (statusBytes kplSwUnauthorizedAccess))] n
        [false] ∧
      Serial freshDevice [false] [wholeStore, askName] [[0x68, 0x01], statusBytes kplSwUnauthorizedAccess]
        n.device := by
  have hstore : (NetworkEvent.send wholeStore).Allowed (.start freshDevice) := ⟨rfl, by decide⟩
  have h : Observed networkStep (fun n (e : NetworkEvent) => e.Allowed n) pressed (.start freshDevice) [] []
    _ _ := .nil _ _
  have h := h.next hstore (o := none) rfl
  have h := h.next (i := .press failingSdk true) (o := none) failingSdk_faulty rfl
  have h := h.next (i := .deliver failingSdk) (o := none) failingSdk_faulty rfl
  have h := h.next (i := .receive) (o := some [0x68, 0x01]) rfl rfl
  have h := h.next (i := .send askName) (o := none) ⟨rfl, by decide⟩ rfl
  have h := h.next (i := .deliver failingSdk) (o := none) failingSdk_faulty rfl
  have h := h.next (i := .press failingSdk false) (o := none) failingSdk_faulty rfl
  have h := h.next (i := .receive) (o := some (statusBytes kplSwUnauthorizedAccess)) rfl rfl
  exact ⟨_, h, (requests_serializable freshDevice_started h).2.1 rfl⟩

end LedgerKeePass.App
