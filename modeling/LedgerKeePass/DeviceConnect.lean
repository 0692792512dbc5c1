import LedgerKeePass.DeviceObjects

/-!
# Connecting a device

Connecting closes the connection that a device had and opens at most one. `outcome` is the
result in terms of what the system answers.
-/
namespace LedgerKeePass.Kpl
open Lifetimes

/-- What becomes of an address. -/
def AddrInfo.outcome (addr : AddrInfo) : Result :=
  if !addr.socket then .transportTcpSocketCreateFail
  else if !addr.connect then .transportConnectionFailed
  else .success

/-- The first address that connects is taken; where none does, the last one decides. -/
def tcpOutcome (addrs : List AddrInfo) : Result :=
  if addrs.any fun addr => addr.socket && addr.connect then .success
  else (addrs.getLast?.map AddrInfo.outcome).getD .transportConnectionFailed

def DeviceObject.outcome (system : System) : DeviceObject → Result
  | .tcp d => match system.getaddrinfo d.host d.port with
    | none => .transportTcpUnkHost
    | some addrs => tcpOutcome addrs
  | .usb d => if system.hidOpenPath d.path then .success else .transportConnectionFailed

section Connect
variable {d : LedgerDeviceTCP} {o : DeviceObject} {r : Resources} {live : Multiset ℕ} {system : System}

/-- The loop leaves one socket open if an address connects, and none otherwise. -/
theorem connectLoop_cases (d : LedgerDeviceTCP) (h : Accounts r live) (res : Result)
    (addrs : List AddrInfo) :
    (∃ (sock : ℕ) (r' : Resources),
      d.connectLoop res addrs r = (.success, { d with fd := sock }, r') ∧ Accounts r' (sock ::ₘ live) ∧
        addrs.any (fun addr => addr.socket && addr.connect) = true) ∨
      ∃ r', d.connectLoop res addrs r = ((addrs.getLast?.map AddrInfo.outcome).getD res, d, r') ∧
        Accounts r' live ∧ addrs.any (fun addr => addr.socket && addr.connect) = false := by
  induction addrs generalizing res r with
  | nil => exact .inr ⟨r, rfl, h, rfl⟩
  | cons addr addrs ih =>
    have hlast (res' : Result) (hres : addr.outcome = res') :
        ((addr :: addrs).getLast?.map AddrInfo.outcome).getD res =
          (addrs.getLast?.map AddrInfo.outcome).getD res' := by
      rw [List.getLast?_cons, Option.map_some, Option.getD_some]
      cases addrs.getLast? <;> simp [hres]
    obtain ⟨socket, connect⟩ := addr
    cases socket with
    | false =>
      rw [hlast .transportTcpSocketCreateFail rfl]
      simpa [LedgerDeviceTCP.connectLoop] using ih h .transportTcpSocketCreateFail
    | true =>
      cases connect with
      | false =>
        rw [hlast .transportConnectionFailed rfl]
        simpa [LedgerDeviceTCP.connectLoop] using ih h.acquire.release .transportConnectionFailed
      | true => exact .inl ⟨r.next, r.acquire, rfl, h.acquire, rfl⟩

theorem tcp_handle_none (h : ¬ d.fd ≥ 0) : (DeviceObject.tcp d).handle = none := if_neg h

theorem tcp_handle_some (h : d.fd ≥ 0) : (DeviceObject.tcp d).handle = some d.fd.toNat := if_pos h

/-- Closing gives back the connection, if there is one. -/
theorem tcpClose_accounts (h : Accounts r ((DeviceObject.tcp d).handle.toList + live)) :
    Accounts (d.close r).2 live ∧ (d.close r).1 = { d with fd := (d.close r).1.fd } ∧
      ¬ (d.close r).1.fd ≥ 0 := by
  by_cases hfd : d.fd ≥ 0
  · rw [tcp_handle_some hfd] at h
    rw [LedgerDeviceTCP.close, if_pos hfd]
    refine ⟨Accounts.release (by simpa using h), rfl, by simp⟩
  · rw [tcp_handle_none hfd] at h
    rw [LedgerDeviceTCP.close, if_neg hfd]
    exact ⟨by simpa using h, rfl, hfd⟩

/-- A connected device: what it returned, what it holds and that it is the same otherwise. -/
structure Connected (system : System) (o : DeviceObject) (live : Multiset ℕ)
    (c : Result × DeviceObject × Resources) : Prop where
  result : c.1 = o.outcome system
  handle : c.2.1.handle.isSome = true ↔ c.1 = .success
  named : c.2.1.named = o.named
  accounts : Accounts c.2.2 (c.2.1.handle.toList + live)

theorem tcpConnect_connected (h : Accounts r ((DeviceObject.tcp d).handle.toList + live)) :
    Connected system (.tcp d) live ((DeviceObject.tcp d).connect system r) := by
  obtain ⟨hacc, hd, hfd⟩ := tcpClose_accounts h
  have hopen : (if d.fd ≥ 0 then d.close r else (d, r)) = d.close r := by
    split
    · rfl
    · next hn => rw [LedgerDeviceTCP.close, if_neg hn]
  rw [DeviceObject.connect, LedgerDeviceTCP.connect, hopen]
  generalize d.close r = c at hacc hd hfd
  obtain ⟨⟨fd, host, port⟩, r⟩ := c
  cases hd
  dsimp only
  cases hlookup : system.getaddrinfo d.host d.port with
  | none =>
    refine ⟨by simp [DeviceObject.outcome, hlookup], by simp [tcp_handle_none hfd], rfl, ?_⟩
    rw [tcp_handle_none hfd]
    simpa using hacc
  | some addrs =>
    dsimp only
    rcases connectLoop_cases { d with fd := fd } hacc.acquire .transportConnectionFailed addrs with
      ⟨sock, r', hl, hr', hany⟩ | ⟨r', hl, hr', hany⟩
    · have hs : (DeviceObject.tcp { d with fd := (sock : ℤ) }).handle = some sock := by
        rw [tcp_handle_some (by simp)]
        rfl
      rw [hl]
      refine ⟨by simp [DeviceObject.outcome, hlookup, tcpOutcome, hany], by simp [hs], rfl, ?_⟩
      rw [Multiset.cons_swap] at hr'
      rw [hs]
      exact hr'.release
    · have hne : (addrs.getLast?.map AddrInfo.outcome).getD .transportConnectionFailed ≠ .success := by
        rw [List.any_eq_false] at hany
        cases hlast : addrs.getLast? with
        | none => simp
        | some addr =>
          have := hany addr (List.mem_of_getLast? hlast)
          simp only [Option.map_some, Option.getD_some, AddrInfo.outcome]
          split
          · simp
          · split
            · simp
            · simp_all
      rw [hl]
      refine ⟨by simp [DeviceObject.outcome, hlookup, tcpOutcome, hany],
        by simp [tcp_handle_none hfd, hne], rfl, ?_⟩
      rw [tcp_handle_none hfd]
      simpa using hr'.release

theorem usbClose_accounts {d : LedgerDeviceUSB}
    (h : Accounts r ((DeviceObject.usb d).handle.toList + live)) :
    Accounts (d.close r).2 live ∧ (d.close r).1 = { d with hidDev := none } := by
  obtain ⟨path, manufacturer, product, serial, hidDev⟩ := d
  cases hidDev with
  | none =>
    have hl : Accounts r live := by simpa [DeviceObject.handle] using h
    exact ⟨hl, rfl⟩
  | some p =>
    have hl : Accounts r (p ::ₘ live) := by simpa [DeviceObject.handle] using h
    exact ⟨hl.release, rfl⟩

theorem usbConnect_connected {d : LedgerDeviceUSB}
    (h : Accounts r ((DeviceObject.usb d).handle.toList + live)) :
    Connected system (.usb d) live ((DeviceObject.usb d).connect system r) := by
  obtain ⟨hacc, hd⟩ := usbClose_accounts h
  have hopen : (if d.hidDev.isSome then d.close r else (d, r)) = d.close r := by
    split
    · rfl
    · next hn =>
      rw [Option.not_isSome_iff_eq_none] at hn
      rw [LedgerDeviceUSB.close, hn]
  rw [DeviceObject.connect, LedgerDeviceUSB.connect, hopen]
  dsimp only
  rw [hd]
  by_cases hp : system.hidOpenPath d.path = true
  · simp only [hp, if_true]
    exact ⟨by simp [DeviceObject.outcome, hp], by simp [DeviceObject.handle], rfl, hacc.acquire⟩
  · simp only [hp, Bool.false_eq_true, if_false]
    exact ⟨by simp [DeviceObject.outcome, hp], by simp [DeviceObject.handle], rfl,
      by simpa [DeviceObject.handle] using hacc⟩

theorem connect_connected (h : Accounts r (o.handle.toList + live)) :
    Connected system o live (o.connect system r) := by
  cases o with
  | tcp d => exact tcpConnect_connected h
  | usb d => exact usbConnect_connected h

theorem destruct_accounts (h : Accounts r (o.handle.toList + live)) : Accounts (o.destruct r) live := by
  cases o with
  | tcp d => exact (tcpClose_accounts h).1
  | usb d => exact (usbClose_accounts h).1

end Connect

end LedgerKeePass.Kpl
