import LedgerKeePass.DeviceHeap
import LedgerKeePass.EventRun

/-!
# Every connection is closed once

Clients list devices, connect them, make `KPL` objects of them and delete what they own, in
any order. At each moment what is alive is what the objects hold and the lists of
`hid_enumerate`, which nobody frees.
-/
namespace LedgerKeePass.Kpl
open Program Lifetimes CStrings

inductive HostOp
  | listDevices (system : System)
  | getFirstDevice (system : System)
  | connect (system : System) (p : ℕ)
  | newKpl (system : System) (answer : Result) (p : ℕ)
  | useKpl (k : ℕ)
  | deleteKpl (k : ℕ)
  | deleteDevice (p : ℕ)
  | listGet (system : System) (malloc : Bool)
  | listFree (list : KPLLedgerDeviceList) (freeDevices : Bool)

inductive HostReturn
  | done
  | devices (ps : List ℕ)
  | result (res : Result)
  | kpl (k : Except Result ℕ)
  | handle (h : Option ℕ)
  | list (res : KPLResult) (list : KPLLedgerDeviceList)

def operateHost (libc : Libc) : HostOp → WorldM HostReturn
  | .listDevices system => do return .devices (← listDevices libc system)
  | .getFirstDevice system => do return .devices (← getFirstDevice libc system).toList
  | .connect system p => do return .result (← connect system p)
  | .newKpl system answer p => do return .kpl (← newKpl system answer p)
  | .useKpl k => do return .handle (← useKpl k)
  | .deleteKpl k => do
    deleteKpl k
    return .done
  | .deleteDevice p => do
    deleteDevice p
    return .done
  | .listGet system malloc => do
    let (res, list) ← kplLedgerDeviceListGet libc system malloc
    return .list res list
  | .listFree list freeDevices => do return .list kplSuccess (← kplLedgerDeviceListFree list freeDevices)

/-- The device of a `KPL` object is there. -/
def World.Usable (w : World) (k : ℕ) : Prop :=
  ∃ p o, w.kpls.lookup k = some p ∧ w.devices.lookup p = some o

/-- The array of a list is there, and the devices in it where they are to be freed. -/
def World.Freeable (w : World) (list : KPLLedgerDeviceList) (freeDevices : Bool) : Prop :=
  ∀ array ∈ list.devs, ∃ devs, w.arrays.lookup array = some devs ∧
    (freeDevices = true → list.count ≤ devs.length ∧ (devs.take list.count).Nodup ∧
      ∀ p ∈ devs.take list.count, p ∈ w.devices)

/-- A client passes on pointers to objects that it owns. -/
def Owned (w : World) : HostOp → Prop
  | .listDevices _ => True
  | .getFirstDevice _ => True
  | .connect _ p => p ∈ w.devices
  | .newKpl _ _ p => p ∈ w.devices
  | .useKpl k => w.Usable k
  | .deleteKpl k => k ∈ w.kpls
  | .deleteDevice p => p ∈ w.devices
  | .listGet _ _ => True
  | .listFree list freeDevices => w.Freeable list freeDevices

/-- The connection of the device of a `KPL` object, which is open if there is one. -/
def World.GoesThrough (w : World) (k : ℕ) (h : Option ℕ) : Prop :=
  ∃ p o, w.kpls.lookup k = some p ∧ w.devices.lookup p = some o ∧ h = o.handle ∧
    ∀ q ∈ h, Alive w.resources.log q

/-- A `KPL` object whose TCP device has no connection. -/
def World.Closed (w : World) (k : ℕ) : Prop :=
  ∃ p d, w.kpls.lookup k = some p ∧ w.devices.lookup p = some (.tcp d) ∧ d.fd < 0

/-- How the last call of `connect` on each device ended. -/
def lastConnect (h : ℕ → Option Result) (w : World) : HostOp → ℕ → Option Result
  | .connect system p => Function.update h p ((w.devices.lookup p).map (DeviceObject.outcome system))
  | .newKpl system _ p => Function.update h p ((w.devices.lookup p).map (DeviceObject.outcome system))
  | _ => h

section Heap
variable {libc : Libc} {system : System} {w w₁ w' : World} {p k : ℕ} {o : DeviceObject} {ps qs : List ℕ}
  {answer : Result}

/-- A device is connected where its last `connect` succeeded. -/
structure Tracks (w : World) (c : ℕ → Option Result) : Prop where
  accounted : w.Accounted
  fresh : ∀ p, w.resources.next ≤ p → c p = none
  connected : ∀ p o, w.devices.lookup p = some o → (o.handle.isSome = true ↔ c p = some .success)

variable {c : ℕ → Option Result}

theorem tracks_start : Tracks .start fun _ => none where
  accounted := accounts_start
  fresh _ _ := rfl
  connected _ _ h := by cases h

theorem Tracks.grows (h : Tracks w c) (hg : Grows w w' ps) : Tracks w' c where
  accounted := hg.accounted
  fresh p hp := h.fresh p (hg.next.trans hp)
  connected p o ho := by
    by_cases hp : p ∈ ps
    · obtain ⟨hlt, o', ho', hn⟩ := hg.new p hp
      obtain rfl : o = o' := Option.some.inj (ho.symm.trans ho')
      simp [hn, h.fresh p hlt]
    · rw [hg.old p hp] at ho
      exact h.connected p o ho

theorem Tracks.connect (h : Tracks w c) (hp : w.devices.lookup p = some o) :
    Tracks (w.connected p (o.connect system w.resources))
      (Function.update c p (some (o.outcome system))) := by
  obtain ⟨hacc, hc⟩ := @connected_accounted system _ _ _ h.accounted hp
  refine ⟨hacc, fun q hq => ?_, fun q o' ho' => ?_⟩
  · have hlt : p < q := (h.accounted.lt_next (device_held hp)).trans_le ((connect_next o _).trans hq)
    rw [Function.update_of_ne hlt.ne']
    exact h.fresh q ((connect_next o _).trans hq)
  · by_cases hqp : q = p
    · subst hqp
      obtain rfl : (o.connect system w.resources).2.1 = o' :=
        Option.some.inj ((AList.lookup_insert w.devices).symm.trans ho')
      rw [Function.update_self, hc.handle, hc.result, Option.some.injEq]
    · rw [World.connected, AList.lookup_insert_ne hqp] at ho'
      rw [Function.update_of_ne hqp]
      exact h.connected q o' ho'

theorem Tracks.withKpl (h : Tracks w c) : Tracks (w.withKpl p) c :=
  ⟨withKpl_accounted h.accounted, fun q hq => h.fresh q ((Nat.le_succ _).trans hq), h.connected⟩

theorem Tracks.withoutKpl (h : Tracks w c) (hk : w.kpls.lookup k = some p) : Tracks (w.withoutKpl k) c :=
  ⟨withoutKpl_accounted h.accounted hk, h.fresh, h.connected⟩

theorem Tracks.withArray (h : Tracks w c) : Tracks (w.withArray ps) c :=
  ⟨withArray_accounted h.accounted, fun q hq => h.fresh q ((Nat.le_succ _).trans hq), h.connected⟩

theorem Tracks.withoutArray (h : Tracks w c) (hk : w.arrays.lookup k = some ps) :
    Tracks (w.withoutArray k) c :=
  ⟨withoutArray_accounted h.accounted hk, h.fresh, h.connected⟩

theorem Tracks.deleteDevice (h : Tracks w c) (hp : w.devices.lookup p = some o) :
    Tracks (w.without p o) c := by
  refine ⟨without_accounted h.accounted hp, fun q hq => h.fresh q ?_, fun q o' ho' => ?_⟩
  · have hn : (w.without p o).resources.next = w.resources.next := destruct_next o _
    rwa [hn] at hq
  · by_cases hqp : q = p
    · subst hqp
      rw [World.without, AList.lookup_erase] at ho'
      cases ho'
    · rw [World.without, AList.lookup_erase_ne hqp] at ho'
      exact h.connected q o' ho'

/-- Deleting devices that are there, none twice. -/
theorem Tracks.deleteDevices (h : Tracks w c) (hn : ps.Nodup) (hp : ∀ p ∈ ps, p ∈ w.devices) :
    ∃ w', exec (deleteDevices ps) w = (.ok (), w') ∧ Tracks w' c ∧ w'.kpls = w.kpls ∧
      w'.arrays = w.arrays ∧
      ∀ q, w'.devices.lookup q = if q ∈ ps then none else w.devices.lookup q := by
  induction ps generalizing w with
  | nil => exact ⟨w, rfl, h, rfl, rfl, fun q => by simp⟩
  | cons p ps ih =>
    obtain ⟨hnp, hn⟩ := List.nodup_cons.mp hn
    obtain ⟨o, ho⟩ := exists_lookup (hp p List.mem_cons_self)
    obtain ⟨w', he, ht, hk, ha, hl⟩ := ih (h.deleteDevice ho) hn fun q hq => by
      rw [World.without, AList.mem_erase]
      refine ⟨?_, hp q (List.mem_cons_of_mem _ hq)⟩
      rintro rfl
      exact hnp hq
    rw [Kpl.deleteDevices, exec_bind_ok (exec_deleteDevice ho)]
    refine ⟨w', he, ht, hk, ha, fun q => ?_⟩
    rw [hl q, World.without]
    by_cases hqp : q = p
    · subst hqp
      rw [if_neg hnp, if_pos List.mem_cons_self, AList.lookup_erase]
    · rw [AList.lookup_erase_ne hqp]
      simp [hqp]

/-- What `send` finds. -/
def DeviceObject.sendHandle : DeviceObject → Except Fault (Option ℕ)
  | .tcp d => if d.fd ≥ 0 then .ok (some d.fd.toNat) else .error .assertion
  | .usb d => .ok d.hidDev

theorem exec_useKpl (hk : w.kpls.lookup k = some p) (hp : w.devices.lookup p = some o) :
    exec (useKpl k) w = (o.sendHandle, w) := by
  rw [useKpl, exec_bind_ok (exec_read _ _), hk, exec_bind_ok (exec_demand_some _ _ _),
    exec_bind_ok (exec_read _ _), hp, exec_bind_ok (exec_demand_some _ _ _)]
  cases o with
  | tcp d =>
    rw [DeviceObject.sendHandle]
    dsimp only
    split <;> rfl
  | usb d => rfl

theorem sendHandle_open (h : o.handle.isSome = true) : o.sendHandle = .ok o.handle := by
  cases o with
  | tcp d =>
    have hfd : d.fd ≥ 0 := by
      by_contra hn
      rw [tcp_handle_none hn] at h
      cases h
    rw [tcp_handle_some hfd, DeviceObject.sendHandle, if_pos hfd]
  | usb d => rfl

/-- What `send` finds where there is no connection. -/
def DeviceObject.unopened : DeviceObject → Except Fault (Option ℕ)
  | .tcp _ => .error .assertion
  | .usb _ => .ok none

theorem sendHandle_closed (h : ¬ o.handle.isSome = true) : o.sendHandle = o.unopened := by
  cases o with
  | tcp d =>
    have hfd : ¬ d.fd ≥ 0 := by
      intro hfd
      rw [tcp_handle_some hfd] at h
      exact h rfl
    exact if_neg hfd
  | usb d =>
    rw [Option.not_isSome_iff_eq_none] at h
    exact congrArg Except.ok h

/-- What `send` went on with is the connection of the device. -/
theorem useKpl_inv {h : Option ℕ} (he : exec (useKpl k) w = (.ok h, w')) :
    w' = w ∧ ∃ p o, w.kpls.lookup k = some p ∧ w.devices.lookup p = some o ∧ h = o.handle := by
  cases hk : w.kpls.lookup k with
  | none =>
    rw [useKpl, exec_bind_ok (exec_read _ _), hk] at he
    cases he
  | some p =>
    cases hp : w.devices.lookup p with
    | none =>
      rw [useKpl, exec_bind_ok (exec_read _ _), hk, exec_bind_ok (exec_demand_some _ _ _),
        exec_bind_ok (exec_read _ _), hp] at he
      cases he
    | some o =>
      rw [exec_useKpl hk hp] at he
      by_cases hh : o.handle.isSome = true
      · rw [sendHandle_open hh] at he
        cases he
        exact ⟨rfl, p, o, rfl, hp, rfl⟩
      · rw [sendHandle_closed hh] at he
        cases o with
        | tcp d => cases he
        | usb d =>
          rw [Option.not_isSome_iff_eq_none] at hh
          cases he
          exact ⟨rfl, p, _, rfl, hp, hh.symm⟩

theorem handle_held {q : ℕ} (hp : w.devices.lookup p = some o) (hq : o.handle = some q) : q ∈ w.held := by
  have hle : DeviceObject.held p o ≤ w.held := (le_holdings hp).trans (Multiset.le_add_right _ _)
  refine Multiset.mem_of_le hle (Multiset.mem_cons_of_mem ?_)
  rw [hq]
  exact List.mem_singleton_self q

theorem Tracks.goesThrough (ht : Tracks w c) {h : Option ℕ} (he : exec (useKpl k) w = (.ok h, w')) :
    w' = w ∧ w.GoesThrough k h := by
  obtain ⟨hw, p, o, hk, hp, rfl⟩ := useKpl_inv he
  have hacc : Accounts w.resources w.held := ht.accounted
  exact ⟨hw, p, o, hk, hp, rfl, fun q hq => (hacc.alive q).mp (handle_held hp hq)⟩

theorem Tracks.listFree {list : KPLLedgerDeviceList} {freeDevices : Bool} (h : Tracks w c)
    (hf : w.Freeable list freeDevices) :
    ∃ list' w', exec (kplLedgerDeviceListFree list freeDevices) w = (.ok list', w') ∧ Tracks w' c ∧
      list'.devs = none := by
  rw [kplLedgerDeviceListFree]
  cases hd : list.devs with
  | none => exact ⟨list, w, rfl, h, hd⟩
  | some array =>
    obtain ⟨devs, ha, hall⟩ := hf array hd
    dsimp only
    rw [exec_bind_ok (exec_read _ _), ha, exec_bind_ok (exec_demand_some _ _ _)]
    cases freeDevices with
    | false => exact ⟨_, _, rfl, h.withoutArray ha, rfl⟩
    | true =>
      obtain ⟨hle, hn, hp⟩ := hall rfl
      obtain ⟨w₁, he, ht, -, harr, -⟩ := h.deleteDevices hn hp
      rw [if_pos rfl, if_pos hle, exec_bind_ok he]
      rw [← harr] at ha
      exact ⟨_, _, rfl, ht.withoutArray ha, rfl⟩

/-- What a client may do never faults, but for a use of a TCP device without a connection. -/
theorem operateHost_tracks (libc : Libc) {op : HostOp} (h : Tracks w c) (ho : Owned w op) :
    (∃ out w', exec (operateHost libc op) w = (.ok out, w') ∧ Tracks w' (lastConnect c w op)) ∨
      exec (operateHost libc op) w = (.error .assertion, w) ∧ ∃ k, op = .useKpl k ∧ w.Closed k := by
  cases op with
  | listDevices system =>
    obtain ⟨ps, w', he, hg⟩ := @listDevices_grows libc system _ h.accounted
    exact .inl ⟨_, w', exec_bind_ok he, h.grows hg⟩
  | getFirstDevice system =>
    obtain ⟨ps, w₁, w', -, -, he, hg, -⟩ := @getFirstDevice_cases libc system _ h.accounted
    exact .inl ⟨_, w', exec_bind_ok he, h.grows hg⟩
  | connect system p =>
    obtain ⟨o, hp⟩ := exists_lookup ho
    refine .inl ⟨_, _, exec_bind_ok (exec_connect hp), ?_⟩
    rw [lastConnect, hp]
    exact h.connect hp
  | newKpl system answer p =>
    obtain ⟨o, hp⟩ := exists_lookup ho
    obtain ⟨k, w', he, hw⟩ := @exec_newKpl system _ _ _ answer hp
    refine .inl ⟨_, w', exec_bind_ok he, ?_⟩
    rw [lastConnect, hp]
    rcases hw with ⟨-, rfl⟩ | ⟨-, rfl⟩
    · exact h.connect hp
    · exact (h.connect hp).withKpl
  | useKpl k =>
    obtain ⟨p, o, hk, hp⟩ := ho
    have he := exec_useKpl hk hp
    by_cases hh : o.handle.isSome = true
    · rw [sendHandle_open hh] at he
      exact .inl ⟨_, w, exec_bind_ok he, h⟩
    · rw [sendHandle_closed hh] at he
      cases o with
      | tcp d =>
        have hfd : d.fd < 0 := by
          by_contra hn
          exact hh (by rw [tcp_handle_some (not_lt.mp hn)]; rfl)
        exact .inr ⟨exec_bind_error he, k, rfl, p, d, hk, hp, hfd⟩
      | usb d => exact .inl ⟨_, w, exec_bind_ok he, h⟩
  | deleteKpl k =>
    obtain ⟨p, hk⟩ := Option.isSome_iff_exists.mp (AList.lookup_isSome.mpr ho)
    exact .inl ⟨_, _, exec_bind_ok (exec_deleteKpl hk), h.withoutKpl hk⟩
  | deleteDevice p =>
    obtain ⟨o, hp⟩ := exists_lookup ho
    exact .inl ⟨_, _, exec_bind_ok (exec_deleteDevice hp), h.deleteDevice hp⟩
  | listGet system malloc =>
    obtain ⟨res, list, w', he, hw⟩ := @exec_listGet libc system _ malloc h.accounted
    refine .inl ⟨_, w', exec_bind_ok he, ?_⟩
    rcases hw with ⟨-, -, -, hg⟩ | ⟨-, ps, w₁, hg, -, -, rfl⟩
    · exact h.grows hg
    · exact (h.grows hg).withArray
  | listFree list freeDevices =>
    obtain ⟨list', w', he, ht, -⟩ := h.listFree ho
    exact .inl ⟨_, w', exec_bind_ok he, ht⟩

end Heap

section Runs
variable {libc : Libc} {tr : List (HostOp × HostReturn)} {w : World} {c : ℕ → Option Result}

theorem observed_tracks
    (h : Observed (operateHost libc) Owned lastConnect .start (fun _ => none) tr w c) : Tracks w c := by
  refine h.invariant tracks_start fun t v op out u ht ho he => ?_
  rcases operateHost_tracks libc ht ho with ⟨out', u', he', hu⟩ | ⟨he', -⟩
  · rw [he] at he'
    cases he'
    exact hu
  · rw [he] at he'
    cases he'

theorem held_of_empty (hd : w.devices = ∅) (hk : w.kpls = ∅) (ha : w.arrays = ∅) :
    w.held = w.enumerations := by
  rw [World.held, World.others, hd, hk, ha, holdings_empty, holdings_empty, holdings_empty, zero_add,
        zero_add,
    zero_add]

/-- What was acquired was released once where only the enumerations are held. -/
theorem World.Accounted.count_enumerations (h : w.Accounted) (hw : w.held = w.enumerations) (p : ℕ)
    (hp : .constructed p ∈ w.resources.log) :
    w.resources.log.count (.destroyed p) = if p ∈ w.enumerations then 0 else 1 := by
  have hacc : Accounts w.resources w.held := h
  by_cases he : p ∈ w.enumerations
  · have hl : .destroyed p ∉ w.resources.log := ((hacc.alive p).mp (by rw [hw]; exact he)).2
    rw [if_pos he, List.count_eq_zero_of_not_mem hl]
  · rw [if_neg he]
    refine hacc.released hp ?_
    rw [hw]
    exact he

/-- Whatever a client does with the objects it owns: no two objects share a connection, and what is
alive is what the objects hold and the enumerations. When the objects are gone everything else was
released once, and the enumerations never. An operation on a `KPL` object goes through the open
connection of its device. Nothing faults, but for such an operation on a TCP device that has none. -/
theorem resources_accounted (h : Run (operateHost libc) Owned .start tr w) :
    Sound w.resources.log ∧ w.held.Nodup ∧ (∀ p, Alive w.resources.log p ↔ p ∈ w.held) ∧
      (w.devices = ∅ → w.kpls = ∅ → w.arrays = ∅ → ∀ p, .constructed p ∈ w.resources.log →
        w.resources.log.count (.destroyed p) = if p ∈ w.enumerations then 0 else 1) ∧
      (∀ k h w', exec (useKpl k) w = (.ok h, w') → w' = w ∧ w.GoesThrough k h) ∧
      ∀ op, Owned w op → (∃ out w', exec (operateHost libc op) w = (.ok out, w')) ∨
        exec (operateHost libc op) w = (.error .assertion, w) ∧ ∃ k, op = .useKpl k ∧ w.Closed k := by
  obtain ⟨c, hc⟩ := h.observed lastConnect fun _ => none
  have ht := observed_tracks hc
  have hacc : Accounts w.resources w.held := ht.accounted
  refine ⟨hacc.sound, hacc.nodup, fun p => (hacc.alive p).symm, fun hd hk ha => ?_,
    fun k h w' he => ht.goesThrough he, fun op ho => ?_⟩
  · exact ht.accounted.count_enumerations (held_of_empty hd hk ha)
  · rcases operateHost_tracks libc ht ho with ⟨out, w', he, -⟩ | hf
    · exact .inl ⟨out, w', he⟩
    · exact .inr hf

/-- In every run a device is connected exactly where its last `connect` succeeded, which it does
where an address or the path can be opened; the last address decides otherwise. An operation on
a `KPL` object goes through that connection, and breaks an assertion where a TCP device has none. -/
theorem connected_iff (h : Observed (operateHost libc) Owned lastConnect .start (fun _ => none) tr w c)
    {p : ℕ} {o : DeviceObject} (hp : w.devices.lookup p = some o) :
    (o.handle.isSome = true ↔ c p = some .success) ∧
      (∀ system, ∃ w' o', exec (connect system p) w = (.ok (o.outcome system), w') ∧
        w'.devices.lookup p = some o' ∧ o'.named = o.named ∧
        (o'.handle.isSome = true ↔ o.outcome system = .success)) ∧
      ∀ k, w.kpls.lookup k = some p →
        exec (useKpl k) w = (if c p = some .success then .ok o.handle else o.unopened, w) := by
  have ht := observed_tracks h
  have hc := ht.connected p o hp
  refine ⟨hc, fun system => ?_, fun k hk => ?_⟩
  · have hx := (@connected_accounted system _ _ _ ht.accounted hp).2
    refine ⟨w.connected p (o.connect system w.resources), _, ?_, AList.lookup_insert _, hx.named, ?_⟩
    · rw [exec_connect hp, hx.result]
    · rw [hx.handle, hx.result]
  · rw [exec_useKpl hk hp]
    by_cases hs : c p = some .success
    · rw [if_pos hs, sendHandle_open (hc.mpr hs)]
    · rw [if_neg hs, sendHandle_closed fun ho => hs (hc.mp ho)]

/-- At every moment of a run `getFirstDevice` gives the device that `listDevices` would have
listed first, the same object, and leaves no other one behind. -/
theorem getFirstDevice_head (h : Run (operateHost libc) Owned .start tr w) (system : System) :
    ∃ ps w₁ w', exec (listDevices libc system) w = (.ok ps, w₁) ∧
      exec (getFirstDevice libc system) w = (.ok ps.head?, w') ∧
      (∀ p ∈ ps.head?, w'.devices.lookup p = w₁.devices.lookup p) ∧
      ∀ q ∉ ps.head?, w'.devices.lookup q = w.devices.lookup q := by
  obtain ⟨c, hc⟩ := h.observed lastConnect fun _ => none
  obtain ⟨ps, w₁, w', he, -, he', hg, hl⟩ :=
    @getFirstDevice_cases libc system _ (observed_tracks hc).accounted
  refine ⟨ps, w₁, w', he, he', hl, fun q hq => hg.old q fun hm => hq ?_⟩
  cases hd : ps.head? with
  | none =>
    rw [hd] at hm
    cases hm
  | some p =>
    rw [hd] at hm
    exact congrArg some (List.mem_singleton.mp hm).symm

/-- A proxy with two addresses of which the second one connects, and a stick. -/
def twoDevices : System where
  ledgerProxyAddress := some (App.ascii "localhost")
  ledgerProxyPort := some (App.ascii "9999")
  getaddrinfo _ _ := some [⟨true, false⟩, ⟨true, true⟩]
  hidInit := 0
  hidEnumerate := [⟨App.ascii "/dev/hidraw0", App.ascii "Ledger", App.ascii "Nano S", App.ascii "0001", 0, 0⟩]
  hidOpenPath _ := true

def plainLibc : Libc := ⟨id, id, fun _ => 0⟩

/-- The devices are listed, the proxy is used and both are deleted. -/
theorem twoDevices_run : ∃ tr w, Run (operateHost plainLibc) Owned .start tr w ∧
    w.devices = ∅ ∧ w.kpls = ∅ ∧ w.arrays = ∅ ∧ w.enumerations = [1] ∧
    w.resources.log = [.constructed 0, .constructed 1, .constructed 2, .constructed 3, .constructed 4,
      .destroyed 4, .constructed 5, .destroyed 3, .constructed 6, .destroyed 6, .destroyed 5, .destroyed 0,
      .destroyed 2] := by
  have h₀ : Run (operateHost plainLibc) Owned .start [] .start := .nil _
  have h₁ := h₀.next (i := .listDevices twoDevices) trivial rfl
  have h₂ := h₁.next (i := .newKpl twoDevices .success 0) (AList.mem_keys.mpr (by decide +kernel)) rfl
  have h₃ := h₂.next (i := .useKpl 6) ⟨0, _, rfl, rfl⟩ rfl
  have h₄ := h₃.next (i := .deleteKpl 6) (AList.mem_keys.mpr (by decide +kernel)) rfl
  have h₅ := h₄.next (i := .deleteDevice 0) (AList.mem_keys.mpr (by decide +kernel)) rfl
  have h₆ := h₅.next (i := .deleteDevice 2) (AList.mem_keys.mpr (by decide +kernel)) rfl
  exact ⟨_, _, h₆, rfl, rfl, rfl, rfl, rfl⟩

theorem resources_accounted_twoDevices : ∃ tr w, Run (operateHost plainLibc) Owned .start tr w ∧
    w.resources.log.count (.destroyed 5) = 1 ∧ w.resources.log.count (.destroyed 1) = 0 := by
  obtain ⟨tr, w, h, hd, hk, ha, he, hl⟩ := twoDevices_run
  have hc := (resources_accounted h).2.2.2.1 hd hk ha
  have h₅ := hc 5 (by rw [hl]; decide)
  have h₁ := hc 1 (by rw [hl]; decide)
  rw [he] at h₅ h₁
  exact ⟨tr, w, h, h₅, h₁⟩

theorem connected_iff_twoDevices : ∃ tr w c o,
    Observed (operateHost plainLibc) Owned lastConnect .start (fun _ => none) tr w c ∧
      w.devices.lookup 0 = some o ∧ o.handle = some 5 ∧ c 0 = some .success := by
  have h₀ : Observed (operateHost plainLibc) Owned lastConnect .start (fun _ => none) [] .start _ :=
    .nil _ _
  have h₁ := h₀.next (i := .listDevices twoDevices) trivial rfl
  have h₂ := h₁.next (i := .newKpl twoDevices .success 0) (AList.mem_keys.mpr (by decide +kernel)) rfl
  exact ⟨_, _, _, _, h₂, rfl, rfl, (connected_iff h₂ rfl).1.mp rfl⟩

/-- The first device is asked for once the proxy was listed and connected, which stays connected. -/
theorem getFirstDevice_head_twoDevices : ∃ tr w ps w₁ w' o, Run (operateHost plainLibc) Owned .start tr w ∧
    w.devices.lookup 0 = some o ∧ o.handle = some 5 ∧
      exec (listDevices plainLibc twoDevices) w = (.ok ps, w₁) ∧
      exec (getFirstDevice plainLibc twoDevices) w = (.ok ps.head?, w') ∧ ps.head? = some 6 ∧
      (∀ p ∈ ps.head?, w'.devices.lookup p = w₁.devices.lookup p) ∧ w'.devices.lookup 0 = some o := by
  have h₀ : Run (operateHost plainLibc) Owned .start [] .start := .nil _
  have h₁ := h₀.next (i := .listDevices twoDevices) trivial rfl
  have h₂ := h₁.next (i := .connect twoDevices 0) (AList.mem_keys.mpr (by decide +kernel)) rfl
  obtain ⟨ps, w₁, w', h, h', hl, hold⟩ := getFirstDevice_head h₂ twoDevices
  have hp : ps.head? = some 6 := by
    obtain rfl := Except.ok.inj (congrArg Prod.fst h)
    rfl
  refine ⟨_, _, ps, w₁, w', _, h₂, rfl, rfl, h, h', hp, hl, ?_⟩
  exact hold 0 (by rw [hp]; simp)

end Runs

end LedgerKeePass.Kpl
