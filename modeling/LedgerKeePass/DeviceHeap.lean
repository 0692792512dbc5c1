import LedgerKeePass.DeviceConnect

/-!
# The heap of a client

`Accounted` says that what is alive is what the objects hold and the lists of `hid_enumerate`.
Every operation keeps that, and `Grows` is what listing devices does to the rest of the heap.
-/
namespace LedgerKeePass.Kpl
open Program Lifetimes CStrings

/-- The object of a device and its connection. -/
def DeviceObject.held (p : ℕ) (o : DeviceObject) : Multiset ℕ := p ::ₘ (o.handle.toList : Multiset ℕ)

namespace World

/-- What is held besides the devices. -/
def others (w : World) : Multiset ℕ :=
  holdings (fun k _ => {k}) w.kpls + (holdings (fun a _ => {a}) w.arrays + w.enumerations)

def held (w : World) : Multiset ℕ := holdings DeviceObject.held w.devices + w.others

def Accounted (w : World) : Prop := Accounts w.resources w.held

end World

section Heap
variable {libc : Libc} {system : System} {w w₁ w' : World} {p k : ℕ} {o : DeviceObject} {ps qs : List ℕ}
  {answer : Result}

theorem exists_lookup (h : p ∈ w.devices) : ∃ o, w.devices.lookup p = some o :=
  Option.isSome_iff_exists.mp (AList.lookup_isSome.mpr h)

theorem World.Accounted.lt_next (h : w.Accounted) (hp : p ∈ w.held) : p < w.resources.next := by
  by_contra hn
  exact h.fresh p (not_lt.mp hn) ((h.alive p).mp hp).1

theorem device_held (h : w.devices.lookup p = some o) : p ∈ w.held := by
  have hle : DeviceObject.held p o ≤ w.held := (le_holdings h).trans (Multiset.le_add_right _ _)
  exact Multiset.mem_of_le hle (Multiset.mem_cons_self p _)

theorem kpl_held (h : w.kpls.lookup k = some p) : k ∈ w.held := by
  have hle : ({k} : Multiset ℕ) ≤ w.others :=
    (le_holdings (f := fun k (_ : ℕ) => ({k} : Multiset ℕ)) h).trans (Multiset.le_add_right _ _)
  exact Multiset.mem_add.mpr (.inr (Multiset.mem_of_le hle (Multiset.mem_singleton_self k)))

theorem array_held (h : w.arrays.lookup k = some ps) : k ∈ w.held := by
  have hle : ({k} : Multiset ℕ) ≤ w.others :=
    (le_holdings (f := fun k (_ : List ℕ) => ({k} : Multiset ℕ)) h).trans
      ((Multiset.le_add_right _ _).trans (Multiset.le_add_left _ _))
  exact Multiset.mem_add.mpr (.inr (Multiset.mem_of_le hle (Multiset.mem_singleton_self k)))

theorem World.Accounted.new_device (h : w.Accounted) (hp : w.resources.next ≤ p) : p ∉ w.devices := by
  intro hm
  obtain ⟨o, ho⟩ := exists_lookup hm
  exact absurd (h.lt_next (device_held ho)) (not_lt.mpr hp)

/-- The world gained the devices `ps`, which are not connected. -/
structure Grows (w w' : World) (ps : List ℕ) : Prop where
  accounted : w'.Accounted
  next : w.resources.next ≤ w'.resources.next
  old : ∀ q ∉ ps, w'.devices.lookup q = w.devices.lookup q
  new : ∀ p ∈ ps, w.resources.next ≤ p ∧ ∃ o, w'.devices.lookup p = some o ∧ o.handle = none
  nodup : ps.Nodup
  kpls : w'.kpls = w.kpls
  arrays : w'.arrays = w.arrays

theorem Grows.refl (h : w.Accounted) : Grows w w [] := by
  refine ⟨h, le_rfl, fun _ _ => rfl, by simp, List.nodup_nil, rfl, rfl⟩

theorem Grows.lt_next (h : Grows w w' ps) (hp : p ∈ ps) : p < w'.resources.next := by
  obtain ⟨-, o, ho, -⟩ := h.new p hp
  exact h.accounted.lt_next (device_held ho)

theorem Grows.trans (h : Grows w w₁ ps) (h' : Grows w₁ w' qs) : Grows w w' (ps ++ qs) := by
  have hdis : ∀ q ∈ qs, q ∉ ps := fun q hq hp =>
    absurd (h.lt_next hp) (not_lt.mpr (h'.new q hq).1)
  refine ⟨h'.accounted, h.next.trans h'.next, fun q hq => ?_, fun q hq => ?_, ?_, h'.kpls.trans h.kpls,
    h'.arrays.trans h.arrays⟩
  · rw [List.mem_append, not_or] at hq
    rw [h'.old q hq.2, h.old q hq.1]
  · rcases List.mem_append.mp hq with hq | hq
    · obtain ⟨hlt, o, ho, hn⟩ := h.new q hq
      exact ⟨hlt, o, (h'.old q fun hq' => hdis q hq' hq).trans ho, hn⟩
    · obtain ⟨hlt, ho⟩ := h'.new q hq
      exact ⟨h.next.trans hlt, ho⟩
  · exact List.nodup_append'.mpr ⟨h.nodup, h'.nodup, fun q hp hq => hdis q hq hp⟩

theorem newDevice_grows (h : w.Accounted) (ho : o.handle = none) :
    ∃ p w', exec (newDevice o) w = (.ok p, w') ∧ Grows w w' [p] := by
  have hnew : w.resources.next ∉ w.devices := h.new_device le_rfl
  refine ⟨w.resources.next, _, rfl, ?_, Nat.le_succ _, fun q hq => ?_, fun p hp => ?_,
    List.nodup_singleton _, rfl, rfl⟩
  · rw [World.Accounted, World.held]
    dsimp only
    rw [holdings_insert_new hnew, DeviceObject.held, ho, add_assoc, Option.toList_none, Multiset.coe_nil,
      Multiset.cons_add, zero_add]
    exact h.acquire
  · exact AList.lookup_insert_ne fun hq' => hq (List.mem_singleton.mpr hq')
  · rw [List.mem_singleton] at hp
    subst hp
    exact ⟨le_rfl, o, AList.lookup_insert _, ho⟩

theorem tcpListDevices_grows (h : w.Accounted) :
    ∃ ps w', exec (tcpListDevices libc system) w = (.ok ps, w') ∧ Grows w w' ps := by
  rw [tcpListDevices]
  split
  · next address portStr _ _ =>
    by_cases hp : atoi libc portStr < 0 ∨ atoi libc portStr > 0xFFFF
    · dsimp only
      rw [if_pos hp]
      exact ⟨[], w, rfl, .refl h⟩
    · obtain ⟨p, w', he, hg⟩ := newDevice_grows h
        (o := .tcp ⟨-1, address, UInt16.ofInt (atoi libc portStr)⟩) rfl
      dsimp only
      rw [if_neg hp, exec_bind_ok he]
      exact ⟨[p], w', rfl, hg⟩
  · exact ⟨[], w, rfl, .refl h⟩

theorem usbNewDevices_grows (devs : List HidDeviceInfo) (h : w.Accounted) :
    ∃ ps w', exec (usbNewDevices devs) w = (.ok ps, w') ∧ Grows w w' ps := by
  induction devs generalizing w with
  | nil => exact ⟨[], w, rfl, .refl h⟩
  | cons dev devs ih =>
    rw [usbNewDevices]
    by_cases hd : dev.interfaceNumber = 0 ∨ dev.usagePage = 0xFFA0
    · obtain ⟨p, w₁, he, hg⟩ := newDevice_grows h
        (o := .usb ⟨dev.path, dev.manufacturer, dev.product, dev.serial, none⟩) rfl
      obtain ⟨ps, w', he', hg'⟩ := ih hg.accounted
      rw [if_pos hd, exec_bind_ok he, exec_bind_ok he']
      exact ⟨p :: ps, w', rfl, hg.trans hg'⟩
    · rw [if_neg hd]
      exact ih h

theorem usbListDevices_grows (h : w.Accounted) :
    ∃ ps w', exec (usbListDevices system) w = (.ok ps, w') ∧ Grows w w' ps := by
  rw [usbListDevices]
  by_cases hi : system.hidInit < 0
  · rw [if_pos hi]
    exact ⟨[], w, rfl, .refl h⟩
  by_cases he : system.hidEnumerate = []
  · rw [if_neg hi, if_pos he]
    exact ⟨[], w, rfl, .refl h⟩
  rw [if_neg hi, if_neg he, exec_bind_ok (exec_update _ _)]
  have hacc : World.Accounted
      { w with resources := w.resources.acquire, enumerations := w.resources.next :: w.enumerations } := by
    have ha := h.acquire
    rw [World.held, World.others, ← Multiset.add_cons, ← Multiset.add_cons, ← Multiset.add_cons] at ha
    exact ha
  obtain ⟨ps, w', hx, hg⟩ := usbNewDevices_grows system.hidEnumerate hacc
  exact ⟨ps, w', hx, hg.accounted, (Nat.le_succ _).trans hg.next, hg.old,
    fun p hp => ⟨(Nat.le_succ _).trans (hg.new p hp).1, (hg.new p hp).2⟩, hg.nodup, hg.kpls, hg.arrays⟩

theorem listDevices_grows (h : w.Accounted) :
    ∃ ps w', exec (listDevices libc system) w = (.ok ps, w') ∧ Grows w w' ps := by
  obtain ⟨ps, w₁, he, hg⟩ := @tcpListDevices_grows libc system _ h
  obtain ⟨qs, w', he', hg'⟩ := @usbListDevices_grows system _ hg.accounted
  rw [listDevices, exec_bind_ok he, exec_bind_ok he']
  exact ⟨ps ++ qs, w', rfl, hg.trans hg'⟩

/-- The world without a device. -/
def World.without (w : World) (p : ℕ) (o : DeviceObject) : World :=
  { w with resources := (o.destruct w.resources).release p, devices := w.devices.erase p }

theorem exec_deleteDevice (h : w.devices.lookup p = some o) :
    exec (deleteDevice p) w = (.ok (), w.without p o) := by
  rw [deleteDevice, exec_bind_ok (exec_read _ _), h]
  rfl

theorem without_accounted (h : w.Accounted) (hp : w.devices.lookup p = some o) :
    (w.without p o).Accounted := by
  rw [World.Accounted, World.held, holdings_erase hp, DeviceObject.held] at h
  have hd : Accounts w.resources (o.handle.toList + (p ::ₘ (w.without p o).held)) := by
    rw [Multiset.add_cons, ← Multiset.cons_add, World.held, ← add_assoc]
    exact h
  exact (destruct_accounts hd).release

theorem destruct_next (o : DeviceObject) (r : Resources) : (o.destruct r).next = r.next := by
  cases o with
  | tcp d =>
    rw [DeviceObject.destruct, LedgerDeviceTCP.close]
    split <;> rfl
  | usb d =>
    rw [DeviceObject.destruct, LedgerDeviceUSB.close]
    split <;> rfl

theorem deleteDevices_grows (hw : w.Accounted) (h : Grows w w₁ (qs ++ ps)) :
    ∃ w', exec (deleteDevices ps) w₁ = (.ok (), w') ∧ Grows w w' qs ∧
      ∀ q ∉ ps, w'.devices.lookup q = w₁.devices.lookup q := by
  induction ps generalizing w₁ with
  | nil => exact ⟨w₁, rfl, by simpa using h, fun _ _ => rfl⟩
  | cons p ps ih =>
    obtain ⟨hlt, o, ho, -⟩ := h.new p (by simp)
    have hp : p ∉ qs ++ ps := by
      have hn := List.nodup_middle.mp h.nodup
      exact (List.nodup_cons.mp hn).1
    have hg : Grows w (w₁.without p o) (qs ++ ps) := by
      refine ⟨without_accounted h.accounted ho, ?_, fun q hq => ?_, fun q hq => ?_,
        (List.nodup_cons.mp (List.nodup_middle.mp h.nodup)).2, h.kpls, h.arrays⟩
      · change _ ≤ (o.destruct w₁.resources).next
        rw [destruct_next]
        exact h.next
      · by_cases hqp : q = p
        · subst hqp
          rw [AList.lookup_eq_none.mpr (hw.new_device hlt)]
          exact AList.lookup_erase _ _
        · rw [World.without, AList.lookup_erase_ne hqp]
          exact h.old q (by simp_all)
      · have hqp : q ≠ p := by
          rintro rfl
          exact hp hq
        obtain ⟨hlt, o', ho', hn⟩ := h.new q (by simp_all)
        refine ⟨hlt, o', ?_, hn⟩
        rw [World.without, AList.lookup_erase_ne hqp]
        exact ho'
    obtain ⟨w', he, hg', hl⟩ := ih hg
    rw [deleteDevices, exec_bind_ok (exec_deleteDevice ho)]
    refine ⟨w', he, hg', fun q hq => ?_⟩
    rw [List.mem_cons, not_or] at hq
    rw [hl q hq.2, World.without, AList.lookup_erase_ne hq.1]

/-- Only the head of a list is kept. -/
theorem deleteTail_grows (hw : w.Accounted) (h : Grows w w₁ (p :: ps)) :
    ∃ w', exec (deleteDevices ps) w₁ = (.ok (), w') ∧ Grows w w' [p] ∧
      w'.devices.lookup p = w₁.devices.lookup p := by
  obtain ⟨w', he, hg, hl⟩ := @deleteDevices_grows _ _ ps [p] hw h
  exact ⟨w', he, hg, hl p (List.nodup_cons.mp h.nodup).1⟩

/-- The first device is the one that `listDevices` lists first. -/
theorem getFirstDevice_cases (h : w.Accounted) :
    ∃ ps w₁ w', exec (listDevices libc system) w = (.ok ps, w₁) ∧ Grows w w₁ ps ∧
      exec (getFirstDevice libc system) w = (.ok ps.head?, w') ∧ Grows w w' ps.head?.toList ∧
      ∀ p ∈ ps.head?, w'.devices.lookup p = w₁.devices.lookup p := by
  obtain ⟨ps, w₁, he, hg⟩ := @tcpListDevices_grows libc system _ h
  obtain ⟨qs, w₂, he₂, hg₂⟩ := @usbListDevices_grows system _ hg.accounted
  refine ⟨ps ++ qs, w₂, ?_⟩
  rw [listDevices, exec_bind_ok he, exec_bind_ok he₂, getFirstDevice, exec_bind_ok he]
  cases ps with
  | cons p ps =>
    obtain ⟨w', he', hg', hl⟩ := deleteTail_grows h hg
    dsimp only
    rw [exec_bind_ok he']
    refine ⟨w', rfl, hg.trans hg₂, rfl, hg', fun q hq => ?_⟩
    obtain rfl : p = q := Option.some.inj hq
    rw [hl, hg₂.old p fun hp => absurd (hg.lt_next List.mem_cons_self) (not_lt.mpr (hg₂.new p hp).1)]
  | nil =>
    have hg' : Grows w w₂ qs := hg.trans hg₂
    dsimp only
    rw [exec_bind_ok he₂]
    cases qs with
    | nil => exact ⟨w₂, rfl, hg', rfl, hg', nofun⟩
    | cons q qs =>
      obtain ⟨w', he', hg'', hl⟩ := deleteTail_grows h hg'
      dsimp only
      rw [exec_bind_ok he']
      refine ⟨w', rfl, hg', rfl, hg'', fun p hp => ?_⟩
      obtain rfl : q = p := Option.some.inj hp
      exact hl

/-- The world after `connect` returned `c`. -/
def World.connected (w : World) (p : ℕ) (c : Result × DeviceObject × Resources) : World :=
  { w with resources := c.2.2, devices := w.devices.insert p c.2.1 }

theorem exec_connect (h : w.devices.lookup p = some o) :
    exec (connect system p) w =
      (.ok (o.connect system w.resources).1, w.connected p (o.connect system w.resources)) := by
  rw [connect, exec_bind_ok (exec_read _ _), h]
  rfl

theorem connected_accounted (h : w.Accounted) (hp : w.devices.lookup p = some o) :
    (w.connected p (o.connect system w.resources)).Accounted ∧
      Connected system o (p ::ₘ (holdings DeviceObject.held (w.devices.erase p) + w.others))
        (o.connect system w.resources) := by
  have hsplit (hs : Multiset ℕ) : p ::ₘ hs + holdings DeviceObject.held (w.devices.erase p) + w.others =
      hs + (p ::ₘ (holdings DeviceObject.held (w.devices.erase p) + w.others)) := by
    rw [Multiset.add_cons, ← add_assoc, Multiset.cons_add, Multiset.cons_add]
  rw [World.Accounted, World.held, holdings_erase hp, DeviceObject.held, hsplit] at h
  have hc := @connect_connected _ _ _ system h
  refine ⟨?_, hc⟩
  rw [World.Accounted, World.held, World.connected, holdings_insert, DeviceObject.held]
  exact (hsplit _).symm ▸ hc.accounts

theorem connectLoop_next (d : LedgerDeviceTCP) (res : Result) (addrs : List AddrInfo) (r : Resources) :
    r.next ≤ (d.connectLoop res addrs r).2.2.next := by
  induction addrs generalizing res r with
  | nil => exact le_rfl
  | cons addr addrs ih =>
    rw [LedgerDeviceTCP.connectLoop]
    split
    · exact ih _ _
    · dsimp only
      split
      · exact (Nat.le_succ r.next).trans (ih _ (r.acquire.release r.next))
      · exact Nat.le_succ _

theorem connect_next (o : DeviceObject) (r : Resources) : r.next ≤ (o.connect system r).2.2.next := by
  cases o with
  | tcp d =>
    have hc : (if d.fd ≥ 0 then d.close r else (d, r)).2.next = r.next := by
      rw [LedgerDeviceTCP.close]
      split <;> rfl
    rw [DeviceObject.connect, LedgerDeviceTCP.connect]
    generalize (if d.fd ≥ 0 then d.close r else (d, r)) = c at hc
    obtain ⟨d', r'⟩ := c
    dsimp only at hc ⊢
    rw [← hc]
    split
    · exact le_rfl
    · exact (Nat.le_succ r'.next).trans (connectLoop_next d' _ _ r'.acquire)
  | usb d =>
    have hc : (if d.hidDev.isSome then d.close r else (d, r)).2.next = r.next := by
      rw [LedgerDeviceUSB.close]
      split
      · split <;> rfl
      · rfl
    rw [DeviceObject.connect, LedgerDeviceUSB.connect]
    generalize (if d.hidDev.isSome then d.close r else (d, r)) = c at hc
    obtain ⟨d', r'⟩ := c
    dsimp only at hc ⊢
    rw [← hc]
    split
    · exact Nat.le_succ _
    · exact le_rfl

/-- The world with another `KPL` object. -/
def World.withKpl (w : World) (p : ℕ) : World :=
  { w with resources := w.resources.acquire, kpls := w.kpls.insert w.resources.next p }

theorem withKpl_accounted (h : w.Accounted) : (w.withKpl p).Accounted := by
  have hk : w.resources.next ∉ w.kpls := by
    intro hm
    obtain ⟨p, hp⟩ := Option.isSome_iff_exists.mp (AList.lookup_isSome.mpr hm)
    exact absurd (h.lt_next (kpl_held hp)) (lt_irrefl _)
  have ha := h.acquire
  rw [World.held, World.others, ← Multiset.add_cons, ← Multiset.cons_add, ← Multiset.singleton_add] at ha
  rw [World.Accounted, World.held, World.others, World.withKpl, holdings_insert_new hk]
  exact ha

theorem exec_newKpl (h : w.devices.lookup p = some o) :
    ∃ k w', exec (newKpl system answer p) w = (.ok k, w') ∧
      ((∃ res, k = .error res ∧ res ≠ .success) ∧ w' = w.connected p (o.connect system w.resources) ∨
        k = .ok (w.connected p (o.connect system w.resources)).resources.next ∧
          w' = (w.connected p (o.connect system w.resources)).withKpl p) := by
  rw [newKpl, exec_bind_ok (exec_connect h)]
  by_cases hr : (o.connect system w.resources).1 ≠ .success
  · rw [if_pos hr]
    exact ⟨_, _, rfl, .inl ⟨⟨_, rfl, hr⟩, rfl⟩⟩
  by_cases ha : answer ≠ .success
  · rw [if_neg hr, if_pos ha]
    exact ⟨_, _, rfl, .inl ⟨⟨_, rfl, ha⟩, rfl⟩⟩
  · rw [if_neg hr, if_neg ha]
    exact ⟨_, _, rfl, .inr ⟨rfl, rfl⟩⟩

/-- The world without a `KPL` object. -/
def World.withoutKpl (w : World) (k : ℕ) : World :=
  { w with resources := w.resources.release k, kpls := w.kpls.erase k }

theorem exec_deleteKpl (h : w.kpls.lookup k = some p) :
    exec (deleteKpl k) w = (.ok (), w.withoutKpl k) := by
  rw [deleteKpl, exec_bind_ok (exec_read _ _), h]
  rfl

theorem withoutKpl_accounted (h : w.Accounted) (hk : w.kpls.lookup k = some p) :
    (w.withoutKpl k).Accounted := by
  rw [World.Accounted, World.held, World.others, holdings_erase hk, Multiset.singleton_add,
    Multiset.cons_add, Multiset.add_cons] at h
  exact h.release

/-- The world with another array. -/
def World.withArray (w : World) (ps : List ℕ) : World :=
  { w with resources := w.resources.acquire, arrays := w.arrays.insert w.resources.next ps }

theorem withArray_accounted (h : w.Accounted) : (w.withArray ps).Accounted := by
  have ha' : w.resources.next ∉ w.arrays := by
    intro hm
    obtain ⟨ps, hp⟩ := Option.isSome_iff_exists.mp (AList.lookup_isSome.mpr hm)
    exact absurd (h.lt_next (array_held hp)) (lt_irrefl _)
  have ha := h.acquire
  rw [World.held, World.others, ← Multiset.add_cons, ← Multiset.add_cons, ← Multiset.cons_add,
    ← Multiset.singleton_add] at ha
  rw [World.Accounted, World.held, World.others, World.withArray, holdings_insert_new ha']
  exact ha

/-- The world without an array. -/
def World.withoutArray (w : World) (k : ℕ) : World :=
  { w with resources := w.resources.release k, arrays := w.arrays.erase k }

theorem withoutArray_accounted (h : w.Accounted) (hk : w.arrays.lookup k = some ps) :
    (w.withoutArray k).Accounted := by
  rw [World.Accounted, World.held, World.others, holdings_erase hk, Multiset.singleton_add,
    Multiset.cons_add, Multiset.add_cons, Multiset.add_cons] at h
  exact h.release

/-- A list that was given out holds the new devices; there is none where there is no device or
no memory. -/
theorem exec_listGet {malloc : Bool} (h : w.Accounted) :
    ∃ res list w', exec (kplLedgerDeviceListGet libc system malloc) w = (.ok (res, list), w') ∧
      (list.devs = none ∧ list.count = 0 ∧ (res = kplSuccess ∨ res = .result .libOutOfMemory) ∧
          Grows w w' [] ∨
        res = kplSuccess ∧ ∃ ps w₁, Grows w w₁ ps ∧ list.devs = some w₁.resources.next ∧
          list.count = ps.length ∧ w' = w₁.withArray ps) := by
  obtain ⟨ps, w₁, he, hg⟩ := @listDevices_grows libc system _ h
  rw [kplLedgerDeviceListGet, exec_bind_ok he]
  dsimp only
  by_cases hs : ps.length = 0
  · rw [if_pos hs]
    rw [List.length_eq_zero_iff.mp hs] at hg
    exact ⟨_, _, w₁, rfl, .inl ⟨rfl, hs, .inl rfl, hg⟩⟩
  rw [if_neg hs]
  cases malloc with
  | false =>
    obtain ⟨w', he', hg', -⟩ := @deleteDevices_grows _ _ ps [] h hg
    rw [Bool.not_false, if_pos rfl, exec_bind_ok he']
    exact ⟨_, _, w', rfl, .inl ⟨rfl, rfl, .inr rfl, hg'⟩⟩
  | true =>
    rw [Bool.not_true, if_neg Bool.false_ne_true]
    exact ⟨_, _, _, rfl, .inr ⟨rfl, ps, w₁, hg, rfl, rfl, rfl⟩⟩

end Heap

end LedgerKeePass.Kpl
