import LedgerKeePass.DeviceLifetimes

/-!
# The managed wrappers of the plugin (`ckpl.cs`)

A `LedgerDevice` or `KPL` of the plugin owns a native object, which its finalizer deletes. The
program holds references to some of them, the roots; what it cannot reach is finalized, in
any order and at any time between the calls.
-/
namespace LedgerKeePass.Kpl
open Program Lifetimes CStrings

structure ManagedDevice where
  dev : ℕ
  finalized : Bool
  deriving DecidableEq

structure ManagedKpl where
  /-- The number of the `LedgerDevice` that the object keeps. -/
  dev : ℕ
  obj : Option ℕ
  finalized : Bool
  deriving DecidableEq

/-- The native heap, the objects ever made, and the roots by their numbers. -/
structure Managed where
  world : World
  devices : List ManagedDevice
  kpls : List ManagedKpl
  deviceRoots : List ℕ
  kplRoots : List ℕ

def Managed.start : Managed := ⟨.start, [], [], [], []⟩

abbrev ManagedM := Prog Fault Managed

/-- A call into the native library. -/
def native {α : Type} (p : WorldM α) : ManagedM α := ExceptT.mk fun m =>
  ((exec p m.world).1, { m with world := (exec p m.world).2 })

/-- The reads through `Marshal.ReadIntPtr`. -/
def readDevs (list : KPLLedgerDeviceList) : WorldM (List ℕ) := do
  match list.devs with
  | none => if list.count = 0 then return [] else throw .outOfBounds
  | some array =>
    let devs ← demand .outOfBounds (← read fun w => w.arrays.lookup array)
    if list.count ≤ devs.length then return devs.take list.count else throw .outOfBounds

/-- `LedgerDevice.listDevices`; an error is the code of the exception. -/
def managedListDevices (libc : Libc) (system : System) (malloc : Bool) :
    ManagedM (Except KPLResult (List ℕ)) := do
  let (res, list) ← native (kplLedgerDeviceListGet libc system malloc)
  if res ≠ kplSuccess then return .error res
  else
    let devs ← native (readDevs list)
    let n ← read fun m => m.devices.length
    update fun m => { m with devices := m.devices ++ devs.map fun dev => ⟨dev, false⟩ }
    let _ ← native (kplLedgerDeviceListFree list false)
    let ret := List.range' n devs.length
    update fun m => { m with deviceRoots := ret ++ m.deviceRoots }
    return .ok ret

/-- The constructor of `KPL`. The object is there even where it throws, with no `Obj`. -/
def managedNewKpl (system : System) (answer : Result) (d : ℕ) : ManagedM (Except KPLResult ℕ) := do
  let dev ← demand .outOfBounds (← read fun m => m.devices[d]?)
  let (res, obj) ← native (kplFromDevice system answer true (some dev.dev))
  let k ← read fun m => m.kpls.length
  if res ≠ kplSuccess then
    update fun m => { m with kpls := m.kpls ++ [⟨d, none, false⟩] }
    return .error res
  else
    update fun m => { m with kpls := m.kpls ++ [⟨d, obj, false⟩], kplRoots := k :: m.kplRoots }
    return .ok k

/-- The memory that a method of `KPL` goes through; a null `Obj` is refused by the C API. -/
def managedUse (k : ℕ) : ManagedM (Except KPLResult (Option ℕ)) := do
  let j ← demand .outOfBounds (← read fun m => m.kpls[k]?)
  match j.obj with
  | none => return .error .cBadParams
  | some obj => return .ok (← native (useKpl obj))

def managedClose (k : ℕ) : ManagedM Unit := do
  let j ← demand .outOfBounds (← read fun m => m.kpls[k]?)
  if j.obj ≠ none then
    native (kplFree j.obj)
    update fun m => { m with kpls := m.kpls.set k { j with obj := none } }

/-- `~KPL` -/
def finalizeKpl (k : ℕ) : ManagedM Unit := do
  managedClose k
  let j ← demand .outOfBounds (← read fun m => m.kpls[k]?)
  update fun m => { m with kpls := m.kpls.set k { j with finalized := true } }

/-- `~LedgerDevice` -/
def finalizeDevice (d : ℕ) : ManagedM Unit := do
  let i ← demand .outOfBounds (← read fun m => m.devices[d]?)
  native (kplLedgerDeviceFree (some i.dev))
  update fun m => { m with devices := m.devices.set d { i with finalized := true } }

inductive ManagedOp
  | listDevices (system : System) (malloc : Bool)
  | newKpl (system : System) (answer : Result) (d : ℕ)
  | use (k : ℕ)
  | close (k : ℕ)
  | forgetDevice (d : ℕ)
  | forgetKpl (k : ℕ)
  | finalizeDevice (d : ℕ)
  | finalizeKpl (k : ℕ)

inductive ManagedReturn
  | done
  | devices (ds : Except KPLResult (List ℕ))
  | kpl (k : Except KPLResult ℕ)
  | used (h : Except KPLResult (Option ℕ))

def operateManaged (libc : Libc) : ManagedOp → ManagedM ManagedReturn
  | .listDevices system malloc => do return .devices (← managedListDevices libc system malloc)
  | .newKpl system answer d => do return .kpl (← managedNewKpl system answer d)
  | .use k => do return .used (← managedUse k)
  | .close k => do
    managedClose k
    return .done
  | .forgetDevice d => do
    update fun m => { m with deviceRoots := m.deviceRoots.filter (· ≠ d) }
    return .done
  | .forgetKpl k => do
    update fun m => { m with kplRoots := m.kplRoots.filter (· ≠ k) }
    return .done
  | .finalizeDevice d => do
    Kpl.finalizeDevice d
    return .done
  | .finalizeKpl k => do
    Kpl.finalizeKpl k
    return .done

/-- A device is a root, or kept by one. -/
def Managed.Reachable (m : Managed) (d : ℕ) : Prop :=
  d ∈ m.deviceRoots ∨ ∃ k ∈ m.kplRoots, ∃ j, m.kpls[k]? = some j ∧ j.dev = d

/-- The program works on what it holds, and the collector finalizes once what nobody reaches. -/
def Collectable (m : Managed) : ManagedOp → Prop
  | .listDevices _ _ => True
  | .newKpl _ _ d => d ∈ m.deviceRoots
  | .use k => k ∈ m.kplRoots
  | .close k => k ∈ m.kplRoots
  | .forgetDevice _ => True
  | .forgetKpl _ => True
  | .finalizeDevice d => ¬ m.Reachable d ∧ ∃ i, m.devices[d]? = some i ∧ i.finalized = false
  | .finalizeKpl k => k ∉ m.kplRoots ∧ ∃ j, m.kpls[k]? = some j ∧ j.finalized = false

/-- The native object of a device. -/
def Managed.object (m : Managed) (d : ℕ) : Option DeviceObject :=
  m.devices[d]?.bind fun i => m.world.devices.lookup i.dev

/-- How the last `connect` on each device ended, which the constructor of `KPL` calls. -/
def lastManagedConnect (h : ℕ → Option Result) (m : Managed) : ManagedOp → ℕ → Option Result
  | .newKpl system _ d => Function.update h d ((m.object d).map (DeviceObject.outcome system))
  | _ => h

/-- A `KPL` whose TCP device a `connect` after its own has left closed. -/
def Managed.LeftClosed (m : Managed) (c : ℕ → Option Result) (k : ℕ) : Prop :=
  ∃ j d res, m.kpls[k]? = some j ∧ j.obj ≠ none ∧ m.object j.dev = some (.tcp d) ∧ d.fd < 0 ∧
    c j.dev = some res ∧ res ≠ .success

/-- Each native object is owned by one wrapper that is not finalized, and what the program
reaches is not finalized. -/
structure Wrapped (m : Managed) : Prop where
  accounted : m.world.Accounted
  arrays : m.world.arrays = ∅
  devNodup : (m.devices.map ManagedDevice.dev).Nodup
  devOld : ∀ i ∈ m.devices, i.dev < m.world.resources.next
  devLive : ∀ i ∈ m.devices, (i.dev ∈ m.world.devices ↔ i.finalized = false)
  devCover : ∀ p ∈ m.world.devices, ∃ i ∈ m.devices, i.dev = p
  kplDev : ∀ j ∈ m.kpls, j.dev < m.devices.length
  kplLive : ∀ j ∈ m.kpls, ∀ o, j.obj = some o → j.finalized = false ∧
    ∀ i, m.devices[j.dev]? = some i → m.world.kpls.lookup o = some i.dev
  kplUnique : ∀ (k k' : ℕ) (j j' : ManagedKpl) (o : ℕ), m.kpls[k]? = some j → m.kpls[k']? = some j' →
    j.obj = some o → j'.obj = some o → k = k'
  kplCover : ∀ o ∈ m.world.kpls, ∃ j ∈ m.kpls, j.obj = some o
  deviceRoots : ∀ d ∈ m.deviceRoots, ∃ i, m.devices[d]? = some i ∧ i.finalized = false
  kplRoots : ∀ k ∈ m.kplRoots, ∃ j i, m.kpls[k]? = some j ∧ j.finalized = false ∧
    m.devices[j.dev]? = some i ∧ i.finalized = false

section
variable {libc : Libc} {system : System} {answer : Result} {malloc : Bool} {m : Managed} {w : World}
  {d k : ℕ} {α : Type}

theorem exec_native (p : WorldM α) :
    exec (native p) m = ((exec p m.world).1, { m with world := (exec p m.world).2 }) := rfl

theorem exec_native_ok {p : WorldM α} {a : α} (h : exec p m.world = (.ok a, w)) :
    exec (native p) m = (.ok a, { m with world := w }) := by
  rw [exec_native, h]

theorem exec_native_error {p : WorldM α} {e : Fault} (h : exec p m.world = (.error e, m.world)) :
    exec (native p) m = (.error e, m) := by
  rw [exec_native, h]

theorem wrapped_start : Wrapped .start where
  accounted := accounts_start
  arrays := rfl
  devNodup := List.nodup_nil
  devOld _ h := absurd h List.not_mem_nil
  devLive _ h := absurd h List.not_mem_nil
  devCover _ h := absurd h (AList.notMem_empty _)
  kplDev _ h := absurd h List.not_mem_nil
  kplLive _ h := absurd h List.not_mem_nil
  kplUnique _ _ _ _ _ h := by simp [Managed.start] at h
  kplCover _ h := absurd h (AList.notMem_empty _)
  deviceRoots _ h := absurd h List.not_mem_nil
  kplRoots _ h := absurd h List.not_mem_nil

theorem Grows.mem_devices {w w' : World} {ps : List ℕ} (h : Grows w w' ps) (p : ℕ) :
    p ∈ w'.devices ↔ p ∈ ps ∨ p ∈ w.devices := by
  by_cases hp : p ∈ ps
  · obtain ⟨-, o, ho, -⟩ := h.new p hp
    simp only [hp, true_or, iff_true]
    exact AList.lookup_isSome.mp (by rw [ho]; rfl)
  · rw [← AList.lookup_isSome, h.old p hp, AList.lookup_isSome]
    simp [hp]

theorem Wrapped.dev_inj (h : Wrapped m) {i i' : ManagedDevice} (hi : i ∈ m.devices) (hi' : i' ∈ m.devices)
    (he : i.dev = i'.dev) : i = i' := by
  exact List.inj_on_of_nodup_map h.devNodup hi hi' he

/-- New devices get wrappers that the program holds. -/
def Managed.grown (m : Managed) (w : World) (ps : List ℕ) : Managed :=
  { m with
    world := w
    devices := m.devices ++ ps.map fun dev => ⟨dev, false⟩
    deviceRoots := List.range' m.devices.length ps.length ++ m.deviceRoots }

theorem Wrapped.grows (h : Wrapped m) {ps : List ℕ} (hg : Grows m.world w ps) : Wrapped (m.grown w ps) := by
  rw [Managed.grown]
  have hold : ∀ i ∈ m.devices, i.dev ∉ ps := fun i hi hp =>
    absurd (h.devOld i hi) (not_lt.mpr (hg.new _ hp).1)
  have hfind : ∀ {d : ℕ} {i : ManagedDevice}, m.devices[d]? = some i →
      (m.devices ++ ps.map fun dev => (⟨dev, false⟩ : ManagedDevice))[d]? = some i := by
    intro d i hd
    rw [List.getElem?_append_left (List.getElem?_eq_some_iff.mp hd).1, hd]
  refine ⟨hg.accounted, hg.arrays.trans h.arrays, ?_, ?_, ?_, ?_, ?_, ?_, h.kplUnique, ?_, ?_, ?_⟩
  · have hmap : ((m.devices ++ ps.map fun dev => (⟨dev, false⟩ : ManagedDevice)).map ManagedDevice.dev) =
        m.devices.map ManagedDevice.dev ++ ps := by
      simp [List.map_map, Function.comp_def]
    rw [hmap]
    refine List.nodup_append'.mpr ⟨h.devNodup, hg.nodup, fun p hp hq => ?_⟩
    obtain ⟨i, hi, rfl⟩ := List.mem_map.mp hp
    exact hold i hi hq
  · intro i hi
    rcases List.mem_append.mp hi with hi | hi
    · exact (h.devOld i hi).trans_le hg.next
    · obtain ⟨p, hp, rfl⟩ := List.mem_map.mp hi
      exact hg.lt_next hp
  · intro i hi
    rw [hg.mem_devices]
    rcases List.mem_append.mp hi with hi | hi
    · simp [hold i hi, h.devLive i hi]
    · obtain ⟨p, hp, rfl⟩ := List.mem_map.mp hi
      simp [hp]
  · intro p hp
    rcases (hg.mem_devices p).mp hp with hp | hp
    · exact ⟨⟨p, false⟩, List.mem_append_right _ (List.mem_map.mpr ⟨p, hp, rfl⟩), rfl⟩
    · obtain ⟨i, hi, rfl⟩ := h.devCover p hp
      exact ⟨i, List.mem_append_left _ hi, rfl⟩
  · intro j hj
    rw [List.length_append]
    exact (h.kplDev j hj).trans_le (Nat.le_add_right _ _)
  · intro j hj o ho
    refine ⟨(h.kplLive j hj o ho).1, fun i hi => ?_⟩
    have hlt := h.kplDev j hj
    have hd : m.devices[j.dev]? = some i := by
      rwa [List.getElem?_append_left hlt] at hi
    rw [hg.kpls]
    exact (h.kplLive j hj o ho).2 i hd
  · rw [hg.kpls]
    exact h.kplCover
  · intro d hd
    rcases List.mem_append.mp hd with hd | hd
    · obtain ⟨hge, hlt⟩ := List.mem_range'_1.mp hd
      obtain ⟨n, rfl⟩ := Nat.exists_eq_add_of_le hge
      have hn : n < ps.length := by omega
      refine ⟨⟨ps[n], false⟩, ?_, rfl⟩
      rw [List.getElem?_append_right (Nat.le_add_right _ _), Nat.add_sub_cancel_left, List.getElem?_map,
        List.getElem?_eq_getElem (by omega), Option.map_some]
    · obtain ⟨i, hi, hf⟩ := h.deviceRoots d hd
      exact ⟨i, hfind hi, hf⟩
  · intro k hk
    obtain ⟨j, i, hj, hf, hi, hf'⟩ := h.kplRoots k hk
    exact ⟨j, i, hj, hf, hfind hi, hf'⟩

theorem Wrapped.connected (h : Wrapped m) {p : ℕ} {o : DeviceObject}
    (hp : m.world.devices.lookup p = some o) :
    Wrapped { m with world := m.world.connected p (o.connect system m.world.resources) } := by
  have hmem : ∀ q, q ∈ (m.world.connected p (o.connect system m.world.resources)).devices ↔
      q ∈ m.world.devices := by
    intro q
    rw [World.connected, AList.mem_insert]
    constructor
    · rintro (rfl | hq)
      · exact AList.lookup_isSome.mp (by rw [hp]; rfl)
      · exact hq
    · exact .inr
  exact { h with
    accounted := (connected_accounted h.accounted hp).1
    devOld := fun i hi => (h.devOld i hi).trans_le (connect_next o _)
    devLive := fun i hi => (hmem _).trans (h.devLive i hi)
    devCover := fun q hq => h.devCover q ((hmem q).mp hq) }

/-- A `KPL` object whose constructor threw. -/
theorem Wrapped.addEmpty (h : Wrapped m) (hd : d < m.devices.length) :
    Wrapped { m with kpls := m.kpls ++ [⟨d, none, false⟩] } := by
  have hfind : ∀ {k : ℕ} {j : ManagedKpl}, (m.kpls ++ [⟨d, none, false⟩])[k]? = some j →
      m.kpls[k]? = some j ∨ j.obj = none := by
    intro k j hk
    rw [List.getElem?_append] at hk
    split at hk
    · exact .inl hk
    · rw [List.getElem?_singleton] at hk
      split at hk
      · cases hk
        exact .inr rfl
      · cases hk
  refine { h with kplDev := fun j hj => ?_, kplLive := fun j hj o ho => ?_, kplUnique := ?_,
                  kplCover := fun o ho => ?_, kplRoots := fun k hk => ?_ }
  · rcases List.mem_append.mp hj with hj | hj
    · exact h.kplDev j hj
    · rw [List.mem_singleton.mp hj]
      exact hd
  · rcases List.mem_append.mp hj with hj | hj
    · exact h.kplLive j hj o ho
    · rw [List.mem_singleton.mp hj] at ho
      cases ho
  · intro k k' j j' o hk hk' hj hj'
    rcases hfind hk with hk | hn
    · rcases hfind hk' with hk' | hn
      · exact h.kplUnique k k' j j' o hk hk' hj hj'
      · rw [hn] at hj'
        cases hj'
    · rw [hn] at hj
      cases hj
  · obtain ⟨j, hj, he⟩ := h.kplCover o ho
    exact ⟨j, List.mem_append_left _ hj, he⟩
  · obtain ⟨j, i, hj, hf, hi, hf'⟩ := h.kplRoots k hk
    exact ⟨j, i, by rw [List.getElem?_append_left (List.getElem?_eq_some_iff.mp hj).1, hj], hf, hi, hf'⟩

/-- A `KPL` object with its native object. -/
theorem Wrapped.addKpl (h : Wrapped m) {i : ManagedDevice} (hi : m.devices[d]? = some i)
    (hf : i.finalized = false) :
    Wrapped { m with
      world := m.world.withKpl i.dev
      kpls := m.kpls ++ [⟨d, some m.world.resources.next, false⟩]
      kplRoots := m.kpls.length :: m.kplRoots } := by
  have hnew : m.world.resources.next ∉ m.world.kpls := by
    intro hm
    obtain ⟨p, hp⟩ := Option.isSome_iff_exists.mp (AList.lookup_isSome.mpr hm)
    exact absurd (h.accounted.lt_next (kpl_held hp)) (lt_irrefl _)
  have hold : ∀ j ∈ m.kpls, j.obj ≠ some m.world.resources.next := by
    intro j hj ho
    have hl := (h.kplLive j hj _ ho).2 _ (List.getElem?_eq_getElem (h.kplDev j hj))
    exact hnew (AList.lookup_isSome.mp (by rw [hl]; rfl))
  have hfind : ∀ {k : ℕ} {j : ManagedKpl},
      (m.kpls ++ [⟨d, some m.world.resources.next, false⟩])[k]? = some j →
      m.kpls[k]? = some j ∨ k = m.kpls.length ∧ j.obj = some m.world.resources.next := by
    intro k j hk
    rw [List.getElem?_append] at hk
    split at hk
    · exact .inl hk
    · rw [List.getElem?_singleton] at hk
      split at hk
      · cases hk
        exact .inr ⟨by omega, rfl⟩
      · cases hk
  refine { h with
    accounted := withKpl_accounted h.accounted
    devOld := fun i hi => (h.devOld i hi).trans (Nat.lt_succ_self _)
    kplDev := fun j hj => ?_, kplLive := fun j hj o ho => ?_, kplUnique := ?_
    kplCover := fun o ho => ?_, kplRoots := fun k hk => ?_ }
  · rcases List.mem_append.mp hj with hj | hj
    · exact h.kplDev j hj
    · rw [List.mem_singleton.mp hj]
      exact (List.getElem?_eq_some_iff.mp hi).1
  · rcases List.mem_append.mp hj with hj | hj
    · refine ⟨(h.kplLive j hj o ho).1, fun i' hi' => ?_⟩
      have hne : o ≠ m.world.resources.next := by
        rintro rfl
        exact hold j hj ho
      exact (AList.lookup_insert_ne hne).trans ((h.kplLive j hj o ho).2 i' hi')
    · obtain rfl := List.mem_singleton.mp hj
      obtain rfl : m.world.resources.next = o := Option.some.inj ho
      refine ⟨rfl, fun i' hi' => ?_⟩
      obtain rfl : i = i' := Option.some.inj (hi.symm.trans hi')
      exact AList.lookup_insert _
  · intro k k' j j' o hk hk' hj hj'
    rcases hfind hk with hk | ⟨rfl, hn⟩
    · rcases hfind hk' with hk' | ⟨rfl, hn⟩
      · exact h.kplUnique k k' j j' o hk hk' hj hj'
      · rw [hn] at hj'
        exact absurd (hj.trans hj'.symm) (hold j (List.mem_of_getElem? hk))
    · rcases hfind hk' with hk' | ⟨rfl, -⟩
      · rw [hn] at hj
        exact absurd (hj'.trans hj.symm) (hold j' (List.mem_of_getElem? hk'))
      · rfl
  · rcases (AList.mem_insert _).mp ho with rfl | ho
    · exact ⟨_, List.mem_append_right _ (List.mem_singleton_self _), rfl⟩
    · obtain ⟨j, hj, he⟩ := h.kplCover o ho
      exact ⟨j, List.mem_append_left _ hj, he⟩
  · rcases List.mem_cons.mp hk with rfl | hk
    · exact ⟨_, i, by rw [List.getElem?_concat_length], rfl, hi, hf⟩
    · obtain ⟨j, i, hj, hf, hi, hf'⟩ := h.kplRoots k hk
      exact ⟨j, i, by rw [List.getElem?_append_left (List.getElem?_eq_some_iff.mp hj).1, hj], hf, hi, hf'⟩

theorem Wrapped.kpl_lookup (h : Wrapped m) {j : ManagedKpl} {o : ℕ} (hj : j ∈ m.kpls)
    (ho : j.obj = some o) : ∃ i, m.devices[j.dev]? = some i ∧ m.world.kpls.lookup o = some i.dev :=
  ⟨_, List.getElem?_eq_getElem (h.kplDev j hj),
    (h.kplLive j hj o ho).2 _ (List.getElem?_eq_getElem (h.kplDev j hj))⟩

theorem getElem?_set_some {α : Type} {l : List α} {n k : ℕ} {a b : α} (h : (l.set n a)[k]? = some b) :
    k = n ∧ b = a ∨ k ≠ n ∧ l[k]? = some b := by
  rw [List.getElem?_set] at h
  split at h
  · next hk =>
    split at h
    · exact .inl ⟨hk.symm, (Option.some.inj h).symm⟩
    · cases h
  · next hk => exact .inr ⟨fun he => hk he.symm, h⟩

/-- Deleting the native object of a wrapper. -/
theorem Wrapped.closed (h : Wrapped m) {j : ManagedKpl} {o : ℕ} (hk : m.kpls[k]? = some j)
    (ho : j.obj = some o) :
    Wrapped { m with world := m.world.withoutKpl o, kpls := m.kpls.set k { j with obj := none } } := by
  have hj := List.mem_of_getElem? hk
  obtain ⟨i, -, hl⟩ := h.kpl_lookup hj ho
  have hset : (m.kpls.set k { j with obj := none })[k]? = some { j with obj := none } := by
    rw [List.getElem?_set_self (List.getElem?_eq_some_iff.mp hk).1]
  have hother : ∀ j' ∈ m.kpls.set k { j with obj := none }, ∀ o', j'.obj = some o' →
      j' ∈ m.kpls ∧ o' ≠ o := by
    intro j' hj' o' ho'
    obtain ⟨n, hn⟩ := List.getElem?_of_mem hj'
    rcases getElem?_set_some hn with ⟨rfl, rfl⟩ | ⟨hne, hn⟩
    · cases ho'
    · refine ⟨List.mem_of_getElem? hn, ?_⟩
      rintro rfl
      exact hne (h.kplUnique n k j' j o' hn hk ho' ho)
  refine { h with
    accounted := withoutKpl_accounted h.accounted hl
    kplDev := fun j' hj' => ?_, kplLive := fun j' hj' o' ho' => ?_, kplUnique := ?_
    kplCover := fun o' ho' => ?_, kplRoots := fun n hn => ?_ }
  · rcases List.mem_or_eq_of_mem_set hj' with hj' | rfl
    · exact h.kplDev j' hj'
    · exact h.kplDev j hj
  · obtain ⟨hm, hne⟩ := hother j' hj' o' ho'
    refine ⟨(h.kplLive j' hm o' ho').1, fun i' hi' => ?_⟩
    exact (AList.lookup_erase_ne hne).trans ((h.kplLive j' hm o' ho').2 i' hi')
  · intro n n' j₁ j₂ o' hn hn' h₁ h₂
    rcases getElem?_set_some hn with ⟨rfl, rfl⟩ | ⟨-, hn⟩
    · cases h₁
    rcases getElem?_set_some hn' with ⟨rfl, rfl⟩ | ⟨-, hn'⟩
    · cases h₂
    exact h.kplUnique n n' j₁ j₂ o' hn hn' h₁ h₂
  · rw [World.withoutKpl, AList.mem_erase] at ho'
    obtain ⟨j', hj', he⟩ := h.kplCover o' ho'.2
    obtain ⟨n, hn⟩ := List.getElem?_of_mem hj'
    have hne : k ≠ n := by
      rintro rfl
      obtain rfl : j = j' := Option.some.inj (hk.symm.trans hn)
      exact ho'.1 (Option.some.inj (he.symm.trans ho))
    exact ⟨j', List.mem_of_getElem? (i := n) (by rw [List.getElem?_set_ne hne, hn]), he⟩
  · obtain ⟨j', i', hj', hf, hi', hf'⟩ := h.kplRoots n hn
    by_cases hnk : n = k
    · subst hnk
      obtain rfl : j = j' := Option.some.inj (hk.symm.trans hj')
      exact ⟨_, i', hset, hf, hi', hf'⟩
    · exact ⟨j', i', by rw [List.getElem?_set_ne (Ne.symm hnk), hj'], hf, hi', hf'⟩

/-- Finalizing a wrapper that has no native object. -/
theorem Wrapped.finalizedKpl (h : Wrapped m) {j : ManagedKpl} (hk : m.kpls[k]? = some j)
    (ho : j.obj = none) (hr : k ∉ m.kplRoots) :
    Wrapped { m with kpls := m.kpls.set k { j with finalized := true } } := by
  have hfind : ∀ {n : ℕ} {j' : ManagedKpl} {o : ℕ},
      (m.kpls.set k { j with finalized := true })[n]? = some j' → j'.obj = some o →
      m.kpls[n]? = some j' := by
    intro n j' o hn ho'
    rcases getElem?_set_some hn with ⟨rfl, rfl⟩ | ⟨-, hn⟩
    · rw [ho] at ho'
      cases ho'
    · exact hn
  refine { h with kplDev := fun j' hj' => ?_, kplLive := fun j' hj' o' ho' => ?_, kplUnique := ?_,
                  kplCover := fun o' ho' => ?_, kplRoots := fun n hn => ?_ }
  · rcases List.mem_or_eq_of_mem_set hj' with hj' | rfl
    · exact h.kplDev j' hj'
    · exact h.kplDev j (List.mem_of_getElem? hk)
  · obtain ⟨n, hn⟩ := List.getElem?_of_mem hj'
    exact h.kplLive j' (List.mem_of_getElem? (hfind hn ho')) o' ho'
  · intro n n' j₁ j₂ o' hn hn' h₁ h₂
    exact h.kplUnique n n' j₁ j₂ o' (hfind hn h₁) (hfind hn' h₂) h₁ h₂
  · obtain ⟨j', hj', he⟩ := h.kplCover o' ho'
    obtain ⟨n, hn⟩ := List.getElem?_of_mem hj'
    have hne : k ≠ n := by
      rintro rfl
      obtain rfl : j = j' := Option.some.inj (hk.symm.trans hn)
      rw [ho] at he
      cases he
    exact ⟨j', List.mem_of_getElem? (i := n) (by rw [List.getElem?_set_ne hne, hn]), he⟩
  · obtain ⟨j', i', hj', hf, hi', hf'⟩ := h.kplRoots n hn
    have hne : k ≠ n := fun he => hr (he ▸ hn)
    exact ⟨j', i', by rw [List.getElem?_set_ne hne, hj'], hf, hi', hf'⟩

/-- Finalizing a device that the program does not reach. -/
theorem Wrapped.finalizedDevice (h : Wrapped m) {i : ManagedDevice} {o : DeviceObject}
    (hd : m.devices[d]? = some i) (hp : m.world.devices.lookup i.dev = some o) (hr : ¬ m.Reachable d) :
    Wrapped { m with
      world := m.world.without i.dev o
      devices := m.devices.set d { i with finalized := true } } := by
  have hmem := List.mem_of_getElem? hd
  have hnext : (m.world.without i.dev o).resources.next = m.world.resources.next := destruct_next o _
  have hback : ∀ {n : ℕ} {i' : ManagedDevice}, (m.devices.set d { i with finalized := true })[n]? = some i' →
      ∃ i'', m.devices[n]? = some i'' ∧ i''.dev = i'.dev := by
    intro n i' hn
    rcases getElem?_set_some hn with ⟨rfl, rfl⟩ | ⟨-, hn⟩
    · exact ⟨i, hd, rfl⟩
    · exact ⟨i', hn, rfl⟩
  have hkeep : ∀ {n : ℕ} {i' : ManagedDevice}, n ≠ d → m.devices[n]? = some i' →
      (m.devices.set d { i with finalized := true })[n]? = some i' := by
    intro n i' hne hn
    rw [List.getElem?_set_ne hne.symm, hn]
  have hmap : (m.devices.set d { i with finalized := true }).map ManagedDevice.dev =
      m.devices.map ManagedDevice.dev := by
    apply List.ext_getElem?
    intro n
    rw [List.getElem?_map, List.getElem?_map]
    by_cases hn : n = d
    · subst hn
      rw [hd, List.getElem?_set_self (List.getElem?_eq_some_iff.mp hd).1]
      rfl
    · rw [List.getElem?_set_ne (Ne.symm hn)]
  have hne : ∀ {n : ℕ} {i' : ManagedDevice}, n ≠ d → m.devices[n]? = some i' → i'.dev ≠ i.dev := by
    intro n i' hnd hn he
    obtain rfl := h.dev_inj (List.mem_of_getElem? hn) hmem he
    have hnod : m.devices.Nodup := h.devNodup.of_map _
    exact hnd ((List.getElem?_inj (List.getElem?_eq_some_iff.mp hn).1 hnod).mp (hn.trans hd.symm))
  refine { h with
    accounted := without_accounted h.accounted hp
    devNodup := by rw [hmap]; exact h.devNodup
    devOld := fun i' hi' => ?_, devLive := fun i' hi' => ?_, devCover := fun p hp => ?_
    kplDev := fun j hj => ?_, kplLive := fun j hj o' ho' => ?_
    deviceRoots := fun d' hd' => ?_, kplRoots := fun k hk => ?_ }
  · rw [hnext]
    rcases List.mem_or_eq_of_mem_set hi' with hi' | rfl
    · exact h.devOld i' hi'
    · exact h.devOld i hmem
  · obtain ⟨n, hn⟩ := List.getElem?_of_mem hi'
    rw [World.without, AList.mem_erase]
    rcases getElem?_set_some hn with ⟨rfl, rfl⟩ | ⟨hnd, hn⟩
    · simp
    · simp [hne hnd hn, h.devLive i' (List.mem_of_getElem? hn)]
  · rw [World.without, AList.mem_erase] at hp
    obtain ⟨i', hi', rfl⟩ := h.devCover p hp.2
    obtain ⟨n, hn⟩ := List.getElem?_of_mem hi'
    refine ⟨i', List.mem_of_getElem? (hkeep ?_ hn), rfl⟩
    rintro rfl
    obtain rfl : i = i' := Option.some.inj (hd.symm.trans hn)
    exact hp.1 rfl
  · rw [List.length_set]
    exact h.kplDev j hj
  · refine ⟨(h.kplLive j hj o' ho').1, fun i' hi' => ?_⟩
    obtain ⟨i'', hi'', he⟩ := hback hi'
    rw [← he]
    exact (h.kplLive j hj o' ho').2 i'' hi''
  · obtain ⟨i', hi', hf⟩ := h.deviceRoots d' hd'
    refine ⟨i', hkeep ?_ hi', hf⟩
    rintro rfl
    exact hr (.inl hd')
  · obtain ⟨j, i', hj, hf, hi', hf'⟩ := h.kplRoots k hk
    refine ⟨j, i', hj, hf, hkeep ?_ hi', hf'⟩
    intro he
    exact hr (.inr ⟨k, hk, j, hj, he⟩)

theorem managedListDevices_grown (h : Wrapped m) :
    ∃ r w ps, exec (managedListDevices libc system malloc) m = (.ok r, m.grown w ps) ∧
      Grows m.world w ps := by
  obtain ⟨res, list, w, he, hw⟩ := @exec_listGet libc system _ malloc h.accounted
  rw [managedListDevices, exec_bind_ok (exec_native_ok he)]
  dsimp only
  rcases hw with ⟨hd, hc, hres, hg⟩ | ⟨rfl, ps, w₁, hg, hd, hc, rfl⟩
  · have hsame : { m with world := w } = m.grown w [] := by simp [Managed.grown]
    by_cases hs : res ≠ kplSuccess
    · rw [if_pos hs, hsame]
      exact ⟨_, w, [], rfl, hg⟩
    · have hread : exec (readDevs list) w = (.ok [], w) := by
        rw [readDevs, hd, hc]
        rfl
      have hfree : exec (kplLedgerDeviceListFree list false) w = (.ok list, w) := by
        rw [kplLedgerDeviceListFree, hd]
        rfl
      rw [if_neg hs, exec_bind_ok (exec_native_ok hread), exec_bind_ok (exec_read _ _),
        exec_bind_ok (exec_update _ _), exec_bind_ok (exec_native_ok hfree)]
      exact ⟨_, w, [], rfl, hg⟩
  · have hnew : w₁.resources.next ∉ w₁.arrays := by
      rw [hg.arrays, h.arrays]
      exact AList.notMem_empty _
    have hl : (w₁.withArray ps).arrays.lookup w₁.resources.next = some ps := AList.lookup_insert _
    have hread : exec (readDevs list) (w₁.withArray ps) = (.ok ps, w₁.withArray ps) := by
      rw [readDevs, hd]
      dsimp only
      rw [exec_bind_ok (exec_read _ _), hl, exec_bind_ok (exec_demand_some _ _ _), hc, if_pos le_rfl,
        List.take_length]
      rfl
    have hfree : exec (kplLedgerDeviceListFree list false) (w₁.withArray ps) =
        (.ok { list with devs := none }, (w₁.withArray ps).withoutArray w₁.resources.next) := by
      rw [kplLedgerDeviceListFree, hd]
      dsimp only
      rw [exec_bind_ok (exec_read _ _), hl]
      rfl
    have hacc : ((w₁.withArray ps).withoutArray w₁.resources.next).Accounted :=
      withoutArray_accounted (withArray_accounted hg.accounted) hl
    have harr : ((w₁.withArray ps).withoutArray w₁.resources.next).arrays = m.world.arrays := by
      rw [World.withoutArray, World.withArray, hg.arrays, h.arrays]
      apply AList.ext
      simp [AList.erase]
    have hg' : Grows m.world ((w₁.withArray ps).withoutArray w₁.resources.next) ps :=
      { hg with accounted := hacc, next := hg.next.trans (Nat.le_succ _), arrays := harr }
    rw [if_neg (not_not.mpr rfl), exec_bind_ok (exec_native_ok hread), exec_bind_ok (exec_read _ _),
      exec_bind_ok (exec_update _ _), exec_bind_ok (exec_native_ok hfree)]
    exact ⟨_, _, ps, rfl, hg'⟩

/-- The device is connected, and there is one `KPL` object more. -/
theorem managedNewKpl_wrapped (h : Wrapped m) (hd : d ∈ m.deviceRoots) :
    ∃ r m' i o obj, exec (managedNewKpl system answer d) m = (.ok r, m') ∧ Wrapped m' ∧
      m.devices[d]? = some i ∧ m.world.devices.lookup i.dev = some o ∧ m'.devices = m.devices ∧
      m'.world.devices = (m.world.connected i.dev (o.connect system m.world.resources)).devices ∧
      m'.kpls = m.kpls ++ [⟨d, obj, false⟩] := by
  obtain ⟨i, hi, hf⟩ := h.deviceRoots d hd
  obtain ⟨o, ho⟩ := exists_lookup ((h.devLive i (List.mem_of_getElem? hi)).mpr hf)
  obtain ⟨k, w, he, hw⟩ := @exec_newKpl system _ _ _ answer ho
  have hc := @Wrapped.connected system m h _ _ ho
  rw [managedNewKpl, exec_bind_ok (exec_read _ _), hi, exec_bind_ok (exec_demand_some _ _ _)]
  rcases hw with ⟨⟨res, rfl, hres⟩, rfl⟩ | ⟨rfl, rfl⟩
  · have hx : exec (kplFromDevice system answer true (some i.dev)) m.world =
        (.ok (.result res, none), m.world.connected i.dev (o.connect system m.world.resources)) := by
      rw [kplFromDevice, exec_bind_ok he]
      rfl
    rw [exec_bind_ok (exec_native_ok hx)]
    dsimp only
    rw [exec_bind_ok (exec_read _ _), if_pos (by simpa [kplSuccess] using hres)]
    exact ⟨_, _, i, o, none, rfl, hc.addEmpty (List.getElem?_eq_some_iff.mp hi).1, rfl, ho, rfl, rfl, rfl⟩
  · set w := m.world.connected i.dev (o.connect system m.world.resources)
    have hx : exec (kplFromDevice system answer true (some i.dev)) m.world =
        (.ok (kplSuccess, some w.resources.next), w.withKpl i.dev) := by
      rw [kplFromDevice, exec_bind_ok he]
      rfl
    rw [exec_bind_ok (exec_native_ok hx)]
    dsimp only
    rw [exec_bind_ok (exec_read _ _), if_neg (not_not.mpr rfl)]
    exact ⟨_, _, i, o, _, rfl, hc.addKpl hi hf, rfl, ho, rfl, rfl, rfl⟩

/-- What may go away: native objects, never the numbers of the wrappers. -/
structure Shrinks (m m' : Managed) : Prop where
  wrapped : Wrapped m'
  count : m'.devices.length = m.devices.length
  object : ∀ d o, m'.object d = some o → m.object d = some o
  kpls : ∀ j' ∈ m'.kpls, ∃ j ∈ m.kpls, j.dev = j'.dev

theorem Shrinks.trans {m₁ m₂ m₃ : Managed} (h : Shrinks m₁ m₂) (h' : Shrinks m₂ m₃) : Shrinks m₁ m₃ where
  wrapped := h'.wrapped
  count := h'.count.trans h.count
  object d o ho := h.object d o (h'.object d o ho)
  kpls j hj := by
    obtain ⟨j₂, hj₂, he₂⟩ := h'.kpls j hj
    obtain ⟨j₁, hj₁, he₁⟩ := h.kpls j₂ hj₂
    exact ⟨j₁, hj₁, he₁.trans he₂⟩

theorem set_dev {k : ℕ} {j j' : ManagedKpl} (hk : m.kpls[k]? = some j) (he : j.dev = j'.dev) :
    ∀ i ∈ m.kpls.set k j', ∃ i₀ ∈ m.kpls, i₀.dev = i.dev := by
  intro i hi
  rcases List.mem_or_eq_of_mem_set hi with hi | rfl
  · exact ⟨i, hi, rfl⟩
  · exact ⟨j, List.mem_of_getElem? hk, he⟩

/-- Closing a wrapper that is not finalized, twice if need be. -/
theorem managedClose_shrinks (h : Wrapped m) {j : ManagedKpl} (hk : m.kpls[k]? = some j) :
    ∃ m', exec (managedClose k) m = (.ok (), m') ∧ Shrinks m m' ∧
      m'.kpls[k]? = some { j with obj := none } ∧ m'.kplRoots = m.kplRoots := by
  rw [managedClose, exec_bind_ok (exec_read _ _), hk, exec_bind_ok (exec_demand_some _ _ _)]
  cases ho : j.obj with
  | none =>
    rw [if_neg (not_not.mpr rfl)]
    refine ⟨m, rfl, ⟨h, rfl, fun _ _ ho => ho, fun i hi => ⟨i, hi, rfl⟩⟩, ?_, rfl⟩
    rw [hk, ← ho]
  | some o =>
    obtain ⟨i, -, hl⟩ := h.kpl_lookup (List.mem_of_getElem? hk) ho
    have hx : exec (kplFree (some o)) m.world = (.ok (), m.world.withoutKpl o) := exec_deleteKpl hl
    rw [if_pos (Option.some_ne_none o), exec_bind_ok (exec_native_ok hx)]
    refine ⟨_, rfl, ⟨h.closed hk ho, rfl, fun _ _ ho => ho, set_dev hk rfl⟩, ?_, rfl⟩
    exact List.getElem?_set_self (List.getElem?_eq_some_iff.mp hk).1

theorem finalizeKpl_shrinks (h : Wrapped m) {j : ManagedKpl} (hk : m.kpls[k]? = some j)
    (hr : k ∉ m.kplRoots) : ∃ m', exec (finalizeKpl k) m = (.ok (), m') ∧ Shrinks m m' := by
  obtain ⟨m', he, hm, hk', hroots⟩ := managedClose_shrinks h hk
  rw [finalizeKpl, exec_bind_ok he, exec_bind_ok (exec_read _ _), hk', exec_bind_ok (exec_demand_some _ _ _)]
  refine ⟨_, rfl, hm.trans ⟨hm.wrapped.finalizedKpl hk' rfl (by rwa [hroots]), rfl, fun _ _ ho => ho, ?_⟩⟩
  exact set_dev hk' rfl

theorem finalizeDevice_shrinks (h : Wrapped m) {i : ManagedDevice} (hd : m.devices[d]? = some i)
    (hf : i.finalized = false) (hr : ¬ m.Reachable d) :
    ∃ m', exec (finalizeDevice d) m = (.ok (), m') ∧ Shrinks m m' := by
  obtain ⟨o, ho⟩ := exists_lookup ((h.devLive i (List.mem_of_getElem? hd)).mpr hf)
  have hx : exec (kplLedgerDeviceFree (some i.dev)) m.world = (.ok (), m.world.without i.dev o) :=
    exec_deleteDevice ho
  rw [finalizeDevice, exec_bind_ok (exec_read _ _), hd, exec_bind_ok (exec_demand_some _ _ _),
    exec_bind_ok (exec_native_ok hx)]
  refine ⟨_, rfl, h.finalizedDevice hd ho hr, List.length_set, fun n o' ho' => ?_, fun j hj => ⟨j, hj, rfl⟩⟩
  obtain ⟨i', hi', hl⟩ := Option.bind_eq_some_iff.mp ho'
  rcases getElem?_set_some hi' with ⟨rfl, rfl⟩ | ⟨-, hi'⟩
  · rw [World.without, AList.lookup_erase] at hl
    cases hl
  · have hne : i'.dev ≠ i.dev := by
      intro he
      rw [he, World.without, AList.lookup_erase] at hl
      cases hl
    rw [World.without, AList.lookup_erase_ne hne] at hl
    exact Option.bind_eq_some_iff.mpr ⟨i', hi', hl⟩

theorem Wrapped.forget (h : Wrapped m) (p q : ℕ → Bool) :
    Wrapped { m with deviceRoots := m.deviceRoots.filter p, kplRoots := m.kplRoots.filter q } :=
  { h with
    deviceRoots := fun d hd => h.deviceRoots d (List.mem_of_mem_filter hd)
    kplRoots := fun k hk => h.kplRoots k (List.mem_of_mem_filter hk) }

/-- A device is connected where its last `connect` succeeded, and each `KPL` had its connect. -/
structure ManagedTracks (m : Managed) (c : ℕ → Option Result) : Prop where
  wrapped : Wrapped m
  fresh : ∀ d, m.devices.length ≤ d → c d = none
  connected : ∀ d o, m.object d = some o → (o.handle.isSome = true ↔ c d = some .success)
  tried : ∀ j ∈ m.kpls, c j.dev ≠ none

variable {c : ℕ → Option Result}

theorem managedTracks_start : ManagedTracks .start fun _ => none where
  wrapped := wrapped_start
  fresh _ _ := rfl
  connected d o h := by simp [Managed.object, Managed.start] at h
  tried _ h := absurd h List.not_mem_nil

theorem ManagedTracks.shrinks {m' : Managed} (h : ManagedTracks m c) (hs : Shrinks m m') :
    ManagedTracks m' c where
  wrapped := hs.wrapped
  fresh d hd := h.fresh d (hs.count ▸ hd)
  connected d o ho := h.connected d o (hs.object d o ho)
  tried j hj := by
    obtain ⟨j₀, hj₀, he⟩ := hs.kpls j hj
    exact he ▸ h.tried j₀ hj₀

theorem ManagedTracks.grows (h : ManagedTracks m c) {ps : List ℕ} (hg : Grows m.world w ps) :
    ManagedTracks (m.grown w ps) c where
  wrapped := h.wrapped.grows hg
  fresh d hd := by
    rw [Managed.grown, List.length_append] at hd
    exact h.fresh d ((Nat.le_add_right _ _).trans hd)
  connected d o ho := by
    obtain ⟨i, hi, hl⟩ := Option.bind_eq_some_iff.mp ho
    change (m.devices ++ _)[d]? = some i at hi
    change w.devices.lookup i.dev = some o at hl
    rcases lt_or_ge d m.devices.length with hlt | hge
    · rw [List.getElem?_append_left hlt] at hi
      have hold := h.wrapped.devOld i (List.mem_of_getElem? hi)
      rw [hg.old _ fun hp => absurd hold (not_lt.mpr (hg.new _ hp).1)] at hl
      exact h.connected d o (Option.bind_eq_some_iff.mpr ⟨i, hi, hl⟩)
    · rw [List.getElem?_append_right hge] at hi
      obtain ⟨p, hp, rfl⟩ := List.mem_map.mp (List.mem_of_getElem? hi)
      obtain ⟨-, o', ho', hn⟩ := hg.new p hp
      obtain rfl : o = o' := Option.some.inj (hl.symm.trans ho')
      simp [hn, h.fresh d hge]
  tried := h.tried

theorem ManagedTracks.newKpl {m' : Managed} {i : ManagedDevice} {o : DeviceObject} {obj : Option ℕ}
    (h : ManagedTracks m c) (hm : Wrapped m') (hi : m.devices[d]? = some i)
    (ho : m.world.devices.lookup i.dev = some o) (hd : m'.devices = m.devices)
    (hw : m'.world.devices = (m.world.connected i.dev (o.connect system m.world.resources)).devices)
    (hk : m'.kpls = m.kpls ++ [⟨d, obj, false⟩]) :
    ManagedTracks m' (Function.update c d (some (o.outcome system))) where
  wrapped := hm
  fresh n hn := by
    have hlt : d < m.devices.length := (List.getElem?_eq_some_iff.mp hi).1
    rw [hd] at hn
    rw [Function.update_of_ne (by omega)]
    exact h.fresh n hn
  connected n o' ho' := by
    obtain ⟨i', hi', hl⟩ := Option.bind_eq_some_iff.mp ho'
    rw [hd] at hi'
    rw [hw, World.connected] at hl
    have hc := (@connected_accounted system _ _ _ h.wrapped.accounted ho).2
    by_cases hn : n = d
    · subst hn
      obtain rfl : i = i' := Option.some.inj (hi.symm.trans hi')
      rw [AList.lookup_insert] at hl
      cases hl
      rw [Function.update_self, hc.handle, hc.result, Option.some.injEq]
    · have hne : i'.dev ≠ i.dev := by
        intro he
        obtain rfl := h.wrapped.dev_inj (List.mem_of_getElem? hi') (List.mem_of_getElem? hi) he
        have hnod : m.devices.Nodup := h.wrapped.devNodup.of_map _
        exact hn ((List.getElem?_inj (List.getElem?_eq_some_iff.mp hi').1 hnod).mp (hi'.trans hi.symm))
      rw [AList.lookup_insert_ne hne] at hl
      rw [Function.update_of_ne hn]
      exact h.connected n o' (Option.bind_eq_some_iff.mpr ⟨i', hi', hl⟩)
  tried j hj := by
    by_cases hn : j.dev = d
    · rw [hn, Function.update_self]
      exact Option.some_ne_none _
    · rw [Function.update_of_ne hn]
      rw [hk] at hj
      rcases List.mem_append.mp hj with hj | hj
      · exact h.tried j hj
      · rw [List.mem_singleton.mp hj] at hn
        exact absurd rfl hn

/-- A method of a reachable `KPL` finds its device there, whatever was finalized. It is refused where
the object was closed, and goes through the connection of the device or finds it closed. -/
theorem managedUse_cases (h : ManagedTracks m c) (hk : k ∈ m.kplRoots) :
    (∃ j, m.kpls[k]? = some j ∧ j.obj = none ∧ exec (managedUse k) m = (.ok (.error .cBadParams), m)) ∨
      (∃ j obj hd, m.kpls[k]? = some j ∧ j.obj = some obj ∧ m.world.GoesThrough obj hd ∧
        exec (managedUse k) m = (.ok (.ok hd), m)) ∨
      m.LeftClosed c k ∧ exec (managedUse k) m = (.error .assertion, m) := by
  obtain ⟨j, i, hj, hf, hi, hf'⟩ := h.wrapped.kplRoots k hk
  rw [managedUse, exec_bind_ok (exec_read _ _), hj, exec_bind_ok (exec_demand_some _ _ _)]
  cases hobj : j.obj with
  | none => exact .inl ⟨j, rfl, hobj, rfl⟩
  | some q =>
    have hmem := List.mem_of_getElem? hj
    have hl := (h.wrapped.kplLive j hmem q hobj).2 i hi
    obtain ⟨o, ho⟩ := exists_lookup ((h.wrapped.devLive i (List.mem_of_getElem? hi)).mpr hf')
    have hobject : m.object j.dev = some o := Option.bind_eq_some_iff.mpr ⟨i, hi, ho⟩
    have he := exec_useKpl hl ho
    by_cases hopen : o.handle.isSome = true
    · have hacc : Accounts m.world.resources m.world.held := h.wrapped.accounted
      rw [sendHandle_open hopen] at he
      refine .inr (.inl ⟨j, q, o.handle, rfl, hobj, ⟨i.dev, o, hl, ho, rfl, ?_⟩, ?_⟩)
      · exact fun p hp => (hacc.alive p).mp (handle_held ho hp)
      · exact exec_bind_ok (exec_native_ok he)
    · rw [sendHandle_closed hopen] at he
      cases o with
      | usb d =>
        rw [Option.not_isSome_iff_eq_none] at hopen
        refine .inr (.inl ⟨j, q, none, rfl, hobj, ⟨i.dev, _, hl, ho, hopen.symm, ?_⟩, ?_⟩)
        · exact fun p hp => by cases hp
        · exact exec_bind_ok (exec_native_ok he)
      | tcp d =>
        have hfd : d.fd < 0 := by
          by_contra hn
          exact hopen (by rw [tcp_handle_some (not_lt.mp hn)]; rfl)
        obtain ⟨res, hres⟩ := Option.ne_none_iff_exists'.mp (h.tried j hmem)
        refine .inr (.inr ⟨⟨j, d, res, hj, by simp [hobj], hobject, hfd, hres, ?_⟩, ?_⟩)
        · rintro rfl
          exact hopen ((h.connected _ _ hobject).mpr hres)
        · exact exec_bind_error (exec_native_error he)

theorem operateManaged_tracks {op : ManagedOp} (h : ManagedTracks m c) (ho : Collectable m op) :
    (∃ out m', exec (operateManaged libc op) m = (.ok out, m') ∧
        ManagedTracks m' (lastManagedConnect c m op)) ∨
      exec (operateManaged libc op) m = (.error .assertion, m) ∧ ∃ k, op = .use k ∧ m.LeftClosed c k := by
  cases op with
  | listDevices system malloc =>
    obtain ⟨r, w, ps, he, hg⟩ := @managedListDevices_grown libc system malloc m h.wrapped
    exact .inl ⟨_, _, exec_bind_ok he, h.grows hg⟩
  | newKpl system answer d =>
    obtain ⟨r, m', i, o, obj, he, hm, hi, hl, hd, hw, hk⟩ :=
      @managedNewKpl_wrapped system answer m d h.wrapped ho
    have hobject : m.object d = some o := Option.bind_eq_some_iff.mpr ⟨i, hi, hl⟩
    refine .inl ⟨_, m', exec_bind_ok he, ?_⟩
    rw [lastManagedConnect, hobject]
    exact h.newKpl hm hi hl hd hw hk
  | use k =>
    rcases managedUse_cases h ho with
      ⟨j, hj, hnone, he⟩ | ⟨j, obj, hd, hj, hobj, hthrough, he⟩ | ⟨hclosed, he⟩
    · exact .inl ⟨_, m, exec_bind_ok he, h⟩
    · exact .inl ⟨_, m, exec_bind_ok he, h⟩
    · exact .inr ⟨exec_bind_error he, k, rfl, hclosed⟩
  | close k =>
    obtain ⟨j, i, hj, -⟩ := h.wrapped.kplRoots k ho
    obtain ⟨m', he, hs, -⟩ := managedClose_shrinks h.wrapped hj
    exact .inl ⟨_, m', exec_bind_ok he, h.shrinks hs⟩
  | forgetDevice d =>
    have hm := h.wrapped.forget (fun e => decide (e ≠ d)) fun _ => true
    exact .inl ⟨_, _, rfl, h.shrinks ⟨by simpa using hm, rfl, fun _ _ ho => ho, fun j hj => ⟨j, hj, rfl⟩⟩⟩
  | forgetKpl k =>
    have hm := h.wrapped.forget (fun _ => true) fun e => decide (e ≠ k)
    exact .inl ⟨_, _, rfl, h.shrinks ⟨by simpa using hm, rfl, fun _ _ ho => ho, fun j hj => ⟨j, hj, rfl⟩⟩⟩
  | finalizeDevice d =>
    obtain ⟨hr, i, hi, hf⟩ := ho
    obtain ⟨m', he, hs⟩ := finalizeDevice_shrinks h.wrapped hi hf hr
    exact .inl ⟨_, m', exec_bind_ok he, h.shrinks hs⟩
  | finalizeKpl k =>
    obtain ⟨hr, j, hj, -⟩ := ho
    obtain ⟨m', he, hs⟩ := finalizeKpl_shrinks h.wrapped hj hr
    exact .inl ⟨_, m', exec_bind_ok he, h.shrinks hs⟩

end

section Runs
variable {libc : Libc} {tr : List (ManagedOp × ManagedReturn)} {m : Managed} {c : ℕ → Option Result}

theorem observed_managedTracks
    (h : Observed (operateManaged libc) Collectable lastManagedConnect .start (fun _ => none) tr m c) :
    ManagedTracks m c := by
  refine h.invariant managedTracks_start fun t v op out u ht ho he => ?_
  rcases @operateManaged_tracks libc _ _ _ ht ho with ⟨out', m', he', hm⟩ | ⟨he', -⟩
  · rw [he] at he'
    cases he'
    exact hm
  · rw [he] at he'
    cases he'

theorem eq_empty_of_notMem {β : Type} {s : AList fun _ : ℕ => β} (h : ∀ a, a ∉ s) : s = ∅ := by
  apply AList.ext
  refine List.eq_nil_iff_forall_not_mem.mpr fun e he => h e.1 ?_
  exact AList.mem_keys.mpr (List.mem_map_of_mem he)

theorem Wrapped.all_finalized (h : Wrapped m) (hd : ∀ i ∈ m.devices, i.finalized = true)
    (hk : ∀ j ∈ m.kpls, j.finalized = true) : m.world.held = m.world.enumerations := by
  have hdev : m.world.devices = ∅ := by
    refine eq_empty_of_notMem fun p hp => ?_
    obtain ⟨i, hi, rfl⟩ := h.devCover p hp
    rw [h.devLive i hi, hd i hi] at hp
    cases hp
  have hkpl : m.world.kpls = ∅ := by
    refine eq_empty_of_notMem fun o ho => ?_
    obtain ⟨j, hj, he⟩ := h.kplCover o ho
    have hf := (h.kplLive j hj o he).1
    rw [hk j hj] at hf
    cases hf
  exact held_of_empty hdev hkpl h.arrays

/-- Whatever the program drops and in whatever order the collector finalizes it between the calls:
no memory is read or freed that is not there, what the program reaches keeps its device, and the
finalizers of all objects together release everything once, the lists of `hid_enumerate` excepted.
A method of a `KPL` goes through the open connection of its device. Only such a method can fail to
return, on a TCP device that a later `connect` left closed. -/
theorem managed_freed_once
    (h : Observed (operateManaged libc) Collectable lastManagedConnect .start (fun _ => none) tr m c) :
    Sound m.world.resources.log ∧
      (∀ op, Collectable m op → (∃ out m', exec (operateManaged libc op) m = (.ok out, m')) ∨
        exec (operateManaged libc op) m = (.error .assertion, m) ∧ ∃ k, op = .use k ∧ m.LeftClosed c k) ∧
      (∀ k ∈ m.kplRoots, ∀ hd m', exec (managedUse k) m = (.ok (.ok hd), m') →
        ∃ j obj, m.kpls[k]? = some j ∧ j.obj = some obj ∧ m.world.GoesThrough obj hd) ∧
      (∀ d, m.Reachable d → ∃ i, m.devices[d]? = some i ∧ i.dev ∈ m.world.devices) ∧
      ((∀ i ∈ m.devices, i.finalized = true) → (∀ j ∈ m.kpls, j.finalized = true) →
        ∀ p, .constructed p ∈ m.world.resources.log →
          m.world.resources.log.count (.destroyed p) = if p ∈ m.world.enumerations then 0 else 1) := by
  have ht := observed_managedTracks h
  have hm := ht.wrapped
  refine ⟨hm.accounted.sound, fun op ho => ?_, fun k hk hd m' he => ?_, fun d hd => ?_, fun hd hk => ?_⟩
  · rcases @operateManaged_tracks libc _ _ _ ht ho with ⟨out, m', he, -⟩ | hf
    · exact .inl ⟨out, m', he⟩
    · exact .inr hf
  · rcases managedUse_cases ht hk with ⟨-, -, -, hx⟩ | ⟨j, obj, hd', hj, hobj, hthrough, hx⟩ | ⟨-, hx⟩ <;>
      rw [he] at hx <;> cases hx
    exact ⟨j, obj, hj, hobj, hthrough⟩
  · rcases hd with hd | ⟨k, hk, j, hj, rfl⟩
    · obtain ⟨i, hi, hf⟩ := hm.deviceRoots d hd
      exact ⟨i, hi, (hm.devLive i (List.mem_of_getElem? hi)).mpr hf⟩
    · obtain ⟨j', i, hj', -, hi, hf⟩ := hm.kplRoots k hk
      obtain rfl : j = j' := Option.some.inj (hj.symm.trans hj')
      exact ⟨i, hi, (hm.devLive i (List.mem_of_getElem? hi)).mpr hf⟩
  · exact hm.accounted.count_enumerations (hm.all_finalized hd hk)

/-- The device goes before the `KPL` object that was made of it. -/
theorem twoDevices_collected : ∃ tr m c,
    Observed (operateManaged plainLibc) Collectable lastManagedConnect .start (fun _ => none) tr m c ∧
    (∀ i ∈ m.devices, i.finalized = true) ∧ (∀ j ∈ m.kpls, j.finalized = true) ∧
      m.world.enumerations = [1] ∧ .constructed 1 ∈ m.world.resources.log ∧
      .constructed 6 ∈ m.world.resources.log := by
  have h₀ : Observed (operateManaged plainLibc) Collectable lastManagedConnect .start (fun _ => none) []
      .start _ := .nil _ _
  have h₁ := h₀.next (i := .listDevices twoDevices true) trivial rfl
  have h₂ := h₁.next (i := .newKpl twoDevices .success 0) (show 0 ∈ [0, 1] by decide) rfl
  have h₃ := h₂.next (i := .use 0) (show 0 ∈ [0] by decide) rfl
  have h₄ := h₃.next (i := .forgetKpl 0) trivial rfl
  have h₅ := h₄.next (i := .forgetDevice 0) trivial rfl
  have h₆ := h₅.next (i := .finalizeDevice 0) ⟨by
    rintro (hd | ⟨k, hk, -⟩)
    · exact absurd hd (show 0 ∉ [1] by decide)
    · exact absurd hk (show k ∉ [] from List.not_mem_nil), _, rfl, rfl⟩ rfl
  have h₇ := h₆.next (i := .finalizeKpl 0) ⟨show 0 ∉ [] by decide, _, rfl, rfl⟩ rfl
  have h₈ := h₇.next (i := .forgetDevice 1) trivial rfl
  have h₉ := h₈.next (i := .finalizeDevice 1) ⟨by
    rintro (hd | ⟨k, hk, -⟩)
    · exact absurd hd (show 1 ∉ [] by decide)
    · exact absurd hk (show k ∉ [] from List.not_mem_nil), _, rfl, rfl⟩ rfl
  exact ⟨_, _, _, h₉, by decide +kernel, by decide +kernel, rfl, by decide +kernel, by decide +kernel⟩

theorem managed_freed_once_twoDevices : ∃ tr m c,
    Observed (operateManaged plainLibc) Collectable lastManagedConnect .start (fun _ => none) tr m c ∧
    m.world.resources.log.count (.destroyed 6) = 1 ∧ m.world.resources.log.count (.destroyed 1) = 0 := by
  obtain ⟨tr, m, c, h, hd, hk, he, h₁, h₆⟩ := twoDevices_collected
  have hc := (managed_freed_once h).2.2.2.2 hd hk
  have hc₆ := hc 6 h₆
  have hc₁ := hc 1 h₁
  rw [he] at hc₆ hc₁
  exact ⟨tr, m, c, h, hc₆, hc₁⟩

end Runs

end LedgerKeePass.Kpl
