import LedgerKeePass.LinkFaultFree
import LedgerKeePass.Simulation

/-!
# The handle of a device object

A device object has a handle that is open or closed. `connect` closes the one that is open before
it can fail, so that after a failure there is no connection for a call to go over.
-/
namespace LedgerKeePass.Kpl
open Bytes Program App

/-- A fault-free transport that is opened to a device, and the device at its end. `withDevice` is
the connection after someone else has used the device. -/
structure Connection where
  State : Type
  transport : FaultFree State
  connect : Device → State
  device : State → Device
  withDevice : State → Device → State
  connected (d : Device) : transport.At (connect d) d
  found {s : State} {d : Device} : transport.At s d → device s = d
  moved {s : State} {d : Device} (t : Device) : transport.At s d → transport.At (withDevice s t) t

def tcpConnection : Connection where
  State := TcpLink Device
  transport := tcpFaultFree
  connect d := ⟨d, [], [], 0⟩
  device l := l.device
  withDevice l d := { l with device := d }
  connected _ := ⟨⟨rfl, rfl⟩, rfl⟩
  found h := h.2
  moved _ h := ⟨h.1, rfl⟩

def usbConnection (junk : List UInt8 → Buf 64) : Connection where
  State := UsbLink Device
  transport := usbFaultFree junk
  connect d := ⟨d, none, [], 0⟩
  device l := l.device
  withDevice l d := { l with device := d }
  connected _ := ⟨⟨rfl, rfl⟩, rfl⟩
  found h := h.2
  moved _ h := ⟨h.1, rfl⟩

/-- The handle of a device object, and the device that it is for. -/
inductive Port (C : Connection)
  | closed (d : Device)
  | opened (s : C.State)

namespace Port
variable {C : Connection}

def device : Port C → Device
  | .closed d => d
  | .opened s => C.device s

def handle : Port C → Option C.State
  | .closed _ => none
  | .opened s => some s

/-- The handle that a call has left. -/
def leave (p : Port C) : Option C.State → Port C
  | none => .closed p.device
  | some s => .opened s

/-- `connect`, which returns `connected`. -/
def connect (connected : Result) (p : Port C) : Port C :=
  if connected = .success then .opened (C.connect p.device) else .closed p.device

/-- The same handle, after someone else has used the device. -/
def withDevice : Port C → Device → Port C
  | .closed _, d => .closed d
  | .opened s, d => .opened (C.withDevice s d)

end Port

/-- A call on what the handle is. -/
def onPort {C : Connection} {α : Type} (p : KplM C.State α) : Prog Fault (Port C) α :=
  within Port.handle Port.leave p

/-- A device at rest with this seed and this map. -/
structure Rests (seed : List UInt8) (d : Device) (m : SlotMap) : Prop where
  resting : d.Resting
  seed : d.seed = seed
  slots : d.nStorage.slotMap = m

/-- The handle is open, and the device behind it rests with this seed and this map. -/
def FaultFree.Holds {σ : Type} (T : FaultFree σ) (seed : List UInt8) (dev : Option σ) (m : SlotMap) : Prop :=
  ∃ s d, dev = some s ∧ T.At s d ∧ d.Resting ∧ d.seed = seed ∧ d.nStorage.slotMap = m

namespace Port
variable {C : Connection} {seed : List UInt8} {live : Bool} {p : Port C} {m n : SlotMap} {d : Device}

/-- The device rests, and the handle is open with nothing under way or, where it is not `live`,
closed. -/
inductive Holds (seed : List UInt8) : Bool → Port C → SlotMap → Prop
  | closed {d : Device} {m : SlotMap} (rests : Rests seed d m) : Holds seed false (.closed d) m
  | opened {s : C.State} {m : SlotMap} (holds : C.transport.Holds seed (some s) m) :
      Holds seed true (.opened s) m

theorem Holds.rests (h : p.Holds seed live m) : Rests seed p.device m := by
  cases h with
  | closed rests => exact rests
  | @opened s _ holds =>
    obtain ⟨_, d, ⟨⟩, hs, hd, hseed, hm⟩ := holds
    change Rests seed (C.device s) m
    rw [C.found hs]
    exact ⟨hd, hseed, hm⟩

/-- Whatever the handle was, it is open exactly where `connect` succeeds. -/
theorem Holds.connect (h : p.Holds seed live m) (connected : Result) :
    (p.connect connected).Holds seed (decide (connected = .success)) m := by
  obtain ⟨hd, hseed, hm⟩ := h.rests
  rw [Port.connect]
  by_cases hc : connected = .success
  · rw [if_pos hc, decide_eq_true hc]
    exact .opened ⟨_, p.device, rfl, C.connected _, hd, hseed, hm⟩
  · rw [if_neg hc, decide_eq_false hc]
    exact .closed ⟨hd, hseed, hm⟩

theorem Holds.withDevice (h : p.Holds seed live m) (hd : Rests seed d n) :
    (p.withDevice d).Holds seed live n := by
  cases h with
  | closed => exact .closed hd
  | opened holds =>
    obtain ⟨_, d', ⟨⟩, hs, -⟩ := holds
    exact .opened ⟨_, d, rfl, C.moved d hs, hd.resting, hd.seed, hd.slots⟩

end Port

/-- A call on a handle that is open. -/
theorem onPort_simulates {C : Connection} {seed : List UInt8} {α : Type} {p : KplM C.State α}
    {f : SlotMap → α × SlotMap} (hp : Simulates (C.transport.Holds seed) p f) :
    Simulates (Port.Holds seed true) (onPort p) f := by
  refine hp.within (fun p m h => ?_) fun p _ dev m _ h => ?_
  · cases h with
    | opened holds => exact holds
  · obtain ⟨s, d, rfl, hrest⟩ := id h
    exact .opened h

end LedgerKeePass.Kpl
