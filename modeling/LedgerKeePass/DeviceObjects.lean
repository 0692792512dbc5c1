import LedgerKeePass.DeviceName
import LedgerKeePass.ProgramRun
import LedgerKeePass.Resources

/-!
# Devices and their connections (`ledger_device.cpp` and the files of its classes and C API)

`World` is the heap of a client of the library: the device objects by their address, with
the connection that each holds, the `KPL` objects with the device they work on, and the
arrays of the C API. Objects, sockets, HID handles and lists of the system are resources of
one account.
-/
namespace LedgerKeePass.Kpl
open Program Lifetimes CStrings

/-- An address of `getaddrinfo`: whether it gets a socket, and whether that connects. -/
structure AddrInfo where
  socket : Bool
  connect : Bool
  deriving DecidableEq

structure HidDeviceInfo where
  path : List UInt8
  manufacturer : List UInt8
  product : List UInt8
  serial : List UInt8
  interfaceNumber : Int32
  usagePage : UInt16
  deriving DecidableEq

/-- The system during one call. `getaddrinfo` is none where it fails, `hidEnumerate` is empty
where it gives a null pointer. -/
structure System where
  ledgerProxyAddress : Option (List UInt8)
  ledgerProxyPort : Option (List UInt8)
  getaddrinfo : List UInt8 → UInt16 → Option (List AddrInfo)
  hidInit : Int32
  hidEnumerate : List HidDeviceInfo
  hidOpenPath : List UInt8 → Bool

structure LedgerDeviceTCP where
  fd : ℤ
  host : List UInt8
  port : UInt16
  deriving DecidableEq

structure LedgerDeviceUSB where
  path : List UInt8
  manufacturer : List UInt8
  product : List UInt8
  serial : List UInt8
  hidDev : Option ℕ
  deriving DecidableEq

namespace LedgerDeviceTCP

def close (d : LedgerDeviceTCP) (r : Resources) : LedgerDeviceTCP × Resources :=
  if d.fd ≥ 0 then ({ d with fd := -1 }, r.release d.fd.toNat) else (d, r)

/-- The loop over the addresses, `res` being what it returns where none is left. -/
def connectLoop (d : LedgerDeviceTCP) :
    Result → List AddrInfo → Resources → Result × LedgerDeviceTCP × Resources
  | res, [], r => (res, d, r)
  | _, addr :: addrs, r =>
    if !addr.socket then connectLoop d .transportTcpSocketCreateFail addrs r
    else
      let sock := r.next
      let r := r.acquire
      if !addr.connect then connectLoop d .transportConnectionFailed addrs (r.release sock)
      else (.success, { d with fd := sock }, r)

def connect (system : System) (d : LedgerDeviceTCP) (r : Resources) :
    Result × LedgerDeviceTCP × Resources :=
  let (d, r) := if d.fd ≥ 0 then d.close r else (d, r)
  match system.getaddrinfo d.host d.port with
  | none => (.transportTcpUnkHost, d, r)
  | some addrs =>
    let list := r.next
    let (res, d, r) := connectLoop d .transportConnectionFailed addrs r.acquire
    (res, d, r.release list)

end LedgerDeviceTCP

namespace LedgerDeviceUSB

def close (d : LedgerDeviceUSB) (r : Resources) : LedgerDeviceUSB × Resources :=
  match d.hidDev with
  | some h => ({ d with hidDev := none }, r.release h)
  | none => (d, r)

def connect (system : System) (d : LedgerDeviceUSB) (r : Resources) :
    Result × LedgerDeviceUSB × Resources :=
  let (d, r) := if d.hidDev.isSome then d.close r else (d, r)
  if system.hidOpenPath d.path then (.success, { d with hidDev := some r.next }, r.acquire)
  else (.transportConnectionFailed, { d with hidDev := none }, r)

end LedgerDeviceUSB

/-- An object of either class behind a `LedgerDevice*`. -/
inductive DeviceObject
  | tcp (d : LedgerDeviceTCP)
  | usb (d : LedgerDeviceUSB)
  deriving DecidableEq

namespace DeviceObject

def connect (system : System) (r : Resources) : DeviceObject → Result × DeviceObject × Resources
  | .tcp d => let (res, d, r) := d.connect system r; (res, .tcp d, r)
  | .usb d => let (res, d, r) := d.connect system r; (res, .usb d, r)

/-- The destructor, which closes. -/
def destruct (r : Resources) : DeviceObject → Resources
  | .tcp d => (d.close r).2
  | .usb d => (d.close r).2

def named : DeviceObject → NamedDevice
  | .tcp d => .tcp d.host d.port
  | .usb d => .usb d.manufacturer d.product d.serial

/-- The connection that a device holds. -/
def handle : DeviceObject → Option ℕ
  | .tcp d => if d.fd ≥ 0 then some d.fd.toNat else none
  | .usb d => d.hidDev

end DeviceObject

structure World where
  resources : Resources
  devices : AList fun _ : ℕ => DeviceObject
  /-- The `KPL` objects, with the pointer to their device. -/
  kpls : AList fun _ : ℕ => ℕ
  /-- The arrays of `KPLLedgerDeviceListGet`. -/
  arrays : AList fun _ : ℕ => List ℕ
  /-- The lists of `hid_enumerate`, to which no pointer is kept. -/
  enumerations : List ℕ

def World.start : World := ⟨.start, ∅, ∅, ∅, []⟩

abbrev WorldM := Prog Fault World

/-- `new` of a device object. -/
def newDevice (o : DeviceObject) : WorldM ℕ := do
  let p ← read fun w => w.resources.next
  update fun w => { w with resources := w.resources.acquire, devices := w.devices.insert p o }
  return p

def tcpListDevices (libc : Libc) (system : System) : WorldM (List ℕ) := do
  match system.ledgerProxyAddress, system.ledgerProxyPort with
  | some address, some portStr =>
    let port := atoi libc portStr
    if port < 0 ∨ port > 0xFFFF then return []
    else return [← newDevice (.tcp ⟨-1, address, UInt16.ofInt port⟩)]
  | _, _ => return []

/-- The loop over what `hid_enumerate` found. -/
def usbNewDevices : List HidDeviceInfo → WorldM (List ℕ)
  | [] => return []
  | dev :: devs => do
    if dev.interfaceNumber = 0 ∨ dev.usagePage = 0xFFA0 then
      let p ← newDevice (.usb ⟨dev.path, dev.manufacturer, dev.product, dev.serial, none⟩)
      return p :: (← usbNewDevices devs)
    else usbNewDevices devs

def usbListDevices (system : System) : WorldM (List ℕ) := do
  if system.hidInit < 0 then return []
  else if system.hidEnumerate = [] then return []
  else
    update fun w =>
      { w with resources := w.resources.acquire, enumerations := w.resources.next :: w.enumerations }
    usbNewDevices system.hidEnumerate

def listDevices (libc : Libc) (system : System) : WorldM (List ℕ) := do
  let tcp ← tcpListDevices libc system
  let usb ← usbListDevices system
  return tcp ++ usb

/-- `delete` of a device. -/
def deleteDevice (p : ℕ) : WorldM Unit := do
  let o ← demand .outOfBounds (← read fun w => w.devices.lookup p)
  update fun w =>
    { w with resources := (o.destruct w.resources).release p, devices := w.devices.erase p }

/-- The end of a vector of owned devices. -/
def deleteDevices : List ℕ → WorldM Unit
  | [] => pure ()
  | p :: ps => do
    deleteDevice p
    deleteDevices ps

def getFirstDevice (libc : Libc) (system : System) : WorldM (Option ℕ) := do
  match ← tcpListDevices libc system with
  | p :: ps =>
    deleteDevices ps
    return some p
  | [] =>
    match ← usbListDevices system with
    | p :: ps =>
      deleteDevices ps
      return some p
    | [] => return none

def connect (system : System) (p : ℕ) : WorldM Result := do
  let o ← demand .outOfBounds (← read fun w => w.devices.lookup p)
  let (res, o, r) ← read fun w => o.connect system w.resources
  update fun w => { w with resources := r, devices := w.devices.insert p o }
  return res

/-- `KPL::fromDevice` and `new` of what it returns; `answer` is how the version check ends. -/
def newKpl (system : System) (answer : Result) (p : ℕ) : WorldM (Except Result ℕ) := do
  let res ← connect system p
  if res ≠ .success then return .error res
  else if answer ≠ .success then return .error answer
  else
    let k ← read fun w => w.resources.next
    update fun w => { w with resources := w.resources.acquire, kpls := w.kpls.insert k p }
    return .ok k

/-- `delete` of a `KPL` object, which leaves its device alone. -/
def deleteKpl (k : ℕ) : WorldM Unit := do
  let _ ← demand .outOfBounds (← read fun w => w.kpls.lookup k)
  update fun w => { w with resources := w.resources.release k, kpls := w.kpls.erase k }

/-- The memory that an operation on a `KPL` object goes through, down to the handle: the
device, whose socket `send` asserts to be open. -/
def useKpl (k : ℕ) : WorldM (Option ℕ) := do
  let p ← demand .outOfBounds (← read fun w => w.kpls.lookup k)
  let o ← demand .outOfBounds (← read fun w => w.devices.lookup p)
  match o with
  | .tcp d => if d.fd ≥ 0 then return some d.fd.toNat else throw .assertion
  | .usb d => return d.hidDev

structure KPLLedgerDeviceList where
  devs : Option ℕ
  count : ℕ
  deriving DecidableEq

/-- `KPLLedgerDeviceListGet`; `malloc` is whether there is memory for the array. -/
def kplLedgerDeviceListGet (libc : Libc) (system : System) (malloc : Bool) :
    WorldM (KPLResult × KPLLedgerDeviceList) := do
  let devs ← listDevices libc system
  let size := devs.length
  if size = 0 then return (kplSuccess, ⟨none, size⟩)
  else if !malloc then
    deleteDevices devs
    return (.result .libOutOfMemory, ⟨none, 0⟩)
  else
    let array ← read fun w => w.resources.next
    update fun w => { w with resources := w.resources.acquire, arrays := w.arrays.insert array devs }
    return (kplSuccess, ⟨some array, size⟩)

def kplLedgerDeviceListFree (list : KPLLedgerDeviceList) (freeDevices : Bool) :
    WorldM KPLLedgerDeviceList := do
  match list.devs with
  | none => return list
  | some array =>
    let devs ← demand .outOfBounds (← read fun w => w.arrays.lookup array)
    if freeDevices then
      if list.count ≤ devs.length then deleteDevices (devs.take list.count) else throw .outOfBounds
    update fun w => { w with resources := w.resources.release array, arrays := w.arrays.erase array }
    return { list with devs := none }

def kplLedgerDeviceFree : Option ℕ → WorldM Unit
  | some dev => deleteDevice dev
  | none => pure ()

/-- `KPLFromDevice` and what it stores at `Ret`, which is false where it is null. -/
def kplFromDevice (system : System) (answer : Result) (ret : Bool) (dev : Option ℕ) :
    WorldM (KPLResult × Option ℕ) := do
  match ret, dev with
  | true, some p =>
    match ← newKpl system answer p with
    | .error res => return (.result res, none)
    | .ok k => return (kplSuccess, some k)
  | _, _ => return (.cBadParams, none)

def kplFree : Option ℕ → WorldM Unit
  | some obj => deleteKpl obj
  | none => pure ()

end LedgerKeePass.Kpl
