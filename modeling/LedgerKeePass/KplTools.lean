import LedgerKeePass.PrintedText
import LedgerKeePass.PyClient

/-!
# The command line tools and the harness around them (`tools/*.cpp`, `libkpl.py`)

A tool opens the first device, makes one call and prints what it got. `LibKPL` starts a tool for
each call and reads what it printed, so that it is a client of the library with the interface of
`PyKPL`.
-/
namespace LedgerKeePass.Kpl
open Bytes Program App CStrings

/-- The exit status of a process and what it wrote to its standard output. -/
structure Ran where
  status : ℕ
  stdout : List UInt8
  deriving DecidableEq

inductive Tool
  | set
  | get
  | derive
  | getSlots
  | eraseAllSlots

section Tools
variable {σ : Type} (exchange : Exchange σ) (host : Host) (libc : Libc) (device : Option Result)

/-- What the tools have in common: they end where there is no device. -/
def onFirstDevice (k : KplM σ Ran) : KplM σ Ran := do
  if !(← getFirstDeviceKPL exchange host device) then return ⟨1, []⟩
  else k

/-- The key and a newline. -/
def printKey : Result × List UInt8 → Ran
  | (res, key) => if res ≠ .success then ⟨1, []⟩ else ⟨0, printHex upperDigit key ++ [10]⟩

/-- `main` of `set.cpp`, with what it prints. -/
def kplSetMain : List (List UInt8) → KplM σ Ran
  | program :: slotArg :: args => do
    let status ← kplSet exchange host libc device (program :: slotArg :: args)
    return ⟨status, if status ≠ 0 then []
      else ascii "Key set on slot " ++ printDec (UInt8.ofInt (atoi libc slotArg)).toNat ++ ascii ".\n"⟩
  | _ => return ⟨1, []⟩

def kplGet : List (List UInt8) → KplM σ Ran
  | _ :: slotArg :: _ => do
    let slot := UInt8.ofInt (atoi libc slotArg)
    onFirstDevice exchange host device do
      return printKey (← (KplCall.getKey slot (host.uninit kplKeySize)).run exchange host 0)
  | _ => return ⟨1, []⟩

def kplDerive : List (List UInt8) → KplM σ Ran
  | _ :: name :: _ =>
    onFirstDevice exchange host device do
      return printKey (← (KplCall.getKeyFromName name (host.uninit kplKeySize)).run exchange host 0)
  | _ => return ⟨1, []⟩

def printSlots : Result × List UInt8 → Ran
  | (res, slots) =>
    if res ≠ .success then ⟨1, []⟩
    else if slots.length = 0 then ⟨0, ascii "No valid slots!\n"⟩
    else ⟨0, slots.flatMap (fun s => printDec s.toNat ++ [32]) ++ [10]⟩

def kplGetSlots : KplM σ Ran :=
  onFirstDevice exchange host device do
    return printSlots (← (KplCall.getValidKeySlots []).run exchange host 0)

def kplEraseAllSlots : KplM σ Ran :=
  onFirstDevice exchange host device do
    let (res, _) ← KplCall.eraseAllSlots.run exchange host 0
    return if res ≠ .success then ⟨1, []⟩ else ⟨0, ascii "All slots have been erased!\n"⟩

def Tool.main (args : List (List UInt8)) : Tool → KplM σ Ran
  | .set => kplSetMain exchange host libc device args
  | .get => kplGet exchange host libc device args
  | .derive => kplDerive exchange host device args
  | .getSlots => kplGetSlots exchange host device
  | .eraseAllSlots => kplEraseAllSlots exchange host device

end Tools

/-- `CalledProcessError` and `ValueError` -/
inductive HarnessError
  | calledProcess
  | value
  deriving DecidableEq

abbrev HarnessM (σ : Type) := Prog HarnessError (Option σ)

/-- A call of `LibKPL` with the SDK and the host during it, the user's choice and what connecting
the first device gives. -/
structure HarnessCall where
  sdk : Sdk
  host : Host
  libc : Libc
  device : Option Result
  approve : Bool
  op : PyOp

namespace LibKPL

section
variable {σ : Type} (T : FaultFree σ) (c : HarnessCall)

/-- `run`: a process that fails, or is aborted, raises. -/
def run (tool : Tool) (args : List (List UInt8)) : HarnessM σ (List UInt8) := ExceptT.mk fun dev =>
  match exec (tool.main (T.exchange c.sdk c.approve) c.host c.libc c.device ([] :: args)) dev with
  | (.ok ⟨0, stdout⟩, dev) => (.ok stdout, dev)
  | (_, dev) => (.error .calledProcess, dev)

def readKey (key : List UInt8) : HarnessM σ PyValue := do
  return .bytes (← demand .value (fromHexText (strip (strip key))))

/-- `get_key_from_name`; a process argument cannot hold a NUL. -/
def getKeyFromName (name : List UInt8) : HarnessM σ PyValue := do
  if 0 ∈ name then throw .value
  else readKey (← run T c .derive [name])

def storeKeySlot (slot : UInt8) (key : List UInt8) : HarnessM σ PyValue := do
  let _ ← run T c .set [printDec slot.toNat, printHex lowerDigit key]
  return .none

def getKeySlot (slot : UInt8) : HarnessM σ PyValue := do
  readKey (← run T c .get [printDec slot.toNat])

def readSlots (slots : List UInt8) : HarnessM σ PyValue := do
  return .ints (← demand .value (((strip slots).splitOn 32).mapM fun v => intText (strip v)))

def getValidSlots : HarnessM σ PyValue := do
  readSlots (← run T c .getSlots [])

def eraseAllSlots : HarnessM σ PyValue := do
  let _ ← run T c .eraseAllSlots []
  return .none

end

end LibKPL

def HarnessCall.program {σ : Type} (T : FaultFree σ) (c : HarnessCall) : HarnessM σ PyValue :=
  match c.op with
  | .getKeyFromName name => LibKPL.getKeyFromName T c name
  | .storeKeySlot slot key => LibKPL.storeKeySlot T c slot key
  | .getKeySlot slot => LibKPL.getKeySlot T c slot
  | .getValidSlots => LibKPL.getValidSlots T c
  | .eraseAllSlots => LibKPL.eraseAllSlots T c

/-- The outcome as a value, the bytes of what was returned. -/
def HarnessCall.run {σ : Type} (T : FaultFree σ) (c : HarnessCall) :
    KplM σ (Except HarnessError (List UInt8)) := ExceptT.mk fun dev =>
  (.ok ((exec (c.program T) dev).1.map PyValue.content), (exec (c.program T) dev).2)

/-- A name that no process argument can hold. -/
def PyOp.hasNul : PyOp → Bool
  | .getKeyFromName name => decide (0 ∈ name)
  | _ => false

/-- An operation of the library where the tool got to it, and what the harness makes of its end. A
tool that lists no slots prints a sentence, of which the harness cannot read numbers. -/
def HarnessCall.apply (names : List UInt8 → Key) (c : HarnessCall) (m : SlotMap) :
    Except HarnessError (List UInt8) × SlotMap :=
  if c.op.hasNul then (.error .value, m)
  else if c.device ≠ some .success then (.error .calledProcess, m)
  else
    let ((res, out), m) := c.op.library.apply names c.approve m
    if res ≠ .success then (.error .calledProcess, m)
    else if c.op = .getValidSlots ∧ out = [] then (.error .value, m)
    else (.ok out, m)

section Tools
variable {σ : Type} {T : FaultFree σ} {sdk : Sdk} {host : Host} {approve : Bool} {libc : Libc}
  {device : Option Result} {seed : List UInt8}

theorem getFirstDeviceKPL_simulates :
    Simulates (T.Holds seed) (getFirstDeviceKPL (T.exchange sdk approve) host device)
      fun m => (decide (device = some .success), m) := by
  cases device with
  | none => exact Simulates.pure false
  | some connected =>
    have h := (@fromDevice_simulates _ T sdk host approve 0 seed connected).bind
      fun res => Simulates.pure (decide (res = .success))
    exact h.congr fun m => by simp

theorem onFirstDevice_simulates {k : KplM σ Ran} {f : SlotMap → Ran × SlotMap}
    (hk : Simulates (T.Holds seed) k f) :
    Simulates (T.Holds seed) (onFirstDevice (T.exchange sdk approve) host device k)
      fun m => if device = some .success then f m else (⟨1, []⟩, m) := by
  have h := @getFirstDeviceKPL_simulates _ T sdk host approve device seed
  intro s m hs
  obtain ⟨s₁, he, h₁⟩ := h s m hs
  rw [onFirstDevice, exec_bind_ok he]
  by_cases hd : device = some .success
  · simp only [hd, decide_true, Bool.not_true, Bool.false_eq_true, if_false, if_true]
    exact hk s₁ m h₁
  · simp only [hd, decide_false, Bool.not_false, if_true, if_false]
    exact ⟨s₁, rfl, h₁⟩

theorem hexBytes_printHex {digit : ℕ → UInt8} (hd : Prints digit) (s : List UInt8) :
    hexBytes (printHex digit s) = s := by
  induction s with
  | nil => rfl
  | cons v s ih =>
    have hp : printHex digit (v :: s) =
        digit (v.toNat / 16) :: digit (v.toNat % 16) :: printHex digit s := rfl
    rw [hp, hexBytes, ih, digits_value hd]

/-- The tool reads the arguments that the harness printed. -/
theorem atoi_printDec (slot : UInt8) : UInt8.ofInt (atoi libc (printDec slot.toNat)) = slot := by
  obtain ⟨hne, hd, hv⟩ := printDec_digits slot.toNat
  have hlt := slot.toNat_lt
  rw [atoi_digits hne hd (by omega), hv]
  apply UInt8.toNat_inj.mp
  rw [toNat_ofInt]
  omega

theorem setKeyArgs_printed (slot : UInt8) (key : List UInt8) :
    setKeyArgs libc (printDec slot.toNat) (printHex lowerDigit key) = (slot, key) := by
  rw [setKeyArgs, fromHex_digits (printHex_isXDigit prints_lower), hexBytes_printHex prints_lower,
    atoi_printDec]

theorem setKey_simulates (hnv : sdk.WritesNv) (slot : UInt8) (key : List UInt8) :
    Simulates (T.Holds seed) (setKey (T.exchange sdk approve) host slot key 0)
      fun m => (((SlotCall.setKey slot key).apply approve m).1.1,
        ((SlotCall.setKey slot key).apply approve m).2) := by
  rintro - - ⟨s, d, rfl, hs, hd, rfl, rfl⟩
  have hs' : (T.seeded d.seed).At s d := ⟨hs, hd.ready, rfl⟩
  obtain ⟨s₁, t, he, hs₁, ht, hm⟩ := @exec_setKey_slotMap _ (T.seeded d.seed) sdk host approve 0 _ _ hs' hd
    slot key fun _ _ => hnv
  exact ⟨some s₁, he, s₁, t, rfl, hs₁.1, ht, hs₁.2.2, hm⟩

/-- What a tool prints of a key does not depend on what its buffer held. -/
theorem printKey_getKey (m : SlotMap) (slot : UInt8) (out out' : Key) :
    printKey ((SlotCall.getKey slot out).apply approve m).1 =
        printKey ((SlotCall.getKey slot out').apply approve m).1 ∧
      ((SlotCall.getKey slot out).apply approve m).2 = ((SlotCall.getKey slot out').apply approve m).2 := by
  rw [SlotCall.apply, SlotCall.apply]
  split
  · split
    · exact ⟨rfl, rfl⟩
    · split <;> exact ⟨rfl, rfl⟩
  · exact ⟨rfl, rfl⟩

theorem printKey_name (name : List UInt8) (out out' key : Key) :
    printKey ((nameResult approve name out key).1, (nameResult approve name out key).2.toList) =
      printKey ((nameResult approve name out' key).1, (nameResult approve name out' key).2.toList) := by
  rw [nameResult, nameResult]
  split_ifs <;> rfl

end Tools

section Harness
variable {σ : Type} {T : FaultFree σ} {c : HarnessCall} {seed : List UInt8} {sha : List UInt8 → Buf 32}
  {derive : List UInt8 → List UInt32 → Buf 32 × Buf 32} {s : σ} {m : SlotMap}

/-- A tool ends as the operation does, and prints `pr` of its result. -/
def Tool.Prints (T : FaultFree σ) (seed : List UInt8) (names : List UInt8 → Key) (c : HarnessCall)
    (tool : Tool) (args : List (List UInt8)) (pr : Result × List UInt8 → Ran) : Prop :=
  Simulates (T.Holds seed) (tool.main (T.exchange c.sdk c.approve) c.host c.libc c.device ([] :: args))
    fun m => if c.device = some .success then
      (pr (c.op.library.apply names c.approve m).1, (c.op.library.apply names c.approve m).2)
    else (⟨1, []⟩, m)

theorem exec_run {tool : Tool} {args : List (List UInt8)} {dev dev' : Option σ} {ran : Ran}
    (h : exec (tool.main (T.exchange c.sdk c.approve) c.host c.libc c.device ([] :: args)) dev =
      (.ok ran, dev')) :
    exec (LibKPL.run T c tool args) dev =
      (if ran.status = 0 then .ok ran.stdout else .error .calledProcess, dev') := by
  have hx : exec (LibKPL.run T c tool args) dev =
      (match exec (tool.main (T.exchange c.sdk c.approve) c.host c.libc c.device ([] :: args)) dev with
        | (.ok ⟨0, stdout⟩, dev) => (.ok stdout, dev)
        | (_, dev) => (.error .calledProcess, dev)) := rfl
  rw [hx, h]
  obtain ⟨_ | status, stdout⟩ := ran <;> rfl

/-- The harness reads back what the tool printed. -/
theorem program_simulates {names : List UInt8 → Key} (tool : Tool) (args : List (List UInt8))
    (reader : List UInt8 → HarnessM σ PyValue) (pr : Result × List UInt8 → Ran)
    (hprog : c.program T = LibKPL.run T c tool args >>= reader)
    (hmain : tool.Prints T seed names c args pr) (hnul : c.op.hasNul = false)
    (hfail : ∀ res out, res ≠ .success → (pr (res, out)).status ≠ 0)
    (hread : ∀ m out m' dev, c.op.library.apply names c.approve m = ((.success, out), m') →
      (pr (.success, out)).status = 0 ∧ ∃ o, exec (reader (pr (.success, out)).stdout) dev = (o, dev) ∧
        o.map PyValue.content = if c.op = .getValidSlots ∧ out = [] then .error .value else .ok out) :
    Simulates (T.Holds seed) (c.run T) (c.apply names) := by
  intro dev m hs
  obtain ⟨dev', he, hs'⟩ := hmain dev m hs
  have hrun := exec_run he
  have hx : exec (c.run T) dev =
      (.ok ((exec (c.program T) dev).1.map PyValue.content), (exec (c.program T) dev).2) := rfl
  rw [hx, hprog, HarnessCall.apply, if_neg (by simp [hnul])]
  by_cases hd : c.device = some .success
  · rw [if_neg (not_not.mpr hd)]
    simp only [if_pos hd] at hrun hs'
    rcases hlib : c.op.library.apply names c.approve m with ⟨⟨res, out⟩, m'⟩
    rw [hlib] at hrun hs'
    dsimp only at hrun hs' ⊢
    by_cases hres : res = .success
    · subst hres
      obtain ⟨hstatus, o, ho, hc⟩ := hread m out m' dev' hlib
      rw [if_pos hstatus] at hrun
      rw [exec_bind_ok hrun, ho, if_neg (not_not.mpr rfl)]
      dsimp only
      rw [hc]
      split
      · exact ⟨dev', rfl, hs'⟩
      · exact ⟨dev', rfl, hs'⟩
    · rw [if_neg (hfail res out hres)] at hrun
      rw [exec_bind_error hrun, if_pos hres]
      exact ⟨dev', rfl, hs'⟩
  · rw [if_pos hd]
    simp only [if_neg hd] at hrun hs'
    rw [if_neg (by simp)] at hrun
    rw [exec_bind_error hrun]
    exact ⟨dev', rfl, hs'⟩

end Harness

section Tools
variable {σ : Type} {T : FaultFree σ} {c : HarnessCall} {seed : List UInt8} {sha : List UInt8 → Buf 32}
  {derive : List UInt8 → List UInt32 → Buf 32 × Buf 32} {names : List UInt8 → Key} {m m' : SlotMap}
  {dev : Option σ} {out : List UInt8}

/-- What a tool prints is a function of the result of its call. -/
theorem printed_simulates {p : KplM σ (Result × List UInt8)}
    {f : SlotMap → (Result × List UInt8) × SlotMap} (pr : Result × List UInt8 → Ran)
    (hp : Simulates (T.Holds seed) p f) :
    Simulates (T.Holds seed) (do return pr (← p)) fun m => (pr (f m).1, (f m).2) :=
  hp.bind fun r => Simulates.pure (pr r)

/-- A call of the library made by a tool, on its own buffer. -/
theorem toolCall_simulates (hc : ∀ op, LibraryCall.Sound sha derive ⟨c.sdk, c.host, c.approve, 0, op⟩)
    (op : LibraryOp) (pr : Result × List UInt8 → Ran) :
    Simulates (T.Holds seed)
      (onFirstDevice (T.exchange c.sdk c.approve) c.host c.device do
        return pr (← LibraryCall.over T ⟨c.sdk, c.host, c.approve, 0, op⟩))
      fun m => if c.device = some .success then
        (pr (op.apply (nameKey sha derive seed) c.approve m).1,
          (op.apply (nameKey sha derive seed) c.approve m).2)
      else (⟨1, []⟩, m) :=
  onFirstDevice_simulates (printed_simulates pr (libraryCall_simulates (hc op)))

/-- A key that was printed is read. -/
theorem exec_readKey (key : List UInt8) :
    exec (LibKPL.readKey (printHex upperDigit key ++ [10])) dev = (.ok (.bytes key), dev) := by
  have hsolid : ∀ c ∈ printHex upperDigit key, isSpace c = false :=
    fun c h => isSpace_of_isXDigit (printHex_isXDigit prints_upper c h)
  have hone : strip (printHex upperDigit key ++ [10]) = printHex upperDigit key :=
    strip_solid hsolid (by simp [isSpace])
  have htwo : strip (printHex upperDigit key) = printHex upperDigit key := by
    have h := strip_solid (t := []) hsolid (by simp)
    rwa [List.append_nil] at h
  rw [LibKPL.readKey, hone, htwo, fromHexText_printHex prints_upper]
  rfl

theorem getKeySlot_harness {slot : UInt8} (ho : c.op = .getKeySlot slot)
    (hc : ∀ op, LibraryCall.Sound sha derive ⟨c.sdk, c.host, c.approve, 0, op⟩) :
    Simulates (T.Holds seed) (c.run T) (c.apply (nameKey sha derive seed)) := by
  refine program_simulates .get [printDec slot.toNat] LibKPL.readKey printKey ?_ ?_ ?_ ?_ ?_
  · rw [HarnessCall.program, ho]
    rfl
  · have hcall := @toolCall_simulates _ T c seed _ _ hc (.slots (.getKey slot (c.host.uninit kplKeySize)))
      printKey
    rw [Tool.Prints, ho, Tool.main, kplGet, atoi_printDec]
    refine hcall.congr fun m => ?_
    obtain ⟨hout, hm⟩ := @printKey_getKey c.approve m slot (c.host.uninit kplKeySize) (Buf.zeros _)
    simp only [LibraryOp.apply, PyOp.library, hout, hm]
  · rw [ho]
    rfl
  · intro res out h
    simp [printKey, h]
  · intro m out m' dev hm
    exact ⟨by simp [printKey], .ok (.bytes out), exec_readKey out, by simp [ho, PyValue.content, Except.map]⟩

theorem getKeyFromName_harness {name : List UInt8} (ho : c.op = .getKeyFromName name)
    (hc : ∀ op, LibraryCall.Sound sha derive ⟨c.sdk, c.host, c.approve, 0, op⟩) :
    Simulates (T.Holds seed) (c.run T) (c.apply (nameKey sha derive seed)) := by
  by_cases hnul : 0 ∈ name
  · intro dev m hs
    have hp : c.program T = throw .value := by
      rw [HarnessCall.program, ho]
      exact if_pos hnul
    have hx : exec (c.run T) dev =
        (.ok ((exec (c.program T) dev).1.map PyValue.content), (exec (c.program T) dev).2) := rfl
    rw [hx, hp, HarnessCall.apply, if_pos (by simp [ho, PyOp.hasNul, hnul])]
    exact ⟨dev, rfl, hs⟩
  refine program_simulates .derive [name] LibKPL.readKey printKey ?_ ?_ ?_ ?_ ?_
  · rw [HarnessCall.program, ho]
    exact if_neg hnul
  · have hcall := @toolCall_simulates _ T c seed _ _ hc (.getKeyFromName name (c.host.uninit kplKeySize))
      printKey
    rw [Tool.Prints, ho, Tool.main, kplDerive]
    refine hcall.congr fun m => ?_
    have hout := @printKey_name c.approve name (c.host.uninit kplKeySize) (Buf.zeros _)
      (nameKey sha derive seed name)
    simp only [LibraryOp.apply, PyOp.library, hout]
  · simp [ho, PyOp.hasNul, hnul]
  · intro res out h
    simp [printKey, h]
  · intro m out m' dev hm
    exact ⟨by simp [printKey], .ok (.bytes out), exec_readKey out, by simp [ho, PyValue.content, Except.map]⟩

theorem eraseAllSlots_harness (ho : c.op = .eraseAllSlots)
    (hc : ∀ op, LibraryCall.Sound sha derive ⟨c.sdk, c.host, c.approve, 0, op⟩) :
    Simulates (T.Holds seed) (c.run T) (c.apply (nameKey sha derive seed)) := by
  refine program_simulates .eraseAllSlots [] (fun _ => pure PyValue.none)
    (fun r => if r.1 ≠ .success then ⟨1, []⟩ else ⟨0, ascii "All slots have been erased!\n"⟩) ?_ ?_ ?_ ?_ ?_
  · rw [HarnessCall.program, ho]
    rfl
  · rw [Tool.Prints, ho]
    exact toolCall_simulates hc (.slots .eraseAllSlots) _
  · rw [ho]
    rfl
  · intro res out h
    simp [h]
  · intro m out m' dev hm
    refine ⟨by simp, .ok .none, rfl, ?_⟩
    have hout : out = [] := by
      rw [ho] at hm
      simp only [PyOp.library, LibraryOp.apply, SlotCall.apply] at hm
      split at hm <;> simp_all
    simp [ho, hout, PyValue.content, Except.map]

/-- The slots that were printed are read, and the sentence for none is not. -/
theorem exec_readSlots (out : List UInt8) :
    ∃ o, exec (LibKPL.readSlots (printSlots (.success, out)).stdout) dev = (o, dev) ∧
      o.map PyValue.content = if out = [] then .error .value else .ok out := by
  by_cases h : out = []
  · subst h
    have hread : ((strip (ascii "No valid slots!\n")).splitOn 32).mapM (fun v => intText (strip v)) =
        none := by
      decide +kernel
    have hp : (printSlots (.success, [])).stdout = ascii "No valid slots!\n" := rfl
    rw [hp, LibKPL.readSlots, hread]
    exact ⟨.error .value, rfl, rfl⟩
  · have hp : (printSlots (.success, out)).stdout =
        (out.map UInt8.toNat).flatMap (fun n => printDec n ++ [32]) ++ [10] := by
      rw [printSlots, if_neg (by simp), if_neg (by simpa using h), List.flatMap_map]
    rw [hp, LibKPL.readSlots, mapM_intText_printed (by simpa using h)]
    refine ⟨.ok (.ints (out.map UInt8.toNat)), rfl, ?_⟩
    have hof : UInt8.ofNat ∘ UInt8.toNat = id := funext fun _ => UInt8.ofNat_toNat
    rw [if_neg h]
    simp [Except.map, PyValue.content, hof]

theorem getValidSlots_harness (ho : c.op = .getValidSlots)
    (hc : ∀ op, LibraryCall.Sound sha derive ⟨c.sdk, c.host, c.approve, 0, op⟩) :
    Simulates (T.Holds seed) (c.run T) (c.apply (nameKey sha derive seed)) := by
  refine program_simulates .getSlots [] LibKPL.readSlots printSlots ?_ ?_ ?_ ?_ ?_
  · rw [HarnessCall.program, ho]
    rfl
  · rw [Tool.Prints, ho]
    exact toolCall_simulates hc (.slots (.getValidKeySlots [])) printSlots
  · rw [ho]
    rfl
  · intro res out h
    simp [printSlots, h]
  · intro m out m' dev hm
    obtain ⟨o, ho', hcontent⟩ := @exec_readSlots σ dev out
    refine ⟨?_, o, ho', ?_⟩
    · rw [printSlots, if_neg (by simp)]
      split <;> rfl
    · simpa [ho] using hcontent

theorem kplSet_simulates (hnv : c.sdk.WritesNv) (slot : UInt8) (key : List UInt8) :
    Simulates (T.Holds seed)
      (kplSet (T.exchange c.sdk c.approve) c.host c.libc c.device
        [[], printDec slot.toNat, printHex lowerDigit key])
      fun m => if c.device = some .success then
        (if ((SlotCall.setKey slot key).apply c.approve m).1.1 ≠ .success then 1 else 0,
          ((SlotCall.setKey slot key).apply c.approve m).2)
      else (1, m) := by
  rw [kplSet, setKeyArgs_printed]
  intro dev m hs
  obtain ⟨dev₁, he, h₁⟩ := @getFirstDeviceKPL_simulates _ T c.sdk c.host c.approve c.device seed dev m hs
  rw [exec_bind_ok he]
  by_cases hd : c.device = some .success
  · obtain ⟨dev₂, he₂, h₂⟩ := @setKey_simulates _ T c.sdk c.host c.approve seed hnv slot key dev₁ m h₁
    simp only [hd, decide_true, Bool.not_true, Bool.false_eq_true, if_false, if_true]
    rw [exec_bind_ok he₂]
    exact ⟨dev₂, rfl, h₂⟩
  · simp only [hd, decide_false, Bool.not_false, if_true, if_false]
    exact ⟨dev₁, rfl, h₁⟩

/-- What `set.cpp` prints. -/
def printSet (slot : UInt8) (r : Result × List UInt8) : Ran :=
  if r.1 ≠ .success then ⟨1, []⟩ else ⟨0, ascii "Key set on slot " ++ printDec slot.toNat ++ ascii ".\n"⟩

theorem storeKeySlot_harness {slot : UInt8} {key : List UInt8} (ho : c.op = .storeKeySlot slot key)
    (hnv : c.sdk.WritesNv) :
    Simulates (T.Holds seed) (c.run T) (c.apply (nameKey sha derive seed)) := by
  refine program_simulates .set [printDec slot.toNat, printHex lowerDigit key] (fun _ => pure PyValue.none)
    (printSet slot) ?_ ?_ ?_ ?_ ?_
  · rw [HarnessCall.program, ho]
    rfl
  · have hset := @kplSet_simulates _ T c seed hnv slot key
    rw [Tool.Prints, ho, Tool.main, kplSetMain, atoi_printDec]
    have hbind := hset.bind fun status => Simulates.pure (R := T.Holds seed) (ε := Fault)
      (⟨status, if status ≠ 0 then []
        else ascii "Key set on slot " ++ printDec slot.toNat ++ ascii ".\n"⟩ : Ran)
    refine hbind.congr fun m => ?_
    by_cases hd : c.device = some .success
    · simp only [if_pos hd, PyOp.library, LibraryOp.apply, printSet]
      by_cases hr : ((SlotCall.setKey slot key).apply c.approve m).1.1 = .success
      · simp [hr]
      · simp [hr]
    · simp only [if_neg hd]
      rfl
  · rw [ho]
    rfl
  · intro res out h
    simp [printSet, h]
  · intro m out m' dev hm
    refine ⟨by simp [printSet], .ok .none, rfl, ?_⟩
    have hout : out = [] := by
      rw [ho] at hm
      simp only [PyOp.library, LibraryOp.apply, SlotCall.apply] at hm
      split_ifs at hm <;> simp_all
    simp [ho, hout, PyValue.content, Except.map]

theorem harnessCall_simulates (hc : ∀ op, LibraryCall.Sound sha derive ⟨c.sdk, c.host, c.approve, 0, op⟩) :
    Simulates (T.Holds seed) (c.run T) (c.apply (nameKey sha derive seed)) := by
  cases ho : c.op with
  | getKeyFromName name => exact getKeyFromName_harness ho hc
  | storeKeySlot slot key =>
    exact storeKeySlot_harness ho ((hc (.slots .eraseAllSlots)).exchange .eraseAllSlots).writesNv
  | getKeySlot slot => exact getKeySlot_harness ho hc
  | getValidSlots => exact getValidSlots_harness ho hc
  | eraseAllSlots => exact eraseAllSlots_harness ho hc

end Tools

/-- Through the processes of the tools, with every argument printed and every output read back, the
calls of `LibKPL` give the results of the library on one map of slots and one table of name keys.
What is lost is the reason of a failure, and that a device has no slots. -/
theorem harness_slotMap {σ : Type} (T : FaultFree σ) {s : σ} {d : Device} (hd : Started d) (hs : T.At s d)
    {sha : List UInt8 → Buf 32} {derive : List UInt8 → List UInt32 → Buf 32 × Buf 32}
    (calls : List HarnessCall)
    (hc : ∀ c ∈ calls, ∀ op, LibraryCall.Sound sha derive ⟨c.sdk, c.host, c.approve, 0, op⟩) :
    let session := runAll (HarnessCall.apply (nameKey sha derive d.seed)) calls d.nStorage.slotMap
    ∃ s' t, exec (calls.mapM (HarnessCall.run T)) (some s) = (.ok session.1, some s') ∧
      T.At s' t ∧ t.Resting ∧ t.seed = d.seed ∧ t.nStorage.slotMap = session.2 := by
  have hsim := Simulates.mapM fun c h => @harnessCall_simulates _ T c d.seed _ _ (hc c h)
  obtain ⟨-, he, s', t, rfl, hs', ht, hseed, hm⟩ := hsim (some s) d.nStorage.slotMap
    ⟨s, d, rfl, hs, started_resting hd, rfl, rfl⟩
  exact ⟨s', t, he, hs', ht, hseed, hm⟩

/-- Slots are listed before and after a key is stored, a key is read back, and one process finds no
device. -/
def toolCalls : List HarnessCall :=
  let call (device : Option Result) (op : PyOp) : HarnessCall :=
    ⟨nameSdk, exchangeHost, ⟨id, id, fun _ => 0⟩, device, true, op⟩
  [call (some .success) .getValidSlots, call (some .success) (.storeKeySlot 3 (List.replicate 32 165)),
    call (some .success) .getValidSlots, call (some .success) (.getKeySlot 3),
    call none (.getKeySlot 3), call (some .success) (.getKeyFromName [97])]

theorem harness_slotMap_tools :
    ∃ s' t, exec (toolCalls.mapM (HarnessCall.run tcpFaultFree)) (some ⟨seededDevice, [], [], 0⟩) =
        (.ok [.error .value, .ok [], .ok [3], .ok (List.replicate 32 165), .error .calledProcess,
          .ok keyA.toList], some s') ∧ tcpFaultFree.At s' t := by
  have hstart : Started seededDevice := ⟨plainSdk, .cleared, _, fun _ => rfl, exec_mainBody rfl⟩
  have hc : ∀ c ∈ toolCalls, ∀ op, LibraryCall.Sound shaA deriveA ⟨c.sdk, c.host, c.approve, 0, op⟩ := by
    simp [toolCalls, nameSdk_sound]
  have hs : tcpFaultFree.At ⟨seededDevice, [], [], 0⟩ seededDevice := ⟨⟨rfl, rfl⟩, rfl⟩
  obtain ⟨s', t, he, hs', -⟩ := harness_slotMap tcpFaultFree hstart hs toolCalls hc
  refine ⟨s', t, he.trans ?_, hs'⟩
  have ho : (runAll (HarnessCall.apply (nameKey shaA deriveA seededDevice.seed)) toolCalls
      seededDevice.nStorage.slotMap).1 = [.error .value, .ok [], .ok [3], .ok (List.replicate 32 165),
        .error .calledProcess, .ok keyA.toList] := by
    decide +kernel
  exact congrArg (fun l => (Except.ok l, some s')) ho

end LedgerKeePass.Kpl
