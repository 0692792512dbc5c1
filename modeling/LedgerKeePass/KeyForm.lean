import LedgerKeePass.CApi
import LedgerKeePass.LibSession
import LedgerKeePass.PrintedText

/-!
# The form of the KeePass plugin (`KeyForm` of `plugin.cs`, `KPL` of `ckpl.cs`)

The form reacts to the user, to the ticks of its timers, to the steps of the task that a click
starts on another thread and to the end of that task. These come in any order. A call of the
library happens between the steps of its task.
-/
namespace LedgerKeePass.Kpl
open Bytes Program App CStrings

structure KPLException where
  res : ℤ
  message : List UInt8
  deriving DecidableEq

/-- `KPLException.process` -/
def process {α : Type} (res : KPLResult) (a : α) : Except KPLException α :=
  if res.code ≠ 0 then .error ⟨res.code, kplErrorStr res⟩ else .ok a

namespace KPL

section
variable {σ : Type} (exchange : Exchange σ) (host : Host)

def getKey (slot : ℕ) (timeoutMS : UInt32) : KplM σ (Except KPLException (List UInt8)) := do
  let (res, key) ← kplGetKey exchange host true (UInt8.ofNat slot) (some (Buf.zeros kplKeySize)) timeoutMS
  return process res ((key.map List.Vector.toList).getD [])

/-- `getKeyFromName`, on the C string that the name is passed as. -/
def getKeyFromName (name : List UInt8) (timeoutMS : UInt32) :
    KplM σ (Except KPLException (List UInt8)) := do
  let (res, key) ← kplGetKeyFromName exchange host true (some name) (some (Buf.zeros kplKeySize)) timeoutMS
  return process res ((key.map List.Vector.toList).getD [])

def getValidSlots (timeoutMS : UInt32) : KplM σ (Except KPLException (List ℕ)) := do
  let (res, slots, count) ← kplGetValidKeySlots exchange host true (some (Buf.zeros kplSlotCount)) (some 0)
    timeoutMS
  return process res ((((slots.map List.Vector.toList).getD []).take (count.getD 0)).map UInt8.toNat)

/-- The constructor, `connected` being the result of `connect`. -/
def new (connected : Result) (timeoutMS : UInt32) : KplM σ (Except KPLException Unit) := do
  return process (.result (← fromDevice exchange host connected timeoutMS)) ()

end

end KPL

/-- What a task asks for. -/
inductive FormRequest
  | name (dbName : String)
  | slot (slot : ℕ)
  deriving DecidableEq

/-- `KPLException`, and the exception of a slot that is no item of the list. -/
inductive TaskError
  | kpl (e : KPLException)
  | nullReference
  deriving DecidableEq

/-- How far a task is. It reads the type of the key, then the field for it, then it is in the
library. -/
inductive TaskState
  | queued
  | keyType (index : ℕ)
  | calling (req : FormRequest)
  | ended (result : Except TaskError (List UInt8))
  deriving DecidableEq

/-- What a click of Open started: a timer with its `TimeSpent`, and a task. -/
structure Opening where
  timeSpent : UInt32
  task : TaskState
  deriving DecidableEq

/-- A call of the library for a task, with the user's choice on the device. -/
structure FormCall where
  request : FormRequest
  approve : Bool
  result : Except KPLException (List UInt8)
  deriving DecidableEq

inductive DialogResult
  | none
  | ok
  | cancel
  deriving DecidableEq

/-- A form, `slots` being the items of `comboSlot`. `returned` is what `GetKey` returned when the
form closed; `calls` records the calls of the library. -/
structure KeyForm where
  slots : List ℕ
  typeIndex : ℕ
  slotItem : Option ℕ
  dbName : String
  slotVisible : Bool
  nameVisible : Bool
  btnOpen : Bool
  btnCancel : Bool
  labelStatus : List UInt8
  key : Option (List UInt8)
  dialogResult : DialogResult
  openings : List Opening
  returned : Option (Option (List UInt8))
  calls : List FormCall
  deriving DecidableEq

def timeoutKeyMS : UInt32 := 60000

def pleaseAccept : List UInt8 := ascii "Please accept accessing this key on your Ledger device!"

/-- The events of a form, but for what the library does. -/
inductive FormEvent
  | typeName (text : String)
  | selectType (index : ℕ)
  | selectSlot (item : Option ℕ)
  | clickOpen
  | clickCancel
  | close
  | tick (n : ℕ)
  | worker (n : ℕ)
  | continuation (n : ℕ)
  deriving DecidableEq

namespace KeyForm

def typeChanged (f : KeyForm) : KeyForm :=
  if f.typeIndex = 0 then
    { f with
      slotVisible := false, nameVisible := true
      labelStatus := ascii "Please enter the database name." }
  else
    { f with
      slotVisible := true, nameVisible := false
      labelStatus := ascii "Please choose the database slot." }

/-- The items of `comboType`. -/
def typeCount (f : KeyForm) : ℕ := if f.slots = [] then 1 else 2

def new (slots : List ℕ) : KeyForm :=
  typeChanged
    { slots, typeIndex := 0, slotItem := slots.head?, dbName := "", slotVisible := true, nameVisible := true,
      btnOpen := true, btnCancel := true, labelStatus := [], key := none, dialogResult := .none,
      openings := [], returned := none, calls := [] }

def openKey (f : KeyForm) : KeyForm :=
  { f with
    btnOpen := false, btnCancel := false, labelStatus := pleaseAccept
    openings := f.openings ++ [⟨0, .queued⟩] }

/-- The form closes where it is open, and `GetKey` returns. -/
def leave (f : KeyForm) : KeyForm :=
  if f.returned = none then { f with returned := some (if f.dialogResult ≠ .ok then none else f.key) } else f

def tick (f : KeyForm) (n : ℕ) : KeyForm :=
  match f.openings[n]? with
  | some o =>
    let timeSpent := o.timeSpent + 1
    let rem := timeoutKeyMS / 1000 - timeSpent
    { f with
      openings := f.openings.set n { o with timeSpent }
      labelStatus := pleaseAccept ++ ascii "\r\n(" ++ printDec rem.toNat ++ ascii "s remaining)" }
  | none => f

/-- A step of a task outside the library. -/
def worker (f : KeyForm) (n : ℕ) : KeyForm :=
  match f.openings[n]? with
  | some ⟨t, .queued⟩ => { f with openings := f.openings.set n ⟨t, .keyType f.typeIndex⟩ }
  | some ⟨t, .keyType 0⟩ => { f with openings := f.openings.set n ⟨t, .calling (.name f.dbName)⟩ }
  | some ⟨t, .keyType (_ + 1)⟩ =>
    let task := match f.slotItem with
      | some slot => TaskState.calling (.slot slot)
      | none => .ended (.error .nullReference)
    { f with openings := f.openings.set n ⟨t, task⟩ }
  | _ => f

/-- The lambda of `ContinueWith`, on the thread of the form. -/
def continueWith (f : KeyForm) (n : ℕ) : KeyForm :=
  match f.openings[n]? with
  | some ⟨_, .ended (.error e)⟩ =>
    { f with
      openings := f.openings.eraseIdx n, btnOpen := true, btnCancel := true
      labelStatus := match e with
        | .kpl e => ascii "Error: " ++ e.message
        | .nullReference => f.labelStatus }
  | some ⟨_, .ended (.ok key)⟩ =>
    leave
      { f with openings := f.openings.eraseIdx n, labelStatus := [], key := some key, dialogResult := .ok }
  | _ => f

/-- What the form makes of an event. A control that is disabled or hidden does nothing, and neither
does a form that is closed. -/
def react (f : KeyForm) : FormEvent → KeyForm
  | .typeName text => if f.returned = none ∧ f.nameVisible then { f with dbName := text } else f
  | .selectType index =>
    if f.returned = none ∧ index < f.typeCount then typeChanged { f with typeIndex := index } else f
  | .selectSlot item =>
    if f.returned = none ∧ f.slotVisible ∧ ∀ slot ∈ item, slot ∈ f.slots then { f with slotItem := item }
    else f
  | .clickOpen => if f.returned = none ∧ f.btnOpen then f.openKey else f
  | .clickCancel =>
    if f.returned = none ∧ f.btnCancel then { f with dialogResult := .cancel }.leave else f
  | .close => if f.returned = none then { f with dialogResult := .cancel }.leave else f
  | .tick n => f.tick n
  | .worker n => f.worker n
  | .continuation n => f.continueWith n

/-- The library has returned to a task. -/
def callEnds (f : KeyForm) (n : ℕ) (c : FormCall) : KeyForm :=
  match f.openings[n]? with
  | some ⟨t, .calling _⟩ =>
    { f with
      openings := f.openings.set n ⟨t, .ended (c.result.mapError .kpl)⟩
      calls := f.calls ++ [c] }
  | _ => f

/-- The request of a task that is in the library. -/
def request (f : KeyForm) (n : ℕ) : Option FormRequest :=
  match f.openings[n]? with
  | some ⟨_, .calling req⟩ => some req
  | _ => none

end KeyForm

/-- An event, or what the library does for a task, with the SDK and the host during the call and
the user's choice. -/
inductive FormInput
  | event (e : FormEvent)
  | call (n : ℕ) (sdk : Sdk) (host : Host) (approve : Bool)

section Runs
variable {σ : Type} (exchange : Sdk → Bool → Exchange σ) (ansi : String → List UInt8)

/-- The call of a task; `ansi` gives the C string that a `string` is passed as. -/
def FormRequest.call (sdk : Sdk) (host : Host) (approve : Bool) :
    FormRequest → KplM σ (Except KPLException (List UInt8))
  | .name dbName => KPL.getKeyFromName (exchange sdk approve) host (ansi dbName) timeoutKeyMS
  | .slot n => KPL.getKey (exchange sdk approve) host n timeoutKeyMS

def FormInput.run (f : KeyForm) : FormInput → KplM σ KeyForm
  | .event e => return f.react e
  | .call n sdk host approve =>
    match f.request n with
    | some req => do
      return f.callEnds n ⟨req, approve, ← req.call exchange ansi sdk host approve⟩
    | none => return f

end Runs

/-- No call gave a key. -/
def Failed (calls : List FormCall) : Prop := ∀ c ∈ calls, ∃ e, c.result = .error e

/-- The last call, and no other, gave this key. -/
def LastGave (calls : List FormCall) (key : List UInt8) : Prop :=
  ∃ earlier req approve, calls = earlier ++ [⟨req, approve, .ok key⟩] ∧ Failed earlier

namespace KeyForm

/-- Where a form is between a click of Open and the key. -/
inductive Phase (f : KeyForm) : Prop
  | idle (openings : f.openings = []) (enabled : f.btnOpen = true) (calls : Failed f.calls)
      (key : f.key = none) (returned : f.returned.join = none)
  | working (o : Opening) (openings : f.openings = [o]) (disabled : f.btnOpen = false)
      (calls : Failed f.calls) (task : ∀ key, o.task ≠ .ended (.ok key)) (key : f.key = none)
      (returned : f.returned.join = none)
  | served (o : Opening) (k : List UInt8) (openings : f.openings = [o]) (disabled : f.btnOpen = false)
      (calls : LastGave f.calls k) (task : o.task = .ended (.ok k)) (key : f.key = none)
      (returned : f.returned.join = none)
  | opened (k : List UInt8) (openings : f.openings = []) (disabled : f.btnOpen = false)
      (calls : LastGave f.calls k) (key : f.key = some k)
      (returned : f.returned = some (some k) ∨ f.returned = some none)

section
variable {f g : KeyForm} {n : ℕ} {o : Opening} {k : List UInt8}

theorem Phase.congr (h : f.Phase) (ho : g.openings = f.openings) (hb : g.btnOpen = f.btnOpen)
    (hc : g.calls = f.calls) (hk : g.key = f.key) (hr : g.returned = f.returned) : g.Phase := by
  cases h with
  | idle openings enabled calls key returned =>
    exact .idle (ho.trans openings) (hb.trans enabled) (hc ▸ calls) (hk.trans key) (hr ▸ returned)
  | working o openings disabled calls task key returned =>
    exact .working o (ho.trans openings) (hb.trans disabled) (hc ▸ calls) task (hk.trans key) (hr ▸ returned)
  | served o k openings disabled calls task key returned =>
    exact .served o k (ho.trans openings) (hb.trans disabled) (hc ▸ calls) task (hk.trans key) (hr ▸ returned)
  | opened k openings disabled calls key returned =>
    exact .opened k (ho.trans openings) (hb.trans disabled) (hc ▸ calls) (hk.trans key) (hr ▸ returned)

theorem typeChanged_eq (f : KeyForm) :
    f.typeChanged.openings = f.openings ∧ f.typeChanged.btnOpen = f.btnOpen ∧
      f.typeChanged.calls = f.calls ∧ f.typeChanged.key = f.key ∧ f.typeChanged.returned = f.returned := by
  rw [typeChanged]
  split <;> exact ⟨rfl, rfl, rfl, rfl, rfl⟩

theorem phase_new (slots : List ℕ) : (new slots).Phase := by
  obtain ⟨ho, hb, hc, hk, hr⟩ := typeChanged_eq
    { slots, typeIndex := 0, slotItem := slots.head?, dbName := "", slotVisible := true, nameVisible := true,
      btnOpen := true, btnCancel := true, labelStatus := [], key := none, dialogResult := .none,
      openings := [], returned := none, calls := [] }
  exact .idle ho hb (by rw [new, hc]; simp [Failed]) hk (congrArg Option.join hr)

/-- A form that leaves with no key returns none. -/
theorem Phase.leave (h : f.Phase) (hd : f.dialogResult ≠ .ok) : f.leave.Phase := by
  rw [KeyForm.leave]
  split
  · cases h with
    | idle openings enabled calls key returned => exact .idle openings enabled calls key rfl
    | working o openings disabled calls task key returned =>
      exact .working o openings disabled calls task key rfl
    | served o k openings disabled calls task key returned =>
      exact .served o k openings disabled calls task key rfl
    | opened k openings disabled calls key returned => exact .opened k openings disabled calls key (.inr rfl)
  · exact h

theorem Phase.openKey (h : f.Phase) (hb : f.btnOpen = true) : f.openKey.Phase := by
  cases h with
  | idle openings enabled calls key returned =>
    exact .working ⟨0, .queued⟩ (by rw [KeyForm.openKey, openings]; rfl) rfl calls (by simp) key returned
  | working o openings disabled => simp [disabled] at hb
  | served o k openings disabled => simp [disabled] at hb
  | opened k openings disabled => simp [disabled] at hb

theorem getElem?_single {o o' : Opening} {l : List Opening} (hl : l = [o]) (h : l[n]? = some o') :
    n = 0 ∧ o' = o := by
  subst hl
  cases n with
  | zero => exact ⟨rfl, (Option.some.inj h).symm⟩
  | succ n => simp at h

/-- One of its tasks has gone on, without a key. -/
theorem Phase.set (h : f.Phase) {o' : Opening} (hn : f.openings[n]? = some o)
    (ho : ∀ k, o.task ≠ .ended (.ok k)) (ho' : ∀ k, o'.task ≠ .ended (.ok k)) {label : List UInt8} :
    { f with openings := f.openings.set n o', labelStatus := label }.Phase := by
  cases h with
  | idle openings => simp [openings] at hn
  | working p openings disabled calls task key returned =>
    obtain ⟨rfl, rfl⟩ := getElem?_single openings hn
    exact .working o' (by rw [openings]; rfl) disabled calls ho' key returned
  | served p k openings disabled calls task key returned =>
    obtain ⟨rfl, rfl⟩ := getElem?_single openings hn
    exact absurd task (ho k)
  | opened k openings => simp [openings] at hn

theorem Phase.tick (h : f.Phase) (n : ℕ) : (f.tick n).Phase := by
  rw [KeyForm.tick]
  split
  · next o hn =>
    cases h with
    | idle openings => simp [openings] at hn
    | working p openings disabled calls task key returned =>
      obtain ⟨rfl, rfl⟩ := getElem?_single openings hn
      exact .working { o with timeSpent := o.timeSpent + 1 } (by rw [openings]; rfl) disabled calls task key
        returned
    | served p k openings disabled calls task key returned =>
      obtain ⟨rfl, rfl⟩ := getElem?_single openings hn
      exact .served { o with timeSpent := o.timeSpent + 1 } k (by rw [openings]; rfl) disabled calls task key
        returned
    | opened k openings => simp [openings] at hn
  · exact h

theorem Phase.worker (h : f.Phase) (n : ℕ) : (f.worker n).Phase := by
  rw [KeyForm.worker]
  split
  · next hn => exact h.set hn (by simp) (by simp)
  · next hn => exact h.set hn (by simp) (by simp)
  · next hn =>
    refine h.set hn (by simp) ?_
    cases f.slotItem <;> simp
  · exact h

/-- The end of a task: without a key the buttons are enabled again, with one the form closes. -/
theorem Phase.continueWith (h : f.Phase) (n : ℕ) : (f.continueWith n).Phase := by
  rw [KeyForm.continueWith]
  split
  · next hn =>
    cases h with
    | idle openings => simp [openings] at hn
    | working p openings disabled calls task key returned =>
      obtain ⟨rfl, rfl⟩ := getElem?_single openings hn
      exact .idle (by rw [openings]; rfl) rfl calls key returned
    | served p k openings disabled calls task key returned =>
      obtain ⟨rfl, rfl⟩ := getElem?_single openings hn
      simp at task
    | opened k openings => simp [openings] at hn
  · next hn =>
    cases h with
    | idle openings => simp [openings] at hn
    | working p openings disabled calls task key returned =>
      obtain ⟨rfl, rfl⟩ := getElem?_single openings hn
      exact absurd rfl (task _)
    | served p k openings disabled calls task key returned =>
      obtain ⟨rfl, rfl⟩ := getElem?_single openings hn
      obtain rfl : _ = k := by simpa using task
      rw [KeyForm.leave]
      split
      · exact .opened _ (by simp [openings]) disabled calls rfl (.inl rfl)
      · next hr =>
        refine .opened _ (by simp [openings]) disabled calls rfl (.inr ?_)
        cases hf : f.returned with
        | none => exact absurd hf hr
        | some r => simpa [hf] using returned
    | opened k openings => simp [openings] at hn
  · exact h

theorem Phase.react (h : f.Phase) (e : FormEvent) : (f.react e).Phase := by
  cases e with
  | typeName text =>
    rw [KeyForm.react]
    split
    · exact h.congr rfl rfl rfl rfl rfl
    · exact h
  | selectType index =>
    rw [KeyForm.react]
    split
    · obtain ⟨ho, hb, hc, hk, hr⟩ := typeChanged_eq { f with typeIndex := index }
      exact h.congr ho hb hc hk hr
    · exact h
  | selectSlot item =>
    rw [KeyForm.react]
    split
    · exact h.congr rfl rfl rfl rfl rfl
    · exact h
  | clickOpen =>
    rw [KeyForm.react]
    split
    · next hc => exact h.openKey hc.2
    · exact h
  | clickCancel =>
    rw [KeyForm.react]
    split
    · exact Phase.leave (h.congr rfl rfl rfl rfl rfl) (by simp)
    · exact h
  | close =>
    rw [KeyForm.react]
    split
    · exact Phase.leave (h.congr rfl rfl rfl rfl rfl) (by simp)
    · exact h
  | tick n => exact h.tick n
  | worker n => exact h.worker n
  | continuation n => exact h.continueWith n

theorem Phase.callEnds (h : f.Phase) (n : ℕ) (c : FormCall) : (f.callEnds n c).Phase := by
  obtain ⟨req, approve, result⟩ := c
  rw [KeyForm.callEnds]
  split
  · next t _ hn =>
    cases h with
    | idle openings => simp [openings] at hn
    | working p openings disabled calls task key returned =>
      obtain ⟨rfl, rfl⟩ := getElem?_single openings hn
      cases result with
      | error e =>
        refine .working ⟨t, .ended (.error (.kpl e))⟩ (by rw [openings]; rfl) disabled ?_ (by simp) key
          returned
        intro c hc
        rcases List.mem_append.mp hc with hc | hc
        · exact calls c hc
        · rw [List.mem_singleton.mp hc]
          exact ⟨e, rfl⟩
      | ok k =>
        exact .served ⟨t, .ended (.ok k)⟩ k (by rw [openings]; rfl) disabled
          ⟨_, req, approve, rfl, calls⟩ rfl key returned
    | served p k openings disabled calls task key returned =>
      obtain ⟨rfl, rfl⟩ := getElem?_single openings hn
      simp at task
    | opened k openings => simp [openings] at hn
  · exact h

/-- The buttons go together, whatever is asked for meets `ok`, and the calls for it meet `P`. -/
structure Chosen (ok : FormRequest → Prop) (P : FormCall → Prop) (f : KeyForm) : Prop where
  buttons : f.btnCancel = f.btnOpen
  slots : ∀ n ∈ f.slots, ok (.slot n)
  slotItem : ∀ n ∈ f.slotItem, ok (.slot n)
  dbName : ok (.name f.dbName)
  tasks : ∀ o ∈ f.openings, ∀ req, o.task = .calling req → ok req
  calls : ∀ c ∈ f.calls, ok c.request ∧ P c

variable {ok : FormRequest → Prop} {P : FormCall → Prop}

theorem Chosen.openings (h : Chosen ok P f) {l : List Opening} {label : List UInt8}
    (hl : ∀ o ∈ l, ∀ req, o.task = .calling req → ok req) :
    Chosen ok P { f with openings := l, labelStatus := label } :=
  ⟨h.buttons, h.slots, h.slotItem, h.dbName, hl, h.calls⟩

theorem Chosen.set (h : Chosen ok P f) {n : ℕ} (label : List UInt8) (o' : Opening)
    (ho : ∀ req, o'.task = .calling req → ok req) :
    Chosen ok P { f with openings := f.openings.set n o', labelStatus := label } := by
  refine h.openings fun p hp => ?_
  rcases List.mem_or_eq_of_mem_set hp with hp | rfl
  · exact h.tasks p hp
  · exact ho

theorem Chosen.typeChanged (h : Chosen ok P f) : Chosen ok P f.typeChanged := by
  rw [KeyForm.typeChanged]
  split <;> exact ⟨h.buttons, h.slots, h.slotItem, h.dbName, h.tasks, h.calls⟩

theorem chosen_new {slots : List ℕ} (hs : ∀ n ∈ slots, ok (.slot n)) (hn : ok (.name "")) :
    Chosen ok P (new slots) := by
  refine Chosen.typeChanged ⟨rfl, hs, fun n h => hs n (List.mem_of_mem_head? h), hn, ?_, ?_⟩
  · exact fun o ho => absurd ho List.not_mem_nil
  · exact fun c hc => absurd hc List.not_mem_nil

theorem Chosen.leave (h : Chosen ok P f) : Chosen ok P f.leave := by
  rw [KeyForm.leave]
  split
  · exact ⟨h.buttons, h.slots, h.slotItem, h.dbName, h.tasks, h.calls⟩
  · exact h

theorem Chosen.tick (h : Chosen ok P f) (n : ℕ) : Chosen ok P (f.tick n) := by
  rw [KeyForm.tick]
  split
  · next o hn =>
    exact h.set _ { o with timeSpent := o.timeSpent + 1 } fun req hreq =>
      h.tasks o (List.mem_of_getElem? hn) req hreq
  · exact h

theorem Chosen.worker (h : Chosen ok P f) (n : ℕ) : Chosen ok P (f.worker n) := by
  rw [KeyForm.worker]
  split
  · exact h.set _ _ fun req hreq => by cases hreq
  · refine h.set _ _ fun req hreq => ?_
    cases hreq
    exact h.dbName
  · refine h.set _ _ fun req hreq => ?_
    cases hi : f.slotItem with
    | none => simp [hi] at hreq
    | some slot =>
      obtain rfl : FormRequest.slot slot = req := by simpa [hi] using hreq
      exact h.slotItem slot hi
  · exact h

theorem Chosen.continueWith (h : Chosen ok P f) (n : ℕ) : Chosen ok P (f.continueWith n) := by
  have herase : ∀ o ∈ f.openings.eraseIdx n, ∀ req, o.task = .calling req → ok req :=
    fun o ho => h.tasks o (List.mem_of_mem_eraseIdx ho)
  rw [KeyForm.continueWith]
  split
  · exact ⟨rfl, h.slots, h.slotItem, h.dbName, herase, h.calls⟩
  · exact Chosen.leave ⟨h.buttons, h.slots, h.slotItem, h.dbName, herase, h.calls⟩
  · exact h

theorem Chosen.react (h : Chosen ok P f) {e : FormEvent} (he : ∀ text, e = .typeName text → ok (.name text)) :
    Chosen ok P (f.react e) := by
  cases e with
  | typeName text =>
    rw [KeyForm.react]
    split
    · exact ⟨h.buttons, h.slots, h.slotItem, he text rfl, h.tasks, h.calls⟩
    · exact h
  | selectType index =>
    rw [KeyForm.react]
    split
    · exact Chosen.typeChanged ⟨h.buttons, h.slots, h.slotItem, h.dbName, h.tasks, h.calls⟩
    · exact h
  | selectSlot item =>
    rw [KeyForm.react]
    split
    · next hc => exact ⟨h.buttons, h.slots, fun n hn => h.slots n (hc.2.2 n hn), h.dbName, h.tasks, h.calls⟩
    · exact h
  | clickOpen =>
    rw [KeyForm.react]
    split
    · refine ⟨rfl, h.slots, h.slotItem, h.dbName, fun o ho => ?_, h.calls⟩
      rcases List.mem_append.mp ho with ho | ho
      · exact h.tasks o ho
      · rw [List.mem_singleton.mp ho]
        exact fun req hreq => by cases hreq
    · exact h
  | clickCancel =>
    rw [KeyForm.react]
    split
    · exact Chosen.leave ⟨h.buttons, h.slots, h.slotItem, h.dbName, h.tasks, h.calls⟩
    · exact h
  | close =>
    rw [KeyForm.react]
    split
    · exact Chosen.leave ⟨h.buttons, h.slots, h.slotItem, h.dbName, h.tasks, h.calls⟩
    · exact h
  | tick n => exact h.tick n
  | worker n => exact h.worker n
  | continuation n => exact h.continueWith n

theorem Chosen.request (h : Chosen ok P f) {req : FormRequest} (hr : f.request n = some req) : ok req := by
  rw [KeyForm.request] at hr
  split at hr
  · next hn =>
    cases hr
    exact h.tasks _ (List.mem_of_getElem? hn) _ rfl
  · cases hr

theorem Chosen.callEnds (h : Chosen ok P f) {c : FormCall} (hr : ok c.request) (hp : P c) :
    Chosen ok P (f.callEnds n c) := by
  rw [KeyForm.callEnds]
  split
  · next t _ _ =>
    have hs := @Chosen.set f ok P h n f.labelStatus ⟨t, .ended (c.result.mapError .kpl)⟩ fun req hreq => by
      cases hreq
    refine ⟨h.buttons, h.slots, h.slotItem, h.dbName, hs.tasks, fun c' hc => ?_⟩
    rcases List.mem_append.mp hc with hc | hc
    · exact h.calls c' hc
    · rw [List.mem_singleton.mp hc]
      exact ⟨hr, hp⟩
  · exact h

/-- What `GetKey` returned stays. -/
theorem react_returned (h : f.returned ≠ none) (e : FormEvent) : (f.react e).returned = f.returned := by
  cases e with
  | typeName text => simp [KeyForm.react, h]
  | selectType index => simp [KeyForm.react, h]
  | selectSlot item => simp [KeyForm.react, h]
  | clickOpen => simp [KeyForm.react, h]
  | clickCancel => simp [KeyForm.react, h]
  | close => simp [KeyForm.react, h]
  | tick n =>
    rw [KeyForm.react, KeyForm.tick]
    split <;> rfl
  | worker n =>
    rw [KeyForm.react, KeyForm.worker]
    split <;> rfl
  | continuation n =>
    rw [KeyForm.react, KeyForm.continueWith]
    split
    · rfl
    · rw [KeyForm.leave, if_neg h]
    · rfl

theorem callEnds_returned (f : KeyForm) (n : ℕ) (c : FormCall) : (f.callEnds n c).returned = f.returned := by
  rw [KeyForm.callEnds]
  split <;> rfl

/-- `GetKey` has not returned in front of its task. -/
def Alone (f : KeyForm) : Prop := f.returned ≠ none → f.openings = []

/-- One task is all that a form has. -/
theorem Phase.single (h : f.Phase) (hn : f.openings[n]? = some o) : f.openings = [o] ∧ n = 0 := by
  cases h with
  | idle openings => simp [openings] at hn
  | working p openings =>
    obtain ⟨rfl, rfl⟩ := getElem?_single openings hn
    exact ⟨openings, rfl⟩
  | served p k openings =>
    obtain ⟨rfl, rfl⟩ := getElem?_single openings hn
    exact ⟨openings, rfl⟩
  | opened k openings => simp [openings] at hn

/-- The buttons work where there is no task. -/
theorem Phase.enabled (h : f.Phase) (hb : f.btnOpen = true) : f.openings = [] := by
  cases h with
  | idle openings => exact openings
  | working o openings disabled => simp [disabled] at hb
  | served o k openings disabled => simp [disabled] at hb
  | opened k openings disabled => simp [disabled] at hb

theorem react_closed (hr : f.returned ≠ none) (ho : f.openings = []) (e : FormEvent) :
    (f.react e).openings = [] := by
  cases e with
  | typeName text => simp [KeyForm.react, hr, ho]
  | selectType index => simp [KeyForm.react, hr, ho]
  | selectSlot item => simp [KeyForm.react, hr, ho]
  | clickOpen => simp [KeyForm.react, hr, ho]
  | clickCancel => simp [KeyForm.react, hr, ho]
  | close => simp [KeyForm.react, hr, ho]
  | tick n => simp [KeyForm.react, KeyForm.tick, ho]
  | worker n => simp [KeyForm.react, KeyForm.worker, ho]
  | continuation n => simp [KeyForm.react, KeyForm.continueWith, ho]

theorem Alone.continueWith (h : f.Alone) (hp : f.Phase) (n : ℕ) : (f.continueWith n).Alone := by
  rw [KeyForm.continueWith]
  split
  · next hn =>
    obtain ⟨ho, rfl⟩ := hp.single hn
    intro _
    simp [ho]
  · next hn =>
    obtain ⟨ho, rfl⟩ := hp.single hn
    intro _
    rw [KeyForm.leave]
    split <;> simp [ho]
  · exact h

theorem Alone.react (h : f.Alone) (hp : f.Phase) (hb : f.btnCancel = f.btnOpen) {e : FormEvent}
    (he : e ≠ .close) : (f.react e).Alone := by
  by_cases hr : f.returned = none
  · cases e with
    | selectType index =>
      obtain ⟨-, -, -, -, hret⟩ := typeChanged_eq { f with typeIndex := index }
      intro hne
      rw [KeyForm.react] at hne
      split at hne
      · exact absurd (hret.trans hr) hne
      · exact absurd hr hne
    | clickCancel =>
      intro hne
      rw [KeyForm.react] at hne ⊢
      split
      · next hc =>
        rw [KeyForm.leave, if_pos hr]
        exact hp.enabled (hb ▸ hc.2)
      · next hc =>
        rw [if_neg hc] at hne
        exact absurd hr hne
    | close => exact absurd rfl he
    | continuation n => exact h.continueWith hp n
    | typeName text =>
      intro hne
      rw [KeyForm.react] at hne
      split at hne <;> exact absurd hr hne
    | selectSlot item =>
      intro hne
      rw [KeyForm.react] at hne
      split at hne <;> exact absurd hr hne
    | clickOpen =>
      intro hne
      rw [KeyForm.react] at hne
      split at hne <;> exact absurd hr hne
    | tick n =>
      intro hne
      rw [KeyForm.react, KeyForm.tick] at hne
      split at hne <;> exact absurd hr hne
    | worker n =>
      intro hne
      rw [KeyForm.react, KeyForm.worker] at hne
      split at hne <;> exact absurd hr hne
  · exact fun _ => react_closed hr (h hr) e

theorem Alone.callEnds (h : f.Alone) (n : ℕ) (c : FormCall) : (f.callEnds n c).Alone := by
  intro hne
  rw [callEnds_returned] at hne
  have ho := h hne
  simp [KeyForm.callEnds, ho]

end

end KeyForm

namespace KeyForm

/-- What a form makes of an input, where the calls of the library meet `P`. -/
inductive Reacts (P : FormCall → Prop) (f : KeyForm) : FormInput → KeyForm → Prop
  | event (e : FormEvent) : Reacts P f (.event e) (f.react e)
  | idle (n : ℕ) (sdk : Sdk) (host : Host) (approve : Bool) : Reacts P f (.call n sdk host approve) f
  | call (n : ℕ) (sdk : Sdk) (host : Host) (approve : Bool) {req : FormRequest}
      {result : Except KPLException (List UInt8)} (request : f.request n = some req)
      (meets : P ⟨req, approve, result⟩) :
      Reacts P f (.call n sdk host approve) (f.callEnds n ⟨req, approve, result⟩)

section
variable {f g h : KeyForm} {i : FormInput} {ok : FormRequest → Prop} {P : FormCall → Prop}

/-- A form at work, `g` being the form at some time before; `boxed` allows that it was closed by its
box. -/
structure Working (ok : FormRequest → Prop) (P : FormCall → Prop) (boxed : Prop) (g f : KeyForm) : Prop where
  phase : f.Phase
  chosen : Chosen ok P f
  returned : g.returned ≠ none → f.returned = g.returned
  alone : ¬ boxed → f.Alone

theorem Reacts.working {boxed : Prop} (hr : Reacts P f i g) (hf : Working ok P boxed h f)
    (hi : ∀ text, i = .event (.typeName text) → ok (.name text)) (hclose : i = .event .close → boxed) :
    Working ok P boxed h g := by
  cases hr with
  | event e =>
    refine ⟨hf.phase.react e, hf.chosen.react fun text he => hi text (he ▸ rfl), fun hne => ?_, fun hb => ?_⟩
    · have hret := hf.returned hne
      exact (react_returned (hret ▸ hne) e).trans hret
    · exact (hf.alone hb).react hf.phase hf.chosen.buttons fun he => hb (hclose (he ▸ rfl))
  | idle n sdk host approve => exact hf
  | call n sdk host approve request meets =>
    refine ⟨hf.phase.callEnds _ _, hf.chosen.callEnds (hf.chosen.request request) meets, fun hne => ?_,
      fun hb => ?_⟩
    · exact (callEnds_returned f _ _).trans (hf.returned hne)
    · exact (hf.alone hb).callEnds _ _

/-- A new form at work. -/
theorem working_new {slots : List ℕ} {boxed : Prop} (hs : ∀ n ∈ slots, ok (.slot n)) (hn : ok (.name "")) :
    Working ok P boxed (new slots) (new slots) := by
  refine ⟨phase_new slots, chosen_new hs hn, fun _ => rfl, fun _ hne => ?_⟩
  obtain ⟨-, -, -, -, hret⟩ := typeChanged_eq _
  exact absurd hret hne

/-- What `GetKey` returns is what its last call got. -/
theorem Phase.lastGave (hp : f.Phase) {k : List UInt8} (hk : f.returned = some (some k)) :
    LastGave f.calls k := by
  cases hp with
  | idle openings enabled calls key returned => simp [hk] at returned
  | working o openings disabled calls task key returned => simp [hk] at returned
  | served o k' openings disabled calls task key returned => simp [hk] at returned
  | opened k' openings disabled calls key returned =>
    obtain rfl : k = k' := by simpa [hk] using returned
    exact calls

end

end KeyForm

section Requests
variable {σ : Type} {exchange : Sdk → Bool → Exchange σ} {ansi : String → List UInt8}

def FormRequest.kpl (ansi : String → List UInt8) : FormRequest → KplCall
  | .name dbName => .getKeyFromName (ansi dbName) (Buf.zeros kplKeySize)
  | .slot n => .getKey (UInt8.ofNat n) (Buf.zeros kplKeySize)

/-- What a task gets of a result and the bytes of its array. -/
def gave : Result × List UInt8 → Except KPLException (List UInt8)
  | (res, key) => process (.result res) key

theorem call_eq (sdk : Sdk) (host : Host) (approve : Bool) (req : FormRequest) :
    req.call exchange ansi sdk host approve =
      (do return gave (← (req.kpl ansi).run (exchange sdk approve) host timeoutKeyMS)) := by
  cases req <;>
    simp only [FormRequest.call, KPL.getKey, KPL.getKeyFromName, kplGetKey, kplGetKeyFromName,
      FormRequest.kpl, KplCall.run, bind_assoc, pure_bind, Option.map_some, Option.getD_some, gave]

/-- A request that a form can make: a slot of its list, or a text that was in its field. -/
def Offered (slots : List ℕ) (inputs : List FormInput) : FormRequest → Prop
  | .name dbName => dbName = "" ∨ .event (.typeName dbName) ∈ inputs
  | .slot n => n ∈ slots

/-- Over any device, an input leaves the form that it makes. -/
theorem exec_formInput (dev : LedgerDevice σ) (ansi : String → List UInt8) (f : KeyForm) (i : FormInput)
    (s : σ) :
    ∃ f' s', exec (i.run (fun _ _ => dev.exchange) ansi f) (some s) = (.ok f', some s') ∧
      KeyForm.Reacts (fun _ => True) f i f' := by
  cases i with
  | event e => exact ⟨f.react e, s, rfl, .event e⟩
  | call n sdk host approve =>
    rw [FormInput.run]
    cases hr : f.request n with
    | none => exact ⟨f, s, rfl, .idle n sdk host approve⟩
    | some req =>
      obtain ⟨⟨res, out⟩, s', he⟩ := call_settled (exchange_confined dev) (req.kpl ansi) host timeoutKeyMS s
      refine ⟨f.callEnds n ⟨req, approve, gave (res, out)⟩, s', ?_, .call n sdk host approve hr trivial⟩
      dsimp only
      rw [call_eq, bind_assoc, exec_bind_ok (he host.uninit)]
      rfl

theorem run_working (dev : LedgerDevice σ) (ansi : String → List UInt8) (ok : FormRequest → Prop)
    (boxed : Prop) {inputs : List FormInput} {f g : KeyForm}
    (hok : ∀ text, .event (.typeName text) ∈ inputs → ok (.name text))
    (hclose : .event .close ∈ inputs → boxed) (hf : KeyForm.Working ok (fun _ => True) boxed g f) (s : σ) :
    ∃ f' s', exec (inputs.foldlM (FormInput.run (fun _ _ => dev.exchange) ansi) f) (some s) =
        (.ok f', some s') ∧ KeyForm.Working ok (fun _ => True) boxed g f' := by
  have hstep : ∀ i ∈ inputs, ∀ f handle,
      (∃ s, handle = some s) ∧ KeyForm.Working ok (fun _ => True) boxed g f →
      ∃ f' handle', exec (i.run (fun _ _ => dev.exchange) ansi f) handle = (.ok f', handle') ∧
        (∃ s, handle' = some s) ∧ KeyForm.Working ok (fun _ => True) boxed g f' := by
    rintro i hi f - ⟨⟨s, rfl⟩, hf⟩
    obtain ⟨f', s', he, hr⟩ := exec_formInput dev ansi f i s
    exact ⟨f', some s', he, ⟨s', rfl⟩,
      hr.working hf (fun text ht => hok text (ht ▸ hi)) fun hc => hclose (hc ▸ hi)⟩
  obtain ⟨f', -, he, ⟨s', rfl⟩, h⟩ := exec_foldlM hstep ⟨⟨s, rfl⟩, hf⟩
  exact ⟨f', s', he, h⟩

end Requests

/-- A form over any device, whose events, tasks and calls come in any order. It has one task at
most, and its buttons work exactly while it has none. A key that `GetKey` returns is that of the
last call, and all calls before it failed; nothing is asked for that was not offered. `GetKey` leaves
no task behind unless the form is closed by its box, and what it returned stays. -/
theorem keyForm_run {σ : Type} (dev : LedgerDevice σ) (ansi : String → List UInt8) (slots : List ℕ)
    (inputs : List FormInput) (s : σ) :
    let run (f : KeyForm) (inputs : List FormInput) : KplM σ KeyForm :=
      inputs.foldlM (FormInput.run (fun _ _ => dev.exchange) ansi) f
    ∃ f s', exec (run (KeyForm.new slots) inputs) (some s) = (.ok f, some s') ∧
      f.openings.length ≤ 1 ∧
      (f.returned = none → (f.btnOpen = true ↔ f.openings = []) ∧ f.btnCancel = f.btnOpen) ∧
      (∀ key, f.returned = some (some key) → LastGave f.calls key) ∧
      (∀ c ∈ f.calls, Offered slots inputs c.request) ∧
      (.event .close ∉ inputs → f.returned ≠ none → f.openings = []) ∧
      ∀ more, f.returned ≠ none → ∃ f' s'', exec (run f more) (some s') = (.ok f', some s'') ∧
        f'.returned = f.returned := by
  intro run
  obtain ⟨f, s', he, hw⟩ := run_working dev ansi (Offered slots inputs) (.event .close ∈ inputs)
    (fun text ht => .inr ht) id (KeyForm.working_new (fun n hn => hn) (.inl rfl)) s
  refine ⟨f, s', he, ?_, fun hr => ⟨?_, hw.chosen.buttons⟩, fun key => hw.phase.lastGave,
    fun c hc => (hw.chosen.calls c hc).1, hw.alone, fun more hr => ?_⟩
  · cases hw.phase with
    | idle openings => simp [openings]
    | working o openings => simp [openings]
    | served o k openings => simp [openings]
    | opened k openings => simp [openings]
  · cases hw.phase with
    | idle openings enabled => simp [openings, enabled]
    | working o openings disabled => simp [openings, disabled]
    | served o k openings disabled => simp [openings, disabled]
    | opened k openings disabled calls key returned => simp [hr] at returned
  · obtain ⟨f', s'', he', hw'⟩ := run_working dev ansi (fun _ => True) True (g := f)
      (fun _ _ => trivial) (fun _ => trivial)
      ⟨hw.phase, ⟨hw.chosen.buttons, fun _ _ => trivial, fun _ _ => trivial, trivial, fun _ _ _ _ => trivial,
        fun _ _ => ⟨trivial, trivial⟩⟩, fun _ => rfl, fun h => absurd trivial h⟩ s'
    exact ⟨f', s'', he', hw'.returned hr⟩

end LedgerKeePass.Kpl
