import LedgerKeePass.EventRun
import LedgerKeePass.LibAnswer
import LedgerKeePass.Lifetimes

/-!
# Results that own a value (`errors.h`)

`ErrorOr` is a union of a payload and an error with a flag that says which. The payloads are
objects of a type that is known by its move constructor only; each has an identity, and a
log keeps when it is constructed and destroyed. A program of the model is one operation on
objects that are called by their addresses.
-/
namespace LedgerKeePass.Kpl
open Program Lifetimes

/-- The union `U`. -/
inductive Data (α : Type)
  | uninit
  | value (p : ℕ) (v : α)
  | error (res : Result)

/-- `Error_`, which has no value while it was not written. -/
def Data.errorValue {α : Type} : Data α → Option Result
  | .error res => some res
  | _ => none

def Data.ofError {α : Type} : Option Result → Data α
  | some res => .error res
  | none => .uninit

structure ErrorOr (α : Type) where
  valid : Bool
  data : Data α
  /-- The flag is only ever set behind the construction of a payload. -/
  holds : valid = true → ∃ p v, data = .value p v

namespace ErrorOr

variable {α : Type}

/-- The default constructor. -/
def empty : ErrorOr α := ⟨false, .uninit, fun h => absurd h Bool.false_ne_true⟩

def ofError (res : Option Result) : ErrorOr α := ⟨false, .ofError res, fun h => absurd h Bool.false_ne_true⟩

def ofValue (p : ℕ) (v : α) : ErrorOr α := ⟨true, .value p v, fun _ => ⟨p, v, rfl⟩⟩

/-- The payload that `get` refers to, none where its assertion about the flag fails. -/
def get (o : ErrorOr α) : Option (ℕ × α) :=
  if o.valid then
    match o.data with
    | .value p v => some (p, v)
    | _ => none
  else none

/-- The payload after it was moved from. -/
def setValue (o : ErrorOr α) (p : ℕ) (v : α) : ErrorOr α := ⟨o.valid, .value p v, fun _ => ⟨p, v, rfl⟩⟩

theorem get_isSome (o : ErrorOr α) : o.get.isSome = o.valid := by
  rw [get]
  cases h : o.valid with
  | true =>
    obtain ⟨p, v, hd⟩ := o.holds h
    simp [hd]
  | false => rfl

@[simp] theorem empty_get : (empty : ErrorOr α).get = none := rfl

@[simp] theorem ofError_get (res : Option Result) : (ofError res : ErrorOr α).get = none := rfl

@[simp] theorem ofValue_get (p : ℕ) (v : α) : (ofValue p v).get = some (p, v) := rfl

theorem setValue_get {o : ErrorOr α} {q : ℕ} {w : α} (h : o.get = some (q, w)) (p : ℕ) (v : α) :
    (o.setValue p v).get = some (p, v) := by
  have hv : o.valid = true := by rw [← get_isSome, h]; rfl
  simp [get, setValue, hv]

end ErrorOr

/-- The objects by their addresses, the next identity of a payload and the log. -/
structure Objects (α : Type) where
  objects : ℕ → Option (ErrorOr α)
  next : ℕ
  log : List Event

/-- An operation on an object that is not there, and an exception of a constructor. -/
inductive Raised
  | illFormed
  | thrown
  deriving DecidableEq

abbrev ObjectM (α : Type) := Prog Raised (Objects α)

section Operations
variable {α : Type}

def object (x : ℕ) : ObjectM α (ErrorOr α) := do
  demand .illFormed (← read fun m => m.objects x)

def setObject (x : ℕ) (o : Option (ErrorOr α)) : ObjectM α Unit :=
  update fun m => { m with objects := Function.update m.objects x o }

/-- Storage for a new object. -/
def allocate (x : ℕ) : ObjectM α Unit := do
  if (← read fun m => (m.objects x).isSome) then throw .illFormed else pure ()

/-- A placement new at `x`, and the flag that is set behind it. -/
def emplace (x : ℕ) (v : α) : ObjectM α Unit := do
  let p ← read fun m => m.next
  update fun m => { m with next := p + 1, log := m.log ++ [.constructed p] }
  setObject x (some (.ofValue p v))

/-- `reset` runs the destructor of the payload and leaves the flag. -/
def reset (x : ℕ) : ObjectM α Unit := do
  match (← object x).get with
  | some (p, _) => update fun m => { m with log := m.log ++ [.destroyed p] }
  | none => pure ()

/-- What the move constructor and the move assignment do with the other object. -/
def moveFrom (move : α → Option (α × α)) (x y : ℕ) : ObjectM α Unit := do
  let o ← object y
  match o.get with
  | some (p, v) =>
    let (v, rest) ← demand .thrown (move v)
    setObject y (some (o.setValue p rest))
    emplace x v
    reset y
  | none => setObject x (some (.ofError o.data.errorValue))

/-- The operations of a program, each on the objects at the addresses it names. -/
inductive Op (α : Type)
  | default (x : ℕ)
  /-- The constructors for an error; of another `ErrorOr` it may not have been written. -/
  | error (x : ℕ) (res : Option Result)
  /-- The constructor of a payload from its arguments, none where that throws. -/
  | value (x : ℕ) (init : Option α)
  | moveConstruct (x y : ℕ)
  | moveAssign (x y : ℕ)
  | destroy (x : ℕ)

/-- `move` is the move constructor of the payload: the value that it constructs and the one
that it leaves behind, none where it throws. -/
def perform (move : α → Option (α × α)) : Op α → ObjectM α Unit
  | .default x => do
    allocate x
    setObject x (some .empty)
  | .error x res => do
    allocate x
    setObject x (some (.ofError res))
  | .value x init => do
    allocate x
    emplace x (← demand .thrown init)
  | .moveConstruct x y => do
    allocate x
    moveFrom move x y
  | .moveAssign x y => do
    let _ ← object x
    if x = y then pure ()
    else
      reset x
      moveFrom move x y
  | .destroy x => do
    reset x
    setObject x none

/-- One operation; the program goes on where a constructor has thrown. -/
def operate (move : α → Option (α × α)) (op : Op α) : ObjectM α Unit :=
  tryCatch (perform move op) fun
    | .thrown => pure ()
    | .illFormed => throw .illFormed

end Operations

namespace Objects

variable {α : Type}

/-- No objects yet. -/
def start : Objects α := ⟨fun _ => none, 0, []⟩

/-- The life of every object has ended. -/
def Ended (m : Objects α) : Prop := ∀ x, m.objects x = none

/-- The payload at an address whose flag is set. -/
def held (m : Objects α) (x : ℕ) : Option (ℕ × α) := (m.objects x).bind ErrorOr.get

/-- What `reset` adds to the log. -/
def released (m : Objects α) (x : ℕ) : List Event :=
  match m.held x with
  | some (p, _) => [.destroyed p]
  | none => []

/-- An address gets another object after its payload was destroyed. -/
def put (m : Objects α) (x : ℕ) (o : Option (ErrorOr α)) : Objects α :=
  { m with objects := Function.update m.objects x o, log := m.log ++ m.released x }

/-- An address gets an object with a new payload. -/
def make (m : Objects α) (x : ℕ) (v : α) : Objects α :=
  ⟨Function.update m.objects x (some (.ofValue m.next v)), m.next + 1, m.log ++ [.constructed m.next]⟩

end Objects

section Effect
variable {α : Type} {move : α → Option (α × α)} {m u : Objects α} {op : Op α} {x y p : ℕ} {v w : α}
  {o : ErrorOr α}

/-- The operation moves no payload out of an object: the other object of a move holds none, or
its move constructor throws before the target has lost anything. -/
def KeepsPayload (move : α → Option (α × α)) (m : Objects α) : Op α → Prop
  | .moveConstruct _ y => ∀ p v, m.held y = some (p, v) → move v = none
  | .moveAssign x y => x ≠ y → ∀ p v, m.held y = some (p, v) → move v = none ∧ m.held x = none
  | _ => True

/-- What an operation can do. -/
inductive Effect (move : α → Option (α × α)) (m : Objects α) (op : Op α) : Objects α → Prop
  | idle (hk : KeepsPayload move m op) : Effect move m op m
  | put {x : ℕ} {o : Option (ErrorOr α)} (hk : KeepsPayload move m op) (ho : o.bind ErrorOr.get = none) :
      Effect move m op (m.put x o)
  | make {x : ℕ} {v : α} (hk : KeepsPayload move m op) (hx : m.held x = none) :
      Effect move m op (m.make x v)
  /-- The payload of `y` is destroyed, and the flag of `y` stays. -/
  | taken {x y p : ℕ} {o : ErrorOr α} {v rest w : α} (hk : ¬ KeepsPayload move m op) (hxy : x ≠ y)
      (hy : m.objects y = some o) (ho : o.get = some (p, v)) :
      Effect move m op ⟨Function.update (Function.update m.objects y (some (o.setValue p rest))) x
        (some (.ofValue m.next w)), m.next + 1,
        m.log ++ (m.released x ++ [.constructed m.next] ++ [.destroyed p])⟩
  /-- The payload of `x` is destroyed, and none takes its place. -/
  | broken {x p : ℕ} {v : α} (hk : ¬ KeepsPayload move m op) (hx : m.held x = some (p, v)) :
      Effect move m op { m with log := m.log ++ [.destroyed p] }

theorem exec_object (h : m.objects x = some o) : exec (object x) m = (.ok o, m) := by
  rw [object, exec_bind_ok (exec_read _ _), h]
  rfl

theorem exec_object_missing (h : m.objects x = none) : exec (object x) m = (.error .illFormed, m) := by
  rw [object, exec_bind_ok (exec_read _ _), h]
  rfl

theorem held_eq (h : m.objects x = some o) : m.held x = o.get := by
  rw [Objects.held, h]
  rfl

theorem released_none (h : m.held x = none) : m.released x = [] := by
  rw [Objects.released, h]

theorem released_some (h : m.held x = some (p, v)) : m.released x = [.destroyed p] := by
  rw [Objects.released, h]

theorem exec_reset (h : m.objects x = some o) :
    exec (reset x) m = (.ok (), { m with log := m.log ++ m.released x }) := by
  rw [reset, exec_bind_ok (exec_object h)]
  cases hg : o.get with
  | none =>
    rw [released_none ((held_eq h).trans hg), List.append_nil]
    rfl
  | some pv =>
    obtain ⟨p, v⟩ := pv
    rw [released_some ((held_eq h).trans hg)]
    rfl

theorem exec_allocate (h : m.objects x = none) : exec (allocate x) m = (.ok (), m) := by
  rw [allocate, exec_bind_ok (exec_read _ _), h]
  rfl

theorem exec_allocate_taken (h : m.objects x = some o) :
    exec (allocate x) m = (.error .illFormed, m) := by
  rw [allocate, exec_bind_ok (exec_read _ _), h]
  rfl

/-- Nothing moves out of an object without a payload. -/
theorem exec_moveFrom_none (h : m.objects y = some o) (hg : o.get = none) :
    exec (moveFrom move x y) m = (.ok (),
      { m with objects := Function.update m.objects x (some (.ofError o.data.errorValue)) }) := by
  rw [moveFrom, exec_bind_ok (exec_object h), hg]
  rfl

theorem exec_moveFrom_thrown (h : m.objects y = some o) (hg : o.get = some (p, v)) (hm : move v = none) :
    exec (moveFrom move x y) m = (.error .thrown, m) := by
  rw [moveFrom, exec_bind_ok (exec_object h), hg]
  dsimp only
  rw [hm]
  rfl

theorem exec_moveFrom_some {rest : α} (h : m.objects y = some o) (hg : o.get = some (p, v))
    (hm : move v = some (w, rest)) (hxy : x ≠ y) :
    exec (moveFrom move x y) m = (.ok (),
      ⟨Function.update (Function.update m.objects y (some (o.setValue p rest))) x
        (some (.ofValue m.next w)), m.next + 1, m.log ++ ([.constructed m.next] ++ [.destroyed p])⟩) := by
  rw [moveFrom, exec_bind_ok (exec_object h), hg]
  dsimp only
  rw [hm, exec_bind_ok (exec_demand_some _ _ _)]
  let moved : Objects α := { m with objects := Function.update m.objects y (some (o.setValue p rest)) }
  have hset : exec (setObject y (some (o.setValue p rest))) m = (.ok (), moved) := rfl
  have hmake : exec (emplace x w) moved = (.ok (), moved.make x w) := rfl
  have hy : (moved.make x w).objects y = some (o.setValue p rest) := by
    simp [Objects.make, moved, hxy.symm]
  have hheld := (held_eq hy).trans (ErrorOr.setValue_get hg p rest)
  dsimp only
  rw [exec_bind_ok hset, exec_bind_ok hmake, exec_reset hy, released_some hheld]
  simp [Objects.make, moved]

theorem held_none (h : m.objects x = none) : m.held x = none := by
  rw [Objects.held, h]
  rfl

theorem put_unheld {o : Option (ErrorOr α)} (h : m.held x = none) :
    m.put x o = { m with objects := Function.update m.objects x o } := by
  rw [Objects.put, released_none h, List.append_nil]

section Perform
variable {r : Except Raised Unit}

/-- An object that an operation names has to be there. -/
theorem object_exists {β : Type} {f : ErrorOr α → ObjectM α β} {r : Except Raised β}
    (h : exec (object x >>= f) m = (r, u)) (hr : r ≠ .error .illFormed) :
    ∃ o, m.objects x = some o ∧ exec (f o) m = (r, u) := by
  cases hx : m.objects x with
  | none =>
    rw [exec_bind_error (exec_object_missing hx)] at h
    cases h
    exact absurd rfl hr
  | some o =>
    rw [exec_bind_ok (exec_object hx)] at h
    exact ⟨o, rfl, h⟩

theorem allocate_unused {f : Unit → ObjectM α Unit} (h : exec (allocate x >>= f) m = (r, u))
    (hr : r ≠ .error .illFormed) : m.objects x = none ∧ exec (f ()) m = (r, u) := by
  cases hx : m.objects x with
  | none =>
    rw [exec_bind_ok (exec_allocate hx)] at h
    exact ⟨rfl, h⟩
  | some o =>
    rw [exec_bind_error (exec_allocate_taken hx)] at h
    cases h
    exact absurd rfl hr

/-- What a move out of `y` does once the payload of `x` is destroyed. -/
theorem moveFrom_effect (hxy : x ≠ y)
    (hk : KeepsPayload move m op ↔ ∀ p v, m.held y = some (p, v) → move v = none ∧ m.held x = none)
    (h : exec (moveFrom move x y) { m with log := m.log ++ m.released x } = (r, u))
    (hr : r ≠ .error .illFormed) : Effect move m op u := by
  obtain ⟨o, ho, -⟩ := object_exists h hr
  have hy : m.objects y = some o := ho
  have hheld := held_eq hy
  cases hg : o.get with
  | none =>
    rw [exec_moveFrom_none ho hg] at h
    cases h
    refine .put (hk.mpr fun p v hv => ?_) rfl
    rw [hheld, hg] at hv
    cases hv
  | some pv =>
    obtain ⟨p, v⟩ := pv
    rw [hg] at hheld
    cases hm : move v with
    | none =>
      rw [exec_moveFrom_thrown ho hg hm] at h
      cases h
      cases hx : m.held x with
      | none =>
        rw [released_none hx, List.append_nil]
        refine .idle (hk.mpr fun q w hv => ?_)
        rw [hheld] at hv
        cases hv
        exact ⟨hm, hx⟩
      | some pw =>
        obtain ⟨p', w⟩ := pw
        rw [released_some hx]
        refine .broken (fun hkeep => ?_) hx
        rw [(hk.mp hkeep p v hheld).2] at hx
        cases hx
    | some wr =>
      obtain ⟨w, rest⟩ := wr
      rw [exec_moveFrom_some ho hg hm hxy, List.append_assoc, ← List.append_assoc (m.released x)] at h
      cases h
      refine .taken (fun hkeep => ?_) hxy hy hg
      rw [(hk.mp hkeep p v hheld).1] at hm
      cases hm

theorem moveConstruct_effect (hfree : m.objects x = none)
    (h : exec (moveFrom move x y) m = (r, u)) (hr : r ≠ .error .illFormed) :
    Effect move m (.moveConstruct x y) u := by
  obtain ⟨o, ho, -⟩ := object_exists h hr
  have hx := held_none hfree
  have hxy : x ≠ y := by
    rintro rfl
    rw [hfree] at ho
    cases ho
  have hlog : m.log ++ m.released x = m.log := by rw [released_none hx, List.append_nil]
  refine moveFrom_effect hxy ?_ (by rw [hlog]; exact h) hr
  simp [KeepsPayload, hx]

theorem moveAssign_effect {q : ErrorOr α} (hq : m.objects x = some q) (hxy : x ≠ y)
    (h : exec (reset x >>= fun _ => moveFrom move x y) m = (r, u)) (hr : r ≠ .error .illFormed) :
    Effect move m (.moveAssign x y) u := by
  rw [exec_bind_ok (exec_reset hq)] at h
  exact moveFrom_effect hxy (by simp [KeepsPayload, hxy]) h hr

/-- Operations do what `Effect` lists. -/
theorem perform_effect (h : exec (perform move op) m = (r, u)) (hr : r ≠ .error .illFormed) :
    Effect move m op u := by
  cases op with
  | default x =>
    obtain ⟨hx, h⟩ := allocate_unused h hr
    cases h
    have he : Effect move m (.default x) (m.put x (some .empty)) := .put trivial rfl
    rw [put_unheld (held_none hx)] at he
    exact he
  | error x res =>
    obtain ⟨hx, h⟩ := allocate_unused h hr
    cases h
    have he : Effect move m (.error x res) (m.put x (some (.ofError res))) := .put trivial rfl
    rw [put_unheld (held_none hx)] at he
    exact he
  | value x init =>
    obtain ⟨hx, h⟩ := allocate_unused h hr
    cases init with
    | none =>
      cases h
      exact .idle trivial
    | some v =>
      cases h
      exact .make trivial (held_none hx)
  | moveConstruct x y =>
    obtain ⟨hx, h⟩ := allocate_unused h hr
    exact moveConstruct_effect hx h hr
  | moveAssign x y =>
    obtain ⟨o, ho, h⟩ := object_exists h hr
    by_cases hxy : x = y
    · rw [if_pos hxy] at h
      cases h
      exact .idle fun hne => absurd hxy hne
    · rw [if_neg hxy] at h
      exact moveAssign_effect ho hxy h hr
  | destroy x =>
    cases hx : m.objects x with
    | none =>
      have he : exec (reset x) m = (.error .illFormed, m) := exec_bind_error (exec_object_missing hx)
      rw [perform, exec_bind_error he] at h
      cases h
      exact absurd rfl hr
    | some o =>
      rw [perform, exec_bind_ok (exec_reset hx)] at h
      cases h
      exact .put trivial rfl

theorem operate_effect (h : exec (operate move op) m = (.ok (), u)) : Effect move m op u := by
  rw [operate, exec_tryCatch] at h
  rcases hp : exec (perform move op) m with ⟨(_ | _) | _, t⟩
  · simp only [hp] at h
    cases h
  · simp only [hp] at h
    cases h
    exact perform_effect hp (by simp)
  · simp only [hp] at h
    cases h
    exact perform_effect hp (by simp)

end Perform

end Effect

end LedgerKeePass.Kpl
