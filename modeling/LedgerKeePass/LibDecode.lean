import LedgerKeePass.LibKpl

/-!
# What the operations make of an exchange

An exchange fails or receives an answer, at least a status word. Each operation is that
exchange followed by a function of its outcome.
-/
namespace LedgerKeePass.Kpl
open Bytes Program App

inductive Outcome
  | failed (res : Result)
  | answered (src : List UInt8)

/-- The outcome as `withAnswer` returns it for a stack that held `uninit`. -/
inductive Exchanged {m : ℕ} (uninit : Buf m) : Outcome → Result × LedgerAnswer m → Prop
  | failed {res : Result} (ans : LedgerAnswer m) (h : res ≠ .success) :
      Exchanged uninit (.failed res) (res, ans)
  | answered {src : List UInt8} (h : src.length ≤ m) (h2 : swSize ≤ src.length) :
      Exchanged uninit (.answered src) (.success, (LedgerAnswer.fresh uninit).filled src h)

namespace Outcome

/-- The result of an operation that only looks at the status word. -/
def status : Outcome → Result
  | .failed res => res
  | .answered src => parseAppSW (swOf src)

/-- The result of an operation that expects `len` bytes of data and reads them with `f`;
`out` is what the caller's buffer held. -/
def decode {α : Type} (len : ℕ) (out : α) (f : List UInt8 → Result × α) : Outcome → Result × α
  | .failed res => (res, out)
  | .answered src =>
    if parseAppSW (swOf src) ≠ .success then (parseAppSW (swOf src), out)
    else if src.length - swSize ≠ len then (.protocolBadLength, out)
    else f src

end Outcome

/-- The key in an answer, decrypted; `Out` keeps the encrypted key when that fails. -/
def keyOf (host : Host) (ownPrivKey ownPubKey : Buf 32) (src : List UInt8) : Result × Key :=
  let answer := Buf.ofList (64 + swSize) src
  let key := answer.window 32 kplKeySize
  match x25519DecryptKey host key (answer.window 0 32) ownPubKey ownPrivKey with
  | none => (.libX25519Fail, key)
  | some key => (.success, key)

/-- The slots of a bit field, in ascending order. -/
def slotsOf (slots : UInt8) : List UInt8 :=
  ((List.range 8).filter fun i => slots.toNat.testBit i).map UInt8.ofNat

def versionOf (src : List UInt8) : Buf 3 := ⟨[src.getD 0 0, src.getD 1 0, src.getD 2 0], rfl⟩

section
variable {σ α : Type} {m : ℕ} {dev dev' : Option σ} {uninit : Buf m} {p : LibM σ m α}

theorem exec_withAnswer_eq :
    exec (withAnswer uninit p) dev = match exec p ⟨dev, .fresh uninit⟩ with
      | (.ok a, l) => (.ok (a, l.out), l.dev)
      | (.error e, l) => (.error e, l.dev) := rfl

theorem exec_withAnswer {a : α} {ans : LedgerAnswer m}
    (h : exec p ⟨dev, .fresh uninit⟩ = (.ok a, ⟨dev', ans⟩)) :
    exec (withAnswer uninit p) dev = (.ok (a, ans), dev') := by
  rw [exec_withAnswer_eq, h]

end

section Slots
variable {σ : Type} {dev : Option σ}

theorem shiftRight_testBit (slots : UInt8) (i : ℕ) :
    (slots >>> 1).toNat.testBit i = slots.toNat.testBit (i + 1) := by
  rw [UInt8.toNat_shiftRight, Nat.testBit_shiftRight]
  exact congrArg slots.toNat.testBit (Nat.add_comm 1 i)

theorem and_one_ne_zero (slots : UInt8) : (slots &&& 1 ≠ 0) ↔ slots.toNat.testBit 0 = true := by
  revert slots
  decide +kernel

/-- The rounds push the slots of the bits that are set, counted from `s` on. -/
theorem exec_slotLoop (fuel : ℕ) (out : List UInt8) (slots s : UInt8) (h : slots.toNat < 2 ^ fuel) :
    exec (loop .diverges (fuel + 1) slotRound (out, slots, s) : KplM σ (List UInt8)) dev =
      (.ok (out ++ ((List.range fuel).filter fun i => slots.toNat.testBit i).map
        fun i => s + UInt8.ofNat i), dev) := by
  induction fuel generalizing out slots s with
  | zero =>
    have hz : slots = 0 := UInt8.toNat_inj.mp (by simpa using h)
    subst hz
    exact exec_loop_done (by simp [slotRound])
  | succ fuel ih =>
    by_cases hz : slots > 0
    · have hr : exec (slotRound (out, slots, s) : KplM σ _) dev =
          (.ok (.inl (if slots &&& 1 ≠ 0 then out ++ [s] else out, slots >>> 1, s + 1)), dev) := by
        rw [slotRound, if_pos hz]
        rfl
      have hlt : (slots >>> 1).toNat < 2 ^ fuel := by
        rw [UInt8.toNat_shiftRight, Nat.shiftRight_eq_div_pow]
        change slots.toNat / 2 < _
        omega
      have htail : (((List.range fuel).map Nat.succ).filter fun i => slots.toNat.testBit i).map
            (fun i => s + UInt8.ofNat i) =
          ((List.range fuel).filter fun i => (slots >>> 1).toNat.testBit i).map
            fun i => s + 1 + UInt8.ofNat i := by
        rw [List.filter_map, List.map_map]
        simp only [shiftRight_testBit]
        refine List.map_congr_left fun i _ => ?_
        simp only [Function.comp_apply, Nat.succ_eq_add_one, UInt8.ofNat_add]
        rw [add_assoc, add_comm (UInt8.ofNat i)]
        rfl
      rw [exec_loop_next hr, ih _ _ _ hlt, List.range_succ_eq_map, List.filter_cons]
      by_cases hb : slots.toNat.testBit 0 = true
      · rw [if_pos ((and_one_ne_zero slots).mpr hb), if_pos hb, List.map_cons, htail]
        simp
      · rw [if_neg fun h => hb ((and_one_ne_zero slots).mp h), if_neg hb, htail]
    · have hz0 : slots = 0 := by
        rw [gt_iff_lt, UInt8.lt_iff_toNat_lt] at hz
        exact UInt8.toNat_inj.mp (by simpa using hz)
      subst hz0
      exact exec_loop_done (by simp [slotRound])

end Slots

section
variable {σ : Type} {exchange : Exchange σ} {host : Host} {timeoutMS : UInt32} {dev dev' : Option σ}
  {o : Outcome}

/-- The end of an operation that only looks at the status word. -/
theorem exec_checkStatus {m : ℕ} {uninit : Buf m} {res : Result} {ans : LedgerAnswer m}
    (hx : Exchanged uninit o (res, ans)) :
    exec (do
      if res ≠ .success then return res
      else return parseAppSW (← demand .outOfBounds ans.sw) : KplM σ Result) dev =
        (.ok o.status, dev) := by
  cases hx with
  | failed ans h =>
    simp only [ne_eq, h, not_false_eq_true, if_true]
    rfl
  | answered h h2 =>
    simp only [ne_eq, not_true_eq_false, if_false]
    rw [filled_sw _ h h2, exec_bind_ok (exec_demand_some _ _ _)]
    rfl

/-- The end of an operation that expects `len` bytes of data and reads them with `f`. -/
theorem exec_checkAnswer {α : Type} {m len : ℕ} {uninit : Buf m} {res : Result} {ans : LedgerAnswer m}
    {out : α} {k : LedgerAnswer m → KplM σ (Result × α)} {f : List UInt8 → Result × α}
    (hm : m < sizeTBound) (hx : Exchanged uninit o (res, ans))
    (hk : ∀ (a : LedgerAnswer m) (src : List UInt8) (h : src.length ≤ m), src.length = len + swSize →
      exec (k (a.filled src h)) dev = (.ok (f src), dev)) :
    exec (do
      if res ≠ .success then return (res, out)
      else
        let res := parseAppSW (← demand .outOfBounds ans.sw)
        if res ≠ .success then return (res, out)
        else if ans.dataSize ≠ len then return (.protocolBadLength, out)
        else k ans : KplM σ (Result × α)) dev = (.ok (o.decode len out f), dev) := by
  cases hx with
  | failed ans h =>
    simp only [ne_eq, h, not_false_eq_true, if_true]
    rfl
  | @answered src h h2 =>
    simp only [ne_eq, not_true_eq_false, if_false, Outcome.decode]
    rw [filled_sw _ h h2, exec_bind_ok (exec_demand_some _ _ _), filled_dataSize _ h h2 hm]
    by_cases hs : parseAppSW (swOf src) = .success
    · by_cases hd : src.length - swSize = len
      · simp only [hs, hd, not_true_eq_false, if_false]
        exact hk _ src h (by omega)
      · simp only [hs, hd, not_true_eq_false, not_false_eq_true, if_false, if_true]
        rfl
    · simp only [hs, not_false_eq_true, if_true]
      rfl

theorem exec_setKey {slot : UInt8} {key : List UInt8} {x : Result × LedgerAnswer (0 + swSize)}
    (hl : key.length = kplKeySize)
    (he : exec (withAnswer (host.uninit (0 + swSize))
      (apduExchange exchange (apduStream Instrs.storeKey slot 0 ++ key) timeoutMS)) dev =
        (.ok x, dev'))
    (hx : Exchanged (host.uninit (0 + swSize)) o x) :
    exec (setKey exchange host slot key timeoutMS) dev = (.ok o.status, dev') := by
  rw [setKey, if_neg (not_not.mpr hl), exec_bind_ok he]
  obtain ⟨res, ans⟩ := x
  exact exec_checkStatus hx

theorem exec_eraseAllSlots {x : Result × LedgerAnswer (1 + swSize)}
    (he : exec (withAnswer (host.uninit (1 + swSize))
      (apduExchange exchange (apduStream Instrs.eraseAllSlots 0 0) timeoutMS)) dev = (.ok x, dev'))
    (hx : Exchanged (host.uninit (1 + swSize)) o x) :
    exec (eraseAllSlots exchange host timeoutMS) dev = (.ok o.status, dev') := by
  rw [eraseAllSlots, exec_bind_ok he]
  obtain ⟨res, ans⟩ := x
  exact exec_checkStatus hx

theorem exec_decryptAnswer {a : LedgerAnswer (64 + swSize)} {src : List UInt8}
    (h : src.length ≤ 64 + swSize) (hl : src.length = 64 + swSize) (out : Key)
    (ownPrivKey ownPubKey : Buf 32) :
    exec (decryptAnswer host (a.filled src h) out ownPrivKey ownPubKey : KplM σ _) dev =
      (.ok (keyOf host ownPrivKey ownPubKey src), dev) := by
  rw [decryptAnswer, filled_slice a h (by rw [hl]; decide), exec_bind_ok (exec_demand_some _ _ _),
    filled_slice a h (by rw [hl]; decide), exec_bind_ok (exec_demand_some _ _ _), Buf.copyAt_full,
    exec_bind_ok (exec_demand_some _ _ _), keyOf]
  cases x25519DecryptKey host ((Buf.ofList (64 + swSize) src).window 32 kplKeySize)
    ((Buf.ofList (64 + swSize) src).window 0 32) ownPubKey ownPrivKey with
  | none => rfl
  | some key =>
    dsimp only
    rw [Buf.copyAt_full, exec_bind_ok (exec_demand_some _ _ _)]
    rfl

theorem exec_sendKeyApduAndDecrypt {out : Key} {stream : List UInt8} {ownPrivKey ownPubKey : Buf 32}
    {x : Result × LedgerAnswer (64 + swSize)}
    (he : exec (withAnswer (host.uninit (64 + swSize)) (apduExchange exchange stream timeoutMS)) dev =
      (.ok x, dev'))
    (hx : Exchanged (host.uninit (64 + swSize)) o x) :
    exec (sendKeyApduAndDecrypt exchange host out stream ownPrivKey ownPubKey timeoutMS) dev =
      (.ok (o.decode 64 out (keyOf host ownPrivKey ownPubKey)), dev') := by
  rw [sendKeyApduAndDecrypt, exec_bind_ok he]
  obtain ⟨res, ans⟩ := x
  exact @exec_checkAnswer σ dev' o _ (64 + swSize) 64 _ res ans out
    (fun ans => decryptAnswer host ans out ownPrivKey ownPubKey) (keyOf host ownPrivKey ownPubKey)
    (by decide) hx fun a src h hl => exec_decryptAnswer h hl out _ _

theorem exec_getKey {slot : UInt8} {out : Key} {x : Result × LedgerAnswer (64 + swSize)}
    (he : exec (withAnswer (host.uninit (64 + swSize)) (apduExchange exchange
      (apduStream Instrs.getKey slot 0 ++ (x25519GenPrivKey host).2.toList) timeoutMS)) dev =
        (.ok x, dev'))
    (hx : Exchanged (host.uninit (64 + swSize)) o x) :
    exec (getKey exchange host slot out timeoutMS) dev =
      (.ok (o.decode 64 out (keyOf host (x25519GenPrivKey host).1 (x25519GenPrivKey host).2)), dev') := by
  rw [getKey, if_neg (not_not.mpr rfl)]
  exact exec_sendKeyApduAndDecrypt he hx

theorem exec_getKeyFromName {name : List UInt8} {out : Key} {x : Result × LedgerAnswer (64 + swSize)}
    (hn : name.length ≤ kplMaxNameSize)
    (he : exec (withAnswer (host.uninit (64 + swSize)) (apduExchange exchange
      (apduStream Instrs.getKeyFromName 0 0 ++ (x25519GenPrivKey host).2.toList ++ name)
        timeoutMS)) dev = (.ok x, dev'))
    (hx : Exchanged (host.uninit (64 + swSize)) o x) :
    exec (getKeyFromName exchange host name out timeoutMS) dev =
      (.ok (o.decode 64 out (keyOf host (x25519GenPrivKey host).1 (x25519GenPrivKey host).2)), dev') := by
  have hc : ¬ (name.length > kplMaxNameSize ∨ kplKeySize ≠ kplKeySize) := by omega
  rw [getKeyFromName, if_neg hc]
  exact exec_sendKeyApduAndDecrypt he hx

theorem exec_getValidKeySlots {out : List UInt8} {x : Result × LedgerAnswer (1 + swSize)}
    (he : exec (withAnswer (host.uninit (1 + swSize))
      (apduExchange exchange (apduStream Instrs.getValidKeySlots 0 0) timeoutMS)) dev = (.ok x, dev'))
    (hx : Exchanged (host.uninit (1 + swSize)) o x) :
    exec (getValidKeySlots exchange host out timeoutMS) dev =
      (.ok (o.decode 1 out fun src => (.success, out ++ slotsOf (src.getD 0 0))), dev') := by
  rw [getValidKeySlots, exec_bind_ok he]
  obtain ⟨res, ans⟩ := x
  refine @exec_checkAnswer σ dev' o _ (1 + swSize) 1 _ res ans out (fun buf => readSlots buf out)
    (fun src => (.success, out ++ slotsOf (src.getD 0 0))) (by decide) hx fun a src h hl => ?_
  have hloop := @exec_slotLoop σ dev' 8 out (src.getD 0 0) 0 (src.getD 0 0).toNat_lt
  simp only [zero_add] at hloop
  rw [readSlots, filled_get a h (by decide) (by omega), exec_bind_ok (exec_demand_some _ _ _),
    exec_bind_ok hloop]
  rfl

theorem exec_fillAppVersion {appVer : Buf 3} {x : Result × LedgerAnswer (3 + swSize)}
    (he : exec (withAnswer (host.uninit (3 + swSize))
      (apduExchange exchange (apduStream Instrs.getAppConfiguration 0 0) timeoutMS)) dev =
        (.ok x, dev'))
    (hx : Exchanged (host.uninit (3 + swSize)) o x) :
    exec (fillAppVersion exchange host appVer timeoutMS) dev =
      (.ok (o.decode 3 appVer fun src => (.success, versionOf src)), dev') := by
  rw [fillAppVersion, exec_bind_ok he]
  obtain ⟨res, ans⟩ := x
  refine @exec_checkAnswer σ dev' o _ (3 + swSize) 3 _ res ans appVer readVersion
    (fun src => (.success, versionOf src)) (by decide) hx fun a src h hl => ?_
  rw [readVersion, filled_get a h (by decide) (by omega), exec_bind_ok (exec_demand_some _ _ _),
    filled_get a h (by decide) (by omega), exec_bind_ok (exec_demand_some _ _ _),
    filled_get a h (by decide) (by omega), exec_bind_ok (exec_demand_some _ _ _)]
  rfl

end

end LedgerKeePass.Kpl
