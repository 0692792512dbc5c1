import LedgerKeePass.ByteBuffer

/-!
# X25519 (RFC 7748)

Little-endian numbers, the Montgomery ladder on u-coordinates modulo `2 ^ 255 - 19`, and
X25519 with its clamped scalar.
-/
namespace LedgerKeePass.Rfc7748
open Bytes

def ofLe : List UInt8 → ℕ
  | [] => 0
  | b :: bs => b.toNat + 256 * ofLe bs

/-- The low `k` bytes of `v`, least significant first. -/
def toLe : ℕ → ℕ → List UInt8
  | 0, _ => []
  | k + 1, v => UInt8.ofNat v :: toLe k (v / 256)

section LittleEndian
variable {bs : List UInt8} {k v : ℕ}

@[simp] theorem toLe_length (k v : ℕ) : (toLe k v).length = k := by
  induction k generalizing v with
  | zero => rfl
  | succ k ih => simp [toLe, ih]

theorem ofBe_concat (bs : List UInt8) (b : UInt8) : ofBe (bs ++ [b]) = 256 * ofBe bs + b.toNat := by
  induction bs with
  | nil => simp [ofBe]
  | cons c bs ih =>
    simp only [List.cons_append, ofBe, ih, List.length_append, List.length_singleton]
    ring

theorem ofLe_reverse (bs : List UInt8) : ofBe bs.reverse = ofLe bs := by
  induction bs with
  | nil => rfl
  | cons b bs ih =>
    rw [List.reverse_cons, ofBe_concat, ih, ofLe]
    omega

theorem toBe_concat (k v : ℕ) : toBe (k + 1) v = toBe k (v / 256) ++ [UInt8.ofNat v] := by
  induction k with
  | zero => simp [toBe]
  | succ k ih =>
    have hd : v / 256 ^ (k + 1) = v / 256 / 256 ^ k := by rw [Nat.div_div_eq_div_mul, pow_succ']
    rw [toBe, ih, hd]
    rfl

theorem toLe_reverse (k v : ℕ) : (toBe k v).reverse = toLe k v := by
  induction k generalizing v with
  | zero => rfl
  | succ k ih => simp [toBe_concat, toLe, ih]

theorem ofLe_toLe (h : v < 256 ^ k) : ofLe (toLe k v) = v := by
  rw [← toLe_reverse, ← ofLe_reverse, List.reverse_reverse, ofBe_toBe h]

theorem ofLe_append (xs ys : List UInt8) : ofLe (xs ++ ys) = ofLe xs + 256 ^ xs.length * ofLe ys := by
  induction xs with
  | nil => simp [ofLe]
  | cons x xs ih =>
    simp only [List.cons_append, ofLe, ih, List.length_cons, pow_succ]
    ring

theorem ofLe_lt (bs : List UInt8) : ofLe bs < 256 ^ bs.length := by
  rw [← ofLe_reverse, ← List.length_reverse]
  exact ofBe_lt _

/-- The number in a buffer whose last byte was replaced. -/
theorem ofLe_overwrite_last (u : Buf 32) (x : UInt8) :
    ofLe (u.overwrite 31 [x]).toList = ofLe (u.toList.take 31) + 256 ^ 31 * x.toNat := by
  have h := @Buf.overwrite_take 32 u 31 [x] le_rfl
  rw [List.take_of_length_le (by simp)] at h
  rw [h, ofLe_append, List.length_take, List.Vector.toList_length]
  simp [ofLe]

end LittleEndian

def prime : ℕ := 2 ^ 255 - 19

def sub (a b : ℕ) : ℕ := (a + (prime - b)) % prime

/-- The variables of the ladder, numbers modulo `prime`. -/
structure Ladder where
  x2 : ℕ
  z2 : ℕ
  x3 : ℕ
  z3 : ℕ

def cswap (swap : Bool) (s : Ladder) : Ladder := if swap then ⟨s.x3, s.z3, s.x2, s.z2⟩ else s

def ladderStep (x1 : ℕ) (s : Ladder) : Ladder :=
  let a := (s.x2 + s.z2) % prime
  let aa := a * a % prime
  let b := sub s.x2 s.z2
  let bb := b * b % prime
  let e := sub aa bb
  let c := (s.x3 + s.z3) % prime
  let d := sub s.x3 s.z3
  let da := d * a % prime
  let cb := c * b % prime
  ⟨aa * bb % prime, e * (aa + 121665 * e) % prime, (da + cb) * (da + cb) % prime,
    x1 * (sub da cb * sub da cb % prime) % prime⟩

/-- The loop over the bits of `k` from number `t - 1` down to zero. -/
def ladder (k x1 : ℕ) : ℕ → Bool → Ladder → Ladder
  | 0, swap, s => cswap swap s
  | t + 1, swap, s =>
    ladder k x1 t (k.testBit t) (ladderStep x1 (cswap (xor swap (k.testBit t)) s))

/-- `b ^ e` modulo `prime`, for an exponent of at most `bits` bits. -/
def powMod (b : ℕ) : ℕ → ℕ → ℕ
  | 0, _ => 1
  | bits + 1, e =>
    let h := powMod b bits (e / 2)
    if e % 2 = 0 then h * h % prime else h * h * b % prime

/-- The u-coordinate of the multiple by `k` of a point with u-coordinate `u`. -/
def scalarMul (k u : ℕ) : ℕ :=
  let s := ladder k (u % prime) 255 false ⟨1, 0, u % prime, 1⟩
  s.x2 * powMod s.z2 255 (prime - 2) % prime

def decodeScalar25519 (k : Buf 32) : ℕ :=
  let k := k.overwrite 0 [k.byteAt 0 &&& 248]
  let k := k.overwrite 31 [(k.byteAt 31 &&& 127) ||| 64]
  ofLe k.toList

def decodeUCoordinate (u : Buf 32) : ℕ := ofLe (u.overwrite 31 [u.byteAt 31 &&& 127]).toList

def encodeUCoordinate (v : ℕ) : Buf 32 := ⟨toLe 32 v, toLe_length 32 v⟩

def x25519 (k u : Buf 32) : Buf 32 :=
  encodeUCoordinate (scalarMul (decodeScalar25519 k) (decodeUCoordinate u))

def basePoint : Buf 32 := encodeUCoordinate 9

section Coordinates
variable {k u : ℕ} {v : Buf 32}

theorem scalarMul_lt (k u : ℕ) : scalarMul k u < 2 ^ 255 := by
  have h : scalarMul k u < prime := Nat.mod_lt _ (by decide)
  exact h.trans (by decide)

theorem ofLe_overwrite_lt (u : Buf 32) {x : UInt8} (h : x.toNat < 128) :
    ofLe (u.overwrite 31 [x]).toList < 2 ^ 255 := by
  have hl := ofLe_lt (u.toList.take 31)
  have hlen : (u.toList.take 31).length = 31 := by simp
  have hpow : (2 : ℕ) ^ 255 = 256 ^ 31 * 128 := by norm_num
  have hx : 256 ^ 31 * x.toNat + 256 ^ 31 ≤ 256 ^ 31 * 128 := by
    rw [← Nat.mul_succ]
    exact Nat.mul_le_mul_left _ h
  rw [hlen] at hl
  rw [ofLe_overwrite_last, hpow]
  omega

/-- A clamped scalar has 255 bits. -/
theorem decodeScalar_lt (k : Buf 32) : decodeScalar25519 k < 2 ^ 255 := by
  have hb (x : UInt8) : ((x &&& 127) ||| 64).toNat < 128 := by
    revert x
    decide +kernel
  exact ofLe_overwrite_lt _ (hb _)

/-- A u-coordinate of 255 bits is taken as it is. -/
theorem decodeUCoordinate_eq (h : ofLe v.toList < 2 ^ 255) : decodeUCoordinate v = ofLe v.toList := by
  have hv : v.overwrite 31 [v.byteAt 31] = v := by
    apply Buf.ext_byteAt
    intro i hi
    rw [Buf.byteAt_overwrite _ _ _ hi]
    split
    · rename_i hr
      have hi31 : i = 31 := by simp at hr; omega
      rw [hi31]
      rfl
    · rfl
  have hlt : (v.byteAt 31).toNat < 128 := by
    have hl := ofLe_overwrite_last v (v.byteAt 31)
    have hpow : (2 : ℕ) ^ 255 = 256 ^ 31 * 128 := by norm_num
    rw [hv] at hl
    by_contra hge
    have hm : 256 ^ 31 * 128 ≤ 256 ^ 31 * (v.byteAt 31).toNat := Nat.mul_le_mul_left _ (not_lt.mp hge)
    omega
  have hmask (x : UInt8) (hx : x.toNat < 128) : x &&& 127 = x := by
    revert x
    decide +kernel
  rw [decodeUCoordinate, hmask _ hlt, hv]

theorem ofLe_encodeUCoordinate (h : u < 2 ^ 255) : ofLe (encodeUCoordinate u).toList = u :=
  ofLe_toLe (h.trans (by norm_num))

end Coordinates

/-- The first test vector of the RFC. -/
example : x25519
    (.ofList 32 (toBe 32 0xa546e36bf0527c9d3b16154b82465edd62144c0ac1fc5a18506a2244ba449ac4))
    (.ofList 32 (toBe 32 0xe6db6867583030db3594c1a424b15f7c726624ec26b3353b10a903a6d0ab1c4c)) =
    .ofList 32 (toBe 32 0xc3da55379de9c6908e94ea4df28d084f32eccf03491c71f754b4075577a28552) := by
  decide +kernel

end LedgerKeePass.Rfc7748
