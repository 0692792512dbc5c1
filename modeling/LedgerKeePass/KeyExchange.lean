import LedgerKeePass.EndToEnd
import LedgerKeePass.Rfc7748

/-!
# The key exchange

The app clamps and reverses bytes by hand around a big-endian scalar multiplication. What it
computes is the X25519 of RFC 7748, as libsodium does, so what it encrypts the library
decrypts.
-/
namespace LedgerKeePass.App
open Bytes Program Rfc7748

/-- `cx_ecfp_scalar_mult` on Curve25519, where it succeeds: big-endian coordinates and
scalars of 255 bits, and no clamping. -/
structure Sdk.MultipliesCurve (sdk : Sdk) : Prop where
  cxEcfpScalarMult : ∀ (u k : Buf 32) out, ofBe u.toList < 2 ^ 255 → ofBe k.toList < 2 ^ 255 →
    sdk.cxEcfpScalarMult (.ofList 33 (2 :: u.toList)) k = .ok (some out) →
      (out.window 1 32).toList = toBe 32 (scalarMul (ofBe k.toList) (ofBe u.toList))

section Reverse
variable {n : ℕ} {b : Buf n}

theorem byteAt_swap (b : Buf n) {first last i : ℕ} (hi : i < n) :
    ((b.overwrite last [b.byteAt first]).overwrite first [b.byteAt last]).byteAt i =
      if i = first then b.byteAt last else if i = last then b.byteAt first else b.byteAt i := by
  rw [Buf.byteAt_overwrite _ _ _ hi, Buf.byteAt_overwrite _ _ _ hi]
  simp only [List.length_singleton]
  by_cases hf : i = first
  · rw [if_pos hf, if_pos (by omega), hf, Nat.sub_self]
    rfl
  · rw [if_neg hf, if_neg (by omega)]
    by_cases hl : i = last
    · rw [if_pos hl, if_pos (by omega), hl, Nat.sub_self]
      rfl
    · rw [if_neg hl, if_neg (by omega)]

/-- The pointers meet in the middle of the bytes between them. -/
theorem byteAt_reverseBytesLoop (fuel : ℕ) (b : Buf n) {first last : ℕ} (h : first ≤ last) (hl : last ≤ n)
    (hf : last - first ≤ fuel) {i : ℕ} (hi : i < n) :
    (reverseBytesLoop fuel b first last).byteAt i =
      if first ≤ i ∧ i < last then b.byteAt (first + last - 1 - i) else b.byteAt i := by
  induction fuel generalizing b first last with
  | zero =>
    rw [reverseBytesLoop, if_neg (by omega)]
  | succ fuel ih =>
    rw [reverseBytesLoop]
    by_cases hc : first ≠ last ∧ first ≠ last - 1
    · rw [if_pos hc, ih _ (by omega) (by omega) (by omega)]
      by_cases hr : first + 1 ≤ i ∧ i < last - 1
      · have hj : first + 1 + (last - 1) - 1 - i = first + last - 1 - i := by omega
        rw [if_pos hr, if_pos (by omega), hj, byteAt_swap b (by omega), if_neg (by omega),
          if_neg (by omega)]
      · rw [if_neg hr, byteAt_swap b hi]
        by_cases hf : i = first
        · rw [if_pos hf, if_pos (by omega)]
          congr 1
          omega
        · rw [if_neg hf]
          by_cases hl : i = last - 1
          · rw [if_pos hl, if_pos (by omega)]
            congr 1
            omega
          · rw [if_neg hl, if_neg (by omega)]
    · rw [if_neg hc]
      split
      · congr 1
        omega
      · rfl

theorem reverse_toList {a b : Buf n} (h : ∀ i < n, a.byteAt i = b.byteAt (n - 1 - i)) :
    a.toList = b.toList.reverse := by
  apply List.ext_getElem (by simp)
  intro i h₁ h₂
  have hi : i < n := by simpa using h₁
  have hb := h i hi
  rw [Buf.byteAt, Buf.byteAt, List.getD_eq_getElem _ _ h₁,
    List.getD_eq_getElem _ _ (by rw [List.Vector.toList_length]; omega)] at hb
  rw [hb, List.getElem_reverse]
  simp only [List.Vector.toList_length]

theorem reverseBytes_toList (b : Buf 32) : (reverseBytes b 0 32).toList = b.toList.reverse := by
  apply reverse_toList
  intro i hi
  rw [reverseBytes, byteAt_reverseBytesLoop _ _ (by omega) le_rfl le_rfl hi, if_pos (by omega),
    Nat.zero_add]

/-- Reversing the bytes behind the first one. -/
theorem reverseBytes_tail (b : Buf 33) :
    ((reverseBytes b 1 33).window 1 32).toList = (b.window 1 32).toList.reverse := by
  apply reverse_toList
  intro i hi
  have hj : 1 + 33 - 1 - (1 + i) = 1 + (32 - 1 - i) := by omega
  rw [Buf.byteAt_window, if_pos hi, Buf.byteAt_window, if_pos (by omega), reverseBytes,
    byteAt_reverseBytesLoop _ _ (by omega) le_rfl le_rfl (by omega), if_pos (by omega), hj]

theorem byteAt_ofList {src : List UInt8} (h : src.length = n) {i : ℕ} (hi : i < n) :
    (Buf.ofList n src).byteAt i = src.getD i 0 := by
  rw [Buf.ofList, Buf.byteAt_overwrite _ _ _ hi, if_pos (by omega), Nat.sub_zero]

theorem reverseBytes_point (pub : Buf 32) :
    reverseBytes (.ofList 33 (2 :: pub.toList)) 1 33 = .ofList 33 (2 :: pub.toList.reverse) := by
  apply Buf.ext_byteAt
  intro i hi
  have hlen : (2 :: pub.toList).length = 33 := by simp
  have hlen' : (2 :: pub.toList.reverse).length = 33 := by simp
  rw [reverseBytes, byteAt_reverseBytesLoop _ _ (by omega) le_rfl le_rfl hi, byteAt_ofList hlen' hi]
  cases i with
  | zero =>
    rw [if_neg (by omega), byteAt_ofList hlen hi]
    rfl
  | succ i =>
    have hj : 1 + 33 - 1 - (i + 1) = 31 - i + 1 := by omega
    have hi' : 31 - i < pub.toList.length := by
      rw [List.Vector.toList_length]
      omega
    have hr : i < pub.toList.reverse.length := by
      rw [List.length_reverse, List.Vector.toList_length]
      omega
    rw [if_pos (by omega), hj, byteAt_ofList hlen (by omega), List.getD_cons_succ, List.getD_cons_succ,
      List.getD_eq_getElem _ _ hi', List.getD_eq_getElem _ _ hr, List.getElem_reverse]
    simp

end Reverse

section Curve
variable {sdk : Sdk} {pub out : Point} {priv : Buf 32}

/-- The scalar that the SDK gets is the one of the RFC. -/
theorem clampScalar_decode (priv : Buf 32) : ofBe (clampScalar priv).toList = decodeScalar25519 priv := by
  rw [clampScalar, reverseBytes_toList, ofLe_reverse]
  rfl

/-- The app's X25519 is that of the RFC, on points whose top bit is clear. -/
theorem x25519_eq (h : sdk.MultipliesCurve) (hpub : ofLe pub.toList < 2 ^ 255)
    (he : x25519 sdk pub priv = .ok (some out)) : out = Rfc7748.x25519 priv pub := by
  obtain ⟨rev, hp⟩ : ∃ rev : Buf 32, rev.toList = pub.toList.reverse :=
    ⟨⟨pub.toList.reverse, by simp⟩, rfl⟩
  have hm := h.cxEcfpScalarMult rev (clampScalar priv)
  rw [hp, clampScalar_decode, ofLe_reverse] at hm
  have hpoint : reverseBytes ((Buf.zeros 33).overwrite 0 (0x02 :: pub.toList)) 1 33 =
      .ofList 33 (2 :: pub.toList.reverse) := reverseBytes_point pub
  rw [x25519, hpoint] at he
  generalize sdk.cxEcfpScalarMult (.ofList 33 (2 :: pub.toList.reverse)) (clampScalar priv) = r at he hm
  rcases r with e | _ | raw
  · cases he
  · cases he
  · have hout : (reverseBytes raw 1 33).window 1 32 = out := Option.some.inj (Except.ok.inj he)
    apply List.Vector.toList_injective
    rw [← hout, reverseBytes_tail, hm raw hpub (decodeScalar_lt priv) rfl, toLe_reverse, Rfc7748.x25519,
      decodeUCoordinate_eq hpub]
    rfl

end Curve

end LedgerKeePass.App

namespace LedgerKeePass.Kpl
open Bytes Program App Rfc7748

/-- libsodium's scalar multiplications on Curve25519, where they succeed. -/
structure Host.MultipliesCurve (host : Host) : Prop where
  cryptoScalarmultBase : ∀ k, host.cryptoScalarmultBase k = Rfc7748.x25519 k basePoint
  cryptoScalarmult : ∀ k u s, host.cryptoScalarmult k u = some s → s = Rfc7748.x25519 k u

section Exchange
variable {sdk : Sdk} {host : Host} {priv own secret shared : Buf 32} {d : Device}

theorem curve25519G_eq : curve25519G = basePoint := by
  decide +kernel

theorem ofLe_x25519 (k u : Buf 32) : ofLe (Rfc7748.x25519 k u).toList < 2 ^ 255 := by
  rw [Rfc7748.x25519, ofLe_encodeUCoordinate (scalarMul_lt _ _)]
  exact scalarMul_lt _ _

theorem x25519_own (h : sdk.MultipliesCurve) (he : App.x25519 sdk curve25519G priv = .ok (some own)) :
    own = Rfc7748.x25519 priv basePoint := by
  rw [← curve25519G_eq]
  exact x25519_eq h (by decide +kernel) he

theorem x25519_secret (h : sdk.MultipliesCurve) (hhost : host.MultipliesCurve)
    (he : App.x25519 sdk (x25519GenPrivKey host).2 priv = .ok (some secret)) :
    secret = Rfc7748.x25519 priv (x25519GenPrivKey host).2 := by
  refine x25519_eq h ?_ he
  rw [x25519GenPrivKey, hhost.cryptoScalarmultBase]
  exact ofLe_x25519 _ _

/-- The two ends compute one secret. -/
theorem secrets_agree (hsdk : sdk.MultipliesCurve) (hhost : host.MultipliesCurve)
    (hcomm : Rfc7748.x25519 priv (Rfc7748.x25519 host.randombytesBuf basePoint) =
      Rfc7748.x25519 host.randombytesBuf (Rfc7748.x25519 priv basePoint))
    (hown : App.x25519 sdk curve25519G priv = .ok (some own))
    (hsecret : App.x25519 sdk (x25519GenPrivKey host).2 priv = .ok (some secret))
    (hshared : host.cryptoScalarmult (x25519GenPrivKey host).1 own = some shared) : secret = shared := by
  rw [hhost.cryptoScalarmult _ _ _ hshared, x25519_own hsdk hown, x25519_secret hsdk hhost hsecret,
    x25519GenPrivKey, hhost.cryptoScalarmultBase]
  exact hcomm

/-- Where no scalar multiplication fails, the calls of the library meet what is assumed of
them. -/
theorem sound_of_curve {c : Call} (hnv : c.sdk.WritesNv) (hsdk : c.sdk.MultipliesCurve)
    (hhost : c.host.MultipliesCurve)
    (hblake : ∀ input, c.sdk.cxBlake2b input = .ok (c.host.cryptoGenerichash input))
    (hrng : c.sdk.cxRng = .ok priv)
    (hcomm : Rfc7748.x25519 priv (Rfc7748.x25519 c.host.randombytesBuf basePoint) =
      Rfc7748.x25519 c.host.randombytesBuf (Rfc7748.x25519 priv basePoint))
    (hown : App.x25519 c.sdk curve25519G priv = .ok (some own))
    (hsecret : App.x25519 c.sdk (x25519GenPrivKey c.host).2 priv = .ok (some secret))
    (hshared : c.host.cryptoScalarmult (x25519GenPrivKey c.host).1 own = some shared) : c.Sound where
  writesNv := hnv
  agree := by
    obtain rfl := secrets_agree hsdk hhost hcomm hown hsecret hshared
    exact ⟨priv, own, secret, hrng, hown, hsecret, hshared⟩
  blake2b := hblake

/-- The buffer after an encryption, both scalar multiplications of the app having succeeded. -/
theorem exec_encrypt (hrng : sdk.cxRng = .ok priv) {callerPub : Point} {keystream : Key}
    (hown : App.x25519 sdk curve25519G priv = .ok (some own))
    (hsecret : App.x25519 sdk callerPub priv = .ok (some secret))
    (hblake : sdk.cxBlake2b (secret.toList ++ callerPub.toList ++ own.toList) = .ok keystream) :
    exec (x25519EncryptKPKey sdk x25519PtSize 0 callerPub) d =
      (.ok true, d.setBuffer (d.gIoApduBuffer.overwrite 0
        (own.toList ++ (xorBytes (d.gIoApduBuffer.window 32 kplKeySize) keystream).toList))) := by
  obtain ⟨b, he⟩ := @exec_x25519EncryptKPKey sdk d _ callerPub rfl
  have hs : sealKey sdk (d.gIoApduBuffer.window 32 kplKeySize) callerPub =
      .ok (some (own, xorBytes (d.gIoApduBuffer.window 32 kplKeySize) keystream)) := by
    simp only [sealKey, hrng, hown, hsecret, hblake, bind, Except.bind, pure, Except.pure]
  rw [hs] at he
  exact he

end Exchange

/-- The public key and the encrypted key in the APDU buffer. -/
theorem sealed_windows (b : Buf ioApduBufferSize) (own cipher : Buf 32) :
    (b.overwrite 0 (own.toList ++ cipher.toList)).window 0 32 = own ∧
      (b.overwrite 0 (own.toList ++ cipher.toList)).window 32 kplKeySize = cipher ∧
      ((b.overwrite 0 (own.toList ++ cipher.toList)).window 0 64).toList =
        own.toList ++ cipher.toList := by
  have hlen : (own.toList ++ cipher.toList).length = 64 := sealed_length own cipher
  have h₀ := @Buf.window_overwrite_infix _ b [] own.toList cipher.toList (by simp)
  have h₃₂ := @Buf.window_overwrite_infix _ b own.toList cipher.toList [] (by simp)
  have h₆₄ := @Buf.window_overwrite_toList _ b 0 (own.toList ++ cipher.toList) (by simp)
  rw [List.nil_append, List.length_nil, List.Vector.toList_length] at h₀
  rw [List.append_nil, List.Vector.toList_length, List.Vector.toList_length] at h₃₂
  rw [hlen] at h₆₄
  exact ⟨List.Vector.toList_injective h₀, List.Vector.toList_injective h₃₂, h₆₄⟩

theorem decrypt_buffer {host : Host} {own cipher pub priv secret : Buf 32} {key : Key}
    (b : Buf ioApduBufferSize) (hs : host.cryptoScalarmult priv own = some secret)
    (hk : cipher = xorBytes key (host.cryptoGenerichash (secret.toList ++ pub.toList ++ own.toList))) :
    x25519DecryptKey host ((b.overwrite 0 (own.toList ++ cipher.toList)).window 32 kplKeySize)
        ((b.overwrite 0 (own.toList ++ cipher.toList)).window 0 32) pub priv = some key ∧
      keyOf host priv pub
          (((b.overwrite 0 (own.toList ++ cipher.toList)).window 0 64).toList ++
            statusBytes kplSwSuccess) =
        (.success, key) := by
  obtain ⟨h₀, h₃₂, h₆₄⟩ := sealed_windows b own cipher
  rw [h₀, h₃₂, h₆₄]
  exact ⟨x25519DecryptKey_sealed hs hk, keyOf_sealed hs hk⟩

/-- With libsodium and the SDK multiplying on the same curve and hashing alike: the app's
X25519 is that of the RFC on the base point and on the library's public key, and the library
decrypts what the app encrypts. -/
theorem decrypt_encrypted {sdk : Sdk} {host : Host} {priv : Buf 32} (hsdk : sdk.MultipliesCurve)
    (hhost : host.MultipliesCurve)
    (hblake : ∀ input, sdk.cxBlake2b input = .ok (host.cryptoGenerichash input))
    (hrng : sdk.cxRng = .ok priv)
    (hcomm : Rfc7748.x25519 priv (Rfc7748.x25519 host.randombytesBuf basePoint) =
      Rfc7748.x25519 host.randombytesBuf (Rfc7748.x25519 priv basePoint)) :
    (∀ own, App.x25519 sdk curve25519G priv = .ok (some own) → own = Rfc7748.x25519 priv basePoint) ∧
    (∀ secret, App.x25519 sdk (x25519GenPrivKey host).2 priv = .ok (some secret) →
      secret = Rfc7748.x25519 priv (x25519GenPrivKey host).2) ∧
    ∀ own secret shared, App.x25519 sdk curve25519G priv = .ok (some own) →
      App.x25519 sdk (x25519GenPrivKey host).2 priv = .ok (some secret) →
      host.cryptoScalarmult (x25519GenPrivKey host).1 own = some shared → ∀ d : Device,
        ∃ t, exec (x25519EncryptKPKey sdk x25519PtSize 0 (x25519GenPrivKey host).2) d = (.ok true, t) ∧
          x25519DecryptKey host (t.gIoApduBuffer.window 32 kplKeySize) (t.gIoApduBuffer.window 0 32)
            (x25519GenPrivKey host).2 (x25519GenPrivKey host).1 =
              some (d.gIoApduBuffer.window 32 kplKeySize) ∧
          keyOf host (x25519GenPrivKey host).1 (x25519GenPrivKey host).2
              ((t.gIoApduBuffer.window 0 64).toList ++ statusBytes kplSwSuccess) =
            (.success, d.gIoApduBuffer.window 32 kplKeySize) := by
  refine ⟨fun own he => x25519_own hsdk he, fun secret he => x25519_secret hsdk hhost he,
    fun own secret shared hown hsecret hshared d => ?_⟩
  obtain rfl := secrets_agree hsdk hhost hcomm hown hsecret hshared
  have he := @exec_encrypt sdk priv own secret d hrng _ _ hown hsecret (hblake _)
  refine ⟨_, he, ?_⟩
  exact decrypt_buffer d.gIoApduBuffer hshared rfl

section Instance

/-- An SDK and a libsodium that compute on the curve. -/
def curveSdk : Sdk := { exchangeSdk with
  cxEcfpScalarMult := fun point scalar => .ok (some (.ofList 33 (2 :: toBe 32
    (scalarMul (ofBe scalar.toList) (ofBe (point.window 1 32).toList))))) }

def curveHost : Host := { exchangeHost with
  cryptoScalarmultBase := fun k => Rfc7748.x25519 k basePoint
  cryptoScalarmult := fun k u =>
    if Rfc7748.x25519 k u = Buf.zeros 32 then none else some (Rfc7748.x25519 k u) }

theorem window_point {src : List UInt8} (h : src.length = 32) :
    ((Buf.ofList 33 (2 :: src)).window 1 32).toList = src := by
  have hw := @Buf.window_overwrite_infix _ (Buf.zeros 33) [2] src [] (by simp [h])
  rwa [h, List.append_nil] at hw

theorem curveSdk_multiplies : curveSdk.MultipliesCurve where
  cxEcfpScalarMult u k out _ _ he := by
    have hout := Option.some.inj (Except.ok.inj he)
    rw [← hout, window_point (toBe_length 32 _), window_point (by simp)]

theorem curveHost_multiplies : curveHost.MultipliesCurve where
  cryptoScalarmultBase k := rfl
  cryptoScalarmult k u s he := by
    simp only [curveHost] at he
    split at he
    · cases he
    · exact (Option.some.inj he).symm

/-- A key of 32 bytes 5, encrypted and decrypted. -/
theorem decrypt_encrypted_exchange :
    let d := freshDevice.setBuffer (.ofList _ (List.replicate 64 5))
    ∃ t, exec (x25519EncryptKPKey curveSdk x25519PtSize 0 libPub) d = (.ok true, t) ∧
      x25519DecryptKey curveHost (t.gIoApduBuffer.window 32 kplKeySize) (t.gIoApduBuffer.window 0 32)
        libPub libPriv = some (List.Vector.replicate 32 5) := by
  have hpub : (x25519GenPrivKey curveHost).2 = libPub := by decide +kernel
  have hkey : (Buf.ofList ioApduBufferSize (List.replicate 64 5)).window 32 kplKeySize =
      List.Vector.replicate 32 5 := by decide +kernel
  obtain ⟨-, -, h⟩ := decrypt_encrypted curveSdk_multiplies curveHost_multiplies (fun _ => rfl) rfl
    (show Rfc7748.x25519 appPriv _ = _ by decide +kernel)
  obtain ⟨t, he, hd, -⟩ := h appPub sharedSecret sharedSecret (by decide +kernel)
    (by decide +kernel) (by decide +kernel) (freshDevice.setBuffer (.ofList _ (List.replicate 64 5)))
  rw [hpub] at he hd
  refine ⟨t, he, hd.trans ?_⟩
  exact congrArg some hkey

end Instance

end LedgerKeePass.Kpl
