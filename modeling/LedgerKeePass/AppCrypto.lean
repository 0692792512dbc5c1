import LedgerKeePass.AppState

/-!
# Key encryption of the app (`x25519.c`)

X25519 over the SDK's big-endian scalar multiplication, and the encryption of a key
under an ephemeral exchange with the caller, in place in the APDU buffer.
-/
namespace LedgerKeePass.App
open Bytes Program

def curve25519G : Point := (Buf.zeros x25519PtSize).overwrite 0 [9]

/-- The pointer loop of `reverse_bytes`; `fuel` bounds the distance of the pointers. -/
def reverseBytesLoop {n : ℕ} : ℕ → Buf n → ℕ → ℕ → Buf n
  | 0, b, _, _ => b
  | fuel + 1, b, first, last =>
    if first ≠ last ∧ first ≠ last - 1 then
      let swapped := (b.overwrite (last - 1) [b.byteAt first]).overwrite first [b.byteAt (last - 1)]
      reverseBytesLoop fuel swapped (first + 1) (last - 1)
    else b

def reverseBytes {n : ℕ} (b : Buf n) (first last : ℕ) : Buf n :=
  reverseBytesLoop (last - first) b first last

/-- The scalar as `X25519` passes it to the SDK: clamped, then made big-endian. -/
def clampScalar (privScalar : Buf x25519ScalarSize) : Buf x25519ScalarSize :=
  let s := privScalar.overwrite 0 [privScalar.byteAt 0 &&& 0xf8]
  let s := s.overwrite 31 [(s.byteAt 31 &&& 0x7f) ||| 0x40]
  reverseBytes s 0 32

/-- `X25519`: `none` where the C function returns false. -/
def x25519 (sdk : Sdk) (pubPoint : Point) (privScalar : Buf x25519ScalarSize) :
    Except UInt16 (Option Point) := do
  let outtmp : Buf (x25519PtSize + 1) := (Buf.zeros _).overwrite 0 (0x02 :: pubPoint.toList)
  let outtmp := reverseBytes outtmp 1 (x25519PtSize + 1)
  match ← sdk.cxEcfpScalarMult outtmp (clampScalar privScalar) with
  | none => return none
  | some out => return some ((reverseBytes out 1 (x25519PtSize + 1)).window 1 x25519PtSize)

def xorBytes {n : ℕ} (a b : Buf n) : Buf n := List.Vector.map₂ (· ^^^ ·) a b

/-- `X25519EncryptKPKey` on the key at `kpkey` and the public key at `ownPubkey`, both in
the APDU buffer. -/
def x25519EncryptKPKey (sdk : Sdk) (kpkey ownPubkey : ℕ) (callerPubkey : Point) :
    AppM Bool := do
  let ownPrivkey ← ofSdk sdk.cxRng
  match ← ofSdk (x25519 sdk curve25519G ownPrivkey) with
  | none => return false
  | some own =>
    writeBuffer ownPubkey own.toList
    match ← ofSdk (x25519 sdk callerPubkey ownPrivkey) with
    | none => return false
    | some ecdheSecret =>
      let own ← readBuffer ownPubkey x25519PtSize
      let keystream ← ofSdk
        (sdk.cxBlake2b (ecdheSecret.toList ++ callerPubkey.toList ++ own.toList))
      let key ← readBuffer kpkey kplKeySize
      writeBuffer kpkey (xorBytes key keystream).toList
      return true

end LedgerKeePass.App
