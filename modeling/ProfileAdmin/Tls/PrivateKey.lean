import ProfileAdmin.Crypto.Curve
import ProfileAdmin.Crypto.Edwards
import ProfileAdmin.Tls.Der

/-!
# Tls.PrivateKey — private keys that a connection can sign with

1. **Containers**: the three forms in which private keys are kept.
2. **Elliptic keys** on two curves, whose public point has to be given and right.
3. **Edwards keys**, whose public point is optional but right.
4. **RSA keys**, whose parts have to fit each other.
5. **Public keys**: what a certificate says of the key that belongs to it.
-/

namespace ProfileAdmin.Tls

open Crypto (bigEndian bitLength powMod)

/-! ## Containers -/

/-- The form in which a private key is kept. -/
inductive KeyForm where
  /-- An RSA key by itself. -/
  | pkcs1
  /-- An elliptic key by itself. -/
  | sec1
  /-- A key with its algorithm. -/
  | pkcs8
  deriving DecidableEq, Repr

/-- A private key as it was read. -/
structure PrivateKey where
  form : KeyForm
  der : List UInt8
  deriving DecidableEq, Repr

/-- The key in a container of version one, or with `newer` also of version two, whose
algorithm is `algorithm`. Version two carries the public key. -/
def unwrap? (algorithm : List UInt8) (newer : Bool) (der : List UInt8) :
    Option (List UInt8 × Option (List UInt8)) := do
  let body ← Der.only? Der.sequence der
  let (number, rest) ← Der.small? body
  let (id, rest) ← Der.value? Der.sequence rest
  if id ≠ algorithm ∨ 1 < number ∨ (number = 1 ∧ newer = false) then none
  else
    let (key, rest) ← Der.value? Der.octetString rest
    let rest ← if Der.isNext (Der.part 0) rest then
        (Der.value? (Der.part 0) rest).map (·.2)
      else some rest
    let (publicKey, rest) ← if number = 0 then some (none, rest)
      else if Der.isNext (Der.part 1) rest then do
        let (tagged, rest) ← Der.value? (Der.part 1) rest
        let (bits, behind) ← Der.bits? tagged
        if behind.isEmpty then some (some bits, rest) else none
      else do
        let (bits, rest) ← Der.value? (Der.plainPart 1) rest
        some (some (← Der.wholeBits? bits), rest)
    if rest.isEmpty then some (key, publicKey) else none

/-! ## Elliptic keys -/

/-- The object identifier of a key on an elliptic curve. -/
def ellipticId : List UInt8 := Der.write Der.oid [0x2A, 0x86, 0x48, 0xCE, 0x3D, 0x02, 0x01]

/-- A curve with its object identifier. -/
structure NamedCurve where
  curve : Crypto.Curve
  id : List UInt8

/-- The curves that keys may be on. -/
def namedCurves : List NamedCurve := [
  ⟨.p256, Der.write Der.oid [0x2A, 0x86, 0x48, 0xCE, 0x3D, 0x03, 0x01, 0x07]⟩,
  ⟨.p384, Der.write Der.oid [0x2B, 0x81, 0x04, 0x00, 0x22]⟩]

/-- The public point of an elliptic key, which is given beside it. -/
def ellipticPoint? (c : NamedCurve) (der : List UInt8) : Option (List UInt8) := do
  let body ← Der.only? Der.sequence der
  let (number, rest) ← Der.small? body
  let (secret, rest) ← Der.value? Der.octetString rest
  let rest ← if Der.isNext (Der.part 0) rest then do
      let (id, rest) ← Der.value? (Der.part 0) rest
      if id = c.id then some rest else none
    else some rest
  let tagged ← Der.only? (Der.part 1) rest
  let (point, behind) ← Der.bits? tagged
  let derived ← c.curve.publicKey? secret
  if number = 1 ∧ behind.isEmpty ∧ derived = point then some point else none

/-- What a certificate says of a key: an algorithm and bits. -/
def keyInfo (algorithm bits : List UInt8) : List UInt8 :=
  Der.write Der.sequence algorithm ++ Der.write Der.bitString (0 :: bits)

/-- The public side of an elliptic key. -/
def ellipticInfo? (key : PrivateKey) (c : NamedCurve) : Option (List UInt8) := do
  let algorithm := ellipticId ++ c.id
  let inner ← match key.form with
    | .pkcs1 => none
    | .sec1 => some key.der
    | .pkcs8 => (unwrap? algorithm false key.der).map (·.1)
  let point ← ellipticPoint? c inner
  some (keyInfo algorithm point)

/-! ## Edwards keys -/

/-- The object identifier of an Edwards key. -/
def edwardsId : List UInt8 := Der.write Der.oid [0x2B, 0x65, 0x70]

/-- The public side of an Edwards key. -/
def edwardsInfo? (key : PrivateKey) : Option (List UInt8) := do
  if key.form ≠ .pkcs8 then none
  else
    let (wrapped, given) ← unwrap? edwardsId true key.der
    let seed ← Der.only? Der.octetString wrapped
    let derived ← Crypto.Edwards.publicKey? seed
    if given.all (· = derived) then some (keyInfo edwardsId derived) else none

/-! ## RSA keys -/

/-- The object identifier of an RSA key, with its empty parameters. -/
def rsaId : List UInt8 :=
  Der.write Der.oid [0x2A, 0x86, 0x48, 0x86, 0xF7, 0x0D, 0x01, 0x01, 0x01] ++ [0x05, 0x00]

/-- The numbers of an RSA key. -/
structure RsaNumbers where
  n : Nat
  e : Nat
  d : Nat
  p : Nat
  q : Nat
  dp : Nat
  dq : Nat
  qInv : Nat

/-- Eight numbers that follow a version number of zero. -/
def rsaNumbers? (der : List UInt8) : Option (List (List UInt8)) := do
  let body ← Der.only? Der.sequence der
  let (number, rest) ← Der.small? body
  let (numbers, rest) ← (List.range 8).foldlM
    (fun (numbers, rest) _ => do
      let (n, rest) ← Der.natural? rest
      some (numbers ++ [n], rest)) (([], rest) : List (List UInt8) × List UInt8)
  if number = 0 ∧ rest.isEmpty then some numbers else none

/-- Public exponents are below this. -/
def exponentBound : Nat := 0x200000000

/-- Whether the numbers make a key: a modulus of 2048 to 4096 bits, rounded up to whole
bytes, and an odd exponent from 65537 on; two factors of half as many bits, in multiples
of 512, whose product the modulus divides; and private exponents that are odd and small
enough. -/
def RsaNumbers.isSound (k : RsaNumbers) : Bool :=
  let bits := bitLength k.n
  let half := (bits + 1) / 2
  let isFactor (f : Nat) := bitLength f == half && half % 512 == 0 && f % 2 == 1
  2048 ≤ (bits + 7) / 8 * 8 && bits ≤ 4096 && k.n % 2 == 1 &&
    65537 ≤ k.e && k.e < exponentBound && k.e % 2 == 1 &&
    isFactor k.p && isFactor k.q && k.p * k.q % k.n == 0 &&
    half < bitLength k.d && k.d < k.n && k.d % 2 == 1 &&
    k.dp < k.p && k.dp % 2 == 1 && k.dq < k.q && k.dq % 2 == 1 &&
    k.qInv < k.p && k.qInv * k.q % k.p == 1

/-- The public side of an RSA key. -/
def rsaInfo? (key : PrivateKey) : Option (List UInt8) := do
  let inner ← match key.form with
    | .pkcs1 => some key.der
    | .sec1 => none
    | .pkcs8 => (unwrap? rsaId false key.der).map (·.1)
  let numbers ← rsaNumbers? inner
  match numbers with
  | [n, e, d, p, q, dp, dq, qInv] =>
    let k : RsaNumbers := ⟨bigEndian n, bigEndian e, bigEndian d, bigEndian p, bigEndian q,
      bigEndian dp, bigEndian dq, bigEndian qInv⟩
    if k.isSound then
      some (keyInfo rsaId (Der.write Der.sequence (Der.writeNatural n ++ Der.writeNatural e)))
    else none
  | _ => none

/-! ## Public keys -/

/-- The public side of a private key of any kind, if the key can be used. -/
def PrivateKey.info? (key : PrivateKey) : Option (List UInt8) :=
  rsaInfo? key <|> namedCurves.findSome? (ellipticInfo? key) <|> edwardsInfo? key

end ProfileAdmin.Tls
