import ProfileAdmin.Tls.Der

/-!
# Tls.Certificate — certificates as a connection relies on them

Everything has to be in its place, and nothing may be left over. In the certificate of
a party, extensions that are not known must not be critical; a certificate that is
trusted beforehand may have them. What a connection takes from a certificate is its
public key.
-/

namespace ProfileAdmin.Tls

/-- Why a certificate is not relied on. -/
inductive CertificateFlaw where
  | badEncoding
  | unsupportedVersion
  | signatureAlgorithmMismatch
  | extensionValueInvalid
  | unsupportedCriticalExtension
  deriving DecidableEq, Repr

/-- The wording of a flaw. -/
def CertificateFlaw.message (f : CertificateFlaw) : String :=
  let reason := match f with
    | .badEncoding => "BadEncoding"
    | .unsupportedVersion => "Other(OtherError(UnsupportedCertVersion))"
    | .signatureAlgorithmMismatch => "Other(OtherError(SignatureAlgorithmMismatch))"
    | .extensionValueInvalid => "Other(OtherError(ExtensionValueInvalid))"
    | .unsupportedCriticalExtension => "Other(OtherError(UnsupportedCriticalExtension))"
  s!"invalid peer certificate: {reason}"

/-- A value that may be missing, or the flaw that its absence is. -/
def orFlaw {α : Type} (f : CertificateFlaw) : Option α → Except CertificateFlaw α
  | some a => .ok a
  | none => .error f

/-- A value that may be missing where only the form is at fault. -/
def wellFormed {α : Type} (o : Option α) : Except CertificateFlaw α :=
  orFlaw .badEncoding o

/-- The content of a value; the longest contents are refused. -/
def part? (tag : UInt8) (bs : List UInt8) : Option (List UInt8 × List UInt8) := do
  let (body, rest) ← Der.value? tag bs
  if body.length < 0xFFFF then some (body, rest) else none

/-- The version has to be the third. -/
def version (bs : List UInt8) : Except CertificateFlaw (List UInt8) := do
  let (body, rest) ← orFlaw .unsupportedVersion (part? (Der.part 0) bs)
  let (number, behind) ← wellFormed (Der.small? body)
  if number = 2 ∧ behind.isEmpty then return rest else throw .unsupportedVersion

/-- The last numbers of the known extensions: key usage, alternative names, basic
constraints, name constraints, revocation lists, extended key usage. -/
def knownExtensions : List UInt8 := [15, 17, 19, 30, 31, 37]

/-- The number of a known extension. -/
def extensionNumber? (id : List UInt8) : Option UInt8 :=
  match id with
  | [0x55, 0x1D, n] => if knownExtensions.contains n then some n else none
  | _ => none

/-- Key usage is kept as it is, every other known extension is a sequence. -/
def isExtensionValue (number : UInt8) (value : List UInt8) : Bool :=
  number == 15 || ((part? Der.sequence value).any fun (_, rest) => rest.isEmpty)

/-- The mark of a critical extension. -/
def critical? (bs : List UInt8) : Option (Bool × List UInt8) :=
  if Der.isNext Der.boolean bs then do
    match ← part? Der.boolean bs with
    | ([0xFF], rest) => some (true, rest)
    | ([0x00], rest) => some (false, rest)
    | _ => none
  else some (false, bs)

/-- What a certificate is for: to show who a party is, or to be trusted beforehand. -/
inductive Role where
  | party
  | anchor
  deriving DecidableEq, Repr

/-- One extension; `seen` are the known ones before it. -/
def extension (role : Role) (seen : List UInt8) (body : List UInt8) :
    Except CertificateFlaw (List UInt8) := do
  let (id, rest) ← wellFormed (part? Der.oid body)
  let (isCritical, rest) ← wellFormed (critical? rest)
  let (value, rest) ← wellFormed (part? Der.octetString rest)
  let seen ← match extensionNumber? id with
    | some n =>
      if seen.contains n then throw .extensionValueInvalid
      else if isExtensionValue n value then pure (n :: seen)
      else throw .badEncoding
    | none =>
      if isCritical ∧ role = .party then throw .unsupportedCriticalExtension else pure seen
  if rest.isEmpty then return seen else throw .badEncoding

/-- The extensions up to the end, in at most `turns` turns. -/
def extensionsIn (role : Role) : Nat → List UInt8 → List UInt8 → Except CertificateFlaw Unit
  | 0, _, bs => if bs.isEmpty then .ok () else .error .badEncoding
  | turns + 1, seen, bs => do
    if bs.isEmpty then return ()
    let (body, rest) ← wellFormed (part? Der.sequence bs)
    let seen ← extension role seen body
    extensionsIn role turns seen rest

/-- The extensions, if there are any. -/
def extensions (role : Role) (bs : List UInt8) : Except CertificateFlaw Unit := do
  if bs.isEmpty then return ()
  let (tagged, rest) ← wellFormed (part? (Der.part 3) bs)
  let (body, behind) ← wellFormed (part? Der.sequence tagged)
  extensionsIn role body.length [] body
  if behind.isEmpty ∧ rest.isEmpty then return () else throw .badEncoding

/-- The public key of a certificate: its algorithm and its bits. -/
def subjectKey (role : Role) (der : List UInt8) : Except CertificateFlaw (List UInt8) := do
  let (outer, behind) ← wellFormed (part? Der.sequence der)
  let (inner, rest) ← wellFormed (part? Der.sequence outer)
  let (algorithm, rest) ← wellFormed (part? Der.sequence rest)
  let (_, rest) ← wellFormed (Der.bits? rest)
  if !rest.isEmpty || !behind.isEmpty then throw .badEncoding
  let inner ← version inner
  -- The serial number, and the algorithm once more, which has to be the one outside.
  let (_, inner) ← wellFormed (part? Der.integer inner)
  let (signature, inner) ← wellFormed (part? Der.sequence inner)
  if signature ≠ algorithm then throw .signatureAlgorithmMismatch
  -- The issuer, the validity and the subject are passed over.
  let (_, inner) ← wellFormed (part? Der.sequence inner)
  let (_, inner) ← wellFormed (part? Der.sequence inner)
  let (_, inner) ← wellFormed (part? Der.sequence inner)
  let (key, inner) ← wellFormed (part? Der.sequence inner)
  extensions role inner
  return key

/-- Whether a certificate of the first version has all its parts. -/
def isFirstVersion (der : List UInt8) : Bool :=
  Option.isSome <| do
    let (outer, behind) ← part? Der.sequence der
    let (inner, rest) ← part? Der.sequence outer
    let (_, inner) ← part? Der.integer inner
    let (_, inner) ← part? Der.sequence inner
    let (_, inner) ← part? Der.sequence inner
    let (_, inner) ← part? Der.sequence inner
    let (_, inner) ← part? Der.sequence inner
    let (_, inner) ← part? Der.sequence inner
    let (_, rest) ← part? Der.sequence rest
    let (_, rest) ← part? Der.bitString rest
    if inner.isEmpty && rest.isEmpty && behind.isEmpty then some () else none

/-- Whether a certificate may be trusted as it is. Those of the first version are known
by the version that they lack. -/
def trusted (der : List UInt8) : Except CertificateFlaw Unit :=
  match subjectKey .anchor der with
  | .ok _ => .ok ()
  | .error .unsupportedVersion =>
    if isFirstVersion der then .ok () else .error .badEncoding
  | .error f => .error f

end ProfileAdmin.Tls
