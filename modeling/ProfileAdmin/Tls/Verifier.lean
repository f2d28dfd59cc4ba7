import ProfileAdmin.Host.Program

/-!
# Tls.Verifier — accepting any server

Where verification is disabled, every certificate of a server is accepted. The server
still has to prove that it holds the key, by a signature of one of these schemes.
-/

namespace ProfileAdmin.Tls

open Host (Program)

/-- The ways to sign a handshake. -/
inductive SignatureScheme where
  | rsaPkcs1Sha256
  | ecdsaP256Sha256
  | rsaPkcs1Sha384
  | ecdsaP384Sha384
  | rsaPkcs1Sha512
  | rsaPssSha256
  | rsaPssSha384
  | rsaPssSha512
  | ed25519
  deriving DecidableEq, Repr

/-- The number of a scheme on the wire. -/
def SignatureScheme.code : SignatureScheme → Nat
  | .rsaPkcs1Sha256 => 0x0401
  | .ecdsaP256Sha256 => 0x0403
  | .rsaPkcs1Sha384 => 0x0501
  | .ecdsaP384Sha384 => 0x0503
  | .rsaPkcs1Sha512 => 0x0601
  | .rsaPssSha256 => 0x0804
  | .rsaPssSha384 => 0x0805
  | .rsaPssSha512 => 0x0806
  | .ed25519 => 0x0807

/-- The schemes that are understood. -/
def SignatureScheme.supported : List SignatureScheme :=
  [.rsaPkcs1Sha256, .ecdsaP256Sha256, .rsaPkcs1Sha384, .ecdsaP384Sha384, .rsaPkcs1Sha512,
    .rsaPssSha256, .rsaPssSha384, .rsaPssSha512, .ed25519]

/-- Accepts the certificate of a server, whatever it is. -/
def acceptAny (server : String) (certificate : List UInt8) : Program Bool := do
  Program.note (.certificateAccepted server certificate.length)
  return true

end ProfileAdmin.Tls
