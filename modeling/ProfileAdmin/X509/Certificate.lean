import ProfileAdmin.X509.Name
import ProfileAdmin.X509.Time

/-!
# X509.Certificate — certificates as they are shown

A certificate is accepted if its parts follow each other as they should. What is
left over inside of a sequence, and behind the certificate, is not looked at. The serial
number is the only part whose length may be left open.
-/

namespace ProfileAdmin.X509

/-- What is shown of a certificate. -/
structure Certificate where
  subject : Name
  notBefore : Moment
  notAfter : Moment
  deriving DecidableEq, Repr

/-- An algorithm, passed over. Its parameters are an element, if there are any. -/
def algorithm? (bs : List UInt8) : Option (List UInt8) := do
  let (body, rest) ← sequence? bs
  let (_, parameters) ← oid? body
  if parameters.isEmpty || (element? parameters).isSome then some rest else none

/-- The first and the last moment of validity. -/
def validity? (bs : List UInt8) : Option ((Moment × Moment) × List UInt8) := do
  let (body, rest) ← sequence? bs
  let (notBefore, body) ← moment? body
  let (notAfter, _) ← moment? body
  some ((notBefore, notAfter), rest)

/-- A public key, passed over. -/
def publicKey? (bs : List UInt8) : Option (List UInt8) := do
  let (body, rest) ← sequence? bs
  let key ← algorithm? body
  let _ ← bitString? key
  some rest

/-- The version, if it is given. -/
def version? (bs : List UInt8) : Option (List UInt8) := do
  match ← contextual? 0 bs with
  | (none, rest) => some rest
  | (some e, rest) =>
    let _ ← word? e.body
    some rest

/-- A unique identifier with this tag, if it is given. Of its bits only the count of
unused ones has to be there. -/
def uniqueIdentifier? (tag : Nat) (bs : List UInt8) : Option (List UInt8) := do
  match ← contextual? tag bs with
  | (none, rest) => some rest
  | (some e, rest) => if e.body.isEmpty then none else some rest

/-- The tag of the extensions. -/
def extensionsTag : Nat := 3

/-- One extension, passed over. The mark of a critical one may be any truth value. -/
def extension? (bs : List UInt8) : Option (Unit × List UInt8) := do
  let (body, rest) ← sequence? bs
  let (_, body) ← oid? body
  -- Without a mark, the value comes at once.
  let body := match tagged? booleanTag body with
    | some (e, behind) => if e.body.length = 1 then behind else body
    | none => body
  let (value, _) ← tagged? octetStringTag body
  if value.isConstructed then none else some ((), rest)

/-- The extensions, if there are any: everything up to the end. -/
def extensions? (bs : List UInt8) : Option Unit :=
  match bs with
  | [] => some ()
  | _ => do
    let (h, behind) ← header? bs
    let (body, rest) ← sequence? behind
    if h.tag = extensionsTag ∧ h.length.isSome ∧ rest.isEmpty ∧
        (many extension? body).2.isEmpty then some ()
    else none

/-- A certificate. -/
def certificate? (bs : List UInt8) : Option Certificate := do
  let (outer, _) ← sequence? bs
  let (inner, outer) ← sequence? outer
  let inner ← version? inner
  -- The serial number, the algorithm of the signature, and who has issued it.
  let inner ← passed? integerTag inner
  let inner ← algorithm? inner
  let (_, inner) ← name? inner
  let ((notBefore, notAfter), inner) ← validity? inner
  let (subject, inner) ← name? inner
  let inner ← publicKey? inner
  let inner ← uniqueIdentifier? 1 inner
  let inner ← uniqueIdentifier? 2 inner
  let _ ← extensions? inner
  let outer ← algorithm? outer
  let _ ← bitString? outer
  some ⟨subject, notBefore, notAfter⟩

/-- Whether a moment, in nanoseconds from the beginning of 1970, lies in the validity. -/
def Certificate.isValidAt (c : Certificate) (now : Int) : Bool :=
  c.notBefore.nanoseconds ≤ now && now ≤ c.notAfter.nanoseconds

end ProfileAdmin.X509
