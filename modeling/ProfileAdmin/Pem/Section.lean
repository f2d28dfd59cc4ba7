import ProfileAdmin.Pem.Base64
import ProfileAdmin.Text.Utf8

/-!
# Pem.Section — labelled sections of a text file

1. **Lines**: each ends behind a line feed or a carriage return.
2. **Sections**: from a line that begins one to a line that ends it. Between
   sections anything may stand. A second beginning gives the open section another
   label; the lines before it stay part of it.
3. **Items**: the sections whose label says what they are. Sections with other
   labels are not even decoded.
-/

namespace ProfileAdmin.Pem

/-! ## Lines -/

/-- Cuts behind each line feed and each carriage return. -/
def linesOf : List UInt8 → List (List UInt8)
  | [] => []
  | b :: rest =>
    if b = 0x0A ∨ b = 0x0D then [b] :: linesOf rest
    else match linesOf rest with
      | [] => [[b]]
      | line :: lines => (b :: line) :: lines

/-! ## Sections -/

/-- Why a file is not a sequence of sections. -/
inductive Flaw where
  | missingEnd (label : List UInt8)
  | illegalStart (line : List UInt8)
  | base64 (f : Base64.Flaw)
  deriving DecidableEq, Repr

/-- Bytes as a list of numbers. -/
def byteList (bs : List UInt8) : String :=
  "[" ++ ", ".intercalate (bs.map fun b => toString b.toNat) ++ "]"

/-- The wording of a flaw. -/
def Flaw.message : Flaw → String
  | .missingEnd label => s!"missing section end marker: {byteList label}"
  | .illegalStart line => s!"illegal section start: {byteList line}"
  | .base64 f => s!"base64 decode error: {f.message}"

/-- The bytes of an ASCII text. -/
private def ascii (s : String) : List UInt8 := Text.Utf8.bytes s

/-- What a section's first line begins with. -/
def beginMark : List UInt8 := ascii "-----BEGIN "

/-- What a section's last line begins with, up to the label. -/
def endMark : List UInt8 := ascii "-----END "

/-- What follows a label. -/
def dashes : List UInt8 := ascii "-----"

/-- A byte that may stand in and behind the dashes of a section's first line. -/
def isTrailing (b : UInt8) : Bool :=
  b == 0x2D || b == 0x0A || b == 0x0D || b == 0x20

/-- The label of a section's first line, behind its mark. Exactly five dashes end it;
blanks between and behind the dashes do not count. -/
def labelOf? (afterMark : List UInt8) : Option (List UInt8) :=
  let trailing := afterMark.reverse.takeWhile isTrailing
  let before := (afterMark.reverse.dropWhile isTrailing).reverse
  if trailing.count 0x2D = 5 then
    -- Blanks before the first dash belong to the label.
    some (before ++ trailing.reverse.takeWhile (· != 0x2D))
  else none

/-- The rest of `bs` behind `mark`. -/
def behind? (mark bs : List UInt8) : Option (List UInt8) :=
  if mark.isPrefixOf bs then some (bs.drop mark.length) else none

/-- An open section: its label and its lines so far, the last one first. -/
structure Open where
  label : List UInt8
  body : List (List UInt8)

/-- A closed section: its label and what stands inside. -/
structure Section where
  label : List UInt8
  body : List UInt8
  deriving DecidableEq, Repr

/-- The sections of a file in their order, up to the first flaw. `current` is the section
that is open. -/
def sectionsFrom (current : Option Open) : List (List UInt8) → List (Except Flaw Section)
  | [] =>
    match current with
    | some o => [.error (.missingEnd o.label)]
    | none => []
  | line :: lines =>
    match behind? beginMark line with
    | some afterMark =>
      match labelOf? afterMark with
      -- An open section goes on under the new label.
      | some label => sectionsFrom (some ⟨label, (current.map Open.body).getD []⟩) lines
      | none => [.error (.illegalStart line)]
    | none =>
      match current with
      -- Between sections anything may stand.
      | none => sectionsFrom none lines
      | some o =>
        if (endMark ++ o.label ++ dashes).isPrefixOf line then
          .ok ⟨o.label, o.body.reverse.flatten⟩ :: sectionsFrom none lines
        else sectionsFrom (some ⟨o.label, line :: o.body⟩) lines

/-- The sections of a file. -/
def sections (file : List UInt8) : List (Except Flaw Section) :=
  sectionsFrom none (linesOf file)

/-! ## Items -/

/-- What a section holds. -/
inductive Kind where
  | certificate
  | publicKey
  | rsaKey
  | privateKey
  | ecKey
  | revocations
  | request
  | echConfig
  deriving DecidableEq, Repr

/-- The label of a kind. -/
def Kind.label : Kind → String
  | .certificate => "CERTIFICATE"
  | .publicKey => "PUBLIC KEY"
  | .rsaKey => "RSA PRIVATE KEY"
  | .privateKey => "PRIVATE KEY"
  | .ecKey => "EC PRIVATE KEY"
  | .revocations => "X509 CRL"
  | .request => "CERTIFICATE REQUEST"
  | .echConfig => "ECHCONFIG"

/-- All kinds. -/
def Kind.all : List Kind :=
  [.certificate, .publicKey, .rsaKey, .privateKey, .ecKey, .revocations, .request, .echConfig]

/-- The kind with this label. -/
def Kind.ofLabel? (label : List UInt8) : Option Kind :=
  Kind.all.find? fun k => ascii k.label == label

/-- A decoded section. -/
structure Item where
  kind : Kind
  content : List UInt8
  deriving DecidableEq, Repr

/-- The item of a section, if its label is known. -/
def Section.item? (s : Section) : Option (Except Flaw Item) :=
  (Kind.ofLabel? s.label).map fun kind =>
    match Base64.decode s.body with
    | .ok content => .ok ⟨kind, content⟩
    | .error f => .error (.base64 f)

/-- The items of a file in their order, and the flaws between them. -/
def items (file : List UInt8) : List (Except Flaw Item) :=
  (sections file).filterMap fun
    | .ok s => s.item?
    | .error f => some (.error f)

/-- The contents of all certificates, or the first flaw. -/
def certificates (file : List UInt8) : Except Flaw (List (List UInt8)) := do
  let all ← (items file).mapM id
  return all.filterMap fun i => if i.kind = .certificate then some i.content else none

end ProfileAdmin.Pem
