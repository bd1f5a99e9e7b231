import ConstantReply.Http.Token
import ConstantReply.Text.Utf8

/-!
# Request targets

A target is an asterisk, a path, an authority, or a scheme and an authority with an optional path.
Only its form matters: nothing else is ever done with it.
-/

namespace ConstantReply
namespace Http
namespace Target

def greatestLength : Nat := 65534

def greatestScheme : Nat := 64

def slash : UInt8 := 0x2F

def questionMark : UInt8 := 0x3F

def hash : UInt8 := 0x23

def asterisk : UInt8 := 0x2A

def percent : UInt8 := 0x25

def atSign : UInt8 := 0x40

/-!
## Path and query
-/

def isVisible (b : UInt8) : Bool := 0x21 ≤ b && b ≠ 0x7F

def isPathByte (b : UInt8) : Bool := isVisible b && b ≠ 0x3C && b ≠ 0x3E && b ≠ 0x60

def isQueryByte (b : UInt8) : Bool := isVisible b && b ≠ 0x3C && b ≠ 0x3E && b ≠ 0x22

def query : List UInt8 -> Bool
  | [] => true
  | b :: rest => if b = hash then true else isQueryByte b && query rest

def path : List UInt8 -> Bool
  | [] => true
  | b :: rest =>
      if b = hash then true
      else if b = questionMark then query rest
      else isPathByte b && path rest

def pathAndQuery (bytes : List UInt8) : Bool :=
  path bytes && Utf8.WellFormed (bytes.takeWhile (· ≠ hash))

/-!
## Authority
-/

def authorityMarks : List UInt8 :=
  [0x21, 0x24, 0x26, 0x27, 0x28, 0x29, 0x2A, 0x2B, 0x2C, 0x2D, 0x2E, 0x3B, 0x3D, 0x5F, 0x7E]

/-- What is known of the part of an authority that was read: the colons and percent signs that
could belong to the host, the brackets, and whether an at sign was last. -/
structure AuthorityState where
  colons : Nat := 0
  opened : Bool := false
  closed : Bool := false
  percent : Bool := false
  afterAt : Bool := false
  deriving DecidableEq, Repr

def AuthorityState.step? (s : AuthorityState) (b : UInt8) : Option AuthorityState :=
  let s := { s with afterAt := false }
  if b = colon then
    if 8 ≤ s.colons then none else some { s with colons := s.colons + 1 }
  else if b = 0x5B then
    if s.percent || s.opened then none else some { s with opened := true }
  else if b = 0x5D then
    if !s.opened || s.closed then none
    else some { s with closed := true, colons := 0, percent := false }
  else if b = atSign then some { s with colons := 0, percent := false, afterAt := true }
  else if b = Target.percent then some { s with percent := true }
  else if Ascii.isAlphanumericByte b || authorityMarks.contains b then some s
  else none

def AuthorityState.isComplete (s : AuthorityState) : Bool :=
  s.opened == s.closed && s.colons ≤ 1 && !s.percent && !s.afterAt

def endsAuthority (b : UInt8) : Bool := b == slash || b == questionMark || b == hash

def authority (bytes : List UInt8) : Bool :=
  match bytes.foldlM AuthorityState.step? {} with
  | some s => s.isComplete
  | none => false

/-!
## Scheme
-/

def isSchemeByte (b : UInt8) : Bool :=
  Ascii.isAlphanumericByte b || b == 0x2B || b == 0x2D || b == 0x2E

def afterScheme? (bytes : List UInt8) : Option (Nat × List UInt8) :=
  let scheme := bytes.takeWhile isSchemeByte
  match bytes.drop scheme.length with
  | a :: b :: c :: rest =>
      if a = colon ∧ b = slash ∧ c = slash then some (scheme.length, rest) else none
  | _ => none

/-!
## Targets
-/

def isFull (bytes : List UInt8) : Bool :=
  match afterScheme? bytes with
  | some (length, rest) =>
      let host := rest.takeWhile fun b => !endsAuthority b
      length ≤ greatestScheme && host ≠ [] && authority host &&
        pathAndQuery (rest.drop host.length)
  | none => bytes ≠ [] && authority bytes

def isWellFormed (bytes : List UInt8) : Bool :=
  if bytes = [asterisk] then true
  else if bytes.head? = some slash then pathAndQuery bytes
  else isFull bytes

def isValid (bytes : List UInt8) : Bool :=
  bytes.length ≤ greatestLength && isWellFormed bytes

end Target
end Http
end ConstantReply
