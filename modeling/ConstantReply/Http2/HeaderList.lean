import ConstantReply.Hpack.Block
import ConstantReply.Http.Target
import ConstantReply.Http2.Frame

/-!
# Header lists of requests

A list opens with the parts of the request line, each under a name with a colon in front, and goes
on with fields.  A field that cannot be one at all ends the connection; a list that makes no request
ends its stream; a list that is too large is answered with an error.
-/

namespace ConstantReply
namespace Http2

def listLimit : Nat := 16384

/-- The parts of a request line, and what a status would be. -/
inductive Part where
  | method
  | scheme
  | authority
  | path
  | protocol
  | status
  deriving DecidableEq, Repr

namespace Part

def name : Part -> String
  | .method => ":method"
  | .scheme => ":scheme"
  | .authority => ":authority"
  | .path => ":path"
  | .protocol => ":protocol"
  | .status => ":status"

def all : List Part := [.method, .scheme, .authority, .path, .protocol, .status]

def ofName? (name : List UInt8) : Option Part := all.find? fun p => Ascii.bytes p.name == name

def isStatus (value : List UInt8) : Bool :=
  value.length == 3 && value.all Ascii.isDigitByte && value.head? != some 0x30

def admits : Part -> List UInt8 -> Bool
  | .method, value => Http.isToken value
  | .status, value => isStatus value
  | _, value => Utf8.WellFormed value

end Part

/-!
## Collecting
-/

/-- What is known of a list that was read in part. -/
structure HeaderList where
  parts : List (Part × List UInt8) := []
  fields : List Hpack.Field := []
  size : Nat := 0
  tooLarge : Bool := false
  malformed : Bool := false
  deriving DecidableEq, Repr

namespace HeaderList

def part? (l : HeaderList) (p : Part) : Option (List UInt8) := l.parts.lookup p

def has (l : HeaderList) (p : Part) : Bool := (l.part? p).isSome

def connectionNames : List (List UInt8) :=
  ["connection", "transfer-encoding", "upgrade", "keep-alive", "proxy-connection"].map Ascii.bytes

def isLowerToken (name : List UInt8) : Bool :=
  Http.isToken name && name.map Ascii.lowerByte == name

def isOutOfPlace (f : Hpack.Field) : Bool :=
  connectionNames.contains f.name ||
    (f.name == Ascii.bytes "te" && f.value != Ascii.bytes "trailers")

def addPart (l : HeaderList) (p : Part) (f : Hpack.Field) : HeaderList :=
  if l.fields ≠ [] ∨ l.has p then { l with malformed := true }
  else if l.size + f.size < listLimit then
    { l with parts := l.parts ++ [(p, f.value)], size := l.size + f.size }
  else { l with size := l.size + f.size, tooLarge := true }

def addField (l : HeaderList) (f : Hpack.Field) : HeaderList :=
  if isOutOfPlace f then { l with malformed := true }
  else if l.size + f.size < listLimit then
    { l with fields := l.fields ++ [f], size := l.size + f.size }
  else { l with size := l.size + f.size, tooLarge := true }

def add? (l : HeaderList) (f : Hpack.Field) : Option HeaderList :=
  if f.name.head? = some Http.colon then
    match Part.ofName? f.name with
    | none => none
    | some p => if p.admits f.value then some (l.addPart p f) else none
  else if isLowerToken f.name ∧ Http.isValue f.value then some (l.addField f)
  else none

def ofFields? (fields : List Hpack.Field) : Option HeaderList := fields.foldlM add? {}

/-!
## Judging
-/

def lengthValue? (value : List UInt8) : Option Nat :=
  if value.length ≤ 19 ∧ value.all Ascii.isDigitByte then
    some (value.foldl (fun n b => n * 10 + (b.toNat - 0x30)) 0)
  else none

def contentLength? (l : HeaderList) : Option (Option Nat) :=
  match l.fields.find? fun f => f.name == Ascii.bytes "content-length" with
  | none => some none
  | some f => (lengthValue? f.value).map some

def asksTunnel (l : HeaderList) : Bool := l.part? .method == some (Ascii.bytes "CONNECT")

def isScheme (value : List UInt8) : Bool :=
  value ≠ [] && value.length ≤ Http.Target.greatestScheme && value.all Http.Target.isSchemeByte

def isAuthority (value : List UInt8) : Bool :=
  value ≠ [] && !value.any Http.Target.endsAuthority && Http.Target.authority value

def isPath (value : List UInt8) : Bool := value ≠ [] && Http.Target.pathAndQuery value

/-- Whether the parts make a request line.  A tunnel has neither scheme nor path; everything else
has a scheme, and has a path where it has an authority. -/
def makesRequest (l : HeaderList) : Bool :=
  l.has .method && !l.has .protocol && !l.has .status &&
    (l.part? .authority).all isAuthority &&
    (if l.asksTunnel then !l.has .scheme && !l.has .path
    else
      (l.part? .scheme).any isScheme && (l.part? .path).all isPath &&
        (l.has .path || !l.has .authority))

/-- A request, as far as it matters for what comes after it. -/
structure Request where
  method : List UInt8
  contentLength : Option Nat
  deriving DecidableEq, Repr

inductive Verdict where
  | accepted (request : Request)
  | malformed
  | tooLarge
  deriving DecidableEq, Repr

def judge (l : HeaderList) (endStream : Bool) : Verdict :=
  if l.malformed then .malformed
  else
    match l.contentLength? with
    | none => .malformed
    | some length =>
        if endStream ∧ length.any (0 < ·) then .malformed
        else if l.tooLarge then .tooLarge
        else if l.makesRequest then .accepted ⟨(l.part? .method).getD [], length⟩
        else .malformed

end HeaderList
end Http2
end ConstantReply
