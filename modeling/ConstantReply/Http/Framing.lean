import ConstantReply.Http.Head

/-!
# What a complete head means

The target and the names are checked, and the fields tell how the body is delimited and whether the
client wants the connection kept.  Fields are judged in the order in which they stand; the first
that is wrong decides the refusal.  As with heads, this stands for hyper, and was not tried against
it.
-/

namespace ConstantReply
namespace Http

/-- How the body of a request is delimited. -/
inductive BodyForm where
  | empty
  | exactly (length : Nat)
  | chunked
  deriving DecidableEq, Repr

/-- What the fields read so far say. -/
structure FieldSummary where
  length : Option Nat := none
  lengthGiven : Bool := false
  chunked : Option Bool := none
  closeAsked : Bool := false
  keepAsked : Bool := false
  deriving DecidableEq, Repr

/-- A request that is answered. -/
structure Request where
  head : Head
  body : BodyForm
  persistent : Bool
  deriving DecidableEq, Repr

/-!
## Fields with a meaning
-/

def elements (value : List UInt8) : List (List UInt8) :=
  (value.splitOn comma).map trimBlanks

def isAsciiValue (value : List UInt8) : Bool := value.all (· < 0x80)

def names (word : String) (value : List UInt8) : Bool :=
  isAsciiValue value && (elements value).any (isWord word)

def endsChunked (value : List UInt8) : Bool :=
  isAsciiValue value && ((elements value).getLast?.map (isWord "chunked")).getD false

def digitsValue? (value : List UInt8) : Option Nat :=
  if value ≠ [] ∧ value.all Ascii.isDigitByte then
    some (value.foldl (fun n b => n * 10 + (b.toNat - 0x30)) 0)
  else none

def lengthEnd : Nat := 0x10000000000000000

def lengthLimit : Nat := lengthEnd - 2

namespace FieldSummary

def addLength (s : FieldSummary) (value : List UInt8) : Except Refusal FieldSummary :=
  if s.chunked.isSome then .ok { s with lengthGiven := true }
  else
    match digitsValue? value with
    | none => .error .badRequest
    | some n =>
        if lengthEnd ≤ n then .error .badRequest
        else
          match s.length with
          | some known => if known = n then .ok s else .error .badRequest
          | none =>
              if lengthLimit ≤ n then .error .fieldsTooLarge
              else .ok { s with length := some n, lengthGiven := true }

def addCoding (s : FieldSummary) (version : Version) (value : List UInt8) :
    Except Refusal FieldSummary :=
  match version with
  | .http10 => .error .badRequest
  | .http11 => .ok { s with chunked := some (endsChunked value) }

/-- Take a wish for the connection into account.  Closing has precedence. -/
def addConnection (s : FieldSummary) (value : List UInt8) : FieldSummary :=
  if names "close" value then { s with closeAsked := true }
  else if names "keep-alive" value ∧ s.closeAsked = false then { s with keepAsked := true }
  else s

def add (s : FieldSummary) (version : Version) (field : Field) : Except Refusal FieldSummary :=
  if isWord "content-length" field.name then s.addLength field.value
  else if isWord "transfer-encoding" field.name then s.addCoding version field.value
  else if isWord "connection" field.name then .ok (s.addConnection field.value)
  else .ok s

def ofFields (version : Version) (fields : List Field) : Except Refusal FieldSummary :=
  fields.foldlM (fun s field => s.add version field) {}

/-- The form of the body.  Codings other than chunked leave no way to find its end. -/
def body (s : FieldSummary) : Except Refusal BodyForm :=
  match s.chunked with
  | some true => .ok .chunked
  | some false => .error .badRequest
  | none =>
      match s.length with
      | none => .ok .empty
      | some n => if n = 0 then .ok .empty else .ok (.exactly n)

/-- Whether the client lets the connection be kept.  Two ways to delimit the body at once are
suspicious, and the connection is not kept. -/
def persistent (s : FieldSummary) (version : Version) : Bool :=
  (match version with
    | .http10 => s.keepAsked
    | .http11 => !s.closeAsked) &&
    !(s.chunked.isSome && s.lengthGiven)

end FieldSummary

/-!
## Judgement
-/

namespace Head

def refusal? (head : Head) : Option Refusal :=
  if Target.greatestLength < head.line.target.length then some .targetTooLong
  else if head.fields.any fun f => greatestFieldName < f.name.length then some .fieldsTooLarge
  else if Target.isWellFormed head.line.target then none
  else some .badRequest

def judge (head : Head) : Except Refusal Request :=
  match head.refusal? with
  | some why => .error why
  | none =>
      match FieldSummary.ofFields head.line.version head.fields with
      | .error why => .error why
      | .ok summary =>
          match summary.body with
          | .error why => .error why
          | .ok body => .ok ⟨head, body, summary.persistent head.line.version⟩

end Head
end Http
end ConstantReply
