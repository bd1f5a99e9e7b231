import ConstantReply.Http.Target

/-!
# Request heads

A head is read one byte at a time.  A byte that cannot stand where it stands is refused at once;
what can only be judged of the whole head, such as its target, is judged when the empty line that
ends it has been read.

The server leaves heads, bodies and what ends a connection to hyper.  The modules on textual heads
stand for it, and were not tried against a connection that it served.
-/

namespace ConstantReply
namespace Http

/-- The versions of requests with a textual head. -/
inductive Version where
  | http10
  | http11
  deriving DecidableEq, Repr

/-- One line of a head: a name and a value without blanks around it. -/
structure Field where
  name : List UInt8
  value : List UInt8
  deriving DecidableEq, Repr

structure RequestLine where
  method : List UInt8
  target : List UInt8
  version : Version
  deriving DecidableEq, Repr

structure Head where
  line : RequestLine
  fields : List Field
  deriving DecidableEq, Repr

/-- Why a request is refused. -/
inductive Refusal where
  | badRequest
  | targetTooLong
  | fieldsTooLarge
  deriving DecidableEq, Repr

/-!
## Limits
-/

def greatestFieldCount : Nat := 100

def greatestFieldName : Nat := 65535

def headLimit : Nat := 417792

/-!
## Places in a head

Texts that are still being read are kept with the last byte first.
-/

/-- How far the reading of a head has come. -/
inductive Place where
  | before
  | beforeCr
  | method (read : List UInt8)
  | target (method read : List UInt8)
  | version (method target due : List UInt8)
  | lineEnd (line : RequestLine)
  | lineCr (line : RequestLine)
  | fieldStart (line : RequestLine) (fields : List Field)
  | name (line : RequestLine) (fields : List Field) (read : List UInt8)
  | beforeValue (line : RequestLine) (fields : List Field) (name : List UInt8)
  | value (line : RequestLine) (fields : List Field) (name read : List UInt8)
  | valueCr (line : RequestLine) (fields : List Field) (name read : List UInt8)
  | lastCr (line : RequestLine) (fields : List Field)
  deriving DecidableEq, Repr

/-- What one more byte of a head leads to. -/
inductive HeadStep where
  | more (place : Place)
  | refused (why : Refusal)
  | complete (head : Head)
  deriving DecidableEq, Repr

namespace Place

def versionStem : List UInt8 := Ascii.bytes "HTTP/1."

def isTargetByte (b : UInt8) : Bool := Target.isVisible b

def addField (fields : List Field) (name read : List UInt8) : List Field :=
  ⟨name, (read.dropWhile isBlank).reverse⟩ :: fields

def bad : HeadStep := .refused .badRequest

def step (place : Place) (b : UInt8) : HeadStep :=
  match place with
  | .before =>
      if b = cr then .more .beforeCr
      else if b = lf then .more .before
      else if isTokenByte b then .more (.method [b])
      else bad
  | .beforeCr => if b = lf then .more .before else bad
  | .method r =>
      if b = space then .more (.target r.reverse [])
      else if isTokenByte b then .more (.method (b :: r))
      else bad
  | .target m r =>
      if b = space then
        if r ≠ [] ∧ Utf8.WellFormed r.reverse then
          .more (.version m r.reverse versionStem)
        else bad
      else if isTargetByte b then .more (.target m (b :: r))
      else bad
  | .version m t (d :: due) => if b = d then .more (.version m t due) else bad
  | .version m t [] =>
      if b = 0x30 then .more (.lineEnd ⟨m, t, .http10⟩)
      else if b = 0x31 then .more (.lineEnd ⟨m, t, .http11⟩)
      else bad
  | .lineEnd l =>
      if b = cr then .more (.lineCr l)
      else if b = lf then .more (.fieldStart l [])
      else bad
  | .lineCr l => if b = lf then .more (.fieldStart l []) else bad
  | .fieldStart l fs =>
      if b = cr then .more (.lastCr l fs)
      else if b = lf then .complete ⟨l, fs.reverse⟩
      else if isTokenByte b then
        if fs.length < greatestFieldCount then .more (.name l fs [b])
        else .refused .fieldsTooLarge
      else bad
  | .name l fs r =>
      if b = colon then .more (.beforeValue l fs r.reverse)
      else if isTokenByte b then .more (.name l fs (b :: r))
      else bad
  | .beforeValue l fs n =>
      if isBlank b then .more (.beforeValue l fs n)
      else if b = cr then .more (.valueCr l fs n [])
      else if b = lf then .more (.fieldStart l (addField fs n []))
      else if isValueByte b then .more (.value l fs n [b])
      else bad
  | .value l fs n r =>
      if b = cr then .more (.valueCr l fs n r)
      else if b = lf then .more (.fieldStart l (addField fs n r))
      else if isValueByte b then .more (.value l fs n (b :: r))
      else bad
  | .valueCr l fs n r => if b = lf then .more (.fieldStart l (addField fs n r)) else bad
  | .lastCr l fs => if b = lf then .complete ⟨l, fs.reverse⟩ else bad

end Place

/-- A head that is being read, and how many of its bytes there are so far. -/
structure HeadReader where
  place : Place := .before
  size : Nat := 0
  deriving DecidableEq, Repr

/-- What one more byte leads to, the limit on the size of a head included. -/
inductive HeadProgress where
  | more (reader : HeadReader)
  | refused (why : Refusal)
  | complete (head : Head)
  deriving DecidableEq, Repr

namespace HeadReader

def step (reader : HeadReader) (b : UInt8) : HeadProgress :=
  match reader.place.step b with
  | .refused why => .refused why
  | .complete head => .complete head
  | .more place =>
      if headLimit ≤ reader.size + 1 then .refused .fieldsTooLarge
      else .more ⟨place, reader.size + 1⟩

end HeadReader
end Http
end ConstantReply
