import ConstantReply.Http.Framing

/-!
# Passing over request bodies

The bytes of a body are counted and thrown away.  A body is passed over if it is there as soon as
its request is answered; a chunked one must then have at most one chunk of data.  As with heads,
this stands for hyper, and was not tried against it.
-/

namespace ConstantReply
namespace Http

/-- Where in a chunked body the next byte belongs. -/
inductive ChunkPlace where
  | sizeStart
  | size (n : Nat)
  | sizeBlank (n : Nat)
  | extension (n : Nat)
  | sizeLf (n : Nat)
  | data (left : Nat)
  | dataCr
  | dataLf
  | trailerStart
  | trailerName
  | trailerValue
  | trailerLf
  | lastLf
  deriving DecidableEq, Repr

/-- A body that is being passed over. -/
inductive BodyReader where
  | exactly (left : Nat)
  | chunked (place : ChunkPlace) (hadData : Bool)
  deriving DecidableEq, Repr

/-- What one more byte of a body leads to. -/
inductive BodyStep where
  | more (reader : BodyReader)
  | complete
  | broken
  deriving DecidableEq, Repr

def chunkSizeEnd : Nat := 0x10000000000000000

namespace ChunkPlace

def afterSize (n : Nat) (hadData : Bool) : BodyStep :=
  if n = 0 then .more (.chunked .trailerStart hadData)
  else if hadData then .broken
  else .more (.chunked (.data n) true)

def step (place : ChunkPlace) (hadData : Bool) (b : UInt8) : BodyStep :=
  let go (place : ChunkPlace) : BodyStep := .more (.chunked place hadData)
  match place with
  | .sizeStart =>
      match Ascii.hexDigitByte? b with
      | some d => go (.size d)
      | none => .broken
  | .size n =>
      match Ascii.hexDigitByte? b with
      | some d => if n * 16 + d < chunkSizeEnd then go (.size (n * 16 + d)) else .broken
      | none =>
          if isBlank b then go (.sizeBlank n)
          else if b = 0x3B then go (.extension n)
          else if b = cr then go (.sizeLf n)
          else .broken
  | .sizeBlank n =>
      if isBlank b then go (.sizeBlank n)
      else if b = 0x3B then go (.extension n)
      else if b = cr then go (.sizeLf n)
      else .broken
  | .extension n =>
      if b = cr then go (.sizeLf n)
      else if b = lf then .broken
      else go (.extension n)
  | .sizeLf n => if b = lf then afterSize n hadData else .broken
  | .data left => if left ≤ 1 then go .dataCr else go (.data (left - 1))
  | .dataCr => if b = cr then go .dataLf else .broken
  | .dataLf => if b = lf then go .sizeStart else .broken
  | .trailerStart =>
      if b = cr then go .lastLf
      else if isTokenByte b then go .trailerName
      else .broken
  | .trailerName =>
      if b = colon then go .trailerValue
      else if isTokenByte b then go .trailerName
      else .broken
  | .trailerValue =>
      if b = cr then go .trailerLf
      else if isValueByte b then go .trailerValue
      else .broken
  | .trailerLf => if b = lf then go .trailerStart else .broken
  | .lastLf => if b = lf then .complete else .broken

end ChunkPlace

namespace BodyReader

def ofForm? : BodyForm -> Option BodyReader
  | .empty => none
  | .exactly length => some (.exactly length)
  | .chunked => some (.chunked .sizeStart false)

def step (reader : BodyReader) (b : UInt8) : BodyStep :=
  match reader with
  | .exactly left => if left ≤ 1 then .complete else .more (.exactly (left - 1))
  | .chunked place hadData => place.step hadData b

end BodyReader
end Http
end ConstantReply
