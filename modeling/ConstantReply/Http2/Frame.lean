import ConstantReply.Text.Ascii

/-!
# Frames from a client

A frame is a header of nine bytes and a payload.  Its header tells the length of the payload, the
kind of the frame, some flags, and the stream that it belongs to.
-/

namespace ConstantReply
namespace Http2

/-- Why a stream or a connection is ended. -/
inductive ErrorCode where
  | noError
  | protocolError
  | flowControlError
  | streamClosed
  | frameSizeError
  | refusedStream
  | cancel
  | enhanceYourCalm
  deriving DecidableEq, Repr

def ErrorCode.number : ErrorCode -> Nat
  | .noError => 0
  | .protocolError => 1
  | .flowControlError => 3
  | .streamClosed => 5
  | .frameSizeError => 6
  | .refusedStream => 7
  | .cancel => 8
  | .enhanceYourCalm => 11

def ErrorCode.detail : ErrorCode -> String
  | .enhanceYourCalm => "too_many_continuations"
  | _ => ""

/-- What is wrong, and with what. -/
inductive Fault where
  | connection (code : ErrorCode)
  | stream (id : Nat) (code : ErrorCode)
  deriving DecidableEq, Repr

/-!
## Bytes and numbers
-/

def number (bytes : List UInt8) : Nat := bytes.foldl (fun n b => n * 256 + b.toNat) 0

def bytesOf : Nat -> Nat -> List UInt8
  | 0, _ => []
  | width + 1, n => bytesOf width (n / 256) ++ [UInt8.ofNat n]

def halfRange : Nat := 0x80000000

/-!
## Headers of frames
-/

structure FrameHeader where
  length : Nat
  kind : Nat
  flags : UInt8
  stream : Nat
  deriving DecidableEq, Repr

namespace FrameHeader

def size : Nat := 9

def ofBytes (bytes : List UInt8) : FrameHeader where
  length := number (bytes.take 3)
  kind := number ((bytes.drop 3).take 1)
  flags := (bytes.drop 4).head?.getD 0
  stream := number (bytes.drop 5) % halfRange

def bytes (h : FrameHeader) : List UInt8 :=
  bytesOf 3 h.length ++ bytesOf 1 h.kind ++ [h.flags] ++ bytesOf 4 h.stream

def has (h : FrameHeader) (flag : UInt8) : Bool := h.flags &&& flag != 0

end FrameHeader

namespace Flag

def endStream : UInt8 := 0x1

def ack : UInt8 := 0x1

def endHeaders : UInt8 := 0x4

def padded : UInt8 := 0x8

def priority : UInt8 := 0x20

end Flag

/-!
## Frames
-/

/-- A setting: its number and its value. -/
structure Setting where
  id : Nat
  value : Nat
  deriving DecidableEq, Repr

inductive Frame where
  | data (stream : Nat) (content : List UInt8) (size : Nat) (endStream : Bool)
  | headers (stream : Nat) (fragment : List UInt8) (endHeaders endStream : Bool)
  | continuation (stream : Nat) (fragment : List UInt8) (endHeaders : Bool)
  | reset (stream : Nat)
  | settings (settings : List Setting)
  | settingsAck
  | ping (payload : List UInt8)
  | pingAck (payload : List UInt8)
  | goAway
  | windowUpdate (stream increment : Nat)
  | ignored
  deriving DecidableEq, Repr

namespace Frame

def broken : Fault := .connection .protocolError

def unpad (padded : Bool) (payload : List UInt8) : Except Fault (List UInt8) :=
  if padded = false then .ok payload
  else
    match payload with
    | [] => .error broken
    | n :: rest =>
        if rest.length < n.toNat then .error broken
        else .ok (rest.take (rest.length - n.toNat))

def data? (h : FrameHeader) (payload : List UInt8) : Except Fault Frame :=
  if h.stream = 0 then .error broken
  else
    (unpad (h.has Flag.padded) payload).map fun content =>
      .data h.stream content h.length (h.has Flag.endStream)

/-- The fragment of a header block, after a priority if there is one.  A stream cannot depend on
itself. -/
def headers? (h : FrameHeader) (payload : List UInt8) : Except Fault Frame :=
  if h.stream = 0 then .error broken
  else
    match unpad (h.has Flag.padded) payload with
    | .error fault => .error fault
    | .ok content =>
        let frame (fragment : List UInt8) : Frame :=
          .headers h.stream fragment (h.has Flag.endHeaders) (h.has Flag.endStream)
        if h.has Flag.priority = false then .ok (frame content)
        else if content.length < 5 then .error broken
        else if number (content.take 4) % halfRange = h.stream then
          .error (.stream h.stream .protocolError)
        else .ok (frame (content.drop 5))

def priority? (h : FrameHeader) (payload : List UInt8) : Except Fault Frame :=
  if h.stream = 0 ∨ payload.length ≠ 5 then .error broken
  else if number (payload.take 4) % halfRange = h.stream then
    .error (.stream h.stream .protocolError)
  else .ok .ignored

def reset? (h : FrameHeader) (payload : List UInt8) : Except Fault Frame :=
  if h.stream = 0 ∨ payload.length ≠ 4 then .error broken else .ok (.reset h.stream)

def readSettings : List UInt8 -> Option (List Setting)
  | [] => some []
  | a :: b :: c :: d :: e :: f :: rest =>
      (readSettings rest).map (⟨number [a, b], number [c, d, e, f]⟩ :: ·)
  | _ => none

def Setting.isValid (s : Setting) : Bool :=
  match s.id with
  | 2 => s.value ≤ 1
  | 4 => s.value < halfRange
  | 5 => 16384 ≤ s.value && s.value ≤ 16777215
  | 8 => s.value ≤ 1
  | _ => true

def settings? (h : FrameHeader) (payload : List UInt8) : Except Fault Frame :=
  if h.stream ≠ 0 then .error broken
  else if h.has Flag.ack then if payload = [] then .ok .settingsAck else .error broken
  else
    match readSettings payload with
    | none => .error broken
    | some list => if list.all Setting.isValid then .ok (.settings list) else .error broken

def ping? (h : FrameHeader) (payload : List UInt8) : Except Fault Frame :=
  if h.stream ≠ 0 ∨ payload.length ≠ 8 then .error broken
  else .ok (if h.has Flag.ack then .pingAck payload else .ping payload)

def goAway? (payload : List UInt8) : Except Fault Frame :=
  if payload.length < 8 then .error broken else .ok .goAway

def windowUpdate? (h : FrameHeader) (payload : List UInt8) : Except Fault Frame :=
  let increment := number payload % halfRange
  if payload.length ≠ 4 ∨ increment = 0 then .error broken
  else .ok (.windowUpdate h.stream increment)

def continuation? (h : FrameHeader) (payload : List UInt8) : Except Fault Frame :=
  if h.stream = 0 then .error broken
  else .ok (.continuation h.stream payload (h.has Flag.endHeaders))

/-- The frame with a header and a payload.  A client promises no streams, and kinds that are not
known are passed over. -/
def ofPayload (h : FrameHeader) (payload : List UInt8) : Except Fault Frame :=
  match h.kind with
  | 0 => data? h payload
  | 1 => headers? h payload
  | 2 => priority? h payload
  | 3 => reset? h payload
  | 4 => settings? h payload
  | 5 => .error broken
  | 6 => ping? h payload
  | 7 => goAway? payload
  | 8 => windowUpdate? h payload
  | 9 => continuation? h payload
  | _ => .ok .ignored

end Frame

/-!
## Reading frames byte by byte
-/

def greatestPayload : Nat := 16384

def greatestContinuations : Nat := 5

/-- A frame that is being read.  What is there of it is kept with the last byte first. -/
inductive FrameReader where
  | header (read : List UInt8)
  | payload (header : FrameHeader) (left : Nat) (read : List UInt8)
  deriving DecidableEq, Repr

/-- What one more byte leads to. -/
inductive FrameProgress where
  | more (reader : FrameReader)
  | complete (header : FrameHeader) (payload : List UInt8)
  | tooLarge
  deriving DecidableEq, Repr

namespace FrameReader

def start : FrameReader := .header []

def afterHeader (h : FrameHeader) : FrameProgress :=
  if greatestPayload < h.length then .tooLarge
  else if h.length = 0 then .complete h []
  else .more (.payload h h.length [])

def step (reader : FrameReader) (b : UInt8) : FrameProgress :=
  match reader with
  | .header r =>
      if r.length + 1 < FrameHeader.size then .more (.header (b :: r))
      else afterHeader (FrameHeader.ofBytes (b :: r).reverse)
  | .payload h left r =>
      if left ≤ 1 then .complete h (b :: r).reverse else .more (.payload h (left - 1) (b :: r))

end FrameReader
end Http2
end ConstantReply
