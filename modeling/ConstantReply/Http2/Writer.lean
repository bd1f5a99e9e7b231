import ConstantReply.Http2.Connection

/-!
# Writing frames

The frames of the server as bytes.  The fields of answers go through a table that the client keeps
too, so a date is sent in full only once.
-/

namespace ConstantReply
namespace Http2

/-- What the server remembers of the answers that it wrote. -/
structure Writer where
  table : Hpack.Table := {}
  rooms : List Nat := []
  deriving DecidableEq, Repr

def serverSettings : List Setting :=
  [⟨3, greatestWaiting⟩, ⟨4, targetWindow⟩, ⟨5, greatestPayload⟩, ⟨6, listLimit⟩]

def Setting.bytes (s : Setting) : List UInt8 := bytesOf 2 s.id ++ bytesOf 4 s.value

def frameBytes (kind : Nat) (flags : UInt8) (stream : Nat) (payload : List UInt8) : List UInt8 :=
  FrameHeader.bytes ⟨payload.length, kind, flags, stream⟩ ++ payload

def answerFields (date : String) (answer : Http.Answer) : List Hpack.Field :=
  Hpack.Field.ofStrings ":status" (toString answer.status) ::
    (answer.fields ++ [("date", date)]).map fun f => Hpack.Field.ofStrings f.1 f.2

def tooLargeFields : List Hpack.Field := [Hpack.Field.ofStrings ":status" "431"]

namespace Writer

def roomsToTell (w : Writer) : List Nat :=
  match w.rooms.getLast? with
  | none => []
  | some last =>
      let least := w.rooms.foldl min last
      if least < last then [least, last]
      else if last = w.table.room then []
      else [last]

def block (w : Writer) (fields : List Hpack.Field) : List UInt8 × Writer :=
  let rooms := w.roomsToTell
  let table := rooms.foldl Hpack.Table.resize w.table
  let (bytes, table) := Hpack.encode table fields
  (rooms.flatMap (fun room => (Hpack.Instruction.resize room).bytes) ++ bytes, ⟨table, []⟩)

def headers (w : Writer) (stream : Nat) (fields : List Hpack.Field) (endStream : Bool) :
    List UInt8 × Writer :=
  let (block, w) := w.block fields
  let flags := if endStream then Flag.endHeaders ||| Flag.endStream else Flag.endHeaders
  (frameBytes 1 flags stream block, w)

def write (w : Writer) (date : String) : ServerFrame -> List UInt8 × Writer
  | .settings => (frameBytes 4 0 0 (serverSettings.flatMap Setting.bytes), w)
  | .settingsAck room => (frameBytes 4 Flag.ack 0 [], { w with rooms := w.rooms ++ room.toList })
  | .ping payload => (frameBytes 6 0 0 payload, w)
  | .pingAck payload => (frameBytes 6 Flag.ack 0 payload, w)
  | .windowUpdate increment => (frameBytes 8 0 0 (bytesOf 4 increment), w)
  | .reset stream code => (frameBytes 3 0 stream (bytesOf 4 code.number), w)
  | .goAway last code =>
      (frameBytes 7 0 0 (bytesOf 4 last ++ bytesOf 4 code.number ++ Ascii.bytes code.detail), w)
  | .answer stream answer endStream => w.headers stream (answerFields date answer) endStream
  | .tooLarge stream => w.headers stream tooLargeFields true

def writeAll (w : Writer) (date : String) : List ServerFrame -> List UInt8 × Writer
  | [] => ([], w)
  | f :: rest =>
      let (bytes, w) := w.write date f
      let (more, w) := w.writeAll date rest
      (bytes ++ more, w)

end Writer
end Http2
end ConstantReply
