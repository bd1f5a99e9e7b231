import ConstantReply.Http2.Writer

/-!
# A client that speaks in frames

What such a client sends for one request, and how it reads the answer.
-/

namespace ConstantReply
namespace Http2

/-- What a client remembers of its connection. -/
structure FrameClient where
  nextStream : Nat := 1
  sentTable : Hpack.Table := {}
  table : Hpack.Table := {}
  deriving DecidableEq, Repr

/-- A request as a client has it. -/
structure ClientRequest where
  method : List UInt8
  path : List UInt8
  fields : List Hpack.Field
  body : List UInt8
  deriving DecidableEq, Repr

/-- An answer as a client gets it. -/
structure ClientAnswer where
  fields : List Hpack.Field
  body : List UInt8
  deriving DecidableEq, Repr

namespace FrameClient

def opening : List UInt8 := Http.preface ++ frameBytes 4 0 0 []

def pieces : Nat -> List UInt8 -> List (List UInt8)
  | 0, _ => []
  | _, [] => []
  | fuel + 1, bytes => bytes.take greatestPayload :: pieces fuel (bytes.drop greatestPayload)

def piecesOf (bytes : List UInt8) : List (List UInt8) := pieces bytes.length bytes

def pieceFrames (kind : Nat) (lastFlags : UInt8) (stream : Nat) :
    List (List UInt8) -> List UInt8
  | [] => []
  | [last] => frameBytes kind lastFlags stream last
  | piece :: rest => frameBytes kind 0 stream piece ++ pieceFrames kind lastFlags stream rest

def blockFrames (stream : Nat) (endStream : Bool) (block : List UInt8) : List UInt8 :=
  let ending := if endStream then Flag.endStream else 0
  match piecesOf block with
  | [] => frameBytes 1 (Flag.endHeaders ||| ending) stream []
  | [only] => frameBytes 1 (Flag.endHeaders ||| ending) stream only
  | first :: rest =>
      frameBytes 1 ending stream first ++ pieceFrames 9 Flag.endHeaders stream rest

def requestFields (authority : String) (r : ClientRequest) : List Hpack.Field :=
  [⟨Ascii.bytes ":method", r.method⟩,
    Hpack.Field.ofStrings ":scheme" "http",
    Hpack.Field.ofStrings ":authority" authority,
    ⟨Ascii.bytes ":path", r.path⟩] ++
    r.fields.map fun f => ⟨f.name.map Ascii.lowerByte, f.value⟩

def request (c : FrameClient) (authority : String) (r : ClientRequest) :
    List UInt8 × Nat × FrameClient :=
  let stream := c.nextStream
  let (block, sentTable) := Hpack.encode c.sentTable (requestFields authority r)
  (blockFrames stream (r.body == []) block ++ pieceFrames 0 Flag.endStream stream (piecesOf r.body),
    stream, { c with nextStream := stream + 2, sentTable := sentTable })

def readFrames (bytes : List UInt8) : List (FrameHeader × List UInt8) :=
  (bytes.foldl
    (fun (s : FrameReader × List (FrameHeader × List UInt8)) b =>
      match s.1.step b with
      | .more reader => (reader, s.2)
      | .complete header payload => (.start, s.2 ++ [(header, payload)])
      | .tooLarge => (.start, s.2))
    (.start, [])).2

def answer (c : FrameClient) (stream : Nat) (bytes : List UInt8) :
    Option ClientAnswer × FrameClient :=
  (readFrames bytes).foldl
    (fun (r : Option ClientAnswer × FrameClient) frame =>
      if frame.1.kind = 1 then
        match Hpack.decode r.2.table frame.2 with
        | none => r
        | some (fields, table) =>
            (if frame.1.stream = stream then some ⟨fields, []⟩ else r.1,
              { r.2 with table := table })
      else if frame.1.kind = 0 ∧ frame.1.stream = stream then
        (r.1.map fun a => { a with body := a.body ++ frame.2 }, r.2)
      else r)
    (none, c)

end FrameClient
end Http2
end ConstantReply
