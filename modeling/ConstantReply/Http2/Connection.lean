import ConstantReply.Http.Connection
import ConstantReply.Http2.HeaderList

/-!
# Connections in frames

A connection collects requests from the frames of its streams and answers them when everything that
has arrived has been read.  The answer does not wait for the end of a request; what comes of it
later is passed over.  The modules on frames stand for h2, and were not tried against a connection
that it served.
-/

namespace ConstantReply
namespace Http2

/-!
## Frames from the server
-/

inductive ServerFrame where
  | settings
  | settingsAck (room : Option Nat)
  | ping (payload : List UInt8)
  | pingAck (payload : List UInt8)
  | windowUpdate (increment : Nat)
  | reset (stream : Nat) (code : ErrorCode)
  | goAway (lastStream : Nat) (code : ErrorCode)
  | answer (stream : Nat) (answer : Http.Answer) (endStream : Bool)
  | tooLarge (stream : Nat)
  deriving DecidableEq, Repr

def greatestWaiting : Nat := 200

def targetWindow : Nat := 1048576

def usualWindow : Nat := 65535

def lastOfAll : Nat := halfRange - 1

def farewell : List UInt8 := [0x0B, 0x7B, 0xA2, 0xF0, 0x8B, 0x9B, 0xFE, 0x54]

/-!
## States
-/

/-- A request that waits for its answer. -/
structure Exchange where
  stream : Nat
  method : List UInt8
  left : Option Nat
  received : Nat := 0
  ended : Bool
  deriving DecidableEq, Repr

/-- A header block of which parts are to come. -/
structure OpenBlock where
  stream : Nat
  block : List UInt8
  endStream : Bool
  continuations : Nat := 0
  deriving DecidableEq, Repr

/-- What a connection reads. -/
inductive Phase where
  | preface (due : List UInt8)
  | frames (reader : FrameReader)
  | closed
  deriving DecidableEq, Repr

structure Connection where
  phase : Phase := .preface Http.preface
  openBlock : Option OpenBlock := none
  table : Hpack.Table := {}
  waiting : List Exchange := []
  abandoned : List Nat := []
  nextStream : Nat := 1
  lastStream : Nat := 0
  window : Nat := usualWindow
  credit : Nat := usualWindow
  agreed : Bool := false
  ending : Bool := false
  leaving : Bool := false
  deriving DecidableEq, Repr

abbrev Result := Connection × List ServerFrame

namespace Connection

def isClosed (c : Connection) : Bool := c.phase == .closed

def close (c : Connection) : Connection := { c with phase := .closed }

def exchange? (c : Connection) (stream : Nat) : Option Exchange :=
  c.waiting.find? fun e => e.stream == stream

def replaceExchange (c : Connection) (e : Exchange) : Connection :=
  { c with waiting := c.waiting.map fun known => if known.stream = e.stream then e else known }

def nextAfter (next stream : Nat) : Nat := if stream % 2 = 0 then next else max next (stream + 2)

def abandon (c : Connection) (stream : Nat) : Connection :=
  { c with
    waiting := c.waiting.filter fun e => e.stream != stream
    abandoned := c.abandoned ++ [stream]
    nextStream := nextAfter c.nextStream stream }

def fail (c : Connection) : Fault -> Result
  | .connection code => (c.close, [.goAway c.lastStream code])
  | .stream id code => (c.abandon id, [.reset id code])

def broken (c : Connection) : Result := c.fail (.connection .protocolError)

/-!
## Header blocks
-/

def openStream (c : Connection) (stream : Nat) (list : HeaderList) (endStream : Bool) : Result :=
  let known := { c with nextStream := stream + 2 }
  if greatestWaiting ≤ c.waiting.length then (known.abandon stream, [.reset stream .refusedStream])
  else
    let c := { known with lastStream := stream }
    match list.judge endStream with
    | .malformed => c.fail (.stream stream .protocolError)
    | .tooLarge =>
        if endStream then (c, [.tooLarge stream])
        else (c.abandon stream, [.tooLarge stream, .reset stream .refusedStream])
    | .accepted request =>
        ({ c with waiting := c.waiting ++
            [⟨stream, request.method, request.contentLength, 0, endStream⟩] }, [])

def endByTrailers (c : Connection) (e : Exchange) (endStream : Bool) : Result :=
  if e.ended then c.broken
  else if endStream = false ∨ e.left.any (0 < ·) then c.fail (.stream e.stream .protocolError)
  else (c.replaceExchange { e with ended := true }, [])

def onBlock (c : Connection) (stream : Nat) (endStream : Bool) (block : List UInt8) : Result :=
  match Hpack.decode c.table block with
  | none => c.broken
  | some (fields, table) =>
      let c := { c with table := table }
      match HeaderList.ofFields? fields with
      | none => c.broken
      | some list =>
          if list.malformed then c.fail (.stream stream .protocolError)
          else
            match c.exchange? stream with
            | some e => c.endByTrailers e endStream
            | none =>
                if stream ∈ c.abandoned then (c, [])
                else if stream % 2 = 0 ∨ stream < c.nextStream then c.broken
                else c.openStream stream list endStream

/-!
## Content
-/

def streamWindow (c : Connection) : Nat := if c.agreed then targetWindow else usualWindow

def onContent (c : Connection) (e : Exchange) (length size : Nat) (endStream : Bool) : Result :=
  let left := e.left.map (· - length)
  if c.streamWindow < e.received + size then c.fail (.stream e.stream .flowControlError)
  else if e.left.any (· < length) then c.fail (.stream e.stream .protocolError)
  else if endStream ∧ left.any (0 < ·) then c.fail (.stream e.stream .protocolError)
  else
    (c.replaceExchange
      { e with left := left, received := e.received + size, ended := endStream }, [])

def onData (c : Connection) (stream length size : Nat) (endStream : Bool) : Result :=
  let flow := { c with window := c.window - size }
  match c.exchange? stream with
  | some e =>
      if e.ended then c.broken
      else if c.window < size then c.fail (.connection .flowControlError)
      else flow.onContent e length size endStream
  | none =>
      if stream % 2 = 0 ∨ c.nextStream ≤ stream then c.broken
      else if c.window < size then c.fail (.connection .flowControlError)
      else if stream ∈ c.abandoned then (flow, [])
      else flow.fail (.stream stream .streamClosed)

/-!
## Other frames
-/

def roomAsked (settings : List Setting) : Option Nat :=
  (settings.reverse.find? fun s => s.id == 1).map Setting.value

/-- Leave to send more.  It is never used, as answers have no content, but there is an end to it. -/
def onWindowUpdate (c : Connection) (stream increment : Nat) : Result :=
  if stream = 0 then
    if halfRange ≤ c.credit + increment then c.fail (.connection .flowControlError)
    else ({ c with credit := c.credit + increment }, [])
  else if stream % 2 = 0 ∨ c.nextStream ≤ stream then c.broken
  else (c, [])

def onReset (c : Connection) (stream : Nat) : Result :=
  if stream % 2 = 0 ∨ c.nextStream ≤ stream then c.broken
  else ({ c with waiting := c.waiting.filter fun e => e.stream != stream }, [])

def onFrame (c : Connection) : Frame -> Result
  | .data stream content size endStream => c.onData stream content.length size endStream
  | .headers stream fragment true endStream => c.onBlock stream endStream fragment
  | .headers stream fragment false endStream =>
      ({ c with openBlock := some ⟨stream, fragment, endStream, 0⟩ }, [])
  | .continuation _ _ _ => c.broken
  | .reset stream => c.onReset stream
  | .settings list => (c, [.settingsAck (roomAsked list)])
  | .settingsAck => if c.agreed then c.broken else ({ c with agreed := true }, [])
  | .ping payload => (c, [.pingAck payload])
  | .pingAck payload => ({ c with leaving := c.leaving || (c.ending && payload == farewell) }, [])
  | .goAway => ({ c with leaving := true }, [])
  | .windowUpdate stream increment => c.onWindowUpdate stream increment
  | .ignored => (c, [])

def onContinuation (c : Connection) (b : OpenBlock) : Frame -> Result
  | .continuation stream fragment endHeaders =>
      if stream ≠ b.stream then c.broken
      else if endHeaders then
        { c with openBlock := none }.onBlock stream b.endStream (b.block ++ fragment)
      else if greatestContinuations ≤ b.continuations then
        c.fail (.connection .enhanceYourCalm)
      else
        let b :=
          { b with block := b.block ++ fragment, continuations := b.continuations + 1 }
        ({ c with openBlock := some b }, [])
  | _ => c.broken

def onPayload (c : Connection) (header : FrameHeader) (payload : List UInt8) : Result :=
  match Frame.ofPayload header payload, c.openBlock with
  | .error fault, none => c.fail fault
  | .error _, some _ => c.broken
  | .ok frame, none => c.onFrame frame
  | .ok frame, some b => c.onContinuation b frame

/-!
## Bytes
-/

def readFrame (c : Connection) (reader : FrameReader) (b : UInt8) : Result :=
  match reader.step b with
  | .more reader => ({ c with phase := .frames reader }, [])
  | .tooLarge => c.fail (.connection .frameSizeError)
  | .complete header payload => { c with phase := .frames .start }.onPayload header payload

/-- Read a byte of the preface.  At its end the server sends its settings. -/
def readPreface (c : Connection) (due : List UInt8) (b : UInt8) : Result :=
  match due with
  | [] => (c.close, [])
  | d :: due =>
      if b ≠ d then (c.close, [])
      else if due = [] then ({ c with phase := .frames .start }, [.settings])
      else ({ c with phase := .preface due }, [])

def readByte (c : Connection) (b : UInt8) : Result :=
  match c.phase with
  | .preface due => c.readPreface due b
  | .frames reader => c.readFrame reader b
  | .closed => (c, [])

/-!
## Answers
-/

def Exchange.asksTunnel (e : Exchange) : Bool := Http.ReplyForm.ofMethod e.method == .tunnel

/-- The frames that answer a request.  What is left of a request is not waited for, and a tunnel is
given up at once. -/
def Exchange.frames (e : Exchange) : List ServerFrame :=
  if Exchange.asksTunnel e then
    [.answer e.stream (Http.answer e.method) false, .reset e.stream .cancel]
  else
    .answer e.stream (Http.answer e.method) true ::
      (if e.ended then [] else [.reset e.stream .noError])

def grant (c : Connection) : Result :=
  let due := targetWindow - c.window
  if 0 < due ∧ c.window / 2 ≤ due then
    ({ c with window := targetWindow }, [.windowUpdate due])
  else (c, [])

def answerAll (c : Connection) : Result :=
  let unfinished := c.waiting.filter fun e => !e.ended || Exchange.asksTunnel e
  ({ c with waiting := [], abandoned := c.abandoned ++ unfinished.map Exchange.stream },
    c.waiting.flatMap Exchange.frames)

def leave (c : Connection) : Result :=
  if c.leaving then (c.close, [.goAway c.lastStream .noError]) else (c, [])

def settle (c : Connection) : Result :=
  match c.phase with
  | .frames _ =>
      let granted := c.grant
      let answered := granted.1.answerAll
      let left := answered.1.leave
      (left.1, granted.2 ++ answered.2 ++ left.2)
  | _ => (c, [])

def announceEnd (c : Connection) : Result :=
  match c.phase with
  | .frames _ =>
      if c.ending ∨ c.leaving then (c, [])
      else ({ c with ending := true }, [.goAway lastOfAll .noError, .ping farewell])
  | _ => (c.close, [])

def step (c : Connection) (input : Http.Input) : Result :=
  match input with
  | .byte b => c.readByte b
  | .pause => c.settle
  | .finish => (c.settle.1.close, c.settle.2)
  | .headTimeout => (c, [])
  | .shutdown => c.announceEnd

def run (c : Connection) (inputs : List Http.Input) : Result :=
  inputs.foldl
    (fun s input =>
      let next := s.1.step input
      (next.1, s.2 ++ next.2))
    (c, [])

end Connection
end Http2
end ConstantReply
