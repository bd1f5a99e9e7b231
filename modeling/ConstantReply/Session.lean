import ConstantReply.Http2.Connection

/-!
# Sessions

What the server does for one client.  The first bytes decide how the client speaks: in frames if
they are the whole preface, with textual heads as soon as they differ from it.  Whatever was read to
decide is then read again by the connection of that kind.  This stands for the builder of hyper-util
that serves both kinds, and was not tried against it.
-/

namespace ConstantReply

/-- What the server sends: a reply with a textual head, or a frame. -/
inductive Outgoing where
  | reply (reply : Http.Reply)
  | frame (frame : Http2.ServerFrame)
  deriving DecidableEq, Repr

inductive Session where
  | undecided (due : List UInt8)
  | text (connection : Http.Connection)
  | framed (connection : Http2.Connection)
  | closed
  deriving DecidableEq, Repr

namespace Session

def start : Session := .undecided Http.preface

def held (due : List UInt8) : List UInt8 :=
  Http.preface.take (Http.preface.length - due.length)

def isClosed : Session -> Bool
  | .undecided _ => false
  | .text c => c.isClosed
  | .framed c => c.isClosed
  | .closed => true

def awaitsHead : Session -> Bool
  | .text c => c.awaitsHead
  | _ => false

def answered : Session -> Nat
  | .text c => c.answered
  | _ => 0

def ofText (r : Http.Connection × List Http.Reply) : Session × List Outgoing :=
  (.text r.1, r.2.map .reply)

def ofFramed (r : Http2.Connection × List Http2.ServerFrame) : Session × List Outgoing :=
  (.framed r.1, r.2.map .frame)

def beginText (keepAlive : Bool) (bytes : List UInt8) : Session × List Outgoing :=
  ofText (Http.Connection.run keepAlive {} (bytes.map .byte))

def beginFramed (bytes : List UInt8) : Session × List Outgoing :=
  ofFramed (Http2.Connection.run {} (bytes.map .byte))

def decide (keepAlive : Bool) (due : List UInt8) (b : UInt8) : Session × List Outgoing :=
  let read := held due ++ [b]
  match due with
  | [] => beginText keepAlive read
  | d :: rest =>
      if b ≠ d then beginText keepAlive read
      else if rest = [] then beginFramed read
      else (.undecided rest, [])

def step (keepAlive : Bool) (s : Session) (input : Http.Input) : Session × List Outgoing :=
  match s, input with
  | .undecided due, .byte b => decide keepAlive due b
  | .undecided due, .finish =>
      let begun := Http.Connection.run keepAlive {} ((held due).map .byte)
      let ended := begun.1.step keepAlive .finish
      ofText (ended.1, begun.2 ++ ended.2)
  | .undecided _, .shutdown => (.closed, [])
  | .undecided due, .pause => (.undecided due, [])
  | .undecided due, .headTimeout => (.undecided due, [])
  | .text c, input => ofText (c.step keepAlive input)
  | .framed c, input => ofFramed (c.step input)
  | .closed, _ => (.closed, [])

def run (keepAlive : Bool) (s : Session) (inputs : List Http.Input) : Session × List Outgoing :=
  inputs.foldl
    (fun r input =>
      let next := r.1.step keepAlive input
      (next.1, r.2 ++ next.2))
    (s, [])

def ofSegments (keepAlive : Bool) (parts : List (List UInt8)) : Session × List Outgoing :=
  start.run keepAlive (Http.Input.segments parts)

end Session
end ConstantReply
