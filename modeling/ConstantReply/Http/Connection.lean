import ConstantReply.Http.Body
import ConstantReply.Http.Reply

/-!
# Connections with textual heads

A connection alternates between reading a head and passing over a body.  It answers each head as
soon as it is complete, and is closed after the first reply that ends persistence, after a refusal,
and whenever a body is not there in time.  As with heads, this stands for hyper, and was not tried
against it.
-/

namespace ConstantReply
namespace Http

/-- What happens to a connection.  It pauses when everything that has arrived has been read. -/
inductive Input where
  | byte (b : UInt8)
  | pause
  | finish
  | headTimeout
  | shutdown
  deriving DecidableEq, Repr

namespace Input

def segment (bytes : List UInt8) : List Input := bytes.map .byte ++ [.pause]

def segments (parts : List (List UInt8)) : List Input := parts.flatMap segment

end Input

/-!
## The preface of another protocol

A client that speaks in frames opens with a preface that looks like a request of an unknown version.
Later on a connection it is not answered.
-/

def preface : List UInt8 := Ascii.bytes "PRI * HTTP/2.0\r\n\r\nSM\r\n\r\n"

def beforeVersion : Nat := 11

def opensPreface (reader : HeadReader) (b : UInt8) : Bool :=
  reader == ⟨.version (Ascii.bytes "PRI") [Target.asterisk] (Ascii.bytes "1."), beforeVersion⟩ &&
    b == 0x32

/-!
## Connections
-/

/-- What a connection is occupied with. -/
inductive Phase where
  | head (reader : HeadReader)
  | body (reader : BodyReader)
  | latePreface (due : List UInt8)
  | closed
  deriving DecidableEq, Repr

structure Connection where
  phase : Phase := .head {}
  answered : Nat := 0
  ending : Bool := false
  deriving DecidableEq, Repr

namespace Connection

def isClosed (c : Connection) : Bool := c.phase == .closed

def awaitsHead (c : Connection) : Bool :=
  match c.phase with
  | .head _ => true
  | _ => false

def close (c : Connection) : Connection := { c with phase := .closed }

def keeps (keepAlive : Bool) (c : Connection) (request : Request) : Bool :=
  keepAlive && request.persistent && !c.ending

def phaseAfter (keeps : Bool) (request : Request) : Phase :=
  if keeps = false ∨ ReplyForm.ofMethod request.head.line.method = .tunnel then .closed
  else
    match BodyReader.ofForm? request.body with
    | none => .head {}
    | some reader => .body reader

def answer (keepAlive : Bool) (c : Connection) (head : Head) : Connection × List Reply :=
  match head.judge with
  | .error why => (c.close, [.refusal why])
  | .ok request =>
      let keeps := c.keeps keepAlive request
      ({ c with phase := phaseAfter keeps request, answered := c.answered + 1 },
        [Reply.toRequest request keeps])

def readHead (keepAlive : Bool) (c : Connection) (reader : HeadReader) (b : UInt8) :
    Connection × List Reply :=
  match reader.step b with
  | .more reader => ({ c with phase := .head reader }, [])
  | .complete head => c.answer keepAlive head
  | .refused why =>
      if opensPreface reader b then
        ({ c with phase := .latePreface (preface.drop (beforeVersion + 1)) }, [])
      else (c.close, [.refusal why])

def readBody (c : Connection) (reader : BodyReader) (b : UInt8) : Connection :=
  match reader.step b with
  | .more reader => { c with phase := .body reader }
  | .complete => { c with phase := .head {} }
  | .broken => c.close

def readPreface (c : Connection) (due : List UInt8) (b : UInt8) : Connection × List Reply :=
  match due with
  | [] => (c.close, [])
  | d :: due =>
      if b ≠ d then (c.close, [.refusal .badRequest])
      else if due = [] then (c.close, [])
      else ({ c with phase := .latePreface due }, [])

def readByte (keepAlive : Bool) (c : Connection) (b : UInt8) : Connection × List Reply :=
  match c.phase with
  | .head reader => c.readHead keepAlive reader b
  | .body reader => (c.readBody reader b, [])
  | .latePreface due => c.readPreface due b
  | .closed => (c, [])

def settle (c : Connection) : Connection × List Reply :=
  match c.phase with
  | .head _ => (c, [])
  | .body _ => (c.close, [])
  | .latePreface _ => (c.close, [.refusal .badRequest])
  | .closed => (c, [])

def wind (c : Connection) : Connection :=
  if c.answered = 0 ∧ c.awaitsHead then { c with ending := true } else c.close

def step (keepAlive : Bool) (c : Connection) (input : Input) : Connection × List Reply :=
  match input with
  | .byte b => c.readByte keepAlive b
  | .pause => c.settle
  | .finish => (c.settle.1.close, c.settle.2)
  | .headTimeout => (if c.awaitsHead then c.close else c, [])
  | .shutdown => (c.wind, [])

def run (keepAlive : Bool) (c : Connection) (inputs : List Input) : Connection × List Reply :=
  inputs.foldl
    (fun s input =>
      let next := s.1.step keepAlive input
      (next.1, s.2 ++ next.2))
    (c, [])

end Connection
end Http
end ConstantReply
