import ConstantReply.Http.Framing

/-!
# Replies

Every request that is understood gets the same reply: 200 OK and no body.  What differs is the
framing: the version it is told in, and what it announces about the connection.
-/

namespace ConstantReply
namespace Http

/-- What a reply announces about the connection. -/
inductive Announcement where
  | nothing
  | close
  | keepAlive
  deriving DecidableEq, Repr

/-- Requests whose replies are framed in a way of their own. -/
inductive ReplyForm where
  | usual
  | headOnly
  | tunnel
  deriving DecidableEq, Repr

/-- A reply on a connection with textual heads. -/
inductive Reply where
  | ok (line : RequestLine) (announcement : Announcement)
  | refusal (why : Refusal)
  deriving DecidableEq, Repr

def Version.name : Version -> String
  | .http10 => "HTTP/1.0"
  | .http11 => "HTTP/1.1"

def Announcement.line : Announcement -> String
  | .nothing => ""
  | .close => "connection: close\r\n"
  | .keepAlive => "connection: keep-alive\r\n"

def Announcement.of (version : Version) (persistent : Bool) : Announcement :=
  match version, persistent with
  | .http10, true => .keepAlive
  | .http10, false => .nothing
  | .http11, true => .nothing
  | .http11, false => .close

def ReplyForm.ofMethod (method : List UInt8) : ReplyForm :=
  if method = Ascii.bytes "HEAD" then .headOnly
  else if method = Ascii.bytes "CONNECT" then .tunnel
  else .usual

def Refusal.status : Refusal -> Nat
  | .badRequest => 400
  | .targetTooLong => 414
  | .fieldsTooLarge => 431

def Refusal.phrase : Refusal -> String
  | .badRequest => "Bad Request"
  | .targetTooLong => "URI Too Long"
  | .fieldsTooLarge => "Request Header Fields Too Large"

namespace Reply

def status : Reply -> Nat
  | .ok _ _ => 200
  | .refusal why => why.status

def lengthLine : String := "content-length: 0\r\n"

def fieldLines (announcement : Announcement) : ReplyForm -> String
  | .usual => announcement.line ++ lengthLine
  | .headOnly => lengthLine ++ announcement.line
  | .tunnel => announcement.line

/-- The text of a reply, given the date.  Of the request only the version and the form of the reply
to its method have an influence. -/
def text (date : String) : Reply -> String
  | .ok l announcement =>
      l.version.name ++ " 200 OK\r\n" ++
        fieldLines announcement (ReplyForm.ofMethod l.method) ++
        "date: " ++ date ++ "\r\n\r\n"
  | .refusal why =>
      "HTTP/1.1 " ++ toString why.status ++ " " ++ why.phrase ++ "\r\n" ++
        Announcement.line .close ++ lengthLine ++ "date: " ++ date ++ "\r\n\r\n"

def toRequest (request : Request) (persistent : Bool) : Reply :=
  .ok request.head.line (Announcement.of request.head.line.version persistent)

end Reply

/-!
## Answers before they are framed
-/

/-- Why a request cannot be made. -/
inductive RequestFault where
  | method
  | target
  | field
  deriving DecidableEq, Repr

/-- The answer of the service itself. -/
structure Answer where
  status : Nat
  fields : List (String × String)
  body : List UInt8
  deriving DecidableEq, Repr

def Field.isValid (field : Field) : Bool :=
  isToken field.name && field.name.length ≤ greatestFieldName && isValue field.value

def requestFault? (method target : List UInt8) (fields : List Field) : Option RequestFault :=
  if isToken method = false then some .method
  else if Target.isValid target = false then some .target
  else if fields.all Field.isValid then none
  else some .field

def answer (method : List UInt8) : Answer :=
  match ReplyForm.ofMethod method with
  | .tunnel => ⟨200, [], []⟩
  | _ => ⟨200, [("content-length", "0")], []⟩

end Http
end ConstantReply
