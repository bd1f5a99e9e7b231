import ConstantReply.Http2.Writer
import ConstantReply.Session

/-!
# What a client receives

Everything sent on a session as bytes.
-/

namespace ConstantReply

def Outgoing.write (w : Http2.Writer) (date : String) :
    Outgoing -> List UInt8 × Http2.Writer
  | .reply r => (Ascii.bytes (r.text date), w)
  | .frame f => w.write date f

def Outgoing.writeAll (w : Http2.Writer) (date : String) :
    List Outgoing -> List UInt8 × Http2.Writer
  | [] => ([], w)
  | o :: rest =>
      let (bytes, w) := o.write w date
      let (more, w) := writeAll w date rest
      (bytes ++ more, w)

end ConstantReply
