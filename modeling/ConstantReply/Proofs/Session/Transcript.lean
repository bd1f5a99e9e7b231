import ConstantReply.Proofs.Http.Response
import ConstantReply.Session.Transcript

/-!
# The bytes of textual sessions

A session with textual heads writes the responses that its replies are, one after the other.
-/

namespace ConstantReply
namespace Session

open Http (Reply Response)

def written (date : String) (r : Session × List Outgoing) : List UInt8 :=
  (Outgoing.writeAll {} date r.2).1

theorem writeAll_replies (w : Http2.Writer) (date : String) (replies : List Reply) :
    (Outgoing.writeAll w date (replies.map .reply)).1 =
      (replies.map (Reply.response date)).flatMap Response.bytes := by
  induction replies generalizing w with
  | nil =>
      rfl
  | cons r rest ih =>
      rw [List.map_cons, List.map_cons, List.flatMap_cons, Reply.bytes_response, ← ih w]
      rfl

theorem written_of_replies (date : String) {r : Session × List Outgoing} {replies : List Reply}
    (h : r.2 = replies.map .reply) :
    written date r = (replies.map (Reply.response date)).flatMap Response.bytes := by
  rw [written, h, writeAll_replies]

theorem writeAll_concat_reply (w : Http2.Writer) (date : String) (sent : List Outgoing)
    (r : Reply) :
    (Outgoing.writeAll w date (sent ++ [.reply r])).1 =
      (Outgoing.writeAll w date sent).1 ++ (r.response date).bytes := by
  induction sent generalizing w with
  | nil =>
      have hone := writeAll_replies w date [r]
      rwa [List.map_singleton, List.map_singleton, List.flatMap_singleton] at hone
  | cons o rest ih =>
      simp only [List.cons_append, Outgoing.writeAll, ih, List.append_assoc]

end Session
end ConstantReply
