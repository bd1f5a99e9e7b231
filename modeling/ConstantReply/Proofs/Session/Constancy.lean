import ConstantReply.Proofs.Session.Readiness
import ConstantReply.Proofs.Session.Transcript
import ConstantReply.Settings

/-!
# The constant answer

Every careful request is answered with 200 OK in its own version and without a body.  Nothing else
of a request shows in the answer than its version and whether the connection is kept.
-/

namespace ConstantReply
namespace Http

structure FirstAnswer (date : String) (r : WrittenRequest) (rest output : List UInt8)
    (answer : Response) : Prop where
  ok : answer.IsOk date
  version : answer.version = r.version
  first : answer.bytes <+: output
  only : rest.length ≤ r.bodyLength -> output = answer.bytes

structure SameAnswer (date : String) (answer other : Response) : Prop where
  statusLine : answer.statusLine = other.statusLine
  fields : answer.fields.Perm other.fields
  listed : exists connection : List (String × String),
    connection.length ≤ 1 ∧ (forall f, f ∈ connection -> f.1 = "connection") ∧
      answer.fields.Perm (("content-length", "0") :: ("date", date) :: connection)

theorem perm_response (date : String) {l : RequestLine} (a : Announcement)
    (h : l.method ≠ Ascii.bytes "CONNECT") :
    ((Reply.ok l a).response date).fields.Perm
      (("content-length", "0") :: ("date", date) :: a.fields) := by
  have hfields := Reply.perm_fields a (ReplyForm.ofMethod_ne_tunnel h)
  apply (hfields.append_right [("date", date)]).trans
  apply List.Perm.cons
  exact List.perm_append_comm

theorem sameAnswer_of_lines (date : String) {l m : RequestLine} (a : Announcement)
    (hversion : l.version = m.version) (hl : l.method ≠ Ascii.bytes "CONNECT")
    (hm : m.method ≠ Ascii.bytes "CONNECT") :
    SameAnswer date ((Reply.ok l a).response date) ((Reply.ok m a).response date) where
  statusLine := by
    simp only [Response.statusLine, Reply.response, hversion]
  fields := (perm_response date a hl).trans (perm_response date a hm).symm
  listed :=
    ⟨a.fields, a.length_fields_le, fun _ => Announcement.name_of_mem_fields,
      perm_response date a hl⟩

end Http

namespace Session

open Http (FirstAnswer Input SameAnswer WrittenRequest)

theorem firstAnswer_of_ready (keepAlive : Bool) (date : String) {s : Session}
    {c : Http.Connection} (hready : Ready s c) {r : WrittenRequest} (h : r.IsAnswerable)
    {parts : List (List UInt8)} {rest : List UInt8} (hparts : parts.flatten = r.bytes ++ rest) :
    FirstAnswer date r rest (written date (s.run keepAlive (Input.segments parts)))
      ((c.replyTo keepAlive r).response date) := by
  have hdelivers := Http.delivers_segments parts
  rw [hparts] at hdelivers
  rcases run_of_ready keepAlive hready h.toIsCareful hdelivers with ⟨fewer, hfewer, hrun⟩
  rcases Http.Connection.run_of_answerable keepAlive (phase_of_ready hready) h hfewer with
    ⟨late, hlate, hreplies⟩
  rcases Http.Connection.answer_of_answerable keepAlive c h with
    ⟨request, _, hbody, hanswer⟩
  rw [hreplies] at hrun
  rw [hrun, written_of_replies date rfl, List.map_cons, List.flatMap_cons]
  constructor
  · exact Http.Reply.isOk_response date _ _
  · rfl
  · exact List.prefix_append _ _
  · intro hlength
    rw [hanswer, Http.Connection.run_of_phaseAfter rfl hbody hlate hlength]
    simp

/-- The answers to two requests, each on a session that awaits one, whatever is sent after them and
wherever the bytes are cut.  Both are 200 OK in the version of the request and without a body; for
the same version and the same decision about the connection they are the same. -/
theorem exists_answers (settings : Settings) (date : String) {s t : Session}
    {c d : Http.Connection} (hs : Ready s c) (ht : Ready t d) {r q : WrittenRequest}
    (hr : r.IsAnswerable) (hq : q.IsAnswerable) {parts others : List (List UInt8)}
    {rest later : List UInt8} (hparts : parts.flatten = r.bytes ++ rest)
    (hothers : others.flatten = q.bytes ++ later) :
    exists answer other,
      FirstAnswer date r rest
          (written date (s.run settings.keepAlive (Input.segments parts))) answer ∧
        FirstAnswer date q later
          (written date (t.run settings.keepAlive (Input.segments others))) other ∧
        (r.version = q.version ->
          c.decides settings.keepAlive r = d.decides settings.keepAlive q ->
          r.method ≠ Ascii.bytes "CONNECT" -> q.method ≠ Ascii.bytes "CONNECT" ->
          SameAnswer date answer other) := by
  refine ⟨_, _, firstAnswer_of_ready settings.keepAlive date hs hr hparts,
    firstAnswer_of_ready settings.keepAlive date ht hq hothers, ?_⟩
  intro hversion hdecides hrmethod hqmethod
  rw [Http.Connection.replyTo, Http.Connection.replyTo, hversion, hdecides]
  exact Http.sameAnswer_of_lines date _ hversion hrmethod hqmethod

end Session
end ConstantReply
