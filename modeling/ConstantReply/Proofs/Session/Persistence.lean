import ConstantReply.Proofs.Http.Persistence
import ConstantReply.Proofs.Session.Pipelining

/-!
# Sessions that stay

A session that awaits a request answers one that is nothing but a head.  Whether it stays is decided
by the configuration and that head alone, whatever came before, and the response tells so where the
version does not.
-/

namespace ConstantReply
namespace Http
namespace WrittenRequest

end WrittenRequest
end Http

namespace Session

open Http (Announcement BareHead Delivers Head Input Persists Reply Response WrittenRequest)

theorem ending_of_ready (keepAlive : Bool) {inputs : List Input} (h : Input.shutdown ∉ inputs)
    {c : Http.Connection} (hready : Ready (start.run keepAlive inputs).1 c) :
    c.ending = false := by
  have hrun := run_start keepAlive inputs
  generalize start.run keepAlive inputs = r at hready hrun
  rcases r with ⟨s, sent⟩
  cases hready with
  | fresh => rfl
  | kept _ =>
      cases hrun with
      | undecided _ _ _ hr => cases hr
      | ended hshutdown _ => exact absurd hshutdown h
      | framed _ _ _ hr => cases hr
      | text fewer _ hsub hr =>
          cases hr
          exact Http.Connection.ending_of_run keepAlive {} fun hmem => h (hsub _ hmem)

/-- What becomes of a session when a head arrives after `before`: it writes `response`, and that
tells whether the session stays. -/
structure Announces (keepAlive : Bool) (date : String) (before inputs : List Input) (head : Head)
    (response : Response) : Prop where
  written : written date (start.run keepAlive (before ++ inputs)) =
    written date (start.run keepAlive before) ++ response.bytes
  ok : response.IsOk date
  version : response.version = head.line.version
  stays : (start.run keepAlive (before ++ inputs)).1.isClosed = false <-> Persists keepAlive head
  ready : (start.run keepAlive (before ++ inputs)).1.isClosed = false ->
    exists c, Ready (start.run keepAlive (before ++ inputs)).1 c
  toldClosing : ("connection", "close") ∈ response.fields <->
    head.line.version = .http11 ∧ (start.run keepAlive (before ++ inputs)).1.isClosed = true
  toldStaying : ("connection", "keep-alive") ∈ response.fields <->
    head.line.version = .http10 ∧ (start.run keepAlive (before ++ inputs)).1.isClosed = false

theorem run_of_bareHead (keepAlive : Bool) {s : Session} {c : Http.Connection}
    (hready : Ready s c) (hending : c.ending = false) {head : Head} {text : List UInt8}
    (hhead : BareHead head text) {inputs : List Input} (hdelivers : Delivers inputs text) :
    exists (keeps : Bool) (next : Http.Connection), (keeps = true <-> Persists keepAlive head) ∧
      next.phase = (if keeps then .head {} else .closed) ∧
      s.run keepAlive inputs =
        (.text next, [.reply (.ok head.line (Announcement.of head.line.version keeps))]) := by
  have htext := Http.longHeadText_of_headText hhead.headText
  rw [← List.append_nil text] at hdelivers
  rcases run_of_ready_head keepAlive hready htext hdelivers with ⟨fewer, hfewer, hrun⟩
  rw [List.append_nil] at hfewer
  rcases Http.Connection.run_of_bareHead keepAlive (phase_of_ready hready) hending hhead hfewer
    with ⟨keeps, hkeeps, hanswer⟩
  rw [hanswer] at hrun
  exact ⟨keeps, _, hkeeps, rfl, hrun⟩

/-- Whether a session stays after a request is decided by the configuration, the version and the
elements for the connection, however many requests came before, and the response says so truly. -/
theorem exists_announcement (settings : Settings) (date : String) {before inputs : List Input}
    (hshutdown : Input.shutdown ∉ before) {c : Http.Connection}
    (hready : Ready (start.run settings.keepAlive before).1 c) {head : Head} {text : List UInt8}
    (hhead : BareHead head text) (hdelivers : Delivers inputs text) :
    exists response, Announces settings.keepAlive date before inputs head response := by
  have hending := ending_of_ready settings.keepAlive hshutdown hready
  rcases run_of_bareHead settings.keepAlive hready hending hhead hdelivers with
    ⟨keeps, next, hkeeps, hphase, hrun⟩
  have hall := run_append settings.keepAlive start before inputs
  rw [hrun] at hall
  have hclosed : (start.run settings.keepAlive (before ++ inputs)).1.isClosed = !keeps := by
    rw [hall]
    cases keeps <;> simp [isClosed, Http.Connection.isClosed, hphase]
  refine ⟨(Reply.ok head.line (Announcement.of head.line.version keeps)).response date, ?_⟩
  constructor
  · rw [hall]
    exact writeAll_concat_reply {} date _ _
  · exact Reply.isOk_response date head.line _
  · rfl
  · rw [hclosed, Bool.not_eq_false', hkeeps]
  · intro hopen
    rw [hclosed, Bool.not_eq_false'] at hopen
    subst hopen
    rw [hall]
    exact ⟨next, Ready.kept hphase⟩
  · rw [Reply.mem_fields_response_iff, Announcement.close_mem_fields_iff, hclosed,
      Bool.not_eq_true']
  · rw [Reply.mem_fields_response_iff, Announcement.keepAlive_mem_fields_iff, hclosed,
      Bool.not_eq_false']

end Session
end ConstantReply
