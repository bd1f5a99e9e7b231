import ConstantReply.Proofs.Http.Exchange
import ConstantReply.Proofs.Session.Detection
import ConstantReply.Proofs.Session.Transcript
import ConstantReply.Settings

/-!
# What a session may write

However a client behaves that does not speak in frames, it is sent empty responses with status 200,
each for a head of its own, and after them at most one error, with which the session ends.
-/

namespace ConstantReply
namespace Session

open Http (Answered Head HeadsIn Input Reply Response WellFramed preface)

theorem run_append_of_closed (keepAlive : Bool) {front : List Input} {c : Http.Connection}
    {sent : List Outgoing} (h : start.run keepAlive front = (.text c, sent))
    (hclosed : c.phase = .closed) (rest : List Input) :
    (start.run keepAlive (front ++ rest)).2 = (start.run keepAlive front).2 := by
  rw [run_append, h]
  simp only [run_text, ofText, Http.Connection.run_of_closed keepAlive hclosed rest]
  simp

theorem isOk_of_answered (date : String) {heads : List Head} {oks : List Reply}
    (h : Answered heads oks) :
    forall r, r ∈ oks.map (Reply.response date) -> r.IsOk date := by
  induction h with
  | nothing =>
      intro r hr
      cases hr
  | ok a _ _ ih =>
      intro r hr
      rcases List.mem_cons.mp hr with rfl | hr
      · exact Reply.isOk_response date _ a
      · exact ih r hr

theorem length_of_answered {heads : List Head} {oks : List Reply} (h : Answered heads oks) :
    heads.length = oks.length := by
  induction h with
  | nothing => rfl
  | ok _ _ _ ih => exact congrArg Nat.succ ih

theorem wellFramed_of_answered {heads : List Head} {oks : List Reply} (h : Answered heads oks) :
    forall head, head ∈ heads -> WellFramed head := by
  induction h with
  | nothing =>
      intro head hhead
      cases hhead
  | ok _ hframed _ ih =>
      intro head hhead
      rcases List.mem_cons.mp hhead with rfl | hhead
      · exact hframed
      · exact ih head hhead

/-- What a client has received after these inputs: the responses `oks`, each for one of `heads`, and
the responses `errors` after them. -/
structure Receipt (keepAlive : Bool) (date : String) (inputs : List Input) (heads : List Head)
    (oks errors : List Response) : Prop where
  written : written date (start.run keepAlive inputs) = (oks ++ errors).flatMap Response.bytes
  ok : forall r, r ∈ oks -> r.IsOk date
  clientError : forall r, r ∈ errors -> r.IsClientError date
  atMostOne : errors.length ≤ 1
  closed : errors ≠ [] -> (start.run keepAlive inputs).1.isClosed = true
  last : errors ≠ [] -> forall later,
    (start.run keepAlive (inputs ++ later)).2 = (start.run keepAlive inputs).2
  answers : oks.length = heads.length
  apart : HeadsIn heads (Input.bytes inputs)
  framed : forall head, head ∈ heads -> WellFramed head

theorem receipt_of_silence {keepAlive : Bool} {inputs : List Input} {s : Session}
    (h : start.run keepAlive inputs = (s, [])) (date : String) :
    Receipt keepAlive date inputs [] [] [] where
  written := by
    rw [h]
    rfl
  ok := by simp
  clientError := by simp
  atMostOne := by simp
  closed := by simp
  last := by simp
  answers := rfl
  apart := HeadsIn.nothing _
  framed := by simp

theorem receipt_of_answered {keepAlive : Bool} {inputs : List Input} {c : Http.Connection}
    {oks refusals : List Reply} {heads : List Head}
    (h : start.run keepAlive inputs = ofText (c, oks ++ refusals))
    (hanswered : Answered heads oks) (hheads : HeadsIn heads (Input.bytes inputs))
    (hlast : refusals = [] ∨ exists why, refusals = [.refusal why] ∧ c.phase = .closed)
    (date : String) :
    Receipt keepAlive date inputs heads (oks.map (Reply.response date))
      (refusals.map (Reply.response date)) where
  written := by
    rw [h, written_of_replies date rfl, List.map_append]
  ok := isOk_of_answered date hanswered
  clientError := by
    intro r hmem
    rcases hlast with rfl | ⟨why, rfl, _⟩
    · cases hmem
    · rw [List.mem_singleton.mp hmem]
      exact Reply.isClientError_response date why
  atMostOne := by
    rcases hlast with rfl | ⟨why, rfl, _⟩ <;> simp
  closed := by
    intro hne
    rcases hlast with rfl | ⟨why, rfl, hclosed⟩
    · exact absurd rfl hne
    · rw [h]
      simpa [isClosed, ofText, Http.Connection.isClosed] using hclosed
  last := by
    intro hne
    rcases hlast with rfl | ⟨why, rfl, hclosed⟩
    · exact absurd rfl hne
    · exact run_append_of_closed keepAlive h hclosed
  answers := by
    rw [List.length_map, length_of_answered hanswered]
  apart := hheads
  framed := wellFramed_of_answered hanswered

/-- Everything that a session writes is complete responses with status 200 and at most one error
after them, with which it is closed.  The heads that the responses answer stand in the bytes that
came, and their bodies are delimited in one way. -/
theorem exists_receipt (settings : Settings) (date : String) (inputs : List Input)
    (hpreface : ¬ preface <+: Input.bytes inputs) :
    exists heads oks errors, Receipt settings.keepAlive date inputs heads oks errors := by
  cases run_start settings.keepAlive inputs with
  | undecided rest _ _ hr => exact ⟨[], [], [], receipt_of_silence hr date⟩
  | ended _ hr => exact ⟨[], [], [], receipt_of_silence hr date⟩
  | framed hprefix => exact absurd hprefix hpreface
  | text fewer hfewer _ hr =>
      have hstands : Http.Stands (.head {}) [] [] :=
        Http.stands_of_headsIn (HeadsIn.nothing []) (by simp)
      rcases Http.Connection.run_answers settings.keepAlive (c := {}) hstands fewer with
        ⟨heads, oks, refusals, hsent, hanswered, hheads, hlast⟩
      simp only [List.nil_append, hfewer] at hheads
      rw [List.map_nil, List.nil_append] at hr
      have hrun : start.run settings.keepAlive inputs =
          ofText ((Http.Connection.run settings.keepAlive {} fewer).1, oks ++ refusals) := by
        rw [hr, ← hsent]
      exact ⟨heads, _, _, receipt_of_answered hrun hanswered hheads hlast date⟩

end Session
end ConstantReply
