import ConstantReply.Proofs.Http.Exchange
import ConstantReply.Proofs.Http.HeadArrival
import ConstantReply.Proofs.Http.WrittenRequest

/-!
# Careful requests on a connection

A connection that awaits a head answers a careful request with 200 OK, and nothing is sent while the
body arrives.
-/

namespace ConstantReply
namespace Http
namespace Connection

def decides (keepAlive : Bool) (c : Connection) (r : WrittenRequest) : Bool :=
  match r.head.judge with
  | .ok request => c.keeps keepAlive request
  | .error _ => false

def replyTo (keepAlive : Bool) (c : Connection) (r : WrittenRequest) : Reply :=
  .ok r.head.line (Announcement.of r.version (c.decides keepAlive r))

theorem decides_of_ending_eq (keepAlive : Bool) {c d : Connection} (h : c.ending = d.ending)
    (r : WrittenRequest) : c.decides keepAlive r = d.decides keepAlive r := by
  unfold decides keeps
  rw [h]

variable {keepAlive : Bool} {c : Connection} {r : WrittenRequest}

theorem answer_of_answerable (keepAlive : Bool) (c : Connection) (h : r.IsAnswerable) :
    exists request, request.head = r.head ∧ request.body = BodyForm.ofLength r.bodyLength ∧
      c.answer keepAlive r.head =
        ({ c with
            phase := phaseAfter (c.decides keepAlive r) request
            answered := c.answered + 1 },
          [c.replyTo keepAlive r]) := by
  rcases WrittenRequest.exists_judge h with ⟨persistent, hjudge⟩
  refine ⟨⟨r.head, BodyForm.ofLength r.bodyLength, persistent⟩, rfl, rfl, ?_⟩
  unfold answer replyTo decides
  rw [hjudge]
  rfl

/-!
# What follows a request
-/

theorem run_of_nothing (hphase : c.phase = .head {}) {inputs : List Input}
    (hdelivers : Delivers inputs []) : c.run keepAlive inputs = (c, []) := by
  have hrun := run_of_follow keepAlive hphase hdelivers (Place.follow?_nil .before) (by decide)
  rw [hrun, List.length_nil, Nat.add_zero, ← hphase]

theorem run_of_exactly {left : Nat} (hphase : c.phase = .body (.exactly left))
    {inputs : List Input} {bytes : List UInt8} (hdelivers : Delivers inputs bytes)
    (hlength : bytes.length ≤ left) : (c.run keepAlive inputs).2 = [] := by
  induction hdelivers generalizing c left with
  | nothing =>
      rfl
  | @byte inputs bytes b hdelivers ih =>
      rw [List.length_cons] at hlength
      rw [run_cons]
      simp only [step, readByte, readBody, hphase, BodyReader.step, List.nil_append]
      by_cases hlast : left ≤ 1
      · have hbytes : bytes = [] := List.length_eq_zero_iff.mp (by omega)
        subst hbytes
        simp only [if_pos hlast]
        rw [run_of_nothing rfl hdelivers]
      · simp only [if_neg hlast]
        exact ih rfl (by omega)
  | pause =>
      have hsettle : c.step keepAlive .pause = (c.close, []) := by
        simp only [step, settle, hphase]
      rw [run_cons, hsettle, run_of_closed keepAlive rfl]
      rfl

theorem run_of_phaseAfter {keeps : Bool} {request : Request} {n : Nat}
    (hphase : c.phase = phaseAfter keeps request) (hbody : request.body = BodyForm.ofLength n)
    {inputs : List Input} {bytes : List UInt8} (hdelivers : Delivers inputs bytes)
    (hlength : bytes.length ≤ n) : (c.run keepAlive inputs).2 = [] := by
  unfold phaseAfter at hphase
  split at hphase
  · rw [run_of_closed keepAlive hphase]
  rw [hbody] at hphase
  by_cases hn : n = 0
  · subst hn
    have hbytes : bytes = [] := List.length_eq_zero_iff.mp (by omega)
    subst hbytes
    rw [run_of_nothing hphase hdelivers]
  · simp only [BodyForm.ofLength, if_neg hn, BodyReader.ofForm?] at hphase
    exact run_of_exactly hphase hdelivers hlength

theorem run_of_answerable (keepAlive : Bool) (hphase : c.phase = .head {}) (h : r.IsAnswerable)
    {inputs : List Input} {more : List UInt8} (hdelivers : Delivers inputs (r.bytes ++ more)) :
    exists rest, Delivers rest more ∧
      c.run keepAlive inputs =
        (((c.answer keepAlive r.head).1.run keepAlive rest).1,
          c.replyTo keepAlive r :: ((c.answer keepAlive r.head).1.run keepAlive rest).2) := by
  have hsize : r.bytes.length ≤ headLimit := by
    have hsize := h.size
    unfold headLimit
    omega
  rcases run_of_headText keepAlive hphase (WrittenRequest.headText_of_careful h.toIsCareful) hsize
    hdelivers with ⟨rest, hrest, hrun⟩
  rcases answer_of_answerable keepAlive c h with ⟨_, _, _, hanswer⟩
  refine ⟨rest, hrest, ?_⟩
  rw [hrun, hanswer]
  rfl

end Connection
end Http
end ConstantReply
