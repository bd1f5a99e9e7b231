import ConstantReply.Proofs.Http.Arrival
import ConstantReply.Proofs.Http.HeadText
import ConstantReply.Proofs.Runs

/-!
# Heads that arrive

A head is answered when its last byte arrives, whatever pauses there are before it.
-/

namespace ConstantReply
namespace Http

theorem HeadReader.step_of_more {place next : Place} {b : UInt8} {size : Nat}
    (hstep : place.step b = .more next) (hsize : size + 1 < headLimit) :
    HeadReader.step ⟨place, size⟩ b = .more ⟨next, size + 1⟩ := by
  simp [HeadReader.step, hstep, Nat.not_le.mpr hsize]

namespace Connection

theorem run_of_follow (keepAlive : Bool) {c : Connection} {place next : Place} {size : Nat}
    {inputs : List Input} {bytes : List UInt8} (hphase : c.phase = .head ⟨place, size⟩)
    (hdelivers : Delivers inputs bytes) (hfollow : place.follow? bytes = some next)
    (hsize : size + bytes.length < headLimit) :
    c.run keepAlive inputs = ({ c with phase := .head ⟨next, size + bytes.length⟩ }, []) := by
  induction hdelivers generalizing c place size with
  | nothing =>
      cases hfollow
      rw [run_nil, List.length_nil, Nat.add_zero, ← hphase]
  | @byte inputs bytes b _ ih =>
      rw [List.length_cons] at hsize ⊢
      rw [Place.follow?] at hfollow
      cases hstep : place.step b with
      | refused why => simp [hstep] at hfollow
      | complete head => simp [hstep] at hfollow
      | more between =>
          simp only [hstep] at hfollow
          have hread : c.step keepAlive (.byte b) =
              ({ c with phase := .head ⟨between, size + 1⟩ }, []) := by
            simp only [step, readByte, readHead, hphase,
              HeadReader.step_of_more hstep (by omega : size + 1 < headLimit)]
          rw [run_cons, hread]
          simp only [List.nil_append]
          rw [ih rfl hfollow (by omega)]
          simp only [Nat.add_assoc, Nat.add_comm 1]
  | pause _ ih =>
      have hidle : c.step keepAlive .pause = (c, []) := by
        simp only [step, settle, hphase]
      rw [run_cons, hidle]
      simp only [List.nil_append]
      exact ih hphase hfollow hsize

theorem run_of_headText (keepAlive : Bool) {c : Connection} {head : Head} {text more : List UInt8}
    {inputs : List Input} (hphase : c.phase = .head {}) (htext : HeadText head text)
    (hsize : text.length ≤ headLimit) (hdelivers : Delivers inputs (text ++ more)) :
    exists rest, Delivers rest more ∧
      c.run keepAlive inputs =
        (((c.answer keepAlive head).1.run keepAlive rest).1,
          (c.answer keepAlive head).2 ++ ((c.answer keepAlive head).1.run keepAlive rest).2) := by
  rcases Place.follow?_head htext with ⟨init, place, rfl, hfollow, hcomplete⟩
  rw [List.append_assoc, List.singleton_append] at hdelivers
  rcases exists_byte_of_delivers hdelivers with ⟨front, rest, rfl, hfront, hrest⟩
  rw [List.length_append, List.length_singleton] at hsize
  have hread := run_of_follow keepAlive hphase hfront hfollow (by omega)
  have hanswer : Connection.step keepAlive
      { c with phase := .head ⟨place, 0 + init.length⟩ } (.byte lf) = c.answer keepAlive head := by
    simp [step, readByte, readHead, HeadReader.step, hcomplete, answer, keeps, close]
  refine ⟨rest, hrest, ?_⟩
  rw [run_append, hread, run_cons, hanswer, List.nil_append]

end Connection
end Http
end ConstantReply
