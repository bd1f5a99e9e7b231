import ConstantReply.Proofs.Http.RequestRun
import ConstantReply.Proofs.Session.Detection

/-!
# Sessions that await a request

A session awaits a request at its start, and with textual heads whenever no head has been begun.  It
treats a head in the same way then, since the text of a head never begins like the preface.
-/

namespace ConstantReply
namespace Http

theorem prefix_of_words {m t x y : List UInt8} (hm : forall b, b ∈ m -> b ≠ space)
    (ht : forall b, b ∈ t -> b ≠ space) (h : m ++ space :: x <+: t ++ space :: y) : x <+: y := by
  induction m generalizing t with
  | nil =>
      cases t with
      | nil => exact (List.cons_prefix_cons.mp h).right
      | cons b rest =>
          have hspace := (List.cons_prefix_cons.mp h).left
          exact absurd hspace.symm (ht b List.mem_cons_self)
  | cons b rest ih =>
      cases t with
      | nil =>
          have hspace := (List.cons_prefix_cons.mp h).left
          exact absurd hspace (hm b List.mem_cons_self)
      | cons c more =>
          exact ih (fun d hd => hm d (List.mem_cons_of_mem b hd))
            (fun d hd => ht d (List.mem_cons_of_mem c hd)) (List.cons_prefix_cons.mp h).right

def prefaceTail : List UInt8 := Ascii.bytes "HTTP/2.0\r\n\r\nSM\r\n\r\n"

theorem preface_eq :
    preface = Ascii.bytes "PRI" ++ space :: ([Target.asterisk] ++ space :: prefaceTail) := by
  decide +kernel

theorem ne_space_of_mem_preface :
    (forall b, b ∈ Ascii.bytes "PRI" -> b ≠ space) ∧
      forall b, b ∈ [Target.asterisk] -> b ≠ space := by
  decide +kernel

theorem not_prefaceTail (x : List UInt8) :
    ¬ prefaceTail <+: Place.versionStem ++ x ∧ ¬ Place.versionStem ++ x <+: prefaceTail := by
  have hstem : Place.versionStem = [0x48, 0x54, 0x54, 0x50, 0x2F, 0x31, 0x2E] := by
    decide +kernel
  have htail : prefaceTail = [0x48, 0x54, 0x54, 0x50, 0x2F, 0x32] ++ prefaceTail.drop 6 := by
    decide +kernel
  rw [hstem, htail]
  simp [List.cons_prefix_cons]

theorem not_preface_of_headText {head : Head} {text : List UInt8} (h : LongHeadText head text)
    (more : List UInt8) : ¬ preface <+: text ++ more ∧ ¬ text ++ more <+: preface := by
  cases h with
  | @head line fields x eol y last hline =>
      cases hline with
      | @line method target version hmethod htarget =>
          have hmethodBytes : forall b, b ∈ method -> b ≠ space := by
            intro b hb
            have hall := (Bool.and_eq_true_iff.mp hmethod).right
            exact (tokenByte_ne (List.all_eq_true.mp hall b hb)).right.right.left
          have htargetBytes : forall b, b ∈ target -> b ≠ space := fun b hb =>
            visible_ne_space (htarget.visible b hb)
          have hpri := ne_space_of_mem_preface
          generalize hrest : [version.digit] ++ eol ++ y ++ last ++ more = rest
          have hbytes : method ++ space :: target ++ space :: Place.versionStem ++
              [version.digit] ++ eol ++ y ++ last ++ more =
              method ++ space :: (target ++ space :: (Place.versionStem ++ rest)) := by
            simp [← hrest]
          rw [hbytes, preface_eq]
          constructor
          · intro hprefix
            have hlater := prefix_of_words hpri.left hmethodBytes hprefix
            exact (not_prefaceTail rest).left (prefix_of_words hpri.right htargetBytes hlater)
          · intro hprefix
            have hlater := prefix_of_words hmethodBytes hpri.left hprefix
            exact (not_prefaceTail rest).right (prefix_of_words htargetBytes hpri.right hlater)

end Http

namespace Session

open Http (Delivers Input WrittenRequest)

/-- A session that awaits a request, and the connection that will answer it. -/
inductive Ready : Session -> Http.Connection -> Prop where
  | fresh : Ready start {}
  | kept {c : Http.Connection} : c.phase = .head {} -> Ready (.text c) c

variable {s : Session} {c : Http.Connection}

theorem phase_of_ready (h : Ready s c) : c.phase = .head {} := by
  cases h with
  | fresh => rfl
  | kept hphase => exact hphase

theorem run_of_ready_head (keepAlive : Bool) (hready : Ready s c) {head : Http.Head}
    {text : List UInt8} (h : Http.LongHeadText head text) {inputs : List Input} {more : List UInt8}
    (hdelivers : Delivers inputs (text ++ more)) :
    exists fewer, Delivers fewer (text ++ more) ∧
      s.run keepAlive inputs = ofText (c.run keepAlive fewer) := by
  cases hready with
  | fresh =>
      have hpreface := Http.not_preface_of_headText h more
      exact run_start_of_delivers keepAlive hdelivers hpreface.left hpreface.right
  | kept _ => exact ⟨inputs, hdelivers, run_text keepAlive c inputs⟩

theorem run_of_ready (keepAlive : Bool) (hready : Ready s c) {r : WrittenRequest}
    (h : r.IsCareful) {inputs : List Input} {more : List UInt8}
    (hdelivers : Delivers inputs (r.bytes ++ more)) :
    exists fewer, Delivers fewer (r.bytes ++ more) ∧
      s.run keepAlive inputs = ofText (c.run keepAlive fewer) :=
  run_of_ready_head keepAlive hready
    (Http.longHeadText_of_headText (WrittenRequest.headText_of_careful h)) hdelivers

end Session
end ConstantReply
