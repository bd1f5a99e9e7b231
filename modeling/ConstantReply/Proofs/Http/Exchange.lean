import ConstantReply.Proofs.Http.Arrival
import ConstantReply.Proofs.Http.Framing
import ConstantReply.Proofs.Http.HeadReading
import ConstantReply.Proofs.Runs

/-!
# Heads and the replies to them

Whatever happens to a connection, each of its replies but a last refusal answers a head that stands
in the bytes, and no head is answered twice.
-/

namespace ConstantReply
namespace Http

/-- These heads stand in these bytes, one after the other and apart from each other. -/
inductive HeadsIn : List Head -> List UInt8 -> Prop where
  | nothing (rest : List UInt8) : HeadsIn [] rest
  | next {head : Head} {heads : List Head} {text rest : List UInt8} (gap : List UInt8) :
      HeadText head text -> HeadsIn heads rest -> HeadsIn (head :: heads) (gap ++ text ++ rest)

theorem headsIn_append {heads : List Head} {x : List UInt8} (h : HeadsIn heads x)
    (y : List UInt8) : HeadsIn heads (x ++ y) := by
  induction h with
  | nothing rest => exact HeadsIn.nothing (rest ++ y)
  | next gap htext _ ih =>
      rw [List.append_assoc]
      exact HeadsIn.next gap htext ih

theorem headsIn_concat {heads : List Head} {x : List UInt8} (h : HeadsIn heads x) {head : Head}
    {text : List UInt8} (htext : HeadText head text) :
    HeadsIn (heads ++ [head]) (x ++ text) := by
  induction h with
  | nothing rest =>
      have hone := HeadsIn.next rest htext (HeadsIn.nothing [])
      rwa [List.append_nil] at hone
  | next gap hfirst _ ih =>
      rw [List.append_assoc]
      exact HeadsIn.next gap hfirst ih

/-- The replies to heads that are not refused. -/
inductive Answered : List Head -> List Reply -> Prop where
  | nothing : Answered [] []
  | ok {head : Head} {heads : List Head} {replies : List Reply} (a : Announcement) :
      WellFramed head -> Answered heads replies ->
      Answered (head :: heads) (.ok head.line a :: replies)

/-- A phase after these bytes, in which these heads were answered. -/
inductive Stands : Phase -> List Head -> List UInt8 -> Prop where
  | reading {reader : HeadReader} {heads : List Head} {front text : List UInt8} :
      HeadsIn heads front -> Reads reader.place text ->
      Stands (.head reader) heads (front ++ text)
  | otherwise {phase : Phase} {heads : List Head} {bytes : List UInt8} :
      (forall reader, phase ≠ .head reader) -> HeadsIn heads bytes -> Stands phase heads bytes

theorem headsIn_of_stands {phase : Phase} {heads : List Head} {bytes : List UInt8}
    (h : Stands phase heads bytes) : HeadsIn heads bytes := by
  cases h with
  | reading hheads _ => exact headsIn_append hheads _
  | otherwise _ hheads => exact hheads

theorem stands_of_headsIn {heads : List Head} {bytes : List UInt8} (h : HeadsIn heads bytes)
    {phase : Phase} (hphase : forall reader, phase = .head reader -> reader = {}) :
    Stands phase heads bytes := by
  cases phase with
  | head reader =>
      rw [hphase reader rfl, ← List.append_nil bytes]
      exact Stands.reading h Reads.before
  | body reader => exact Stands.otherwise (fun _ => nofun) h
  | latePreface due => exact Stands.otherwise (fun _ => nofun) h
  | closed => exact Stands.otherwise (fun _ => nofun) h

/-!
# Steps
-/

/-- What a step leads to on a connection on which these heads were answered. -/
inductive Exchange (heads : List Head) (bytes : List UInt8) : Connection × List Reply -> Prop where
  | silent {c : Connection} : Stands c.phase heads bytes -> Exchange heads bytes (c, [])
  | answer {c : Connection} {head : Head} (a : Announcement) :
      WellFramed head -> Stands c.phase (heads ++ [head]) bytes ->
      Exchange heads bytes (c, [.ok head.line a])
  | refusal {c : Connection} (why : Refusal) :
      c.phase = .closed -> Exchange heads bytes (c, [.refusal why])

namespace Connection

variable {heads : List Head} {bytes : List UInt8}

theorem exchange_close (h : HeadsIn heads bytes) (c : Connection) :
    Exchange heads bytes (c.close, []) := by
  apply Exchange.silent
  exact stands_of_headsIn h fun _ => nofun

theorem phaseAfter_eq_head {keeps : Bool} {request : Request} {reader : HeadReader}
    (h : phaseAfter keeps request = .head reader) : reader = {} := by
  unfold phaseAfter at h
  split at h
  · cases h
  split at h
  · cases h
    rfl
  · cases h

theorem exchange_answer (keepAlive : Bool) (c : Connection) {head : Head} {x text : List UInt8}
    (h : HeadsIn heads x) (htext : HeadText head text) :
    Exchange heads (x ++ text) (c.answer keepAlive head) := by
  unfold answer
  split
  · exact Exchange.refusal _ rfl
  · rename_i request hjudge
    have hhead := Head.head_of_judge hjudge
    simp only [Reply.toRequest]
    rw [hhead]
    apply Exchange.answer
    · exact Head.wellFramed_of_judge hjudge
    · apply stands_of_headsIn (headsIn_concat h htext)
      intro reader hreader
      exact phaseAfter_eq_head hreader

theorem exchange_readHead (keepAlive : Bool) (c : Connection) {reader : HeadReader}
    {front text : List UInt8} (h : HeadsIn heads front) (hreads : Reads reader.place text)
    (b : UInt8) : Exchange heads (front ++ text ++ [b]) (c.readHead keepAlive reader b) := by
  rw [List.append_assoc]
  unfold readHead HeadReader.step
  cases hstep : reader.place.step b with
  | refused why =>
      simp only
      split
      · exact Exchange.silent (Stands.otherwise (fun _ => nofun) (headsIn_append h _))
      · exact Exchange.refusal why rfl
  | complete head =>
      exact exchange_answer keepAlive c h (headText_of_complete hreads hstep)
  | more next =>
      simp only
      split
      · rename_i hrefused
        split at hrefused <;> cases hrefused
        rcases reads_of_more hreads hstep with ⟨gap, more, hbytes, hnext⟩
        rw [hbytes, ← List.append_assoc]
        exact Exchange.silent (Stands.reading (headsIn_append h gap) hnext)
      · rename_i hcomplete
        split at hcomplete <;> cases hcomplete
      · split
        · exact Exchange.silent (Stands.otherwise (fun _ => nofun) (headsIn_append h _))
        · exact Exchange.refusal _ rfl

theorem exchange_readBody (h : HeadsIn heads bytes) (c : Connection) (reader : BodyReader)
    (b : UInt8) : Exchange heads bytes (c.readBody reader b, []) := by
  apply Exchange.silent
  apply stands_of_headsIn h
  intro next hnext
  unfold readBody at hnext
  split at hnext <;> cases hnext
  rfl

theorem exchange_readPreface (h : HeadsIn heads bytes) (c : Connection) (due : List UInt8)
    (b : UInt8) : Exchange heads bytes (c.readPreface due b) := by
  unfold readPreface
  split
  · exact exchange_close h c
  split
  · exact Exchange.refusal _ rfl
  split
  · exact exchange_close h c
  · exact Exchange.silent (Stands.otherwise (fun _ => nofun) h)

theorem exchange_readByte (keepAlive : Bool) {c : Connection} (h : Stands c.phase heads bytes)
    (b : UInt8) : Exchange heads (bytes ++ [b]) (c.readByte keepAlive b) := by
  have hheads := headsIn_append (headsIn_of_stands h) [b]
  unfold readByte
  cases hphase : c.phase with
  | head reader =>
      rw [hphase] at h
      cases h with
      | reading hfront hreads => exact exchange_readHead keepAlive c hfront hreads b
      | otherwise hother _ => exact absurd rfl (hother reader)
  | body reader => exact exchange_readBody hheads c reader b
  | latePreface due => exact exchange_readPreface hheads c due b
  | closed =>
      apply Exchange.silent
      rw [hphase]
      exact Stands.otherwise (fun _ => nofun) hheads

theorem exchange_settle {c : Connection} (h : Stands c.phase heads bytes) :
    Exchange heads bytes c.settle := by
  have hheads := headsIn_of_stands h
  unfold settle
  split
  · exact Exchange.silent h
  · exact exchange_close hheads c
  · exact Exchange.refusal _ rfl
  · exact Exchange.silent h

theorem exchange_finish {c : Connection} (h : Stands c.phase heads bytes) :
    Exchange heads bytes (c.settle.1.close, c.settle.2) := by
  have hheads := headsIn_of_stands h
  unfold settle
  split
  · exact exchange_close hheads c
  · exact exchange_close hheads c
  · exact Exchange.refusal _ rfl
  · exact exchange_close hheads c

theorem exchange_step (keepAlive : Bool) {c : Connection} (h : Stands c.phase heads bytes)
    (i : Input) : Exchange heads (bytes ++ Input.bytes [i]) (c.step keepAlive i) := by
  cases i with
  | byte b => exact exchange_readByte keepAlive h b
  | pause =>
      rw [append_bytes_of_not_byte rfl]
      exact exchange_settle h
  | finish =>
      rw [append_bytes_of_not_byte rfl]
      exact exchange_finish h
  | headTimeout =>
      rw [append_bytes_of_not_byte rfl]
      simp only [step]
      split
      · exact exchange_close (headsIn_of_stands h) c
      · exact Exchange.silent h
  | shutdown =>
      rw [append_bytes_of_not_byte rfl]
      simp only [step, wind]
      split
      · exact Exchange.silent h
      · exact exchange_close (headsIn_of_stands h) c

/-!
# Runs
-/

theorem close_of_closed {c : Connection} (hclosed : c.phase = .closed) : c.close = c := by
  unfold close
  rw [← hclosed]

theorem run_of_closed (keepAlive : Bool) {c : Connection} (hclosed : c.phase = .closed)
    (inputs : List Input) : c.run keepAlive inputs = (c, []) := by
  induction inputs with
  | nil =>
      rfl
  | cons i rest ih =>
      have hstep : c.step keepAlive i = (c, []) := by
        cases i with
        | byte b => simp [step, readByte, hclosed]
        | pause => simp [step, settle, hclosed]
        | finish => simp [step, settle, hclosed, close_of_closed hclosed]
        | headTimeout => simp [step, awaitsHead, hclosed]
        | shutdown => simp [step, wind, awaitsHead, hclosed, close_of_closed hclosed]
      rw [run_cons, hstep, ih]
      rfl

theorem run_answers (keepAlive : Bool) {c : Connection} (h : Stands c.phase heads bytes)
    (inputs : List Input) :
    exists more oks refusals,
      (c.run keepAlive inputs).2 = oks ++ refusals ∧ Answered more oks ∧
        HeadsIn (heads ++ more) (bytes ++ Input.bytes inputs) ∧
        (refusals = [] ∨
          exists why, refusals = [.refusal why] ∧ (c.run keepAlive inputs).1.phase = .closed) := by
  induction inputs generalizing c heads bytes with
  | nil =>
      refine ⟨[], [], [], rfl, Answered.nothing, ?_, Or.inl rfl⟩
      simpa [Input.bytes] using headsIn_of_stands h
  | cons i rest ih =>
      have hbytes : bytes ++ Input.bytes (i :: rest) =
          bytes ++ Input.bytes [i] ++ Input.bytes rest := by
        rw [List.append_assoc, Input.bytes, Input.bytes, Input.bytes, ← List.filterMap_append,
          List.singleton_append]
      rw [run_cons, hbytes]
      have hexchange := exchange_step keepAlive h i
      generalize c.step keepAlive i = next at hexchange
      cases hexchange with
      | silent hstands =>
          rcases ih hstands with ⟨more, oks, refusals, hsent, hanswered, hheads, hlast⟩
          exact ⟨more, oks, refusals, hsent, hanswered, hheads, hlast⟩
      | @answer next head a hframed hstands =>
          rcases ih hstands with ⟨more, oks, refusals, hsent, hanswered, hheads, hlast⟩
          refine ⟨head :: more, .ok head.line a :: oks, refusals, ?_, ?_, ?_, hlast⟩
          · exact congrArg (Reply.ok head.line a :: ·) hsent
          · exact Answered.ok a hframed hanswered
          · rwa [List.append_assoc] at hheads
      | @refusal next why hclosed =>
          have hrest := run_of_closed keepAlive hclosed rest
          rw [hrest]
          refine ⟨[], [], [.refusal why], rfl, Answered.nothing, ?_, Or.inr ⟨why, rfl, hclosed⟩⟩
          rw [List.append_nil, List.append_assoc]
          exact headsIn_append (headsIn_of_stands h) _

end Connection
end Http
end ConstantReply
