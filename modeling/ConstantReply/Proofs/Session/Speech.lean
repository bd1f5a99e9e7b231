import ConstantReply.Proofs.Session.Detection
import ConstantReply.Settings

/-!
# What decides how a client speaks

A client speaks in frames if its stream begins with the preface, and in textual heads if its stream
ends or differs from the preface before that.  Nothing else has an influence, least of all where the
stream is cut, and the connection that is chosen reads the stream from its first byte on.
-/

namespace ConstantReply
namespace Session

open Http (Input Replays preface)

/-- The ways in which a client can speak. -/
inductive Speech where
  | heads
  | frames
  deriving DecidableEq

def speech? : Session -> Option Speech
  | .text _ => some .heads
  | .framed _ => some .frames
  | _ => none

structure IsOpening (inputs : List Input) : Prop where
  part : Input.stream inputs <+: preface
  proper : Input.stream inputs ≠ preface
  isOpen : Input.finish ∉ inputs

/-- How a session that was never told to end is decided. -/
structure Decided (keepAlive : Bool) (inputs : List Input) : Prop where
  frames : (start.run keepAlive inputs).1.speech? = some .frames <->
    preface <+: Input.stream inputs
  heads : (start.run keepAlive inputs).1.speech? = some .heads <->
    ¬ preface <+: Input.stream inputs ∧ ¬ IsOpening inputs
  waits : IsOpening inputs ->
    exists due, preface = Input.stream inputs ++ due ∧
      start.run keepAlive inputs = (.undecided due, [])
  readsFrames : preface <+: Input.stream inputs ->
    exists seen, Replays inputs seen ∧ Input.stream seen = Input.stream inputs ∧
      start.run keepAlive inputs = ofFramed (Http2.Connection.run {} seen)
  readsHeads : ¬ preface <+: Input.stream inputs -> ¬ IsOpening inputs ->
    exists seen, Replays inputs seen ∧ Input.stream seen = Input.stream inputs ∧
      start.run keepAlive inputs = ofText (Http.Connection.run keepAlive {} seen)

theorem not_prefix_of_opening {inputs : List Input} (h : IsOpening inputs) :
    ¬ preface <+: Input.stream inputs := by
  intro hprefix
  exact h.proper (h.part.eq_of_length (Nat.le_antisymm h.part.length_le hprefix.length_le))

variable {keepAlive : Bool} {inputs : List Input}

theorem decided_of_undecided {rest : List UInt8} (hne : rest ≠ [])
    (hdue : preface = Input.bytes inputs ++ rest) (hopen : Input.finish ∉ inputs)
    (hr : start.run keepAlive inputs = (.undecided rest, [])) : Decided keepAlive inputs := by
  have hstream := Input.stream_of_open hopen
  rw [← hstream] at hdue
  have hopening : IsOpening inputs := by
    refine ⟨⟨rest, hdue.symm⟩, ?_, hopen⟩
    intro heq
    rw [heq] at hdue
    exact hne (List.self_eq_append_right.mp hdue)
  have hpreface := not_prefix_of_opening hopening
  refine ⟨?_, ?_, fun _ => ⟨rest, hdue, hr⟩, fun h => absurd h hpreface,
    fun _ h => absurd hopening h⟩
  · simp [hr, speech?, hpreface]
  · simp [hr, speech?, hopening]

theorem decided_of_text {seen : List Input} (hreplays : Replays inputs seen)
    (hpreface : ¬ preface <+: Input.stream inputs) (hopening : ¬ IsOpening inputs)
    (hr : start.run keepAlive inputs = ofText (Http.Connection.run keepAlive {} seen)) :
    Decided keepAlive inputs := by
  refine ⟨?_, ?_, fun h => absurd h hopening, fun h => absurd h hpreface,
    fun _ _ => ⟨seen, hreplays, Http.stream_of_replays hreplays, hr⟩⟩
  · simp [hr, ofText, speech?, hpreface]
  · simp [hr, ofText, speech?, hpreface, hopening]

theorem decided_of_framed {seen : List Input} (hreplays : Replays inputs seen)
    (hpreface : preface <+: Input.stream inputs)
    (hr : start.run keepAlive inputs = ofFramed (Http2.Connection.run {} seen)) :
    Decided keepAlive inputs := by
  refine ⟨?_, ?_, fun h => absurd hpreface (not_prefix_of_opening h),
    fun _ => ⟨seen, hreplays, Http.stream_of_replays hreplays, hr⟩,
    fun h _ => absurd hpreface h⟩
  · simp [hr, ofFramed, speech?, hpreface]
  · simp [hr, ofFramed, speech?, hpreface]

theorem decided_of_run (keepAlive : Bool) {inputs : List Input}
    (hgoes : Input.shutdown ∉ inputs) : Decided keepAlive inputs := by
  cases run_start keepAlive inputs with
  | undecided rest hne hdue hr hopen => exact decided_of_undecided hne hdue hopen hr
  | ended hshutdown _ => exact absurd hshutdown hgoes
  | text seen _ _ hr hreplays hpreface hdecided =>
      apply decided_of_text hreplays hpreface _ hr
      intro hopening
      rcases hdecided with hfinish | hpart
      · exact hopening.isOpen hfinish
      · exact hpart hopening.part
  | framed _ hpreface seen hr hreplays => exact decided_of_framed hreplays hpreface hr

theorem speech?_eq_of_decided {others : List Input} (h : Decided keepAlive inputs)
    (hothers : Decided keepAlive others) (hstream : Input.stream others = Input.stream inputs)
    (hfinish : Input.finish ∈ others <-> Input.finish ∈ inputs) :
    (start.run keepAlive others).1.speech? = (start.run keepAlive inputs).1.speech? := by
  have hopening : IsOpening others <-> IsOpening inputs := by
    constructor
    · intro hpart
      exact ⟨hstream ▸ hpart.part, hstream ▸ hpart.proper, fun h => hpart.isOpen (hfinish.mpr h)⟩
    · intro hpart
      exact ⟨hstream ▸ hpart.part, hstream ▸ hpart.proper, fun h => hpart.isOpen (hfinish.mp h)⟩
  have hframes := hothers.frames
  have hheads := hothers.heads
  rw [hstream, ← h.frames] at hframes
  rw [hstream, hopening, ← h.heads] at hheads
  apply Option.ext
  intro speech
  cases speech
  · exact hheads
  · exact hframes

/-- A session is decided by the stream of its client alone: the stream begins with the preface, or
ends or differs before that.  Until then nothing is sent, and then the connection that is chosen
reads all of the stream.  Where the stream is cut makes no difference. -/
theorem decided_of_stream (settings : Settings) {inputs : List Input}
    (hgoes : Input.shutdown ∉ inputs) :
    Decided settings.keepAlive inputs ∧
      forall others, Input.shutdown ∉ others -> Input.stream others = Input.stream inputs ->
        (Input.finish ∈ others <-> Input.finish ∈ inputs) ->
        (start.run settings.keepAlive others).1.speech? =
          (start.run settings.keepAlive inputs).1.speech? := by
  have hdecided := decided_of_run settings.keepAlive hgoes
  refine ⟨hdecided, ?_⟩
  intro others hothers hstream hfinish
  exact speech?_eq_of_decided hdecided (decided_of_run settings.keepAlive hothers) hstream hfinish

end Session
end ConstantReply
