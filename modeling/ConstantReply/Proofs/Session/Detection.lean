import ConstantReply.Proofs.Http.Arrival
import ConstantReply.Proofs.Runs

/-!
# Deciding how a client speaks

While a client has sent a part of the preface, nothing is decided and nothing is sent.  If it sends
all of it, its session is the run of a connection in frames, and if it does anything else, that of a
connection with textual heads.  Either reads every byte from the first one on; only pauses and
timeouts before the decision are not seen by it.
-/

namespace ConstantReply
namespace Session

open Http (Input preface)

theorem run_text (keepAlive : Bool) (c : Http.Connection) (inputs : List Input) :
    (Session.text c).run keepAlive inputs = ofText (c.run keepAlive inputs) := by
  induction inputs generalizing c with
  | nil =>
      rfl
  | cons i rest ih =>
      rw [run_cons, Http.Connection.run_cons]
      have hstep : (Session.text c).step keepAlive i = ofText (c.step keepAlive i) := by
        cases i <;> rfl
      rw [hstep]
      simp only [ofText] at ih ⊢
      rw [ih]
      simp

theorem run_framed (keepAlive : Bool) (c : Http2.Connection) (inputs : List Input) :
    (Session.framed c).run keepAlive inputs = ofFramed (c.run inputs) := by
  induction inputs generalizing c with
  | nil =>
      rfl
  | cons i rest ih =>
      rw [run_cons, Http2.Connection.run_cons]
      have hstep : (Session.framed c).step keepAlive i = ofFramed (c.step i) := by
        cases i <;> rfl
      rw [hstep]
      simp only [ofFramed] at ih ⊢
      rw [ih]
      simp

theorem run_closed (keepAlive : Bool) (inputs : List Input) :
    Session.closed.run keepAlive inputs = (.closed, []) := by
  induction inputs with
  | nil =>
      rfl
  | cons i rest ih =>
      have hstep : Session.closed.step keepAlive i = (.closed, []) := by
        cases i <;> rfl
      rw [run_cons, hstep, ih]
      rfl

theorem run_ofText (keepAlive : Bool) (front rest : List Input) :
    (((ofText (Http.Connection.run keepAlive {} front)).1.run keepAlive rest).1,
        (ofText (Http.Connection.run keepAlive {} front)).2 ++
          ((ofText (Http.Connection.run keepAlive {} front)).1.run keepAlive rest).2) =
      ofText (Http.Connection.run keepAlive {} (front ++ rest)) := by
  rw [Http.Connection.run_append]
  simp only [ofText, run_text]
  simp

theorem run_ofFramed (keepAlive : Bool) (front rest : List Input) :
    (((ofFramed (Http2.Connection.run {} front)).1.run keepAlive rest).1,
        (ofFramed (Http2.Connection.run {} front)).2 ++
          ((ofFramed (Http2.Connection.run {} front)).1.run keepAlive rest).2) =
      ofFramed (Http2.Connection.run {} (front ++ rest)) := by
  rw [Http2.Connection.run_append]
  simp only [ofFramed, run_framed]
  simp

theorem held_of_due {x due : List UInt8} (hdue : preface = x ++ due) : held due = x := by
  unfold held
  rw [hdue, List.length_append, Nat.add_sub_cancel, List.take_left]

/-- What becomes of a session of which `x` has come and `due` is due. -/
inductive Outcome (keepAlive : Bool) (x due : List UInt8) (inputs : List Input)
    (r : Session × List Outgoing) : Prop where
  | undecided (rest : List UInt8) :
      rest ≠ [] -> due = Input.bytes inputs ++ rest -> r = (.undecided rest, []) ->
      Input.finish ∉ inputs -> Outcome keepAlive x due inputs r
  | ended : Input.shutdown ∈ inputs -> r = (.closed, []) -> Outcome keepAlive x due inputs r
  | text (fewer : List Input) :
      Input.bytes fewer = Input.bytes inputs -> (forall i, i ∈ fewer -> i ∈ inputs) ->
      r = ofText (Http.Connection.run keepAlive {} (x.map .byte ++ fewer)) ->
      Http.Replays inputs fewer -> ¬ due <+: Input.stream inputs ->
      (Input.finish ∈ inputs ∨ ¬ Input.stream inputs <+: due) ->
      Outcome keepAlive x due inputs r
  | framed :
      due <+: Input.bytes inputs -> due <+: Input.stream inputs -> forall fewer,
      r = ofFramed (Http2.Connection.run {} (x.map .byte ++ fewer)) ->
      Http.Replays inputs fewer -> Outcome keepAlive x due inputs r

theorem Outcome.text_of_refl {keepAlive : Bool} {x due : List UInt8} {inputs : List Input}
    {r : Session × List Outgoing}
    (hr : r = ofText (Http.Connection.run keepAlive {} (x.map .byte ++ inputs)))
    (hdue : ¬ due <+: Input.stream inputs)
    (hdecided : Input.finish ∈ inputs ∨ ¬ Input.stream inputs <+: due) :
    Outcome keepAlive x due inputs r :=
  Outcome.text inputs rfl (fun _ hj => hj) hr (Http.replays_refl inputs) hdue hdecided

theorem Outcome.cons_of_idle {keepAlive : Bool} {x due : List UInt8} {i : Input}
    {rest : List Input} (hbyte : i.byte? = none) (hfinish : i ≠ .finish)
    (hstep : (Session.undecided due).step keepAlive i = (.undecided due, []))
    (h : Outcome keepAlive x due rest ((Session.undecided due).run keepAlive rest)) :
    Outcome keepAlive x due (i :: rest)
      ((Session.undecided due).run keepAlive (i :: rest)) := by
  have hrun : (Session.undecided due).run keepAlive (i :: rest) =
      (Session.undecided due).run keepAlive rest := by
    rw [run_cons, hstep]
    simp
  have hbytes : Input.bytes (i :: rest) = Input.bytes rest := List.filterMap_cons_none hbyte
  have hstream := Input.stream_idle hbyte hfinish rest
  rw [hrun]
  cases h with
  | undecided left hne hdue hr hopen =>
      apply Outcome.undecided left hne (hbytes ▸ hdue) hr
      rw [List.mem_cons, not_or]
      exact ⟨hfinish.symm, hopen⟩
  | ended hshutdown hr =>
      exact Outcome.ended (List.mem_cons_of_mem i hshutdown) hr
  | text fewer hfewer hsub hr hreplays hdue hdecided =>
      apply Outcome.text fewer (hfewer.trans hbytes.symm)
        (fun j hj => List.mem_cons_of_mem i (hsub j hj)) hr
        (Http.replays_idle hreplays hbyte hfinish) (hstream.symm ▸ hdue)
      rw [hstream]
      exact hdecided.imp_left (List.mem_cons_of_mem i)
  | framed hprefix hdue fewer hr hreplays =>
      exact Outcome.framed (hbytes ▸ hprefix) (hstream.symm ▸ hdue) fewer hr
        (Http.replays_idle hreplays hbyte hfinish)

theorem Outcome.cons_of_due {keepAlive : Bool} {x due : List UInt8} {d : UInt8}
    {rest : List Input} {r : Session × List Outgoing}
    (h : Outcome keepAlive (x ++ [d]) due rest r) :
    Outcome keepAlive x (d :: due) (.byte d :: rest) r := by
  have hassoc (fewer : List Input) :
      (x ++ [d]).map Input.byte ++ fewer = x.map .byte ++ .byte d :: fewer := by
    simp
  cases h with
  | undecided left hne hdue hr hopen =>
      exact Outcome.undecided left hne (congrArg (d :: ·) hdue) hr (by simpa using hopen)
  | ended hshutdown hr =>
      exact Outcome.ended (List.mem_cons_of_mem _ hshutdown) hr
  | text fewer hfewer hsub hr hreplays hdue hdecided =>
      rw [hassoc] at hr
      refine Outcome.text (.byte d :: fewer) (congrArg (d :: ·) hfewer) ?_ hr
        (Http.replays_byte hreplays d) ?_ ?_
      · intro j hj
        exact Http.mem_of_replays (Http.replays_byte hreplays d) hj
      · rw [Input.stream_byte, List.cons_prefix_cons]
        exact fun h => hdue h.right
      · rw [Input.stream_byte, List.cons_prefix_cons]
        exact hdecided.imp (List.mem_cons_of_mem _) fun hne h => hne h.right
  | framed hprefix hdue fewer hr hreplays =>
      rw [hassoc] at hr
      exact Outcome.framed (List.cons_prefix_cons.mpr ⟨rfl, hprefix⟩)
        (List.cons_prefix_cons.mpr ⟨rfl, hdue⟩) (.byte d :: fewer) hr
        (Http.replays_byte hreplays d)

theorem Outcome.of_finish (keepAlive : Bool) {x due : List UInt8} (hdue : preface = x ++ due)
    (hne : due ≠ []) (rest : List Input) :
    Outcome keepAlive x due (.finish :: rest)
      ((Session.undecided due).run keepAlive (.finish :: rest)) := by
  have hstep : (Session.undecided due).step keepAlive .finish =
      ofText (Http.Connection.run keepAlive {} (x.map .byte ++ [.finish])) := by
    simp only [step]
    rw [held_of_due hdue, Http.Connection.run_append]
    simp [Http.Connection.run_cons]
  apply Outcome.text_of_refl
  · rw [run_cons, hstep, run_ofText, List.append_assoc, List.singleton_append]
  · intro hprefix
    exact hne (List.prefix_nil.mp hprefix)
  · exact Or.inl List.mem_cons_self

theorem Outcome.of_byte_ne (keepAlive : Bool) {x more : List UInt8} {b d : UInt8}
    (hdue : preface = x ++ d :: more) (hb : b ≠ d) (rest : List Input) :
    Outcome keepAlive x (d :: more) (.byte b :: rest)
      ((Session.undecided (d :: more)).run keepAlive (.byte b :: rest)) := by
  have hstep : (Session.undecided (d :: more)).step keepAlive (.byte b) =
      ofText (Http.Connection.run keepAlive {} (x.map .byte ++ [.byte b])) := by
    simp only [step, decide, if_pos hb]
    rw [held_of_due hdue]
    simp [beginText]
  apply Outcome.text_of_refl
  · rw [run_cons, hstep, run_ofText, List.append_assoc, List.singleton_append]
  · rw [Input.stream_byte, List.cons_prefix_cons]
    exact fun h => hb h.left.symm
  · rw [Input.stream_byte, List.cons_prefix_cons]
    exact Or.inr fun h => hb h.left

theorem Outcome.of_last (keepAlive : Bool) {x : List UInt8} {b : UInt8}
    (hdue : preface = x ++ [b]) (rest : List Input) :
    Outcome keepAlive x [b] (.byte b :: rest)
      ((Session.undecided [b]).run keepAlive (.byte b :: rest)) := by
  have hstep : (Session.undecided [b]).step keepAlive (.byte b) =
      ofFramed (Http2.Connection.run {} (x.map .byte ++ [.byte b])) := by
    simp only [step, decide]
    rw [held_of_due hdue]
    simp [beginFramed]
  apply Outcome.framed (List.prefix_append [b] (Input.bytes rest))
    (List.prefix_append [b] (Input.stream rest)) (.byte b :: rest)
  · rw [run_cons, hstep, run_ofFramed, List.append_assoc, List.singleton_append]
  · exact Http.replays_refl _

theorem run_undecided (keepAlive : Bool) {x due : List UInt8} (hdue : preface = x ++ due)
    (hne : due ≠ []) (inputs : List Input) :
    Outcome keepAlive x due inputs ((Session.undecided due).run keepAlive inputs) := by
  induction inputs generalizing x due with
  | nil =>
      exact Outcome.undecided due hne rfl rfl (by simp)
  | cons i rest ih =>
      cases i with
      | pause => exact Outcome.cons_of_idle rfl nofun rfl (ih hdue hne)
      | headTimeout => exact Outcome.cons_of_idle rfl nofun rfl (ih hdue hne)
      | shutdown =>
          apply Outcome.ended List.mem_cons_self
          rw [run_cons]
          simp only [step]
          rw [run_closed]
          rfl
      | finish => exact Outcome.of_finish keepAlive hdue hne rest
      | byte b =>
          cases due with
          | nil => exact absurd rfl hne
          | cons d more =>
              by_cases hb : b = d
              · subst hb
                by_cases hmore : more = []
                · subst hmore
                  exact Outcome.of_last keepAlive hdue rest
                · have hstep : (Session.undecided (b :: more)).step keepAlive (.byte b) =
                      (.undecided more, []) := by
                    simp [step, decide, hmore]
                  have hrun : (Session.undecided (b :: more)).run keepAlive (.byte b :: rest) =
                      (Session.undecided more).run keepAlive rest := by
                    rw [run_cons, hstep]
                    simp
                  rw [hrun]
                  exact Outcome.cons_of_due (ih (by rw [hdue]; simp) hmore)
              · exact Outcome.of_byte_ne keepAlive hdue hb rest

theorem run_start (keepAlive : Bool) (inputs : List Input) :
    Outcome keepAlive [] preface inputs (start.run keepAlive inputs) := by
  apply run_undecided keepAlive rfl
  decide +kernel

theorem run_start_of_delivers (keepAlive : Bool) {inputs : List Input} {bytes : List UInt8}
    (hdelivers : Http.Delivers inputs bytes) (hbegins : ¬ preface <+: bytes)
    (hpart : ¬ bytes <+: preface) :
    exists fewer, Http.Delivers fewer bytes ∧
      start.run keepAlive inputs = ofText (Http.Connection.run keepAlive {} fewer) := by
  have hbytes := Http.bytes_of_delivers hdelivers
  cases run_start keepAlive inputs with
  | undecided rest _ hdue _ =>
      exact absurd ⟨rest, by rw [hdue, hbytes]⟩ hpart
  | ended hshutdown _ =>
      exact absurd (Http.arrives_of_delivers hdelivers _ hshutdown) id
  | text fewer hfewer hsub hr =>
      refine ⟨fewer, ?_, hr⟩
      rw [← hbytes, ← hfewer]
      exact Http.delivers_bytes fun i hi =>
        Http.arrives_of_delivers hdelivers i (hsub i hi)
  | framed hprefix =>
      exact absurd (hbytes ▸ hprefix) hbegins

end Session
end ConstantReply
