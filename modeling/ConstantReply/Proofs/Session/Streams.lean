import ConstantReply.Proofs.Http2.Received
import ConstantReply.Proofs.Http2.Talk
import ConstantReply.Proofs.Session.Detection
import ConstantReply.Proofs.Session.Transcript

/-!
# Streams

However a client interleaves the frames of its streams, each stream is answered once when everything
has been read, in the order in which the streams were opened, and all responses are the same but for
their dates.
-/

namespace ConstantReply
namespace Session

open Hpack (BlockText Field)
open Http (Delivers Input preface)
open Http2 (AuthorityText ClientFrame Exchange FrameClient IsAnswer Ledger Liberties RawFrame
  RequestText Response Responses ServerFrame StatesLength Talks isValid_page lone page pageBlock
  scattered talks_lone talks_page)

theorem run_start_of_part (keepAlive : Bool) {front : List Input}
    (h : Delivers front preface.dropLast) :
    start.run keepAlive front = (.undecided [0x0A], []) := by
  have hbytes := Http.bytes_of_delivers h
  have harrives := Http.arrives_of_delivers h
  have hopen : Input.finish ∉ front := fun hmem => harrives _ hmem
  have hpart : preface.dropLast <+: preface := ⟨[0x0A], Http2.preface_eq.symm⟩
  cases run_start keepAlive front with
  | undecided rest _ hdue hr =>
      rw [hbytes] at hdue
      have hrest : rest = [0x0A] := List.append_cancel_left (hdue.symm.trans Http2.preface_eq)
      rw [hr, hrest]
  | ended hshutdown _ => exact absurd (harrives _ hshutdown) id
  | text _ _ _ _ _ _ hdecided =>
      rw [Input.stream_of_open hopen, hbytes] at hdecided
      rcases hdecided with hfinish | hbegins
      · exact absurd hfinish hopen
      · exact absurd hpart hbegins
  | framed hprefix =>
      rw [hbytes] at hprefix
      exact absurd hprefix.length_le (by decide +kernel)

theorem run_start_of_opening (keepAlive : Bool) {inputs : List Input} {x : List UInt8}
    (h : Delivers inputs (preface ++ x)) :
    start.run keepAlive inputs = ofFramed (Http2.Connection.run {} inputs) := by
  rcases Http2.exists_opening h with ⟨front, rest, rfl, hfront, _⟩
  have hlast : (Session.undecided [0x0A]).step keepAlive (.byte 0x0A) =
      (.framed { phase := .frames .start }, [.frame .settings]) := by
    have hbegun : beginFramed (held [0x0A] ++ [0x0A]) =
        (.framed { phase := .frames .start }, [.frame .settings]) := by
      decide +kernel
    simpa [step, decide] using hbegun
  rw [run_append, run_start_of_part keepAlive hfront, run_cons, hlast, run_framed,
    Http2.run_opening hfront]
  rfl

/-- Once everything has been read, the client has got one response on each of its streams and no other
one, whatever the dates at which things were written. -/
structure Answered (keepAlive : Bool) (l : Ledger) (inputs : List Input) : Prop where
  isOpen : (start.run keepAlive (inputs ++ [.pause])).1.isClosed = false
  apart : (l.streams.map Exchange.stream).Nodup
  responses : forall {dated : List (String × Outgoing)} {greatestRoom : Nat},
    dated.map Prod.snd = (start.run keepAlive (inputs ++ [.pause])).2 ->
    (forall d, d ∈ dated -> (Ascii.bytes d.1).length ≤ Http2.dateLength) ->
    (forall room, room ∈ l.rooms -> room ≤ greatestRoom) ->
    exists responses,
      Responses greatestRoom {} (FrameClient.readFrames (Outgoing.writeDated {} dated).1) responses ∧
        List.Forall₂ (IsAnswer (dated.map Prod.fst)) (l.streams.map Exchange.stream) responses

theorem exists_dated {frames : List ServerFrame} {dated : List (String × Outgoing)}
    (h : dated.map Prod.snd = frames.map .frame) :
    exists each : List (String × ServerFrame), dated = each.map (fun d => (d.1, .frame d.2)) ∧
      each.map Prod.snd = frames := by
  induction frames generalizing dated with
  | nil => exact ⟨[], List.map_eq_nil_iff.mp h, rfl⟩
  | cons f rest ih =>
      rcases List.map_eq_cons_iff.mp h with ⟨d, later, rfl, hd, hlater⟩
      rcases ih hlater with ⟨each, rfl, heach⟩
      exact ⟨(d.1, f) :: each, by rw [List.map_cons, ← hd], by rw [List.map_cons, heach]⟩

/-- Every stream that a client opens is answered once and like all others. -/
theorem answered_of_talks (keepAlive : Bool) {l : Ledger} {inputs : List Input}
    (h : Talks {} l inputs) : Answered keepAlive l inputs := by
  rcases Http2.keeps_of_talks h with ⟨hl, hphase, done, hagrees⟩
  rw [List.nil_append] at hagrees
  rcases Http2.agrees_settle hl hagrees hphase with ⟨hsame, hsettled⟩
  have hrest : Http2.Connection.run {} (inputs ++ [.pause]) =
      ((Http2.Connection.run {} inputs).1.settle.1,
        (Http2.Connection.run {} inputs).2 ++ (Http2.Connection.run {} inputs).1.settle.2) := by
    rw [Http2.Connection.run_append, Http2.Connection.run_cons]
    simp [Http2.Connection.step]
  rcases Http2.exists_delivers_of_talks h with ⟨x, hx⟩
  have hdelivers := Http.delivers_append hx (Delivers.pause Delivers.nothing)
  rw [List.append_assoc] at hdelivers
  have hrun := run_start_of_opening keepAlive hdelivers
  rw [hrest] at hrun
  exact
    { isOpen := by
        rw [hrun]
        simp [isClosed, ofFramed, Http2.Connection.isClosed, hsame, hphase]
      apart := hl.apart
      responses := by
        intro dated greatestRoom hdated hdates hrooms
        rw [hrun] at hdated
        rcases exists_dated hdated with ⟨each, rfl, heach⟩
        have hbounds : forall room, room ∈ l.rooms -> room ≤ greatestRoom ∧ room < 4294967296 :=
          fun room hroom => ⟨hrooms room hroom, hl.rooms room hroom⟩
        have hplain : forall d, d ∈ each -> d.2.IsPlain l.rooms := by
          intro d hd
          have hmem : d.2 ∈ each.map Prod.snd := List.mem_map_of_mem hd
          rw [heach] at hmem
          exact hsettled.plain d.2 hmem
        have heachDates : forall d, d ∈ each -> (Ascii.bytes d.1).length ≤ Http2.dateLength :=
          fun d hd => hdates _ (List.mem_map_of_mem hd)
        have hw : Http2.Writer.Sound greatestRoom {} := ⟨Hpack.Table.sound_empty, by simp⟩
        rcases Http2.exists_responses hbounds heachDates hplain hw with
          ⟨raws, responses, hbytes, hfits, hread, hanswers⟩
        rw [heach, hsettled.answered] at hanswers
        rw [hbytes, Http2.readFrames_bytes hfits]
        refine ⟨responses, hread, ?_⟩
        rw [List.map_map]
        exact hanswers }

/-!
## Liberties
-/

theorem responses_eq_nil {greatestRoom : Nat} {table : Hpack.Table} {frames : List RawFrame}
    {responses : List Response} (h : Responses greatestRoom table frames responses)
    (hnone : forall f, f ∈ frames -> f.1.kind ≠ 1) : responses = [] := by
  induction h with
  | nothing => rfl
  | other _ _ ih => exact ih fun f hf => hnone f (List.mem_cons_of_mem _ hf)
  | response hkind _ _ _ _ => exact absurd hkind (hnone _ List.mem_cons_self)

theorem not_answered_of_kinds {keepAlive : Bool} {l : Ledger} {inputs : List Input}
    (hstreams : l.streams ≠ []) (hrooms : l.rooms = [])
    (hnone : forall f, f ∈ FrameClient.readFrames
      (written "" (start.run keepAlive (inputs ++ [.pause]))) -> f.1.kind ≠ 1) :
    ¬ Answered keepAlive l inputs := by
  intro hanswered
  rw [written, ← Outgoing.writeDated_map] at hnone
  have hsame : ((start.run keepAlive (inputs ++ [.pause])).2.map fun o => ("", o)).map Prod.snd =
      (start.run keepAlive (inputs ++ [.pause])).2 := by
    rw [List.map_map]
    exact List.map_id _
  have hempty : (Ascii.bytes "").length ≤ Http2.dateLength := by
    decide +kernel
  have hdates : forall d, d ∈ (start.run keepAlive (inputs ++ [.pause])).2.map (fun o => ("", o)) ->
      (Ascii.bytes d.1).length ≤ Http2.dateLength := by
    intro d hd
    rcases List.mem_map.mp hd with ⟨o, _, rfl⟩
    exact hempty
  have hfew : forall room, room ∈ l.rooms -> room ≤ 0 := by
    rw [hrooms]
    simp
  rcases hanswered.responses hsame hdates hfew with ⟨responses, hread, hall⟩
  rw [responses_eq_nil hread hnone, List.forall₂_nil_right_iff, List.map_eq_nil_iff] at hall
  exact hstreams hall

/-- Each of the liberties costs a client its answer: a long number in a block, a long spelling of a
length, an escape in a host, an address with many colons, another case of a keyword, a stream that
depends on itself, and a block in many parts. -/
theorem not_answered_of_liberties :
    let get := Ascii.bytes "GET"
    let l : Ledger := { streams := [⟨1, get, none, 0, true⟩], nextStream := 3 }
    let long : Field := ⟨[0x78], List.replicate 127 0x78⟩
    let spelled := lone none (pageBlock ++
      ([0, 1, 0x78] ++ ([0x7F, 0x80, 0x80, 0x80, 0x80, 0] ++ long.value)))
    let zeros : Field := ⟨Ascii.bytes "content-length", List.replicate 20 0x30⟩
    let counted := lone none (Hpack.plainBlock (page none [zeros]).list)
    let counts : Ledger := { l with streams := [⟨1, get, some 0, 0, true⟩] }
    let escaped := lone none (Hpack.plainBlock (page (some [0x25, 0x34, 0x31]) []).list)
    let address : List UInt8 := [0x76, 0x31, 0x2E] ++ List.replicate 9 0x3A
    let bracketed := lone none (Hpack.plainBlock (page (some (0x5B :: (address ++ [0x5D]))) []).list)
    let te : Field := .ofStrings "te" "Trailers"
    let capital := lone none (Hpack.plainBlock (page none [te]).list)
    let circular := lone (some ⟨false, 1, 15⟩) pageBlock
    (Talks { integerSize := 6 } l spelled ∧ ¬ Answered true l spelled) ∧
      (Talks { lengthDigits := 20 } counts counted ∧ ¬ Answered true counts counted) ∧
      (Talks { escapes := true } l escaped ∧ ¬ Answered true l escaped) ∧
      (Talks { addressColons := 9 } l bracketed ∧ ¬ Answered true l bracketed) ∧
      (Talks { anyCase := true } l capital ∧ ¬ Answered true l capital) ∧
      (Talks { selfDependence := true } l circular ∧ ¬ Answered true l circular) ∧
      (Talks { continuations := 6 } l (scattered 6) ∧ ¬ Answered true l (scattered 6)) := by
  intro get l long spelled zeros counted counts escaped address bracketed te capital circular
  have hspelled : Talks { integerSize := 6 } l spelled := by
    have hnumber : Hpack.IntegerText 7 0 127 [0x7F, 0x80, 0x80, 0x80, 0x80, 0] :=
      .long (Hpack.continuationText_zero 4)
    have hname : Hpack.NameText 6 {} .notAdded [0x78] [0, 1, 0x78] :=
      .text (Hpack.literalText_plain (by decide) (by decide))
    have hvalue : Hpack.LiteralText 6 long.value
        ([0x7F, 0x80, 0x80, 0x80, 0x80, 0] ++ long.value) :=
      .plain hnumber (by decide)
    have hblock : BlockText 6 Hpack.usualRoom true {} _ ((page none []).list ++ [long]) {} :=
      Hpack.blockText_plain (by decide) (by decide +kernel)
        (.literal .notAdded hname hvalue .nothing)
    exact talks_lone (r := page none [long]) (isValid_page (by simp) (by decide +kernel))
      (.nothing (by decide +kernel)) rfl (by decide +kernel) hblock (by decide +kernel)
  have hcounted : Talks { lengthDigits := 20 } counts counted :=
    talks_page (by decide) (by simp) (by decide +kernel)
      (.number (by decide +kernel) (by decide +kernel)) rfl (by decide +kernel) (by decide +kernel)
      (by decide +kernel)
  have hescaped : Talks { escapes := true } l escaped := by
    have hhost : AuthorityText true 8 ([0x25, 0x34, 0x31] ++ []) :=
      .host (by decide) (.escaped rfl (by decide) (by decide) .nothing) .nothing
    refine talks_page (by decide) ?_ (by simp) (.nothing (by simp)) rfl (by decide +kernel)
      (by decide +kernel) (by decide +kernel)
    rintro _ ⟨⟩
    exact hhost
  have hbracketed : Talks { addressColons := 9 } l bracketed := by
    have haddress : AuthorityText false 9 (0x5B :: (address ++ 0x5D :: [])) :=
      .address (by decide +kernel) (by decide +kernel) .nothing
    refine talks_page (by decide) ?_ (by simp) (.nothing (by simp)) rfl (by decide +kernel)
      (by decide +kernel) (by decide +kernel)
    rintro _ ⟨⟩
    exact haddress
  have hcapital : Talks { anyCase := true } l capital :=
    talks_page (by decide) (by simp) (by decide +kernel) (.nothing (by decide +kernel)) rfl
      (by decide +kernel) (by decide +kernel) (by decide +kernel)
  have hcircular : Talks { selfDependence := true } l circular :=
    talks_page (by decide) (by simp) (by simp) (.nothing (by simp)) rfl (by decide +kernel)
      (by decide +kernel) (by decide +kernel)
  have hscattered : Talks { continuations := 6 } l (scattered 6) :=
    Http2.talks_scattered (by decide) (Nat.le_refl 6)
  have hl : l.streams ≠ [] := List.cons_ne_nil _ _
  exact
    ⟨⟨hspelled, not_answered_of_kinds hl rfl (by decide +kernel)⟩,
      ⟨hcounted, not_answered_of_kinds (List.cons_ne_nil _ _) rfl (by decide +kernel)⟩,
      ⟨hescaped, not_answered_of_kinds hl rfl (by decide +kernel)⟩,
      ⟨hbracketed, not_answered_of_kinds hl rfl (by decide +kernel)⟩,
      ⟨hcapital, not_answered_of_kinds hl rfl (by decide +kernel)⟩,
      ⟨hcircular, not_answered_of_kinds hl rfl (by decide +kernel)⟩,
      hscattered, not_answered_of_kinds hl rfl (by decide +kernel)⟩

end Session
end ConstantReply
