import ConstantReply.Proofs.Http.Response
import ConstantReply.Proofs.Http2.Ledger

/-!
# Agreement of both sides

As long as a client keeps to the rules, the connection holds what the client has in mind: the same
table and the same streams, those that were answered and those that wait.  Each frame that the client
may send, and each moment in which everything has been read, keeps it so.
-/

namespace ConstantReply
namespace Http2

open Connection (Exchange.asksTunnel Exchange.frames)
open Hpack (Field)

def okAnswer : Http.Answer := ⟨200, [("content-length", "0")], []⟩

theorem answer_of_ordinary {method : List UInt8} (h : method ≠ Ascii.bytes "CONNECT") :
    Http.answer method = okAnswer := by
  have htunnel := Http.ReplyForm.ofMethod_ne_tunnel h
  rw [Http.answer]
  cases hform : Http.ReplyForm.ofMethod method with
  | tunnel => exact absurd hform htunnel
  | usual => rfl
  | headOnly => rfl

theorem asksTunnel_of_ordinary {e : Exchange} (h : e.method ≠ Ascii.bytes "CONNECT") :
    Exchange.asksTunnel e = false := by
  simp [Exchange.asksTunnel, Http.ReplyForm.ofMethod_ne_tunnel h]

/-- A frame that a client gets that keeps to the rules. -/
inductive ServerFrame.IsPlain (rooms : List Nat) : ServerFrame -> Prop where
  | settings : IsPlain rooms .settings
  | settingsAck {room : Option Nat} :
      (forall n, n ∈ room -> n ∈ rooms) -> IsPlain rooms (.settingsAck room)
  | pingAck {payload : List UInt8} : payload.length = 8 -> IsPlain rooms (.pingAck payload)
  | windowUpdate (n : Nat) : IsPlain rooms (.windowUpdate n)
  | answer {stream : Nat} : stream < halfRange -> IsPlain rooms (.answer stream okAnswer true)
  | reset {stream : Nat} : stream < halfRange -> IsPlain rooms (.reset stream .noError)

structure IsKnown (nextStream : Nat) (e : Exchange) : Prop where
  odd : e.stream % 2 = 1
  below : e.stream < nextStream
  small : e.stream < halfRange
  ordinary : e.method ≠ Ascii.bytes "CONNECT"

namespace Ledger

structure Sound (l : Ledger) : Prop where
  known : forall e, e ∈ l.streams -> IsKnown l.nextStream e
  apart : (l.streams.map Exchange.stream).Nodup
  rooms : forall room, room ∈ l.rooms -> room < 4294967296

theorem sound_empty : Sound {} := ⟨by simp, by simp, by simp⟩

end Ledger

/-- What a connection holds of what a client has in mind.  Those of its streams that are `done` were
answered. -/
structure Agrees (l : Ledger) (heard : List ServerFrame) (done : List Exchange) (c : Connection) :
    Prop where
  table : c.table = l.table
  openBlock : c.openBlock = l.openBlock
  streams : l.streams = done ++ c.waiting
  answered : answers heard = done.map Exchange.stream
  abandoned : forall e, e ∈ done -> e.ended = false -> e.stream ∈ c.abandoned
  ready : forall stream, stream ∈ c.abandoned -> stream ∈ done.map Exchange.stream
  nextStream : c.nextStream = l.nextStream
  window : c.window + l.sent = usualWindow + granted heard
  windowLe : c.window ≤ targetWindow
  credit : c.credit = l.credit
  agreed : c.agreed = l.acknowledged
  stays : c.leaving = false
  plain : forall f, f ∈ heard -> f.IsPlain l.rooms

def Keeps (l : Ledger) (heard : List ServerFrame) (phase : Phase) (r : Result) : Prop :=
  r.1.phase = phase ∧ exists done, Agrees l (heard ++ r.2) done r.1

section
variable {l next : Ledger} {heard : List ServerFrame} {done : List Exchange} {c d : Connection}

theorem keeps_of_silence (h : Agrees l heard done c) : Keeps l heard c.phase (c, []) :=
  ⟨rfl, done, (List.append_nil heard).symm ▸ h⟩

theorem isPlain_append {rooms : List Nat} {f : ServerFrame} (h : f.IsPlain rooms)
    (more : List Nat) : f.IsPlain (rooms ++ more) := by
  cases h with
  | settings => exact .settings
  | settingsAck hroom =>
      exact .settingsAck fun n hn => List.mem_append_left more (hroom n hn)
  | pingAck hlength => exact .pingAck hlength
  | windowUpdate n => exact .windowUpdate n
  | answer hsmall => exact .answer hsmall
  | reset hsmall => exact .reset hsmall

theorem agrees_hear (h : Agrees l heard done c) {f : ServerFrame} (hanswer : f.answered? = none)
    (hincrement : f.increment = 0) (hf : f.IsPlain l.rooms) : Agrees l (heard ++ [f]) done c :=
  { h with
    answered := by
      rw [answers_append, h.answered]
      simp [answers, hanswer]
    window := by
      rw [granted_append, h.window]
      simp [granted, hincrement]
    plain := by
      intro g hg
      rcases List.mem_append.mp hg with hg | hg
      · exact h.plain g hg
      · rw [List.mem_singleton.mp hg]
        exact hf }

/-!
## Streams
-/

theorem map_stream_replaceIn (streams : List Exchange) (e : Exchange) :
    (replaceIn streams e).map Exchange.stream = streams.map Exchange.stream := by
  rw [replaceIn, List.map_map]
  apply List.map_congr_left
  intro known _
  rw [Function.comp_apply]
  split
  · rename_i hsame
    exact hsame.symm
  · rfl

theorem mem_of_mem_replaceIn {streams : List Exchange} {e x : Exchange}
    (h : x ∈ replaceIn streams e) : x = e ∨ x ∈ streams := by
  rcases List.mem_map.mp h with ⟨known, hknown, rfl⟩
  split
  · exact Or.inl rfl
  · exact Or.inr hknown

theorem replaceIn_of_not_mem {streams : List Exchange} {e : Exchange}
    (h : e.stream ∉ streams.map Exchange.stream) : replaceIn streams e = streams := by
  have hid : forall known, known ∈ streams ->
      (if known.stream = e.stream then e else known) = id known := by
    intro known hknown
    exact if_neg fun hsame : known.stream = e.stream => h (hsame ▸ List.mem_map_of_mem hknown)
  rw [replaceIn, List.map_congr_left hid, List.map_id]

theorem find?_of_apart {streams : List Exchange} (h : (streams.map Exchange.stream).Nodup)
    {e : Exchange} (he : e ∈ streams) : streams.find? (fun x => x.stream == e.stream) = some e := by
  induction streams with
  | nil => cases he
  | cons x rest ih =>
      rw [List.map_cons, List.nodup_cons] at h
      rcases List.mem_cons.mp he with rfl | he
      · exact List.find?_cons_of_pos (beq_self_eq_true _)
      · have hne : x.stream ≠ e.stream := fun hsame => h.left (hsame ▸ List.mem_map_of_mem he)
        rw [List.find?_cons_of_neg (by simpa using hne)]
        exact ih h.right he

theorem exchange?_of_not_mem {stream : Nat} (h : stream ∉ c.waiting.map Exchange.stream) :
    c.exchange? stream = none := by
  rw [Connection.exchange?, List.find?_eq_none]
  intro e he hsame
  exact h (eq_of_beq hsame ▸ List.mem_map_of_mem he)

theorem apart_of_agrees (hl : l.Sound) (h : Agrees l heard done c) :
    (c.waiting.map Exchange.stream).Nodup ∧
      forall stream, stream ∈ done.map Exchange.stream ->
        stream ∉ c.waiting.map Exchange.stream := by
  have happart := hl.apart
  rw [h.streams, List.map_append, List.nodup_append] at happart
  exact ⟨happart.right.left, fun stream hdone hwaiting =>
    happart.right.right stream hdone stream hwaiting rfl⟩

theorem agrees_replace_waiting (hl : l.Sound) (h : Agrees l heard done c) {e changed : Exchange}
    (he : e ∈ c.waiting) (hsame : changed.stream = e.stream) :
    Agrees { l with streams := replaceIn l.streams changed } heard done
      (c.replaceExchange changed) :=
  { h with
    streams := by
      have hwaiting : changed.stream ∈ c.waiting.map Exchange.stream :=
        hsame ▸ List.mem_map_of_mem he
      have hdone : changed.stream ∉ done.map Exchange.stream :=
        fun hmem => (apart_of_agrees hl h).right _ hmem hwaiting
      rw [h.streams, replaceIn, List.map_append, ← replaceIn, replaceIn_of_not_mem hdone]
      rfl }

theorem agrees_replace_done (hl : l.Sound) (h : Agrees l heard done c) {e changed : Exchange}
    (he : e ∈ done) (hopen : e.ended = false) (hsame : changed.stream = e.stream) :
    Agrees { l with streams := replaceIn l.streams changed } heard (replaceIn done changed) c :=
  { h with
    streams := by
      have hdone : changed.stream ∈ done.map Exchange.stream :=
        hsame ▸ List.mem_map_of_mem he
      have hwaiting := (apart_of_agrees hl h).right _ hdone
      rw [h.streams, replaceIn, List.map_append, ← replaceIn, ← replaceIn,
        replaceIn_of_not_mem hwaiting]
    answered := by
      rw [map_stream_replaceIn, h.answered]
    abandoned := by
      intro x hx hxopen
      rcases mem_of_mem_replaceIn hx with rfl | hx
      · rw [hsame]
        exact h.abandoned e he hopen
      · exact h.abandoned x hx hxopen
    ready := by
      rw [map_stream_replaceIn]
      exact h.ready }

/-!
## Header blocks
-/

theorem openStream_of_accepted {list : HeaderList} {stream : Nat} {endStream : Bool}
    {request : HeaderList.Request} (hfew : c.waiting.length < greatestWaiting)
    (hjudge : list.judge endStream = .accepted request) :
    c.openStream stream list endStream =
      ({ c with
          nextStream := stream + 2
          lastStream := stream
          waiting := c.waiting ++
            [⟨stream, request.method, request.contentLength, 0, endStream⟩] }, []) := by
  rw [Connection.openStream]
  simp only [if_neg (Nat.not_le.mpr hfew), hjudge]

theorem onBlock_of_new {stream : Nat} {endStream : Bool} {block : List UInt8} {fields : List Field}
    {table : Hpack.Table} {list : HeaderList} (hdecode : Hpack.decode c.table block = some (fields, table))
    (hlist : HeaderList.ofFields? fields = some list) (hmalformed : list.malformed = false)
    (hodd : stream % 2 = 1) (hnew : c.nextStream ≤ stream)
    (hwaiting : stream ∉ c.waiting.map Exchange.stream) (habandoned : stream ∉ c.abandoned) :
    c.onBlock stream endStream block =
      Connection.openStream { c with table := table } stream list endStream := by
  have hnone : Connection.exchange? { c with table := table } stream = none :=
    exchange?_of_not_mem hwaiting
  have hbad : ¬ (stream % 2 = 0 ∨ stream < c.nextStream) := by
    omega
  rw [Connection.onBlock, hdecode]
  simp only [hlist, hmalformed, Bool.false_eq_true, if_false, hnone, habandoned, hbad]

theorem onBlock_of_known {stream : Nat} {endStream : Bool} {block : List UInt8} {fields : List Field}
    {table : Hpack.Table} {list : HeaderList} {e : Exchange}
    (hdecode : Hpack.decode c.table block = some (fields, table))
    (hlist : HeaderList.ofFields? fields = some list) (hmalformed : list.malformed = false)
    (hknown : c.exchange? stream = some e) :
    c.onBlock stream endStream block =
      Connection.endByTrailers { c with table := table } e endStream := by
  have hsome : Connection.exchange? { c with table := table } stream = some e := hknown
  rw [Connection.onBlock, hdecode]
  simp only [hlist, hmalformed, Bool.false_eq_true, if_false, hsome]

theorem onBlock_of_abandoned {stream : Nat} {endStream : Bool} {block : List UInt8}
    {fields : List Field} {table : Hpack.Table} {list : HeaderList}
    (hdecode : Hpack.decode c.table block = some (fields, table))
    (hlist : HeaderList.ofFields? fields = some list) (hmalformed : list.malformed = false)
    (hwaiting : stream ∉ c.waiting.map Exchange.stream) (habandoned : stream ∈ c.abandoned) :
    c.onBlock stream endStream block = ({ c with table := table }, []) := by
  have hnone : Connection.exchange? { c with table := table } stream = none :=
    exchange?_of_not_mem hwaiting
  rw [Connection.onBlock, hdecode]
  simp only [hlist, hmalformed, Bool.false_eq_true, if_false, hnone, habandoned, if_true]

theorem length_waiting_of_agrees (h : Agrees l heard done c) :
    c.waiting.length = l.unanswered heard := by
  rw [Ledger.unanswered, h.streams, h.answered, List.length_append, List.length_map,
    Nat.add_sub_cancel_left]

theorem not_mem_of_nextStream_le (hl : l.Sound) (h : Agrees l heard done c) {stream : Nat}
    (hnew : l.nextStream ≤ stream) :
    stream ∉ c.waiting.map Exchange.stream ∧ stream ∉ c.abandoned := by
  have hall : stream ∉ l.streams.map Exchange.stream := by
    intro hmem
    rcases List.mem_map.mp hmem with ⟨e, he, rfl⟩
    exact Nat.not_lt.mpr hnew (hl.known e he).below
  rw [h.streams, List.map_append, List.mem_append, not_or] at hall
  exact ⟨hall.right, fun hmem => hall.left (h.ready stream hmem)⟩

theorem endByTrailers_of_complete {e : Exchange} (hopen : e.ended = false)
    (hleft : e.left.getD 0 = 0) :
    c.endByTrailers e true = (c.replaceExchange { e with ended := true }, []) := by
  have hnone : e.left.any (0 < ·) = false := by
    cases hlength : e.left with
    | none => rfl
    | some n => simpa [hlength] using hleft
  simp [Connection.endByTrailers, hopen, hnone]

theorem agrees_table (h : Agrees l heard done c) (table : Hpack.Table) :
    Agrees { l with table := table } heard done { c with table := table } :=
  { h with table := rfl }

theorem keeps_lists (hl : l.Sound) (h : Agrees l heard done c) {stream : Nat} {endStream : Bool}
    {block : List UInt8} (hlists : l.Lists {} heard stream endStream block next) :
    Keeps next heard c.phase (c.onBlock stream endStream block) := by
  cases hlists with
  | @request r list table length hodd hnew hfew htext hlist hvalid hsize hlength hend =>
      have hdecode := Hpack.decode_of_blockText htext
      rw [← h.table] at hdecode
      rcases HeaderList.ofFields?_of_valid hvalid hlist hsize with ⟨given, hgiven, hgives⟩
      have hjudge := HeaderList.judge_of_gives hvalid hgives hlength hend
      rcases not_mem_of_nextStream_le hl h hnew with ⟨hwaiting, habandoned⟩
      rw [← length_waiting_of_agrees h] at hfew
      rw [onBlock_of_new hdecode hgiven hgives.malformed hodd (h.nextStream ▸ hnew) hwaiting
        habandoned, openStream_of_accepted (c := { c with table := table }) hfew hjudge]
      refine ⟨rfl, done, ?_⟩
      rw [List.append_nil]
      exact
        { h with
          table := rfl
          streams := by
            simp only [h.streams, List.append_assoc]
          nextStream := rfl }
  | @trailers e fields table hmem hstream hopen hended hleft htext hfields hsize =>
      subst hstream hended
      have hdecode := Hpack.decode_of_blockText htext
      rw [← h.table] at hdecode
      rcases HeaderList.ofFields?_of_fields hfields hsize with ⟨given, hgiven, hmalformed⟩
      have hsame : ({ e with ended := true } : Exchange).stream = e.stream := rfl
      rw [h.streams] at hmem
      rcases List.mem_append.mp hmem with hdone | hwaiting
      · have hready := (apart_of_agrees hl h).right _ (List.mem_map_of_mem hdone)
        rw [onBlock_of_abandoned hdecode hgiven hmalformed hready (h.abandoned e hdone hopen)]
        exact keeps_of_silence (agrees_table (agrees_replace_done hl h hdone hopen hsame) table)
      · have hknown := find?_of_apart (apart_of_agrees hl h).left hwaiting
        rw [onBlock_of_known hdecode hgiven hmalformed hknown, endByTrailers_of_complete hopen hleft]
        exact keeps_of_silence (agrees_table (agrees_replace_waiting hl h hwaiting hsame) table)

/-!
## Content
-/

theorem agrees_spend (h : Agrees l heard done c) {size : Nat}
    (hsent : l.sent + size ≤ usualWindow + granted heard) :
    size ≤ c.window ∧
      Agrees { l with sent := l.sent + size } heard done { c with window := c.window - size } := by
  have hwindow := h.window
  have hle := h.windowLe
  refine ⟨by omega, ?_⟩
  exact
    { h with
      window := by
        simp only
        omega
      windowLe := by
        simp only
        omega }

theorem onContent_of_fitting {e : Exchange} {length size : Nat} {endStream : Bool}
    (hreceived : e.received + size ≤ c.streamWindow) (hleft : forall n, n ∈ e.left -> length ≤ n)
    (hend : endStream = true -> e.left.getD 0 ≤ length) :
    c.onContent e length size endStream =
      (c.replaceExchange
        { e with
          left := e.left.map (· - length)
          received := e.received + size
          ended := endStream }, []) := by
  have hfits : e.left.any (· < length) = false := by
    cases hlength : e.left with
    | none => rfl
    | some n => simpa using hleft n hlength
  have hdone : ¬ (endStream = true ∧ (e.left.map (· - length)).any (0 < ·) = true) := by
    rintro ⟨hended, hmore⟩
    have hle := hend hended
    cases hlength : e.left with
    | none => simp [hlength] at hmore
    | some n =>
        simp only [hlength, Option.getD_some, Option.map_some, Option.any_some,
          decide_eq_true_eq] at hle hmore
        omega
  rw [Connection.onContent]
  simp only [if_neg (Nat.not_lt.mpr hreceived), hfits, hdone, Bool.false_eq_true, if_false]

theorem keeps_data (hl : l.Sound) (h : Agrees l heard done c) {e : Exchange} {length size : Nat}
    {endStream : Bool} (hmem : e ∈ l.streams) (hopen : e.ended = false)
    (hsent : l.sent + size ≤ usualWindow + granted heard)
    (hreceived : e.received + size ≤ l.streamWindow) (hleft : forall n, n ∈ e.left -> length ≤ n)
    (hend : endStream = true -> e.left.getD 0 ≤ length) :
    Keeps
      { l with
        sent := l.sent + size
        streams := replaceIn l.streams
          { e with
            left := e.left.map (· - length)
            received := e.received + size
            ended := endStream } }
      heard c.phase (c.onData e.stream length size endStream) := by
  rcases agrees_spend h hsent with ⟨hfits, hspent⟩
  have hwindow : ¬ c.window < size := Nat.not_lt.mpr hfits
  have hknown := hl.known e hmem
  have hsound : Ledger.Sound { l with sent := l.sent + size } := ⟨hl.known, hl.apart, hl.rooms⟩
  have hsame : ({ e with
      left := e.left.map (· - length)
      received := e.received + size
      ended := endStream } : Exchange).stream = e.stream := rfl
  rw [h.streams] at hmem
  rcases List.mem_append.mp hmem with hdone | hwaiting
  · have hready := (apart_of_agrees hl h).right _ (List.mem_map_of_mem hdone)
    have hold : ¬ (e.stream % 2 = 0 ∨ c.nextStream ≤ e.stream) := by
      rw [h.nextStream]
      have hodd := hknown.odd
      have hbelow := hknown.below
      omega
    rw [Connection.onData]
    simp only [exchange?_of_not_mem hready, hold, hwindow, if_false, h.abandoned e hdone hopen,
      if_true]
    exact keeps_of_silence (agrees_replace_done hsound hspent hdone hopen hsame)
  · have hfound : c.exchange? e.stream = some e := find?_of_apart (apart_of_agrees hl h).left hwaiting
    have hstream : e.received + size ≤
        Connection.streamWindow { c with window := c.window - size } := by
      rw [Connection.streamWindow, h.agreed]
      exact hreceived
    rw [Connection.onData]
    simp only [hfound, hopen, hwindow, Bool.false_eq_true, if_false]
    rw [onContent_of_fitting hstream hleft hend]
    exact keeps_of_silence (agrees_replace_waiting hsound hspent hwaiting hsame)

/-!
## All frames
-/

theorem onPayload_of_none {f : ClientFrame} (hf : f.IsSound {}) (hnone : c.openBlock = none) :
    c.onPayload f.raw.1 f.raw.2 = c.onFrame f.frame := by
  rw [Connection.onPayload, ClientFrame.ofPayload_raw hf, hnone]

theorem onPayload_of_some {f : ClientFrame} (hf : f.IsSound {}) {b : OpenBlock}
    (hsome : c.openBlock = some b) : c.onPayload f.raw.1 f.raw.2 = c.onContinuation b f.frame := by
  rw [Connection.onPayload, ClientFrame.ofPayload_raw hf, hsome]

theorem agrees_openBlock (h : Agrees l heard done c) (b : Option OpenBlock) :
    Agrees { l with openBlock := b } heard done { c with openBlock := b } :=
  { h with openBlock := rfl }

theorem mem_roomsAsked {list : List Setting} {n : Nat} (h : n ∈ Connection.roomAsked list) :
    n ∈ roomsAsked list := by
  rcases Option.map_eq_some_iff.mp h with ⟨s, hs, rfl⟩
  have hid := List.find?_some hs
  have hmem := List.mem_reverse.mp (List.mem_of_find?_eq_some hs)
  exact List.mem_map_of_mem (List.mem_filter.mpr ⟨hmem, hid⟩)

theorem keeps_sends (hl : l.Sound) (h : Agrees l heard done c) {f : ClientFrame}
    (hf : f.IsSound {}) (hsends : l.Sends {} heard f next) :
    Keeps next heard c.phase (c.onPayload f.raw.1 f.raw.2) := by
  have hopen := h.openBlock
  cases hsends with
  | headers hnone hlists =>
      rw [onPayload_of_none hf (hopen.trans hnone)]
      exact keeps_lists hl h hlists
  | openHeaders hnone =>
      rw [onPayload_of_none hf (hopen.trans hnone)]
      exact keeps_of_silence (agrees_openBlock h _)
  | @continuation b fragment hsome hfew =>
      have hfew : ¬ greatestContinuations ≤ b.continuations := Nat.not_le.mpr hfew
      rw [onPayload_of_some hf (hopen.trans hsome)]
      simp only [ClientFrame.frame, Connection.onContinuation, ne_eq, not_true_eq_false, if_false,
        Bool.false_eq_true, hfew]
      exact keeps_of_silence (agrees_openBlock h _)
  | @lastContinuation b fragment next hsome hlists =>
      rw [onPayload_of_some hf (hopen.trans hsome)]
      simp only [ClientFrame.frame, Connection.onContinuation, ne_eq, not_true_eq_false, if_false,
        if_true]
      have hsound : Ledger.Sound { l with openBlock := none } := ⟨hl.known, hl.apart, hl.rooms⟩
      exact keeps_lists hsound (agrees_openBlock h none) hlists
  | data hnone hmem hopen' hsent hreceived hleft hend =>
      rw [onPayload_of_none hf (hopen.trans hnone)]
      exact keeps_data hl h hmem hopen' hsent hreceived hleft hend
  | priority hnone =>
      rw [onPayload_of_none hf (hopen.trans hnone)]
      exact keeps_of_silence h
  | @settings list hnone =>
      rw [onPayload_of_none hf (hopen.trans hnone)]
      have hasked : Agrees { l with rooms := l.rooms ++ roomsAsked list } heard done c :=
        { h with plain := fun g hg => isPlain_append (h.plain g hg) _ }
      have hplain : ServerFrame.IsPlain (l.rooms ++ roomsAsked list)
          (.settingsAck (Connection.roomAsked list)) :=
        .settingsAck fun n hn => List.mem_append_right _ (mem_roomsAsked hn)
      exact ⟨rfl, done, agrees_hear hasked rfl rfl hplain⟩
  | settingsAck hnone hfirst hheard =>
      rw [onPayload_of_none hf (hopen.trans hnone)]
      simp only [ClientFrame.frame, Connection.onFrame, h.agreed, hfirst, Bool.false_eq_true, if_false]
      have hagreed : Agrees { l with acknowledged := true } heard done { c with agreed := true } :=
        { h with agreed := rfl }
      exact keeps_of_silence hagreed
  | @ping payload hnone =>
      rw [onPayload_of_none hf (hopen.trans hnone)]
      exact ⟨rfl, done, agrees_hear h rfl rfl (.pingAck hf.parts)⟩
  | @windowUpdate increment hnone hcredit =>
      rw [onPayload_of_none hf (hopen.trans hnone)]
      have hfits : ¬ halfRange ≤ c.credit + increment := by
        rw [h.credit]
        exact Nat.not_le.mpr hcredit
      simp only [ClientFrame.frame, Connection.onFrame, Connection.onWindowUpdate, if_true, hfits,
        if_false]
      have hcredited : Agrees { l with credit := l.credit + increment } heard done
          { c with credit := c.credit + increment } :=
        { h with credit := congrArg (· + increment) h.credit }
      exact keeps_of_silence hcredited
  | @streamWindowUpdate e increment hnone hmem =>
      rw [onPayload_of_none hf (hopen.trans hnone)]
      have hknown := hl.known e hmem
      have hodd := hknown.odd
      have hbelow := hknown.below
      have hold : ¬ (e.stream % 2 = 0 ∨ c.nextStream ≤ e.stream) := by
        rw [h.nextStream]
        omega
      have hzero : e.stream ≠ 0 := by
        omega
      simp only [ClientFrame.frame, Connection.onFrame, Connection.onWindowUpdate, hzero, hold,
        if_false]
      exact keeps_of_silence h
  | unknown hnone =>
      rw [onPayload_of_none hf (hopen.trans hnone)]
      exact keeps_of_silence h

/-!
## What is kept in mind
-/

theorem sound_replaceIn (hl : l.Sound) {e changed : Exchange} (he : e ∈ l.streams)
    (hsame : changed.stream = e.stream) (hmethod : changed.method = e.method) :
    Ledger.Sound { l with streams := replaceIn l.streams changed } where
  known := by
    intro x hx
    rcases mem_of_mem_replaceIn hx with rfl | hx
    · have hknown := hl.known e he
      exact
        { odd := hsame ▸ hknown.odd
          below := hsame ▸ hknown.below
          small := hsame ▸ hknown.small
          ordinary := hmethod ▸ hknown.ordinary }
    · exact hl.known x hx
  apart := by
    simp only [map_stream_replaceIn]
    exact hl.apart
  rooms := hl.rooms

theorem sound_lists (hl : l.Sound) {stream : Nat} {endStream : Bool} {block : List UInt8}
    (hsmall : stream < halfRange) (hlists : l.Lists {} heard stream endStream block next) :
    next.Sound := by
  cases hlists with
  | request hodd hnew hfew htext hlist hvalid hsize hlength hend =>
      exact
        { known := by
            intro e he
            rcases List.mem_append.mp he with he | he
            · have hknown := hl.known e he
              have hbelow := hknown.below
              exact { hknown with below := by simp only; omega }
            · rw [List.mem_singleton.mp he]
              exact
                { odd := hodd
                  below := Nat.lt_add_of_pos_right (by decide)
                  small := hsmall
                  ordinary := hvalid.noTunnel }
          apart := by
            have hfresh : stream ∉ l.streams.map Exchange.stream := by
              intro hmem
              rcases List.mem_map.mp hmem with ⟨e, he, rfl⟩
              exact Nat.not_lt.mpr hnew (hl.known e he).below
            simp only [List.map_append, List.map_cons, List.map_nil]
            rw [List.nodup_append]
            refine ⟨hl.apart, by simp, ?_⟩
            rintro a ha b hb rfl
            rw [List.mem_singleton.mp hb] at ha
            exact hfresh ha
          rooms := hl.rooms }
  | @trailers e _ _ hmem _ _ _ _ _ _ _ =>
      have hsame : ({ e with ended := true } : Exchange).stream = e.stream := rfl
      have hsound := sound_replaceIn hl hmem hsame rfl
      exact ⟨hsound.known, hsound.apart, hsound.rooms⟩

theorem sound_sends (hl : l.Sound) {f : ClientFrame} (hf : f.IsSound {})
    (hsends : l.Sends {} heard f next) : next.Sound := by
  have hparts := hf.parts
  cases hsends with
  | headers _ hlists => exact sound_lists hl hparts.left.right hlists
  | openHeaders _ => exact ⟨hl.known, hl.apart, hl.rooms⟩
  | continuation _ _ => exact ⟨hl.known, hl.apart, hl.rooms⟩
  | @lastContinuation b _ _ _ hlists =>
      have hsound : Ledger.Sound { l with openBlock := none } := ⟨hl.known, hl.apart, hl.rooms⟩
      exact sound_lists hsound hparts.right hlists
  | @data e padding content endStream _ hmem _ _ _ _ _ =>
      have hsame : ({ e with
          left := e.left.map (· - content.length)
          received := e.received + (padded padding content).length
          ended := endStream } : Exchange).stream = e.stream := rfl
      have hsound := sound_replaceIn hl hmem hsame rfl
      exact ⟨hsound.known, hsound.apart, hsound.rooms⟩
  | priority _ => exact hl
  | @settings list _ =>
      refine ⟨hl.known, hl.apart, ?_⟩
      intro room hroom
      rcases List.mem_append.mp hroom with hroom | hroom
      · exact hl.rooms room hroom
      · rcases List.mem_map.mp hroom with ⟨s, hs, rfl⟩
        exact (hparts s (List.mem_filter.mp hs).left).value
  | settingsAck _ _ _ => exact ⟨hl.known, hl.apart, hl.rooms⟩
  | ping _ => exact hl
  | windowUpdate _ _ => exact ⟨hl.known, hl.apart, hl.rooms⟩
  | streamWindowUpdate _ _ => exact hl
  | unknown _ => exact hl

/-!
## Answers
-/

theorem frames_of_ordinary {e : Exchange} (h : e.method ≠ Ascii.bytes "CONNECT") :
    Exchange.frames e =
      .answer e.stream okAnswer true :: (if e.ended then [] else [.reset e.stream .noError]) := by
  rw [Exchange.frames, asksTunnel_of_ordinary h, answer_of_ordinary h]
  rfl

theorem answers_frames {streams : List Exchange}
    (h : forall e, e ∈ streams -> e.method ≠ Ascii.bytes "CONNECT") :
    answers (streams.flatMap Exchange.frames) = streams.map Exchange.stream := by
  induction streams with
  | nil => rfl
  | cons e rest ih =>
      have he := frames_of_ordinary (h e List.mem_cons_self)
      have hrest := ih fun x hx => h x (List.mem_cons_of_mem e hx)
      rw [List.flatMap_cons, answers_append, hrest, he, List.map_cons]
      cases e.ended <;> rfl

theorem granted_frames {streams : List Exchange}
    (h : forall e, e ∈ streams -> e.method ≠ Ascii.bytes "CONNECT") :
    granted (streams.flatMap Exchange.frames) = 0 := by
  induction streams with
  | nil => rfl
  | cons e rest ih =>
      have he := frames_of_ordinary (h e List.mem_cons_self)
      have hrest := ih fun x hx => h x (List.mem_cons_of_mem e hx)
      rw [List.flatMap_cons, granted_append, hrest, he]
      cases e.ended <;> rfl

theorem isPlain_of_mem_frames {streams : List Exchange} {nextStream : Nat} {rooms : List Nat}
    (h : forall e, e ∈ streams -> IsKnown nextStream e) {f : ServerFrame}
    (hf : f ∈ streams.flatMap Exchange.frames) : f.IsPlain rooms := by
  rcases List.mem_flatMap.mp hf with ⟨e, he, hf⟩
  have hknown := h e he
  rw [frames_of_ordinary hknown.ordinary] at hf
  rcases List.mem_cons.mp hf with rfl | hf
  · exact .answer hknown.small
  · cases hended : e.ended with
    | true => simp [hended] at hf
    | false =>
        rw [hended] at hf
        rw [List.mem_singleton.mp hf]
        exact .reset hknown.small

theorem agrees_grant (h : Agrees l heard done c) :
    c.grant.1.phase = c.phase ∧
      Agrees l (heard ++ c.grant.2) done c.grant.1 := by
  have hwindow := h.window
  have hle := h.windowLe
  rw [Connection.grant]
  split
  · refine ⟨rfl, ?_⟩
    exact
      { h with
        answered := by
          rw [answers_append, h.answered]
          exact List.append_nil _
        window := by
          rw [granted_append]
          change targetWindow + l.sent = usualWindow + (granted heard + (targetWindow - c.window))
          omega
        windowLe := Nat.le_refl targetWindow
        plain := by
          intro f hf
          rcases List.mem_append.mp hf with hf | hf
          · exact h.plain f hf
          · rw [List.mem_singleton.mp hf]
            exact .windowUpdate _ }
  · exact ⟨rfl, (List.append_nil heard).symm ▸ h⟩

theorem agrees_answerAll (hl : l.Sound) (h : Agrees l heard done c) :
    Agrees l (heard ++ c.answerAll.2) l.streams c.answerAll.1 := by
  have hknown : forall e, e ∈ c.waiting -> IsKnown l.nextStream e :=
    fun e he => hl.known e (h.streams ▸ List.mem_append_right done he)
  have hordinary : forall e, e ∈ c.waiting -> e.method ≠ Ascii.bytes "CONNECT" :=
    fun e he => (hknown e he).ordinary
  exact
    { h with
      streams := (List.append_nil l.streams).symm
      answered := by
        rw [answers_append, h.answered, Connection.answerAll, answers_frames hordinary, h.streams,
          List.map_append]
      abandoned := by
        intro e he hopen
        rw [h.streams] at he
        rcases List.mem_append.mp he with he | he
        · exact List.mem_append_left _ (h.abandoned e he hopen)
        · apply List.mem_append_right
          apply List.mem_map_of_mem
          rw [List.mem_filter]
          exact ⟨he, by simp [hopen]⟩
      ready := by
        intro stream hstream
        rw [h.streams, List.map_append]
        rcases List.mem_append.mp hstream with hstream | hstream
        · exact List.mem_append_left _ (h.ready stream hstream)
        · rcases List.mem_map.mp hstream with ⟨e, he, rfl⟩
          exact List.mem_append_right _ (List.mem_map_of_mem (List.mem_filter.mp he).left)
      window := by
        rw [granted_append, Connection.answerAll, granted_frames hordinary]
        exact h.window
      plain := by
        intro f hf
        rcases List.mem_append.mp hf with hf | hf
        · exact h.plain f hf
        · exact isPlain_of_mem_frames hknown hf }

theorem agrees_settle (hl : l.Sound) (h : Agrees l heard done c) {reader : FrameReader}
    (hphase : c.phase = .frames reader) :
    c.settle.1.phase = c.phase ∧ Agrees l (heard ++ c.settle.2) l.streams c.settle.1 := by
  rcases agrees_grant h with ⟨hsame, hgranted⟩
  have hanswered := agrees_answerAll hl hgranted
  have hstays : ¬ c.grant.1.answerAll.1.leaving = true := by
    rw [hanswered.stays]
    exact Bool.false_ne_true
  rw [Connection.settle, hphase]
  simp only [Connection.leave, if_neg hstays, List.append_nil]
  rw [← List.append_assoc]
  exact ⟨hsame.trans hphase, hanswered⟩

end

end Http2
end ConstantReply
