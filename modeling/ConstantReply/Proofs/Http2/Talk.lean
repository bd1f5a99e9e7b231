import ConstantReply.Proofs.Http.Arrival
import ConstantReply.Proofs.Http2.Agreement
import ConstantReply.Proofs.Runs

/-!
# Talking to a server in frames

A client opens its connection, sends one frame after the other that it may send, and its bytes arrive
in pieces of any sizes.  Both sides agree between any two of its frames.
-/

namespace ConstantReply
namespace Http2

open Http (Delivers Input)

/-- What a client has in mind that has sent these inputs.  It cannot have heard more than what the
server had sent before a frame of its own began to arrive. -/
inductive Talks (may : Liberties) : Ledger -> List Input -> Prop where
  | opening {list : List Setting} {inputs : List Input} :
      (ClientFrame.settings list).IsSound may ->
      Delivers inputs (Http.preface ++ (ClientFrame.settings list).bytes) ->
      Talks may { rooms := roomsAsked list } inputs
  | sends {l next : Ledger} {f : ClientFrame} {inputs more : List Input} :
      Talks may l inputs -> f.IsSound may -> l.Sends may (Connection.run {} inputs).2 f next ->
      Delivers more f.bytes -> Talks may next (inputs ++ more)

section
variable {l next : Ledger} {heard : List ServerFrame} {done : List Exchange} {c : Connection}

theorem keeps_cons {phase : Phase} {i : Input} {rest : List Input}
    (h : Keeps next (heard ++ (c.step i).2) phase ((c.step i).1.run rest)) :
    Keeps next heard phase (c.run (i :: rest)) := by
  rw [Connection.run_cons]
  rcases h with ⟨hphase, done, hagrees⟩
  rw [List.append_assoc] at hagrees
  exact ⟨hphase, done, hagrees⟩

theorem keeps_append {phase : Phase} {front rest : List Input}
    (h : Keeps next (heard ++ (c.run front).2) phase ((c.run front).1.run rest)) :
    Keeps next heard phase (c.run (front ++ rest)) := by
  rw [Connection.run_append]
  rcases h with ⟨hphase, done, hagrees⟩
  rw [List.append_assoc] at hagrees
  exact ⟨hphase, done, hagrees⟩

theorem keeps_pauses (hl : l.Sound) {inputs : List Input} (hinputs : Delivers inputs [])
    (h : Agrees l heard done c) {reader : FrameReader} (hphase : c.phase = .frames reader) :
    Keeps l heard (.frames reader) (c.run inputs) := by
  generalize hbytes : ([] : List UInt8) = bytes at hinputs
  induction hinputs generalizing heard done c with
  | nothing => exact hphase ▸ keeps_of_silence h
  | byte b _ _ => cases hbytes
  | pause _ ih =>
      rcases agrees_settle hl h hphase with ⟨hsame, hsettled⟩
      exact keeps_cons (ih hsettled (hsame.trans hphase) hbytes)

theorem agrees_phase (h : Agrees l heard done c) (phase : Phase) :
    Agrees l heard done { c with phase := phase } :=
  { h with }

theorem keeps_awaits (hl : l.Sound) (hnext : next.Sound) {f : RawFrame} {inputs : List Input}
    {due : List UInt8} (hinputs : Delivers inputs due) {reader : FrameReader}
    (hawaits : Awaits f reader due) (h : Agrees l heard done c) (hphase : c.phase = .frames reader)
    (hframe : forall {more done d}, Agrees l (heard ++ more) done d -> d.phase = .frames .start ->
      Keeps next (heard ++ more) (.frames .start) (d.onPayload f.1 f.2)) :
    Keeps next heard (.frames .start) (c.run inputs) := by
  induction hinputs generalizing heard done c reader with
  | nothing => cases hawaits
  | @byte inputs due b hrest ih =>
      have hread : c.step (.byte b) = c.readFrame reader b := by
        rw [Connection.step, Connection.readByte, hphase]
      apply keeps_cons
      rw [hread, Connection.readFrame]
      cases hawaits with
      | last hstep =>
          have hstart := agrees_phase h (.frames .start)
          rw [← List.append_nil heard] at hstart
          rcases hframe hstart rfl with ⟨hphase, done, hagrees⟩
          rw [List.append_nil] at hagrees
          rw [hstep]
          exact keeps_pauses hnext hrest hagrees hphase
      | @more _ next _ _ hstep hlater =>
          have hmore := agrees_phase h (.frames next)
          rw [← List.append_nil heard] at hmore
          rw [hstep]
          exact ih hlater hmore rfl fun {more} => by
            rw [List.append_nil]
            exact hframe
  | @pause inputs due _ ih =>
      rcases agrees_settle hl h hphase with ⟨hsame, hsettled⟩
      apply keeps_cons
      exact ih hawaits hsettled (hsame.trans hphase) fun {more} => by
        rw [List.append_assoc]
        exact hframe

theorem keeps_frame (hl : l.Sound) (h : Agrees l heard done c) (hphase : c.phase = .frames .start)
    {f : ClientFrame} (hf : f.IsSound {}) (hsends : l.Sends {} heard f next) {inputs : List Input}
    (hinputs : Delivers inputs f.bytes) : Keeps next heard (.frames .start) (c.run inputs) := by
  refine keeps_awaits hl (sound_sends hl hf hsends) hinputs
    (awaits_bytes (ClientFrame.fits_raw hf)) h hphase ?_
  intro more done d hd hstart
  exact hstart ▸ keeps_sends hl hd hf (Ledger.sends_append hsends more)

end

/-!
## The preface
-/

theorem run_preface {c : Connection} {inputs : List Input} {x due : List UInt8}
    (hinputs : Delivers inputs x) (hdue : due ≠ []) (hphase : c.phase = .preface (x ++ due)) :
    c.run inputs = ({ c with phase := .preface due }, []) := by
  induction hinputs generalizing c with
  | nothing =>
      rw [List.nil_append] at hphase
      rw [Connection.run_nil, ← hphase]
  | @byte inputs x b _ ih =>
      have hmore : ¬ x ++ due = [] := fun hnil => hdue (List.append_eq_nil_iff.mp hnil).right
      have hstep : c.step (.byte b) = ({ c with phase := .preface (x ++ due) }, []) := by
        rw [Connection.step, Connection.readByte, hphase]
        simp only [List.cons_append, Connection.readPreface, ne_eq, not_true_eq_false, if_false,
          hmore]
      rw [Connection.run_cons, hstep, ih rfl]
      rfl
  | pause _ ih =>
      have hstep : c.step .pause = (c, []) := by
        rw [Connection.step, Connection.settle, hphase]
      rw [Connection.run_cons, hstep, ih hphase]
      rfl

theorem preface_eq : Http.preface = Http.preface.dropLast ++ [0x0A] := by
  decide +kernel

theorem exists_opening {inputs : List Input} {x : List UInt8}
    (hinputs : Delivers inputs (Http.preface ++ x)) :
    exists front rest, inputs = front ++ .byte 0x0A :: rest ∧
      Delivers front Http.preface.dropLast ∧ Delivers rest x := by
  rw [preface_eq, List.append_assoc, List.singleton_append] at hinputs
  exact Http.exists_byte_of_delivers hinputs

theorem run_opening {front : List Input} (hfront : Delivers front Http.preface.dropLast)
    (rest : List Input) :
    Connection.run {} (front ++ .byte 0x0A :: rest) =
      ((Connection.run { phase := .frames .start } rest).1,
        .settings :: (Connection.run { phase := .frames .start } rest).2) := by
  have hrun : Connection.run {} front = ({ phase := .preface [0x0A] }, []) :=
    run_preface hfront (List.cons_ne_nil _ _) (congrArg Phase.preface preface_eq)
  have hlast : Connection.step { phase := .preface [0x0A] } (.byte 0x0A) =
      ({ phase := .frames .start }, [.settings]) := by
    decide
  rw [Connection.run_append, hrun, Connection.run_cons, hlast]
  rfl

theorem agrees_opened : Agrees {} [.settings] [] { phase := .frames .start } where
  table := rfl
  openBlock := rfl
  streams := rfl
  answered := rfl
  abandoned := by simp
  ready := by simp
  nextStream := rfl
  window := rfl
  windowLe := by decide
  credit := rfl
  agreed := rfl
  stays := rfl
  plain := by
    intro f hf
    rw [List.mem_singleton.mp hf]
    exact .settings

theorem keeps_of_talks {l : Ledger} {inputs : List Input} (h : Talks {} l inputs) :
    l.Sound ∧ Keeps l [] (.frames .start) (Connection.run {} inputs) := by
  induction h with
  | @opening list inputs hf hinputs =>
      have hsends : Ledger.Sends {} {} [.settings] (.settings list) { rooms := roomsAsked list } :=
        Ledger.Sends.settings rfl
      refine ⟨sound_sends Ledger.sound_empty hf hsends, ?_⟩
      rcases exists_opening hinputs with ⟨front, rest, rfl, hfront, hrest⟩
      have hkeeps := keeps_frame Ledger.sound_empty agrees_opened rfl hf hsends hrest
      rcases hkeeps with ⟨hphase, done, hagrees⟩
      rw [run_opening hfront]
      exact ⟨hphase, done, hagrees⟩
  | @sends l next f inputs more _ hf hsends hmore ih =>
      rcases ih with ⟨hl, hphase, done, hagrees⟩
      rw [List.nil_append] at hagrees
      refine ⟨sound_sends hl hf hsends, ?_⟩
      apply keeps_append
      rw [List.nil_append]
      exact keeps_frame hl hagrees hphase hf hsends hmore

theorem exists_delivers_of_talks {may : Liberties} {l : Ledger} {inputs : List Input}
    (h : Talks may l inputs) : exists x, Delivers inputs (Http.preface ++ x) := by
  induction h with
  | opening _ hinputs => exact ⟨_, hinputs⟩
  | sends _ _ _ hmore ih =>
      rcases ih with ⟨x, hx⟩
      have happend := Http.delivers_append hx hmore
      rw [List.append_assoc] at happend
      exact ⟨_, happend⟩

/-!
## Conversations
-/

def page (authority : Option (List UInt8)) (fields : List Hpack.Field) : RequestText where
  method := Ascii.bytes "GET"
  path := Ascii.bytes "/"
  authority := authority
  fields := fields

theorem isValid_page {may : Liberties} {authority : Option (List UInt8)}
    {fields : List Hpack.Field}
    (hauthority : forall a, a ∈ authority -> AuthorityText may.escapes may.addressColons a)
    (hfields : forall f, f ∈ fields -> IsField may f) : (page authority fields).IsValid may where
  method := (by decide +kernel : Http.isToken (Ascii.bytes "GET") = true)
  noTunnel := (by decide +kernel : Ascii.bytes "GET" ≠ Ascii.bytes "CONNECT")
  path := (by decide +kernel : Http.PlainTarget (Ascii.bytes "/"))
  authority := hauthority
  fields := hfields

def opening : List UInt8 := Http.preface ++ (ClientFrame.settings []).bytes

theorem talks_opening (may : Liberties) : Talks may {} (Input.segment opening) := by
  have hsound : (ClientFrame.settings []).IsSound may :=
    ⟨fun s hs => absurd hs List.not_mem_nil, by decide⟩
  exact Talks.opening hsound (Http.delivers_segment opening)

theorem unanswered_le (l : Ledger) (heard : List ServerFrame) :
    l.unanswered heard ≤ l.streams.length := Nat.sub_le _ _

section
variable {may : Liberties} {l : Ledger} {inputs : List Input}

theorem talks_request (h : Talks may l inputs) (hopen : l.openBlock = none)
    (hfew : l.streams.length < greatestWaiting) {stream : Nat} (hodd : stream % 2 = 1)
    (hnew : l.nextStream ≤ stream) {r : RequestText} (hr : r.IsValid may) {length : Option Nat}
    (hlength : StatesLength may r.fields length) (hzero : length.getD 0 = 0)
    (hsize : Hpack.listSize r.list ≤ usualListSize) {p : Option Priority} {block : List UInt8}
    {table : Hpack.Table}
    (hblock : Hpack.BlockText may.integerSize Hpack.usualRoom true l.table block r.list table)
    (hsound : (ClientFrame.headers stream none p block true true).IsSound may) :
    Talks may
      { l with
        table := table
        streams := l.streams ++ [⟨stream, r.method, length, 0, true⟩]
        nextStream := stream + 2 }
      (inputs ++ Input.segment (ClientFrame.headers stream none p block true true).bytes) := by
  refine Talks.sends h hsound (Ledger.Sends.headers hopen ?_) (Http.delivers_segment _)
  exact Ledger.Lists.request hodd hnew (Nat.lt_of_le_of_lt (unanswered_le l _) hfew) hblock
    (RequestText.isList_list r) hr hsize hlength fun _ => hzero

theorem talks_emptyParts (h : Talks may l inputs) {b : OpenBlock} (hopen : l.openBlock = some b)
    (hstream : IsStream b.stream) {n : Nat} (hn : b.continuations + n ≤ may.continuations) :
    Talks may { l with openBlock := some { b with continuations := b.continuations + n } }
      (inputs ++ (List.replicate n
        (Input.segment (ClientFrame.continuation b.stream [] false).bytes)).flatten) := by
  induction n with
  | zero =>
      rw [List.replicate_zero, List.flatten_nil, List.append_nil, Nat.add_zero, ← hopen]
      exact h
  | succ n ih =>
      have hsound : (ClientFrame.continuation b.stream [] false).IsSound may :=
        ⟨hstream, by simp [ClientFrame.raw, RawFrame.of]⟩
      have hnext := Talks.sends (ih (by omega)) hsound
        (Ledger.Sends.continuation (b := { b with continuations := b.continuations + n }) rfl
          (by simp only; omega))
        (Http.delivers_segment _)
      simpa [List.replicate_succ', List.append_assoc, Nat.add_assoc] using hnext

end

def lone (p : Option Priority) (block : List UInt8) : List Input :=
  Input.segment opening ++ Input.segment (ClientFrame.headers 1 none p block true true).bytes

theorem talks_lone {may : Liberties} {r : RequestText} (hr : r.IsValid may) {length : Option Nat}
    (hlength : StatesLength may r.fields length) (hzero : length.getD 0 = 0)
    (hsize : Hpack.listSize r.list ≤ usualListSize) {p : Option Priority} {block : List UInt8}
    (hblock : Hpack.BlockText may.integerSize Hpack.usualRoom true {} block r.list {})
    (hsound : (ClientFrame.headers 1 none p block true true).IsSound may) :
    Talks may { streams := [⟨1, r.method, length, 0, true⟩], nextStream := 3 } (lone p block) :=
  talks_request (talks_opening may) rfl (by decide) (by decide) (by decide) hr hlength hzero hsize
    hblock hsound

theorem talks_page {may : Liberties} (hnumbers : 0 < may.integerSize)
    {authority : Option (List UInt8)} {fields : List Hpack.Field}
    (hauthority : forall a, a ∈ authority -> AuthorityText may.escapes may.addressColons a)
    (hfields : forall f, f ∈ fields -> IsField may f) {length : Option Nat}
    (hlength : StatesLength may fields length) (hzero : length.getD 0 = 0)
    (hsize : Hpack.listSize (page authority fields).list ≤ usualListSize)
    (hshort : forall f, f ∈ (page authority fields).list ->
      f.name.length < 127 ∧ f.value.length < 127) {p : Option Priority}
    (hsound : (ClientFrame.headers 1 none p (Hpack.plainBlock (page authority fields).list) true
      true).IsSound may) :
    Talks may { streams := [⟨1, Ascii.bytes "GET", length, 0, true⟩], nextStream := 3 }
      (lone p (Hpack.plainBlock (page authority fields).list)) :=
  talks_lone (isValid_page hauthority hfields) hlength hzero hsize
    (Hpack.blockText_plainBlock hnumbers Hpack.usualRoom hshort true {}) hsound

def pageBlock : List UInt8 := Hpack.plainBlock (page none []).list

def scattered (parts : Nat) : List Input :=
  Input.segment opening ++
    Input.segment (ClientFrame.headers 1 none none pageBlock false true).bytes ++
    (List.replicate parts (Input.segment (ClientFrame.continuation 1 [] false).bytes)).flatten ++
    Input.segment (ClientFrame.continuation 1 [] true).bytes

theorem talks_scattered {may : Liberties} (hnumbers : 0 < may.integerSize) {parts : Nat}
    (hparts : parts ≤ may.continuations) :
    Talks may { streams := [⟨1, Ascii.bytes "GET", none, 0, true⟩], nextStream := 3 }
      (scattered parts) := by
  have hstream : IsStream 1 := by
    decide
  have hfirst : (ClientFrame.headers 1 none none pageBlock false true).IsSound may :=
    ⟨⟨hstream, by simp [IsPadding], by simp⟩, by decide +kernel⟩
  have hlast : (ClientFrame.continuation 1 [] true).IsSound may := ⟨hstream, by decide⟩
  have hopened := Talks.sends (talks_opening may) hfirst (.openHeaders rfl)
    (Http.delivers_segment _)
  have hbetween := talks_emptyParts hopened rfl hstream (Nat.le_trans (Nat.le_of_eq (Nat.zero_add parts)) hparts)
  have hblock : Hpack.BlockText may.integerSize Hpack.usualRoom true {} (pageBlock ++ [])
      (page none []).list {} := by
    rw [List.append_nil]
    exact Hpack.blockText_plainBlock hnumbers Hpack.usualRoom (by decide +kernel) true {}
  have hlists : forall heard, Ledger.Lists may {} heard 1 true (pageBlock ++ [])
      { streams := [⟨1, Ascii.bytes "GET", none, 0, true⟩], nextStream := 3 } := by
    intro heard
    have hfew : Ledger.unanswered {} heard < greatestWaiting :=
      Nat.lt_of_le_of_lt (unanswered_le _ _) (by decide)
    exact .request (by decide) (by decide) hfew hblock (RequestText.isList_list _)
      (isValid_page (by simp) (by simp)) (by decide +kernel) (.nothing (by simp [page])) (by simp)
  exact Talks.sends hbetween hlast
    (.lastContinuation (b := ⟨1, pageBlock, true, 0 + parts⟩) rfl (hlists _))
    (Http.delivers_segment _)

end Http2
end ConstantReply
