import ConstantReply.Proofs.Session.Readiness
import ConstantReply.Proofs.Session.Transcript
import ConstantReply.Settings

/-!
# Many requests on one session

Requests without bodies are answered one after the other as each would be on a session of its own,
until one of them ends the session.  How their bytes are cut into segments does not matter.
-/

namespace ConstantReply
namespace Http

def framingNames : List String := ["content-length", "transfer-encoding", "expect", "upgrade"]

namespace WrittenRequest

structure IsPlain (r : WrittenRequest) : Prop extends r.IsCareful where
  noTunnel : r.method ≠ Ascii.bytes "CONNECT"
  unframed : forall f, f ∈ r.fields -> forall word, word ∈ framingNames ->
    isWord word f.name = false

def hasFramingName (f : WrittenField) : Bool := framingNames.any fun word => isWord word f.name

instance (r : WrittenRequest) : Decidable r.IsPlain :=
  decidable_of_iff
    (r.IsCareful ∧ r.method ≠ Ascii.bytes "CONNECT" ∧ r.fields.any hasFramingName = false) (by
    simp only [List.any_eq_false, hasFramingName]
    constructor
    · intro h
      rcases h with ⟨careful, noTunnel, unframed⟩
      exact ⟨careful, noTunnel, by simpa using unframed⟩
    · intro h
      exact ⟨h.toIsCareful, h.noTunnel, by simpa using h.unframed⟩)

variable {r : WrittenRequest}

theorem valuesOf_of_plain (h : r.IsPlain) {word : String} (hword : word ∈ framingNames) :
    valuesOf word r.head.fields = [] := by
  unfold valuesOf
  rw [List.map_eq_nil_iff, List.filter_eq_nil_iff]
  intro f hf
  rcases List.mem_map.mp hf with ⟨g, hg, rfl⟩
  simp [WrittenField.field, h.unframed g hg word hword]

theorem isAnswerable_of_plain (h : r.IsPlain) : r.IsAnswerable where
  toIsCareful := h.toIsCareful
  uncoded := valuesOf_of_plain h (by simp [framingNames])
  measured := Or.inl (valuesOf_of_plain h (by simp [framingNames]))

theorem bodyLength_of_plain (h : r.IsPlain) : r.bodyLength = 0 := by
  rw [bodyLength, valuesOf_of_plain h (by simp [framingNames])]
  rfl

end WrittenRequest

def served (ends : WrittenRequest -> Bool) (requests : List WrittenRequest) :
    List WrittenRequest :=
  requests.take (requests.findIdx ends + 1)

theorem served_cons_of_ends {ends : WrittenRequest -> Bool} {r : WrittenRequest}
    (h : ends r = true) (rest : List WrittenRequest) : served ends (r :: rest) = [r] := by
  simp [served, List.findIdx_cons, h]

theorem served_cons_of_keeps {ends : WrittenRequest -> Bool} {r : WrittenRequest}
    (h : ends r = false) (rest : List WrittenRequest) :
    served ends (r :: rest) = r :: served ends rest := by
  simp [served, List.findIdx_cons, h]

theorem served_congr {ends other : WrittenRequest -> Bool} {requests : List WrittenRequest}
    (h : forall r, r ∈ requests -> ends r = other r) :
    served ends requests = served other requests := by
  induction requests with
  | nil =>
      rfl
  | cons r rest ih =>
      have hr := h r List.mem_cons_self
      cases hends : ends r with
      | true => rw [served_cons_of_ends hends, served_cons_of_ends (hr ▸ hends)]
      | false =>
          rw [served_cons_of_keeps hends, served_cons_of_keeps (hr ▸ hends)]
          rw [ih fun t ht => h t (List.mem_cons_of_mem r ht)]

theorem mem_of_mem_served {ends : WrittenRequest -> Bool} {requests : List WrittenRequest}
    {r : WrittenRequest} (h : r ∈ served ends requests) : r ∈ requests :=
  List.mem_of_mem_take h

namespace Connection

variable {c : Connection} {r : WrittenRequest}

def replyAlone (keepAlive : Bool) (r : WrittenRequest) : Reply := replyTo keepAlive {} r

def endsAlone (keepAlive : Bool) (r : WrittenRequest) : Bool := !decides keepAlive {} r

theorem answer_of_plain (keepAlive : Bool) (hending : c.ending = false) (h : r.IsPlain) :
    c.answer keepAlive r.head =
      ({ c with
          phase := if endsAlone keepAlive r then .closed else .head {}
          answered := c.answered + 1 },
        [replyAlone keepAlive r]) := by
  rcases answer_of_answerable keepAlive c (WrittenRequest.isAnswerable_of_plain h) with
    ⟨request, hhead, hbody, hanswer⟩
  have hsame := decides_of_ending_eq keepAlive (c := c) (d := {}) hending r
  have hform : ReplyForm.ofMethod request.head.line.method ≠ .tunnel := by
    rw [hhead]
    exact ReplyForm.ofMethod_ne_tunnel h.noTunnel
  rw [WrittenRequest.bodyLength_of_plain h] at hbody
  rw [hanswer, replyTo, replyAlone, replyTo, endsAlone, hsame]
  cases hdecides : decides keepAlive {} r with
  | false => simp [phaseAfter]
  | true => simp [phaseAfter, hform, hbody, BodyForm.ofLength, BodyReader.ofForm?]

structure Serves (keepAlive : Bool) (c : Connection) (requests : List WrittenRequest)
    (result : Connection × List Reply) : Prop where
  replies : result.2 = (served (endsAlone keepAlive) requests).map (replyAlone keepAlive)
  answered : result.1.answered = c.answered + (served (endsAlone keepAlive) requests).length
  closed : result.1.isClosed = true <-> exists r, r ∈ requests ∧ endsAlone keepAlive r = true

theorem run_of_requests (keepAlive : Bool) {requests : List WrittenRequest}
    (hplain : forall r, r ∈ requests -> r.IsPlain) (hphase : c.phase = .head {})
    (hending : c.ending = false) {inputs : List Input}
    (hdelivers : Delivers inputs (requests.flatMap WrittenRequest.bytes)) :
    Serves keepAlive c requests (c.run keepAlive inputs) := by
  induction requests generalizing c inputs with
  | nil =>
      rw [run_of_nothing hphase hdelivers]
      constructor
      · rfl
      · rfl
      · simp [isClosed, hphase]
  | cons r rest ih =>
      have hr := hplain r List.mem_cons_self
      rw [List.flatMap_cons] at hdelivers
      rcases run_of_answerable keepAlive hphase (WrittenRequest.isAnswerable_of_plain hr)
        hdelivers with ⟨late, hlate, hrun⟩
      have hreply : c.replyTo keepAlive r = replyAlone keepAlive r := by
        rw [replyTo, decides_of_ending_eq keepAlive (d := {}) hending]
        rfl
      rw [hrun, hreply, answer_of_plain keepAlive hending hr]
      cases hends : endsAlone keepAlive r with
      | true =>
          rw [run_of_closed keepAlive (by rfl)]
          constructor
          · rw [served_cons_of_ends hends]
            rfl
          · rw [served_cons_of_ends hends]
            rfl
          · simp [isClosed, hends]
      | false =>
          have hserves := ih (fun t ht => hplain t (List.mem_cons_of_mem r ht))
            (c := { c with phase := .head {}, answered := c.answered + 1 }) rfl hending hlate
          constructor
          · rw [served_cons_of_keeps hends, List.map_cons, ← hserves.replies]
            rfl
          · have hanswered := hserves.answered
            rw [served_cons_of_keeps hends, List.length_cons]
            exact hanswered.trans (Nat.add_right_comm c.answered 1 _)
          · simpa [hends] using hserves.closed

end Connection
end Http

namespace Session

open Http (Delivers Input Reply WrittenRequest served)
open Http.Connection (endsAlone replyAlone run_of_requests)

def alone (keepAlive : Bool) (r : WrittenRequest) : Session × List Outgoing :=
  ofSegments keepAlive [r.bytes]

theorem run_start_of_nothing (keepAlive : Bool) {inputs : List Input}
    (hdelivers : Delivers inputs []) : start.run keepAlive inputs = (start, []) := by
  generalize hbytes : [] = bytes at hdelivers
  induction hdelivers with
  | nothing => rfl
  | byte b _ _ => cases hbytes
  | pause _ ih =>
      rw [run_cons]
      exact congrArg (fun r => (r.1, [] ++ r.2)) (ih hbytes)

theorem run_start_of_requests (keepAlive : Bool) {requests : List WrittenRequest}
    (hplain : forall r, r ∈ requests -> r.IsPlain) {inputs : List Input}
    (hdelivers : Delivers inputs (requests.flatMap WrittenRequest.bytes)) :
    let s := start.run keepAlive inputs
    let answered := served (endsAlone keepAlive) requests
    s.2 = (answered.map (replyAlone keepAlive)).map .reply ∧
      s.1.answered = answered.length ∧
      (s.1.isClosed = true <-> exists r, r ∈ requests ∧ endsAlone keepAlive r = true) := by
  intro s answered
  cases requests with
  | nil =>
      have hrun : s = (start, []) := run_start_of_nothing keepAlive hdelivers
      rw [hrun]
      exact ⟨rfl, rfl, by simp [start, isClosed]⟩
  | cons r rest =>
      have hr := (hplain r List.mem_cons_self).toIsCareful
      rw [List.flatMap_cons] at hdelivers
      rcases run_of_ready keepAlive Ready.fresh hr hdelivers with ⟨fewer, hfewer, hrun⟩
      have hserves := run_of_requests keepAlive (c := {}) hplain rfl rfl hfewer
      have hrun : s = ofText (Http.Connection.run keepAlive {} fewer) := hrun
      rw [hrun]
      refine ⟨congrArg (List.map Outgoing.reply) hserves.replies, ?_, hserves.closed⟩
      exact hserves.answered.trans (Nat.zero_add _)

theorem alone_of_plain (keepAlive : Bool) {r : WrittenRequest} (h : r.IsPlain) :
    (alone keepAlive r).2 = [.reply (replyAlone keepAlive r)] ∧
      (alone keepAlive r).1.isClosed = endsAlone keepAlive r := by
  have hdelivers : Delivers (Input.segments [r.bytes]) ([r].flatMap WrittenRequest.bytes) := by
    have hsegments := Http.delivers_segments [r.bytes]
    simpa using hsegments
  have hserves := run_start_of_requests keepAlive (by simpa using h) hdelivers
  have hserved : served (endsAlone keepAlive) [r] = [r] := by
    cases hends : endsAlone keepAlive r with
    | true => exact Http.served_cons_of_ends hends []
    | false => exact Http.served_cons_of_keeps hends []
  rw [hserved] at hserves
  refine ⟨hserves.left, ?_⟩
  rw [Bool.eq_iff_iff]
  exact hserves.right.right.trans (by simp)

theorem written_alone (keepAlive : Bool) (date : String) {r : WrittenRequest} (h : r.IsPlain) :
    written date (alone keepAlive r) = ((replyAlone keepAlive r).response date).bytes := by
  have hsent : (alone keepAlive r).2 = [replyAlone keepAlive r].map .reply :=
    (alone_of_plain keepAlive h).left
  rw [written_of_replies date hsent]
  simp

theorem flatMap_congr_of_mem {α β : Type} {l : List α} {f g : α -> List β}
    (h : forall a, a ∈ l -> f a = g a) : l.flatMap f = l.flatMap g := by
  rw [List.flatMap_def, List.flatMap_def, List.map_congr_left h]

def answeredAmong (keepAlive : Bool) (requests : List WrittenRequest) : List WrittenRequest :=
  served (fun r => (alone keepAlive r).1.isClosed) requests

/-- What `parts` lead to is what the requests lead to alone, up to the first one that ends its
session; no later one is answered. -/
structure ServedAsAlone (keepAlive : Bool) (date : String) (requests : List WrittenRequest)
    (parts : List (List UInt8)) : Prop where
  count : (ofSegments keepAlive parts).1.answered = (answeredAmong keepAlive requests).length
  sent : (ofSegments keepAlive parts).2 =
    (answeredAmong keepAlive requests).flatMap fun r => (alone keepAlive r).2
  written : written date (ofSegments keepAlive parts) =
    (answeredAmong keepAlive requests).flatMap fun r => written date (alone keepAlive r)
  closed : (ofSegments keepAlive parts).1.isClosed = true <->
    exists r, r ∈ requests ∧ (alone keepAlive r).1.isClosed = true

/-- Plain requests are answered as each would be alone, up to the first one that ends its session,
wherever their bytes are cut. -/
theorem servedAsAlone_of_plain (settings : Settings) {requests : List WrittenRequest}
    (hplain : forall r, r ∈ requests -> r.IsPlain) {parts : List (List UInt8)}
    (hcut : parts.flatten = requests.flatMap WrittenRequest.bytes) (date : String) :
    ServedAsAlone settings.keepAlive date requests parts := by
  have hdelivers := Http.delivers_segments parts
  rw [hcut] at hdelivers
  rcases run_start_of_requests settings.keepAlive hplain hdelivers with ⟨hsent, hcount, hclosed⟩
  have hends : forall r, r ∈ requests ->
      (alone settings.keepAlive r).1.isClosed = endsAlone settings.keepAlive r :=
    fun r hr => (alone_of_plain settings.keepAlive (hplain r hr)).right
  have hserved : answeredAmong settings.keepAlive requests =
      served (endsAlone settings.keepAlive) requests :=
    Http.served_congr hends
  rw [← hserved] at hsent hcount
  have hplain' : forall r, r ∈ answeredAmong settings.keepAlive requests -> r.IsPlain :=
    fun r hr => hplain r (Http.mem_of_mem_served hr)
  refine ⟨hcount, ?_, ?_, ?_⟩
  · have hone : forall r, r ∈ answeredAmong settings.keepAlive requests ->
        (alone settings.keepAlive r).2 = [.reply (replyAlone settings.keepAlive r)] :=
      fun r hr => (alone_of_plain settings.keepAlive (hplain' r hr)).left
    rw [flatMap_congr_of_mem hone, ← List.map_eq_flatMap]
    exact hsent.trans (List.map_map ..)
  · have hone : forall r, r ∈ answeredAmong settings.keepAlive requests ->
        written date (alone settings.keepAlive r) =
          ((replyAlone settings.keepAlive r).response date).bytes :=
      fun r hr => written_alone settings.keepAlive date (hplain' r hr)
    rw [flatMap_congr_of_mem hone]
    have hwritten := written_of_replies date hsent
    rwa [List.flatMap_map, List.flatMap_map] at hwritten
  · apply hclosed.trans
    constructor
    · intro hgiven
      rcases hgiven with ⟨r, hr, hend⟩
      exact ⟨r, hr, (hends r hr).trans hend⟩
    · intro hgiven
      rcases hgiven with ⟨r, hr, hend⟩
      exact ⟨r, hr, (hends r hr).symm.trans hend⟩

end Session
end ConstantReply
