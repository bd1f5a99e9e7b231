import ConstantReply.Proofs.Http.Blindness
import ConstantReply.Proofs.Session.Readiness
import ConstantReply.Settings

/-!
# Sessions with payloads

The bytes of a payload have no influence on a session.  What it does at each moment depends on the
heads, on how the payloads are laid out and on where the bytes are cut, and its replies are to the
heads alone, whatever stands in the payloads.
-/

namespace ConstantReply
namespace Session

open Http (Answered Head Input Leads LongHeadText Payload Phase Post Replies)

/-- What a session does with requests of these heads, sent by `a`, does not depend on the payloads
that `b` replaces. -/
structure IgnoresPayloads (keepAlive : Bool) (heads : List Head) (a b : List Input) : Prop where
  same : forall k, start.run keepAlive (b.take k) = start.run keepAlive (a.take k)
  replies : exists replies,
    (start.run keepAlive a).2 = replies.map .reply ∧ Replies heads replies ∧
      ((start.run keepAlive a).1.isClosed = true ∨ Answered heads replies)

variable {keepAlive : Bool}

theorem run_take_append {s : Session} {front a b : List Input}
    (h : forall k, (s.run keepAlive front).1.run keepAlive (b.take k) =
      (s.run keepAlive front).1.run keepAlive (a.take k)) (k : Nat) :
    s.run keepAlive ((front ++ b).take k) = s.run keepAlive ((front ++ a).take k) := by
  rw [List.take_append, List.take_append, run_append, run_append]
  by_cases hk : k ≤ front.length
  · rw [Nat.sub_eq_zero_of_le hk]
    rfl
  · rw [List.take_of_length_le (by omega), h]

theorem run_start_of_headText (keepAlive : Bool) {head : Head} {text : List UInt8}
    (h : LongHeadText head text) {inputs : List Input} (hbytes : Input.bytes inputs = text) :
    start.run keepAlive inputs = (.closed, []) ∨
      exists seen, Input.bytes seen = text ∧
        start.run keepAlive inputs = ofText (Http.Connection.run keepAlive {} seen) := by
  have hpreface := Http.not_preface_of_headText h []
  rw [List.append_nil, ← hbytes] at hpreface
  cases run_start keepAlive inputs with
  | undecided rest _ hdue _ _ => exact absurd ⟨rest, hdue.symm⟩ hpreface.right
  | ended _ hr => exact Or.inl hr
  | text seen hseen _ hr => exact Or.inr ⟨seen, hseen.trans hbytes, hr⟩
  | framed hprefix => exact absurd hprefix hpreface.left

theorem replies_of_leads {heads : List Head} {r : Http.Connection × List Http.Reply}
    (h : Leads (.head {}) heads r) :
    exists replies, (ofText r).2 = replies.map .reply ∧ Replies heads replies ∧
      ((ofText r).1.isClosed = true ∨ Answered heads replies) := by
  refine ⟨r.2, rfl, Http.replies_of_leads h, ?_⟩
  cases h with
  | goes _ hanswered => exact Or.inr hanswered
  | ended hclosed _ => exact Or.inl (by simp [ofText, isClosed, Http.Connection.isClosed, hclosed])

theorem ignoresPayloads_nil {a b : List Input} (ha : Input.bytes a = [])
    (hb : Input.bytes b = []) (htimes : Input.SameTimes a b) :
    IgnoresPayloads keepAlive [] a b := by
  have hsame := Input.eq_of_sameTimes htimes (ha.trans hb.symm)
  subst hsame
  refine ⟨fun _ => rfl, ?_⟩
  cases run_start keepAlive a with
  | undecided rest _ _ hr _ =>
      exact ⟨[], by rw [hr]; rfl, Replies.stop [], Or.inr Answered.nothing⟩
  | ended _ hr => exact ⟨[], by rw [hr]; rfl, Replies.stop [], Or.inr Answered.nothing⟩
  | text seen hseen _ hr =>
      rw [hr]
      apply replies_of_leads
      exact Http.Connection.leads_of_silence (c := {}) (fun _ => nofun) (hseen.trans ha)
  | framed hprefix =>
      rw [ha] at hprefix
      exact absurd hprefix.length_le (by decide +kernel)

theorem ignoresPayloads_cons {p : Post} (hp : p.IsWellFormed) {more : List Head}
    {x y : List UInt8}
    (hrest : Http.Connection.Blind keepAlive (Phase.ofForm p.payload.form) (.head {}) more x y)
    {a b : List Input} (ha : Input.bytes a = p.text ++ x) (hb : Input.bytes b = p.text ++ y)
    (htimes : Input.SameTimes a b) : IgnoresPayloads keepAlive (p.head :: more) a b := by
  rcases Input.exists_append_of_bytes ha with ⟨front, a₂, rfl, hfront, ha₂⟩
  rcases Input.sameTimes_of_append htimes with ⟨b₁, b₂, rfl, htimes₁, htimes₂⟩
  rw [Input.bytes_append] at hb
  have hcut : (Input.bytes b₁).length = p.text.length := by
    rw [← Input.length_bytes_of_sameTimes htimes₁, hfront]
  rcases List.append_inj hb hcut with ⟨hb₁, hb₂⟩
  have hsame := Input.eq_of_sameTimes htimes₁ (hfront.trans hb₁.symm)
  subst hsame
  rcases run_start_of_headText keepAlive hp.text hfront with hclosed | ⟨seen, hseen, hr⟩
  · refine ⟨run_take_append fun k => ?_, [], ?_, Replies.stop _, Or.inl ?_⟩
    · rw [hclosed, run_closed, run_closed]
    · rw [run_append, hclosed, run_closed]
      rfl
    · rw [run_append, hclosed, run_closed]
      rfl
  · have hleads := Http.Connection.leads_of_head keepAlive hp.text
      (fun request => Http.body_of_declares hp.declares) (c := {}) rfl hseen
    have hrun : start.run keepAlive (front ++ a₂) =
        ofText (Http.Connection.run keepAlive {} (seen ++ a₂)) := by
      rw [run_append, hr, run_ofText]
    refine ⟨run_take_append fun k => ?_, ?_⟩
    · rw [hr, ofText, run_text, run_text]
      congr 1
      generalize Http.Connection.run keepAlive {} seen = r at hleads
      cases hleads with
      | goes hphase _ => exact (hrest _ a₂ b₂ hphase htimes₂ ha₂ hb₂).left k
      | ended hclosed _ => exact Http.Connection.indistinct_of_closed hclosed a₂ b₂ k
    · rw [hrun]
      apply replies_of_leads
      rw [Http.Connection.run_append]
      exact Http.Connection.leads_then hleads fun hphase =>
        (hrest _ a₂ b₂ hphase htimes₂ ha₂ hb₂).right

/-- Other payloads of the same shapes change nothing in what a session does, at any moment and
wherever the bytes are cut, and its replies are to the heads of the requests, in their order. -/
theorem ignoresPayloads_of_sameShape (settings : Settings) {posts others : List Post}
    (h : forall p, p ∈ posts -> p.IsWellFormed) (hshape : List.Forall₂ Post.SameShape posts others)
    {a b : List Input} (ha : Input.bytes a = posts.flatMap Post.bytes)
    (hb : Input.bytes b = others.flatMap Post.bytes) (htimes : Input.SameTimes a b) :
    IgnoresPayloads settings.keepAlive (posts.map Post.head) a b := by
  cases hshape with
  | nil => exact ignoresPayloads_nil ha hb htimes
  | @cons p q posts others hpq hmore =>
      have hp := h p List.mem_cons_self
      have hposts := Http.Connection.blind_posts settings.keepAlive
        (fun r hr => h r (List.mem_cons_of_mem p hr)) hmore
      have hrest := Http.Connection.blind_append
        (Payload.length_bytes_of_sameShape hpq.payload)
        (Http.Connection.blind_payload hp.declares hpq.payload) hposts
      apply ignoresPayloads_cons hp hrest _ _ htimes
      · simpa [Post.bytes] using ha
      · simpa [Post.bytes, hpq.text] using hb

end Session
end ConstantReply
