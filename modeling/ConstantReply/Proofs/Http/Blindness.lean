import ConstantReply.Proofs.Http.Exchange
import ConstantReply.Proofs.Http.HeadArrival
import ConstantReply.Proofs.Http.Payload

/-!
# Payloads that nobody reads

A connection does the same, input by input, whatever the bytes of the payloads are, and its replies
are to the heads alone.
-/

namespace ConstantReply
namespace Http

namespace Input

def blank : Input -> Input
  | .byte _ => .byte 0
  | i => i

def SameTimes (a b : List Input) : Prop := a.map blank = b.map blank

instance (a b : List Input) : Decidable (SameTimes a b) :=
  inferInstanceAs (Decidable (a.map blank = b.map blank))

theorem length_of_sameTimes {a b : List Input} (h : SameTimes a b) : a.length = b.length := by
  have hlength := congrArg List.length h
  rwa [List.length_map, List.length_map] at hlength

theorem sameTimes_of_append {a₁ a₂ b : List Input} (h : SameTimes (a₁ ++ a₂) b) :
    exists b₁ b₂, b = b₁ ++ b₂ ∧ SameTimes a₁ b₁ ∧ SameTimes a₂ b₂ := by
  rw [SameTimes, List.map_append] at h
  rcases List.append_eq_map_iff.mp h with ⟨b₁, b₂, rfl, h₁, h₂⟩
  exact ⟨b₁, b₂, rfl, h₁.symm, h₂.symm⟩

theorem sameTimes_of_cons {i : Input} {rest b : List Input} (h : SameTimes (i :: rest) b) :
    exists j more, b = j :: more ∧ SameTimes rest more ∧
      ((exists x y, i = .byte x ∧ j = .byte y) ∨ (i.byte? = none ∧ j = i)) := by
  cases b with
  | nil => cases h
  | cons j more =>
      rcases List.cons.inj h with ⟨hij, hmore⟩
      refine ⟨j, more, rfl, hmore, ?_⟩
      cases i <;> cases j <;> simp_all [blank, byte?]

theorem length_bytes_of_sameTimes {a b : List Input} (h : SameTimes a b) :
    (bytes a).length = (bytes b).length := by
  induction a generalizing b with
  | nil =>
      rw [List.map_eq_nil_iff.mp h.symm]
  | cons i rest ih =>
      rcases sameTimes_of_cons h with ⟨j, more, rfl, hrest, hcases⟩
      rcases hcases with ⟨x, y, rfl, rfl⟩ | ⟨hbyte, rfl⟩
      · exact congrArg (· + 1) (ih hrest)
      · rw [bytes, bytes, List.filterMap_cons_none hbyte, List.filterMap_cons_none hbyte]
        exact ih hrest

theorem eq_of_sameTimes {a b : List Input} (h : SameTimes a b) (hbytes : bytes a = bytes b) :
    a = b := by
  induction a generalizing b with
  | nil =>
      rw [List.map_eq_nil_iff.mp h.symm]
  | cons i rest ih =>
      rcases sameTimes_of_cons h with ⟨j, more, rfl, hrest, hcases⟩
      rcases hcases with ⟨x, y, rfl, rfl⟩ | ⟨hbyte, rfl⟩
      · rcases List.cons.inj hbytes with ⟨rfl, hmore⟩
        rw [ih hrest hmore]
      · rw [bytes, bytes, List.filterMap_cons_none hbyte, List.filterMap_cons_none hbyte] at hbytes
        rw [ih hrest hbytes]

theorem exists_append_of_bytes {a : List Input} {x y : List UInt8} (h : bytes a = x ++ y) :
    exists front rest, a = front ++ rest ∧ bytes front = x ∧ bytes rest = y := by
  rcases List.filterMap_eq_append_iff.mp h with ⟨front, rest, ha, hfront, hrest⟩
  exact ⟨front, rest, ha, hfront, hrest⟩

end Input

/-!
# Replies to heads
-/

/-- Replies to the first of these heads, in order, and a refusal at most as the last. -/
inductive Replies : List Head -> List Reply -> Prop where
  | stop (heads : List Head) : Replies heads []
  | refusal (head : Head) (heads : List Head) (why : Refusal) :
      Replies (head :: heads) [.refusal why]
  | ok {head : Head} {heads : List Head} {replies : List Reply} (a : Announcement) :
      WellFramed head -> Replies heads replies ->
      Replies (head :: heads) (.ok head.line a :: replies)

theorem answered_append {heads more : List Head} {x y : List Reply} (h : Answered heads x)
    (hmore : Answered more y) : Answered (heads ++ more) (x ++ y) := by
  induction h with
  | nothing => exact hmore
  | ok a hframed _ ih => exact Answered.ok a hframed ih

theorem replies_of_answered {heads more : List Head} {x y : List Reply} (h : Answered heads x)
    (hmore : Replies more y) : Replies (heads ++ more) (x ++ y) := by
  induction h with
  | nothing => exact hmore
  | ok a hframed _ ih => exact Replies.ok a hframed ih

theorem replies_append {heads : List Head} {x : List Reply} (h : Replies heads x)
    (more : List Head) : Replies (heads ++ more) x := by
  induction h with
  | stop heads => exact Replies.stop (heads ++ more)
  | refusal head heads why => exact Replies.refusal head (heads ++ more) why
  | ok a hframed _ ih => exact Replies.ok a hframed ih

/-- What some heads lead to: all of them are answered and this phase comes next, or the connection
was closed at one of them. -/
inductive Leads (next : Phase) (heads : List Head) : Connection × List Reply -> Prop where
  | goes {c : Connection} {replies : List Reply} :
      c.phase = next -> Answered heads replies -> Leads next heads (c, replies)
  | ended {c : Connection} {replies : List Reply} :
      c.phase = .closed -> Replies heads replies -> Leads next heads (c, replies)

theorem replies_of_leads {next : Phase} {heads : List Head} {r : Connection × List Reply}
    (h : Leads next heads r) : Replies heads r.2 := by
  cases h with
  | goes _ hanswered =>
      have hreplies := replies_of_answered hanswered (Replies.stop [])
      simpa using hreplies
  | ended _ hreplies => exact hreplies

def Phase.ofForm (form : BodyForm) : Phase :=
  match BodyReader.ofForm? form with
  | none => .head {}
  | some reader => .body reader

namespace Connection

variable {keepAlive : Bool}

/-!
# Inputs that cannot be told apart
-/

def Indistinct (keepAlive : Bool) (c : Connection) (a b : List Input) : Prop :=
  forall k, c.run keepAlive (b.take k) = c.run keepAlive (a.take k)

theorem indistinct_refl (c : Connection) (a : List Input) : Indistinct keepAlive c a a :=
  fun _ => rfl

theorem indistinct_cons {c : Connection} {i j : Input} {a b : List Input}
    (hstep : c.step keepAlive j = c.step keepAlive i)
    (h : Indistinct keepAlive (c.step keepAlive i).1 a b) :
    Indistinct keepAlive c (i :: a) (j :: b) := by
  intro k
  cases k with
  | zero => rfl
  | succ k => rw [List.take_succ_cons, List.take_succ_cons, run_cons, run_cons, hstep, h k]

theorem indistinct_append {c : Connection} {a₁ a₂ b₁ b₂ : List Input}
    (hlength : a₁.length = b₁.length) (h₁ : Indistinct keepAlive c a₁ b₁)
    (h₂ : Indistinct keepAlive (c.run keepAlive a₁).1 a₂ b₂) :
    Indistinct keepAlive c (a₁ ++ a₂) (b₁ ++ b₂) := by
  intro k
  rw [List.take_append, List.take_append, run_append, run_append, h₁ k, ← hlength]
  by_cases hk : k ≤ a₁.length
  · rw [Nat.sub_eq_zero_of_le hk]
    rfl
  · rw [List.take_of_length_le (by omega), h₂]

theorem indistinct_of_closed {c : Connection} (hclosed : c.phase = .closed) (a b : List Input) :
    Indistinct keepAlive c a b := by
  intro k
  rw [run_of_closed keepAlive hclosed, run_of_closed keepAlive hclosed]

def Blind (keepAlive : Bool) (phase next : Phase) (heads : List Head) (x y : List UInt8) : Prop :=
  forall (c : Connection) (a b : List Input), c.phase = phase -> Input.SameTimes a b ->
    Input.bytes a = x -> Input.bytes b = y ->
    Indistinct keepAlive c a b ∧ Leads next heads (c.run keepAlive a)

theorem leads_of_closed {next : Phase} {c : Connection} (hclosed : c.phase = .closed)
    (heads : List Head) (inputs : List Input) : Leads next heads (c.run keepAlive inputs) := by
  rw [run_of_closed keepAlive hclosed]
  exact Leads.ended hclosed (Replies.stop heads)

theorem leads_then {phase next : Phase} {heads more : List Head} {r : Connection × List Reply}
    {inputs : List Input} (h : Leads phase heads r)
    (hlater : r.1.phase = phase -> Leads next more (r.1.run keepAlive inputs)) :
    Leads next (heads ++ more)
      ((r.1.run keepAlive inputs).1, r.2 ++ (r.1.run keepAlive inputs).2) := by
  cases h with
  | @goes d replies hphase hanswered =>
      have hleads := hlater hphase
      generalize d.run keepAlive inputs = s at hleads
      cases hleads with
      | goes hnext hmore => exact Leads.goes hnext (answered_append hanswered hmore)
      | ended hclosed hmore => exact Leads.ended hclosed (replies_of_answered hanswered hmore)
  | ended hclosed hreplies =>
      simp only [run_of_closed keepAlive hclosed, List.append_nil]
      exact Leads.ended hclosed (replies_append hreplies more)

theorem blind_append {p q r : Phase} {heads more : List Head} {x y u v : List UInt8}
    (hlength : x.length = y.length) (h₁ : Blind keepAlive p q heads x y)
    (h₂ : Blind keepAlive q r more u v) :
    Blind keepAlive p r (heads ++ more) (x ++ u) (y ++ v) := by
  intro c a b hphase htimes ha hb
  rcases Input.exists_append_of_bytes ha with ⟨a₁, a₂, rfl, ha₁, ha₂⟩
  rcases Input.sameTimes_of_append htimes with ⟨b₁, b₂, rfl, htimes₁, htimes₂⟩
  rw [Input.bytes_append] at hb
  have hcut : (Input.bytes b₁).length = y.length := by
    rw [← Input.length_bytes_of_sameTimes htimes₁, ha₁, hlength]
  rcases List.append_inj hb hcut with ⟨hb₁, hb₂⟩
  rcases h₁ c a₁ b₁ hphase htimes₁ ha₁ hb₁ with ⟨hsame₁, hleads₁⟩
  constructor
  · apply indistinct_append (Input.length_of_sameTimes htimes₁) hsame₁
    generalize c.run keepAlive a₁ = s at hleads₁
    cases hleads₁ with
    | goes hnext _ => exact (h₂ _ a₂ b₂ hnext htimes₂ ha₂ hb₂).left
    | ended hclosed _ => exact indistinct_of_closed hclosed a₂ b₂
  · rw [run_append]
    exact leads_then hleads₁ fun hnext => (h₂ _ a₂ b₂ hnext htimes₂ ha₂ hb₂).right

/-!
# Times without bytes
-/

theorem idle_cases (keepAlive : Bool) {i : Input} (hbyte : i.byte? = none) {c : Connection}
    (hphase : forall due, c.phase ≠ .latePreface due) :
    (c.step keepAlive i).2 = [] ∧
      ((c.step keepAlive i).1.phase = c.phase ∨ (c.step keepAlive i).1.phase = .closed) := by
  cases hcases : c.phase with
  | latePreface due => exact absurd hcases (hphase due)
  | head reader =>
      cases i <;> simp [step, settle, wind, close, awaitsHead, hcases, Input.byte?] at hbyte ⊢
      split <;> simp
  | body reader =>
      cases i <;> simp [step, settle, wind, close, awaitsHead, hcases, Input.byte?] at hbyte ⊢
  | closed =>
      cases i <;> simp [step, settle, wind, close, awaitsHead, hcases, Input.byte?] at hbyte ⊢

theorem leads_of_idle {c : Connection} (hphase : forall due, c.phase ≠ .latePreface due)
    {i : Input} (hbyte : i.byte? = none) {next : Phase} {heads : List Head} {rest : List Input}
    (hlater : (c.step keepAlive i).1.phase = c.phase ->
      Leads next heads ((c.step keepAlive i).1.run keepAlive rest)) :
    Leads next heads (c.run keepAlive (i :: rest)) := by
  rcases idle_cases keepAlive hbyte hphase with ⟨hsent, hnext | hclosed⟩
  · rw [run_cons, hsent, List.nil_append]
    exact hlater hnext
  · rw [run_cons, hsent, List.nil_append]
    exact leads_of_closed hclosed heads rest

theorem leads_of_silence {c : Connection} (hphase : forall due, c.phase ≠ .latePreface due)
    {inputs : List Input} (hbytes : Input.bytes inputs = []) :
    Leads c.phase [] (c.run keepAlive inputs) := by
  induction inputs generalizing c with
  | nil => exact Leads.goes rfl Answered.nothing
  | cons i rest ih =>
      cases hbyte : i.byte? with
      | some b => simp [Input.bytes, hbyte] at hbytes
      | none =>
          rw [Input.bytes, List.filterMap_cons_none hbyte] at hbytes
          apply leads_of_idle hphase hbyte
          intro hnext
          rw [← hnext]
          exact ih (fun due => hnext ▸ hphase due) hbytes

/-!
# Heads
-/

theorem leads_of_answer (c : Connection) {head : Head} {form : BodyForm}
    (hform : forall request, head.judge = .ok request -> request.body = form) :
    Leads (Phase.ofForm form) [head] (c.answer keepAlive head) := by
  unfold answer
  split
  · rename_i why _
    exact Leads.ended rfl (Replies.refusal head [] why)
  · rename_i request hjudge
    have hframed := Head.wellFramed_of_judge hjudge
    simp only [Reply.toRequest, Head.head_of_judge hjudge]
    unfold phaseAfter
    split
    · exact Leads.ended rfl (Replies.ok _ hframed (Replies.stop []))
    · apply Leads.goes _ (Answered.ok _ hframed Answered.nothing)
      rw [← hform request hjudge]
      rfl

theorem ofForm_ne_latePreface (form : BodyForm) (due : List UInt8) :
    Phase.ofForm form ≠ .latePreface due := by
  unfold Phase.ofForm
  split <;> exact nofun

theorem readHead_of_more (keepAlive : Bool) (c : Connection) {place next : Place} {b : UInt8}
    (hstep : place.step b = .more next) (size : Nat) :
    c.readHead keepAlive ⟨place, size⟩ b = ({ c with phase := .head ⟨next, size + 1⟩ }, []) ∨
      c.readHead keepAlive ⟨place, size⟩ b = (c.close, [.refusal .fieldsTooLarge]) := by
  by_cases hsize : size + 1 < headLimit
  · left
    simp only [readHead, HeadReader.step_of_more hstep hsize]
  · right
    have hrefused : HeadReader.step ⟨place, size⟩ b = .refused .fieldsTooLarge := by
      simp [HeadReader.step, hstep, Nat.not_lt.mp hsize]
    have hpreface : opensPreface ⟨place, size⟩ b = false := by
      have hlong : size ≠ beforeVersion := by
        simp only [headLimit, beforeVersion] at hsize ⊢
        omega
      simp [opensPreface, hlong]
    simp [readHead, hrefused, hpreface]

theorem leads_of_follow {next : Phase} {head : Head} {heads : List Head} {last : Place}
    {b : UInt8} {more : List UInt8}
    (hlast : forall (c : Connection) (size : Nat) (rest : List Input), Input.bytes rest = more ->
      Leads next (head :: heads)
        (((c.readHead keepAlive ⟨last, size⟩ b).1.run keepAlive rest).1,
          (c.readHead keepAlive ⟨last, size⟩ b).2 ++
            ((c.readHead keepAlive ⟨last, size⟩ b).1.run keepAlive rest).2))
    {c : Connection} {place : Place} {size : Nat} {init : List UInt8} {inputs : List Input}
    (hphase : c.phase = .head ⟨place, size⟩) (hfollow : place.follow? init = some last)
    (hbytes : Input.bytes inputs = init ++ b :: more) :
    Leads next (head :: heads) (c.run keepAlive inputs) := by
  induction inputs generalizing c place size init with
  | nil => simp [Input.bytes] at hbytes
  | cons i rest ih =>
      cases hbyte : i.byte? with
      | none =>
          rw [Input.bytes, List.filterMap_cons_none hbyte] at hbytes
          apply leads_of_idle (fun due => by simp [hphase]) hbyte
          intro hnext
          exact ih (hnext.trans hphase) hfollow hbytes
      | some d =>
          rw [Input.bytes, List.filterMap_cons_some hbyte] at hbytes
          have hstep : c.step keepAlive i = c.readHead keepAlive ⟨place, size⟩ d := by
            cases i with
            | byte e =>
                cases hbyte
                simp [step, readByte, hphase]
            | _ => cases hbyte
          rw [run_cons, hstep]
          cases init with
          | nil =>
              cases hfollow
              rcases List.cons.inj hbytes with ⟨rfl, hrest⟩
              exact hlast c size rest hrest
          | cons e init =>
              rcases List.cons.inj hbytes with ⟨rfl, hrest⟩
              rw [Place.follow?] at hfollow
              cases hread : place.step d with
              | refused why => simp [hread] at hfollow
              | complete head => simp [hread] at hfollow
              | more between =>
                  simp only [hread] at hfollow
                  rcases readHead_of_more keepAlive c hread size with hmore | hlong
                  · rw [hmore, List.nil_append]
                    exact ih rfl hfollow hrest
                  · rw [hlong, run_of_closed keepAlive rfl]
                    exact Leads.ended rfl (Replies.refusal head heads _)

theorem leads_of_head (keepAlive : Bool) {head : Head} {text : List UInt8} {form : BodyForm}
    (h : LongHeadText head text)
    (hform : forall request, head.judge = .ok request -> request.body = form)
    {c : Connection} {inputs : List Input} (hphase : c.phase = .head {})
    (hbytes : Input.bytes inputs = text) :
    Leads (Phase.ofForm form) [head] (c.run keepAlive inputs) := by
  rcases Place.follow?_long h with hshort | ⟨init, b, more, fields, rfl, hfollow, hrefused⟩
  · rcases Place.follow?_head hshort with ⟨init, place, rfl, hfollow, hcomplete⟩
    apply leads_of_follow _ hphase hfollow hbytes
    intro c size rest hrest
    have hanswer : c.readHead keepAlive ⟨place, size⟩ lf = c.answer keepAlive head := by
      simp [readHead, HeadReader.step, hcomplete]
    have hlater (hnext : (c.answer keepAlive head).1.phase = Phase.ofForm form) :
        Leads (Phase.ofForm form) [] ((c.answer keepAlive head).1.run keepAlive rest) := by
      rw [← hnext]
      exact leads_of_silence (fun due => hnext ▸ ofForm_ne_latePreface form due) hrest
    rw [hanswer]
    exact leads_then (leads_of_answer c hform) hlater
  · apply leads_of_follow _ hphase hfollow hbytes
    intro c size rest _
    have hclose : c.readHead keepAlive ⟨.fieldStart head.line fields, size⟩ b =
        (c.close, [.refusal .fieldsTooLarge]) := by
      simp [readHead, HeadReader.step, hrefused, opensPreface]
    rw [hclose, run_of_closed keepAlive rfl]
    exact Leads.ended rfl (Replies.refusal head [] _)

theorem blind_head {head : Head} {text : List UInt8} {form : BodyForm} (h : LongHeadText head text)
    (hform : forall request, head.judge = .ok request -> request.body = form) :
    Blind keepAlive (.head {}) (Phase.ofForm form) [head] text text := by
  intro c a b hphase htimes ha hb
  have hsame := Input.eq_of_sameTimes htimes (ha.trans hb.symm)
  subst hsame
  exact ⟨indistinct_refl c a, leads_of_head keepAlive h hform hphase ha⟩

/-!
# Payloads
-/

theorem blind_of_passes {reader : BodyReader} {x y : List UInt8} {phase : Phase}
    (h : Passes reader x y phase) : Blind keepAlive (.body reader) phase [] x y := by
  intro c a b hphase htimes ha hb
  induction a generalizing c b reader x y with
  | nil =>
      cases b with
      | cons j more => cases htimes
      | nil =>
          cases ha
          cases h
          exact ⟨indistinct_refl c [], Leads.goes hphase Answered.nothing⟩
  | cons i rest ih =>
      rcases Input.sameTimes_of_cons htimes with ⟨j, more, rfl, hrest, hcases⟩
      rcases hcases with ⟨d, e, rfl, rfl⟩ | ⟨hbyte, rfl⟩
      · have hread (g : UInt8) : c.step keepAlive (.byte g) = (c.readBody reader g, []) := by
          simp [step, readByte, hphase]
        have hnext : exists s, c.readBody reader d = s ∧ c.readBody reader e = s ∧
            Indistinct keepAlive s rest more ∧ Leads phase [] (s.run keepAlive rest) := by
          have hx : d :: Input.bytes rest = x := ha
          have hy : e :: Input.bytes more = y := hb
          generalize hu : Input.bytes rest = u at hx
          generalize hv : Input.bytes more = v at hy
          subst hx hy
          cases h with
          | @more _ next _ _ _ _ _ hd he hlater =>
              refine ⟨{ c with phase := .body next }, ?_, ?_, ih hlater _ more rfl hrest hu hv⟩
              · simp only [readBody, hd]
              · simp only [readBody, he]
          | last hd he =>
              have hsame := Input.eq_of_sameTimes hrest (hu.trans hv.symm)
              subst hsame
              refine ⟨{ c with phase := .head {} }, ?_, ?_, indistinct_refl _ rest, ?_⟩
              · simp only [readBody, hd]
              · simp only [readBody, he]
              · refine leads_of_silence (c := { c with phase := .head {} }) ?_ hu
                intro due hdue
                cases hdue
          | broken hd he hlength =>
              refine ⟨c.close, ?_, ?_, indistinct_of_closed rfl rest more, leads_of_closed rfl [] rest⟩
              · simp only [readBody, hd]
              · simp only [readBody, he]
        rcases hnext with ⟨s, hd, he, hsame, hleads⟩
        constructor
        · apply indistinct_cons
          · rw [hread, hread, hd, he]
          · rwa [hread, hd]
        · rw [run_cons, hread, hd, List.nil_append]
          exact hleads
      · rw [Input.bytes, List.filterMap_cons_none hbyte] at ha hb
        have hquiet : forall due, c.phase ≠ .latePreface due := by
          simp [hphase]
        rcases idle_cases keepAlive hbyte hquiet with ⟨hsent, hnext | hclosed⟩
        · have hlater := ih h _ more (hnext.trans hphase) hrest ha hb
          refine ⟨indistinct_cons rfl hlater.left, ?_⟩
          rw [run_cons, hsent, List.nil_append]
          exact hlater.right
        · refine ⟨indistinct_cons rfl (indistinct_of_closed hclosed rest more), ?_⟩
          rw [run_cons, hsent, List.nil_append]
          exact leads_of_closed hclosed [] rest

theorem blind_of_reaches {reader : BodyReader} {x y : List UInt8} {phase : Phase}
    (h : Reaches reader x y phase) : Blind keepAlive (.body reader) phase [] x y := by
  rcases h with hpasses | hcloses
  · exact blind_of_passes hpasses
  · intro c a b hphase htimes ha hb
    rcases blind_of_passes hcloses c a b hphase htimes ha hb with ⟨hsame, hleads⟩
    refine ⟨hsame, ?_⟩
    generalize c.run keepAlive a = r at hleads
    cases hleads with
    | goes hclosed hanswered => exact Leads.ended hclosed (replies_of_leads (.goes hclosed hanswered))
    | ended hclosed hreplies => exact Leads.ended hclosed hreplies

theorem blind_nothing {phase : Phase} (hphase : forall due, phase ≠ .latePreface due) :
    Blind keepAlive phase phase [] [] [] := by
  intro c a b hc htimes ha hb
  have hsame := Input.eq_of_sameTimes htimes (ha.trans hb.symm)
  subst hsame hc
  exact ⟨indistinct_refl c a, leads_of_silence hphase ha⟩

theorem blind_payload {head : Head} {payload other : Payload} (h : Declares head payload)
    (hshape : payload.SameShape other) :
    Blind keepAlive (Phase.ofForm payload.form) (.head {}) [] payload.bytes other.bytes := by
  unfold Phase.ofForm
  split
  · rename_i hnone
    rcases bytes_of_ofForm?_none hnone hshape with ⟨hbytes, hother⟩
    rw [hbytes, hother]
    exact blind_nothing fun _ => nofun
  · rename_i reader hreader
    exact blind_of_reaches (reaches_of_declares h hshape hreader)

end Connection

/-!
# Requests with payloads
-/

structure Post where
  head : Head
  text : List UInt8
  payload : Payload

namespace Post

def bytes (p : Post) : List UInt8 := p.text ++ p.payload.bytes

structure IsWellFormed (p : Post) : Prop where
  text : LongHeadText p.head p.text
  declares : Declares p.head p.payload

structure SameShape (p q : Post) : Prop where
  head : q.head = p.head
  text : q.text = p.text
  payload : p.payload.SameShape q.payload

theorem length_bytes_of_sameShape {p q : Post} (h : p.SameShape q) :
    p.bytes.length = q.bytes.length := by
  rw [bytes, bytes, List.length_append, List.length_append, h.text,
    Payload.length_bytes_of_sameShape h.payload]

end Post

namespace Connection

theorem blind_posts (keepAlive : Bool) {posts others : List Post} (h : forall p, p ∈ posts -> p.IsWellFormed)
    (hshape : List.Forall₂ Post.SameShape posts others) :
    Blind keepAlive (.head {}) (.head {}) (posts.map Post.head) (posts.flatMap Post.bytes)
      (others.flatMap Post.bytes) := by
  induction hshape with
  | nil => exact blind_nothing fun _ => nofun
  | @cons p q posts others hpq _ ih =>
      have hp := h p List.mem_cons_self
      have hhead : Blind keepAlive (.head {}) (Phase.ofForm p.payload.form) [p.head] p.text q.text := by
        rw [hpq.text]
        exact blind_head hp.text fun request => body_of_declares hp.declares
      have hpost := blind_append (congrArg List.length hpq.text.symm) hhead
        (blind_payload hp.declares hpq.payload)
      have hrest := ih fun r hr => h r (List.mem_cons_of_mem p hr)
      exact blind_append (Post.length_bytes_of_sameShape hpq) hpost hrest

end Connection
end Http
end ConstantReply
