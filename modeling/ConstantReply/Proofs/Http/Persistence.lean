import ConstantReply.Proofs.Http.Response
import ConstantReply.Proofs.Http.RequestRun

/-!
# Requests that let a connection stay

A connection stays after a request if the configuration lets it, and then as the version and the
elements of the `connection` field say.  Elements are described here without splitting a value: they
stand between commas and may have blanks around them.
-/

namespace ConstantReply
namespace Http

/-!
# Elements of a value
-/

/-- The value has commas between its parts, and one part is the word, the case of letters and blanks
around it aside. -/
inductive HasElement (word : String) (value : List UInt8) : Prop where
  | element {parts : List (List UInt8)} {left x right : List UInt8} :
      [comma].intercalate parts = value -> left ++ x ++ right ∈ parts ->
      (forall b, b ∈ left ++ right -> isBlank b = true) -> isWord word x = true ->
      HasElement word value

def IsElement (word : String) : Prop :=
  forall b, b ∈ Ascii.bytes word -> isBlank b = false ∧ b ≠ comma

instance (word : String) : Decidable (IsElement word) :=
  inferInstanceAs (Decidable (forall b, b ∈ Ascii.bytes word -> isBlank b = false ∧ b ≠ comma))

theorem isElement_close : IsElement "close" := by
  decide +kernel

theorem isElement_keepAlive : IsElement "keep-alive" := by
  decide +kernel

theorem lowerByte_of_blank {b : UInt8} (h : isBlank b = true) : Ascii.lowerByte b = b := by
  have hcases : b = space ∨ b = tab := by
    simpa [isBlank] using h
  rcases hcases with rfl | rfl <;> decide

theorem not_blank_of_isWord {word : String} (hword : IsElement word) {x : List UInt8}
    (h : isWord word x = true) : forall b, b ∈ x -> isBlank b = false ∧ b ≠ comma := by
  intro b hb
  have hlower : Ascii.lowerByte b ∈ Ascii.bytes word := by
    rw [← beq_iff_eq.mp h]
    exact List.mem_map_of_mem hb
  have hmark := hword _ hlower
  constructor
  · rw [← Bool.not_eq_true]
    intro hblank
    rw [lowerByte_of_blank hblank, hblank] at hmark
    cases hmark.left
  · intro heq
    subst heq
    exact hmark.right (by decide)

/-!
## Blanks around a word
-/

theorem exists_blanks (value : List UInt8) :
    exists left right, value = left ++ trimBlanks value ++ right ∧
      forall b, b ∈ left ++ right -> isBlank b = true := by
  let tail := value.dropWhile isBlank
  refine ⟨value.takeWhile isBlank, (tail.reverse.takeWhile isBlank).reverse, ?_, ?_⟩
  · have htail : trimBlanks value ++ (tail.reverse.takeWhile isBlank).reverse = tail := by
      rw [trimBlanks, ← List.reverse_append, List.takeWhile_append_dropWhile, List.reverse_reverse]
    rw [List.append_assoc, htail, List.takeWhile_append_dropWhile]
  · intro b hb
    rcases List.mem_append.mp hb with hleft | hright
    · exact List.all_eq_true.mp List.all_takeWhile b hleft
    · exact List.all_eq_true.mp List.all_takeWhile b (List.mem_reverse.mp hright)

theorem dropWhile_of_not_blank {x : List UInt8} (h : forall b, b ∈ x -> isBlank b = false)
    {right : List UInt8} (hright : forall b, b ∈ right -> isBlank b = true) :
    ((x ++ right).reverse.dropWhile isBlank).reverse = x := by
  rw [List.reverse_append, List.dropWhile_append_of_pos fun b hb =>
    hright b (List.mem_reverse.mp hb)]
  have hlast : x.reverse.dropWhile isBlank = x.reverse := by
    cases hx : x.reverse with
    | nil => rfl
    | cons b rest =>
        have hb : b ∈ x := List.mem_reverse.mp (hx ▸ List.mem_cons_self)
        rw [List.dropWhile_cons_of_neg (by simp [h b hb])]
  rw [hlast, List.reverse_reverse]

theorem trimBlanks_of_blanks {left x right : List UInt8}
    (hblank : forall b, b ∈ left ++ right -> isBlank b = true)
    (h : forall b, b ∈ x -> isBlank b = false) : trimBlanks (left ++ x ++ right) = x := by
  have hleft : forall b, b ∈ left -> isBlank b = true :=
    fun b hb => hblank b (List.mem_append_left right hb)
  have hright : forall b, b ∈ right -> isBlank b = true :=
    fun b hb => hblank b (List.mem_append_right left hb)
  rw [trimBlanks, List.append_assoc, List.dropWhile_append_of_pos hleft]
  cases x with
  | nil =>
      have hnothing : (right ++ []).dropWhile isBlank = [] := List.dropWhile_append_of_pos hright
      rw [List.append_nil] at hnothing
      rw [List.nil_append, hnothing]
      rfl
  | cons b rest =>
      rw [List.cons_append, List.dropWhile_cons_of_neg (by simp [h b List.mem_cons_self]),
        ← List.cons_append]
      exact dropWhile_of_not_blank h hright

/-!
## The two descriptions of elements
-/

theorem mem_splitOn_of_mem {parts : List (List UInt8)} {part : List UInt8}
    (h : part ∈ parts) (hcomma : comma ∉ part) :
    part ∈ ([comma].intercalate parts).splitOn comma := by
  induction parts with
  | nil => cases h
  | cons first rest ih =>
      cases rest with
      | nil =>
          rw [List.mem_singleton.mp h] at hcomma ⊢
          simp [List.splitOn_eq_singleton hcomma]
      | cons second more =>
          rw [List.intercalate_cons_cons, List.append_assoc, List.singleton_append,
            List.splitOn_append_cons_self]
          rcases List.mem_cons.mp h with rfl | hrest
          · rw [List.splitOn_eq_singleton hcomma]
            exact List.mem_append_left _ (List.mem_singleton_self part)
          · exact List.mem_append_right _ (ih hrest)

theorem names_iff {word : String} (hword : IsElement word) {value : List UInt8}
    (hvalue : forall b, b ∈ value -> isPrintableByte b = true) :
    names word value = true <-> HasElement word value := by
  have hascii : isAsciiValue value = true :=
    List.all_eq_true.mpr fun b hb => isAscii_of_isPrintableByte b (hvalue b hb)
  rw [names, hascii, Bool.true_and, elements, List.any_map, List.any_eq_true]
  constructor
  · intro h
    rcases h with ⟨part, hpart, hmatch⟩
    rcases exists_blanks part with ⟨left, right, hsplit, hblank⟩
    rw [hsplit] at hpart
    exact HasElement.element (List.intercalate_splitOn comma) hpart hblank hmatch
  · intro h
    cases h with
    | @element parts left x right hvalue hpart hblank hmatch =>
        have hx := not_blank_of_isWord hword hmatch
        have hcomma : comma ∉ left ++ x ++ right := by
          intro hmem
          rw [List.append_assoc, List.mem_append, List.mem_append] at hmem
          rcases hmem with hleft | hmiddle | hright
          · exact absurd (hblank comma (List.mem_append_left right hleft)) (by decide)
          · exact (hx comma hmiddle).right rfl
          · exact absurd (hblank comma (List.mem_append_right left hright)) (by decide)
        refine ⟨left ++ x ++ right, hvalue ▸ mem_splitOn_of_mem hpart hcomma, ?_⟩
        rw [Function.comp_apply, trimBlanks_of_blanks hblank fun b hb => (hx b hb).left]
        exact hmatch

/-!
# Requests that are nothing but a head
-/

structure BareHead (head : Head) (text : List UInt8) : Prop where
  headText : HeadText head text
  size : text.length ≤ headLimit
  form : head.refusal? = none
  noTunnel : head.line.method ≠ Ascii.bytes "CONNECT"
  unmeasured : valuesOf "content-length" head.fields = []
  uncoded : valuesOf "transfer-encoding" head.fields = []
  atMostOne : (valuesOf "connection" head.fields).length ≤ 1
  printable : forall v, v ∈ valuesOf "connection" head.fields ->
    forall b, b ∈ v -> isPrintableByte b = true

def Head.Wishes (head : Head) (word : String) : Prop :=
  exists v, v ∈ valuesOf "connection" head.fields ∧ HasElement word v

/-- When a connection stays after a request.  Closing has precedence. -/
def Persists (keepAlive : Bool) (head : Head) : Prop :=
  keepAlive = true ∧
    ((head.line.version = .http11 ∧ ¬ head.Wishes "close") ∨
      (head.line.version = .http10 ∧ head.Wishes "keep-alive" ∧ ¬ head.Wishes "close"))

variable {head : Head} {text : List UInt8}

theorem wishes_iff {word : String} (hword : IsElement word) (h : BareHead head text) :
    head.Wishes word <-> (valuesOf "connection" head.fields).any (names word) = true := by
  rw [List.any_eq_true, Head.Wishes]
  constructor
  · intro hwish
    rcases hwish with ⟨v, hv, helement⟩
    exact ⟨v, hv, (names_iff hword (h.printable v hv)).mpr helement⟩
  · intro hany
    rcases hany with ⟨v, hv, hnames⟩
    exact ⟨v, hv, (names_iff hword (h.printable v hv)).mp hnames⟩

namespace FieldSummary

theorem foldlM_of_unframed {version : Version} {fields : List Field}
    (hlength : valuesOf "content-length" fields = [])
    (hcoding : valuesOf "transfer-encoding" fields = []) (s : FieldSummary) :
    fields.foldlM (fun s field => s.add version field) s =
      .ok ((valuesOf "connection" fields).foldl addConnection s) := by
  induction fields generalizing s with
  | nil => rfl
  | cons f rest ih =>
      rcases not_isWord_of_valuesOf_cons hlength with ⟨hflength, hlength⟩
      rcases not_isWord_of_valuesOf_cons hcoding with ⟨hfcoding, hcoding⟩
      rw [List.foldlM_cons, ← List.singleton_append, valuesOf_append, List.foldl_append]
      cases hname : isWord "connection" f.name with
      | true =>
          have hadd : s.add version f = .ok (s.addConnection f.value) := by
            simp [add, hflength, hfcoding, hname]
          rw [hadd, valuesOf_singleton hname]
          exact ih hlength hcoding _
      | false =>
          have hadd : s.add version f = .ok s := by
            simp [add, hflength, hfcoding, hname]
          rw [hadd, valuesOf_singleton_of_not hname]
          exact ih hlength hcoding s

theorem persistent_of_wishes {values : List (List UInt8)} (hone : values.length ≤ 1)
    (version : Version) :
    (values.foldl addConnection {}).persistent version =
      match version with
      | .http11 => !values.any (names "close")
      | .http10 => values.any (names "keep-alive") && !values.any (names "close") := by
  match values, hone with
  | [], _ => cases version <;> rfl
  | [v], _ =>
      cases hclose : names "close" v <;> cases hkeep : names "keep-alive" v <;> cases version <;>
        simp [addConnection, persistent, hclose, hkeep]

end FieldSummary

theorem BareHead.exists_judge (h : BareHead head text) :
    exists persistent, head.judge = .ok ⟨head, .empty, persistent⟩ ∧
      forall keepAlive, (keepAlive && persistent) = true <-> Persists keepAlive head := by
  have hsummary : FieldSummary.ofFields head.line.version head.fields =
      .ok ((valuesOf "connection" head.fields).foldl FieldSummary.addConnection {}) :=
    FieldSummary.foldlM_of_unframed h.unmeasured h.uncoded {}
  rcases Head.exists_judge h.form h.uncoded (h.unmeasured ▸ Agrees.nothing) with
    ⟨persistent, hjudge⟩
  rcases Head.judge_eq_ok hjudge with ⟨summary, body, hok, _, hrequest⟩
  rw [hsummary] at hok
  cases hok
  injection hrequest with _ _ hpersistent
  refine ⟨persistent, hjudge, ?_⟩
  intro keepAlive
  rw [Bool.and_eq_true, hpersistent, FieldSummary.persistent_of_wishes h.atMostOne, Persists,
    wishes_iff isElement_close h, wishes_iff isElement_keepAlive h]
  cases head.line.version <;> simp

namespace Connection

theorem answer_of_bareHead (keepAlive : Bool) {c : Connection} (hending : c.ending = false)
    (h : BareHead head text) :
    exists keeps : Bool, (keeps = true <-> Persists keepAlive head) ∧
      c.answer keepAlive head =
        ({ c with
            phase := if keeps then .head {} else .closed
            answered := c.answered + 1 },
          [.ok head.line (Announcement.of head.line.version keeps)]) := by
  rcases h.exists_judge with ⟨persistent, hjudge, hpersists⟩
  refine ⟨keepAlive && persistent, hpersists keepAlive, ?_⟩
  have hform := ReplyForm.ofMethod_ne_tunnel h.noTunnel
  simp only [answer, hjudge, keeps, hending, Reply.toRequest, Bool.not_false, Bool.and_true]
  cases keepAlive && persistent with
  | false => simp [phaseAfter]
  | true => simp [phaseAfter, hform, BodyReader.ofForm?]

theorem run_of_bareHead (keepAlive : Bool) {c : Connection} (hphase : c.phase = .head {})
    (hending : c.ending = false) (h : BareHead head text) {inputs : List Input}
    (hdelivers : Delivers inputs text) :
    exists keeps : Bool, (keeps = true <-> Persists keepAlive head) ∧
      c.run keepAlive inputs =
        ({ c with
            phase := if keeps then .head {} else .closed
            answered := c.answered + 1 },
          [.ok head.line (Announcement.of head.line.version keeps)]) := by
  rcases answer_of_bareHead keepAlive hending h with ⟨keeps, hkeeps, hanswer⟩
  refine ⟨keeps, hkeeps, ?_⟩
  rw [← List.append_nil text] at hdelivers
  rcases run_of_headText keepAlive hphase h.headText h.size hdelivers with ⟨rest, hrest, hrun⟩
  rw [hrun, hanswer]
  cases keeps with
  | false => rw [run_of_closed keepAlive rfl, List.append_nil]
  | true => rw [run_of_nothing rfl hrest, List.append_nil]

/-!
# Connections that are not to end
-/

theorem ending_of_step (keepAlive : Bool) (c : Connection) {i : Input} (hi : i ≠ .shutdown) :
    (c.step keepAlive i).1.ending = c.ending := by
  have hanswer : forall head, (c.answer keepAlive head).1.ending = c.ending := by
    intro head
    unfold answer
    split <;> rfl
  have hsettle : c.settle.1.ending = c.ending := by
    unfold settle
    split <;> rfl
  cases i with
  | shutdown => exact absurd rfl hi
  | pause => exact hsettle
  | finish => exact hsettle
  | headTimeout =>
      simp only [step]
      split <;> rfl
  | byte b =>
      simp only [step, readByte]
      split
      · unfold readHead
        split
        · rfl
        · exact hanswer _
        · split <;> rfl
      · unfold readBody
        split <;> rfl
      · unfold readPreface
        split
        · rfl
        split
        · rfl
        split <;> rfl
      · rfl

theorem ending_of_run (keepAlive : Bool) (c : Connection) {inputs : List Input}
    (h : Input.shutdown ∉ inputs) : (c.run keepAlive inputs).1.ending = c.ending := by
  induction inputs generalizing c with
  | nil => rfl
  | cons i rest ih =>
      rw [List.mem_cons, not_or] at h
      rw [run_cons, ih _ h.right, ending_of_step keepAlive c (Ne.symm h.left)]

end Connection

/-!
# What is announced
-/

theorem Reply.mem_fields_response_iff (date value : String) (l : RequestLine) (a : Announcement) :
    ("connection", value) ∈ ((Reply.ok l a).response date).fields <->
      ("connection", value) ∈ a.fields := by
  simp only [response]
  cases ReplyForm.ofMethod l.method <;> simp [fields, lengthField]

theorem Announcement.close_mem_fields_iff (version : Version) (keeps : Bool) :
    ("connection", "close") ∈ (Announcement.of version keeps).fields <->
      version = .http11 ∧ keeps = false := by
  cases version <;> cases keeps <;> simp [Announcement.of, Announcement.fields]

theorem Announcement.keepAlive_mem_fields_iff (version : Version) (keeps : Bool) :
    ("connection", "keep-alive") ∈ (Announcement.of version keeps).fields <->
      version = .http10 ∧ keeps = true := by
  cases version <;> cases keeps <;> simp [Announcement.of, Announcement.fields]

end Http
end ConstantReply
