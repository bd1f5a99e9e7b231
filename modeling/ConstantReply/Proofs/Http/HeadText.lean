import ConstantReply.Http.Head

/-!
# The grammar of request heads

A head is a request line, field lines and an empty line.  Lines end in a line feed, which a carriage
return may precede.  The grammar relates the text of a head to what it says and knows nothing of the
places that a reader goes through.
-/

namespace ConstantReply
namespace Http

inductive LineEnd : List UInt8 -> Prop where
  | lf : LineEnd [lf]
  | crlf : LineEnd [cr, lf]

def Version.digit : Version -> UInt8
  | .http10 => 0x30
  | .http11 => 0x31

structure TargetText (target : List UInt8) : Prop where
  nonempty : target ≠ []
  visible : forall b, b ∈ target -> Target.isVisible b = true
  wellFormed : Utf8.WellFormed target = true

/-- A request line without what ends it. -/
inductive LineText : RequestLine -> List UInt8 -> Prop where
  | line {method target : List UInt8} {version : Version} :
      isToken method = true -> TargetText target ->
      LineText ⟨method, target, version⟩
        (method ++ space :: target ++ space :: Place.versionStem ++ [version.digit])

/-- A field line.  Blanks around the value do not belong to it. -/
inductive FieldText : Field -> List UInt8 -> Prop where
  | field {name value eol : List UInt8} :
      isToken name = true -> isValue value = true -> LineEnd eol ->
      FieldText ⟨name, trimBlanks value⟩ (name ++ colon :: value ++ eol)

inductive FieldsText : List Field -> List UInt8 -> Prop where
  | nothing : FieldsText [] []
  | field {f : Field} {fields : List Field} {x rest : List UInt8} :
      FieldText f x -> FieldsText fields rest -> FieldsText (f :: fields) (x ++ rest)

/-- A head with its end. -/
inductive HeadText : Head -> List UInt8 -> Prop where
  | head {line : RequestLine} {fields : List Field} {x eol y last : List UInt8} :
      LineText line x -> LineEnd eol -> FieldsText fields y ->
      fields.length ≤ greatestFieldCount -> LineEnd last ->
      HeadText ⟨line, fields⟩ (x ++ eol ++ y ++ last)

/-- A head with any number of fields, also with more of them than a reader takes. -/
inductive LongHeadText : Head -> List UInt8 -> Prop where
  | head {line : RequestLine} {fields : List Field} {x eol y last : List UInt8} :
      LineText line x -> LineEnd eol -> FieldsText fields y -> LineEnd last ->
      LongHeadText ⟨line, fields⟩ (x ++ eol ++ y ++ last)

theorem longHeadText_of_headText {head : Head} {text : List UInt8} (h : HeadText head text) :
    LongHeadText head text := by
  cases h with
  | head hline heol hfields _ hlast => exact LongHeadText.head hline heol hfields hlast

theorem exists_append_of_fieldsText {front rest : List Field} {x : List UInt8}
    (h : FieldsText (front ++ rest) x) :
    exists y z, x = y ++ z ∧ FieldsText front y ∧ FieldsText rest z := by
  induction front generalizing x with
  | nil =>
      exact ⟨[], x, rfl, FieldsText.nothing, h⟩
  | cons f front ih =>
      cases h with
      | @field _ _ u _ hf hmore =>
          rcases ih hmore with ⟨y, z, rfl, hfront, hrest⟩
          exact ⟨u ++ y, z, by simp, FieldsText.field hf hfront, hrest⟩

theorem fieldsText_append {front rest : List Field} {x y : List UInt8}
    (hfront : FieldsText front x) (hrest : FieldsText rest y) :
    FieldsText (front ++ rest) (x ++ y) := by
  induction hfront with
  | nothing => exact hrest
  | field hf _ ih =>
      rw [List.append_assoc]
      exact FieldsText.field hf ih

/-!
# Bytes that end what they follow
-/

theorem tokenByte_ne {b : UInt8} (hb : isTokenByte b = true) :
    b ≠ cr ∧ b ≠ lf ∧ b ≠ space ∧ b ≠ colon := by
  refine ⟨?_, ?_, ?_, ?_⟩ <;>
  · intro heq
    subst heq
    revert hb
    decide

theorem visible_ne_space {b : UInt8} (hb : Target.isVisible b = true) : b ≠ space := by
  intro heq
  subst heq
  revert hb
  decide

theorem valueByte_ne {b : UInt8} (hb : isValueByte b = true) : b ≠ cr ∧ b ≠ lf := by
  constructor <;>
  · intro heq
    subst heq
    revert hb
    decide

/-!
# Following a text

A text is followed from a place if each of its bytes leads on to another place.
-/

namespace Place

def follow? : Place -> List UInt8 -> Option Place
  | place, [] => some place
  | place, b :: rest =>
      match place.step b with
      | .more next => follow? next rest
      | _ => none

@[simp] theorem follow?_nil (place : Place) : place.follow? [] = some place := rfl

theorem follow?_cons_of_more {place next : Place} {b : UInt8} (h : place.step b = .more next)
    (rest : List UInt8) : place.follow? (b :: rest) = next.follow? rest := by
  rw [follow?, h]

theorem follow?_append {place next : Place} {x : List UInt8} (h : place.follow? x = some next)
    (y : List UInt8) : place.follow? (x ++ y) = next.follow? y := by
  induction x generalizing place with
  | nil =>
      cases h
      rfl
  | cons b rest ih =>
      rw [follow?] at h
      cases hstep : place.step b with
      | more between =>
          simp only [hstep] at h
          rw [List.cons_append, follow?_cons_of_more hstep, ih h]
      | refused why => simp [hstep] at h
      | complete head => simp [hstep] at h

/-!
# Reading what the grammar describes
-/

theorem follow?_collect (place : List UInt8 -> Place) {r x : List UInt8}
    (hstep : forall b r, b ∈ x -> (place r).step b = .more (place (b :: r))) :
    (place r).follow? x = some (place (x.reverse ++ r)) := by
  induction x generalizing r with
  | nil =>
      rfl
  | cons b rest ih =>
      rw [follow?_cons_of_more (hstep b r List.mem_cons_self)]
      rw [ih fun c r hc => hstep c r (List.mem_cons_of_mem b hc)]
      simp

theorem follow?_token {start : Place} (place : List UInt8 -> Place) {x : List UInt8}
    (hx : isToken x = true)
    (hfirst : forall b, isTokenByte b = true -> start.step b = .more (place [b]))
    (hstep : forall b r, isTokenByte b = true -> (place r).step b = .more (place (b :: r))) :
    start.follow? x = some (place x.reverse) := by
  cases x with
  | nil => cases hx
  | cons b rest =>
      have hall : isTokenByte b = true ∧ forall c, c ∈ rest -> isTokenByte c = true := by
        simpa [isToken] using hx
      rw [follow?_cons_of_more (hfirst b hall.left)]
      rw [follow?_collect place fun c r hc => hstep c r (hall.right c hc)]
      simp

theorem follow?_method {x : List UInt8} (hx : isToken x = true) :
    before.follow? x = some (method x.reverse) := by
  apply follow?_token method hx
  · intro b hb
    have hne := tokenByte_ne hb
    simp [step, hb, hne.left, hne.right.left]
  · intro b r hb
    have hne := tokenByte_ne hb
    simp [step, hb, hne.right.right.left]

theorem follow?_target {m x : List UInt8} (hx : TargetText x) :
    (method m.reverse).follow? (space :: x ++ [space]) = some (version m x versionStem) := by
  have hbegin : (method m.reverse).step space = .more (target m []) := by
    simp [step]
  have hread : (target m []).follow? x = some (target m x.reverse) := by
    have hcollect := follow?_collect (target m) (r := []) (x := x) fun b r hb => by
      simp [step, isTargetByte, hx.visible b hb, visible_ne_space (hx.visible b hb)]
    rw [hcollect, List.append_nil]
  have hend : (target m x.reverse).step space = .more (version m x versionStem) := by
    simp [step, hx.nonempty, hx.wellFormed]
  rw [List.cons_append, follow?_cons_of_more hbegin, follow?_append hread,
    follow?_cons_of_more hend, follow?_nil]

theorem follow?_versionStem (m t due : List UInt8) :
    (version m t due).follow? due = some (version m t []) := by
  induction due with
  | nil =>
      rfl
  | cons d rest ih =>
      have hstep : (version m t (d :: rest)).step d = .more (version m t rest) := by
        simp [step]
      rw [follow?_cons_of_more hstep, ih]

theorem follow?_digit (m t : List UInt8) (v : Version) :
    (version m t []).follow? [v.digit] = some (lineEnd ⟨m, t, v⟩) := by
  cases v <;> rfl

theorem follow?_line {line : RequestLine} {x : List UInt8} (h : LineText line x) :
    before.follow? x = some (lineEnd line) := by
  cases h with
  | @line method target version hmethod htarget =>
      have hassoc : method ++ space :: target ++ space :: versionStem ++ [version.digit] =
          method ++ ((space :: target ++ [space]) ++ (versionStem ++ [version.digit])) := by
        simp
      rw [hassoc, follow?_append (follow?_method hmethod), follow?_append (follow?_target htarget),
        follow?_append (follow?_versionStem method target versionStem), follow?_digit]

theorem follow?_lineEnd (line : RequestLine) {eol : List UInt8} (h : LineEnd eol) :
    (lineEnd line).follow? eol = some (fieldStart line []) := by
  cases h <;> rfl

theorem follow?_name {line : RequestLine} {fields : List Field} {x : List UInt8}
    (hfields : fields.length < greatestFieldCount) (hx : isToken x = true) :
    (fieldStart line fields).follow? (x ++ [colon]) = some (beforeValue line fields x) := by
  have hread : (fieldStart line fields).follow? x = some (name line fields x.reverse) := by
    apply follow?_token (name line fields) hx
    · intro b hb
      have hne := tokenByte_ne hb
      simp [step, hb, hne.left, hne.right.left, hfields]
    · intro b r hb
      have hne := tokenByte_ne hb
      simp [step, hb, hne.right.right.right]
  have hend : (name line fields x.reverse).step colon = .more (beforeValue line fields x) := by
    simp [step]
  rw [follow?_append hread, follow?_cons_of_more hend, follow?_nil]

theorem follow?_valueEnd (line : RequestLine) (fields : List Field) (n r : List UInt8)
    {eol : List UInt8} (h : LineEnd eol) :
    (value line fields n r).follow? eol = some (fieldStart line (addField fields n r)) := by
  cases h <;> rfl

theorem follow?_value (line : RequestLine) (fields : List Field) (n : List UInt8)
    {x eol : List UInt8} (hx : isValue x = true) (heol : LineEnd eol) :
    (beforeValue line fields n).follow? (x ++ eol) =
      some (fieldStart line (⟨n, trimBlanks x⟩ :: fields)) := by
  induction x with
  | nil =>
      cases heol <;> rfl
  | cons b rest ih =>
      have hall : isValueByte b = true ∧ forall c, c ∈ rest -> isValueByte c = true := by
        simpa [isValue] using hx
      rw [List.cons_append]
      by_cases hblank : isBlank b = true
      · have hstep : (beforeValue line fields n).step b = .more (beforeValue line fields n) := by
          simp [step, hblank]
        have htrim : trimBlanks (b :: rest) = trimBlanks rest := by
          simp [trimBlanks, hblank]
        rw [follow?_cons_of_more hstep, htrim]
        exact ih (List.all_eq_true.mpr hall.right)
      · have hne := valueByte_ne hall.left
        have hstep : (beforeValue line fields n).step b = .more (value line fields n [b]) := by
          simp [step, hblank, hne.left, hne.right, hall.left]
        have hread : (value line fields n [b]).follow? rest =
            some (value line fields n (rest.reverse ++ [b])) := by
          apply follow?_collect
          intro c r hc
          have hne := valueByte_ne (hall.right c hc)
          simp [step, hne.left, hne.right, hall.right c hc]
        rw [follow?_cons_of_more hstep, follow?_append hread, follow?_valueEnd _ _ _ _ heol]
        simp [addField, trimBlanks, hblank]

theorem follow?_fields {line : RequestLine} {fields before : List Field} {x : List UInt8}
    (h : FieldsText fields x) (hcount : before.length + fields.length ≤ greatestFieldCount) :
    (fieldStart line before).follow? x = some (fieldStart line (fields.reverse ++ before)) := by
  induction h generalizing before with
  | nothing =>
      rfl
  | @field f fields x rest hf hrest ih =>
      rw [List.length_cons] at hcount
      cases hf with
      | @field name value eol hname hvalue heol =>
          have hassoc : name ++ colon :: value ++ eol ++ rest =
              (name ++ [colon]) ++ ((value ++ eol) ++ rest) := by
            simp
          rw [hassoc, follow?_append (follow?_name (by omega) hname),
            follow?_append (follow?_value line before name hvalue heol),
            ih (by simp; omega)]
          simp

theorem follow?_head {head : Head} {text : List UInt8} (h : HeadText head text) :
    exists init place, text = init ++ [lf] ∧ before.follow? init = some place ∧
      place.step lf = .complete head := by
  cases h with
  | @head line fields x eol y last hline heol hfields hcount hlast =>
      have hread : before.follow? (x ++ eol ++ y) = some (fieldStart line fields.reverse) := by
        have hopening : before.follow? (x ++ eol) = some (fieldStart line []) := by
          rw [follow?_append (follow?_line hline), follow?_lineEnd line heol]
        rw [follow?_append hopening, follow?_fields hfields (by simpa using hcount),
          List.append_nil]
      cases hlast with
      | lf =>
          refine ⟨x ++ eol ++ y, fieldStart line fields.reverse, rfl, hread, ?_⟩
          simp [step, cr, lf]
      | crlf =>
          refine ⟨x ++ eol ++ y ++ [cr], lastCr line fields.reverse, by simp, ?_, ?_⟩
          · rw [follow?_append hread]
            rfl
          · simp [step]

theorem follow?_long {head : Head} {text : List UInt8} (h : LongHeadText head text) :
    HeadText head text ∨
      exists init b rest fields, text = init ++ b :: rest ∧
        before.follow? init = some (fieldStart head.line fields) ∧
        (fieldStart head.line fields).step b = .refused .fieldsTooLarge := by
  cases h with
  | @head line fields x eol y last hline heol hfields hlast =>
      by_cases hcount : fields.length ≤ greatestFieldCount
      · exact Or.inl (HeadText.head hline heol hfields hcount hlast)
      right
      have hfront : (fields.take greatestFieldCount).length = greatestFieldCount :=
        List.length_take_of_le (by omega)
      have hrest : fields.drop greatestFieldCount ≠ [] := by
        intro hnil
        exact hcount (List.drop_eq_nil_iff.mp hnil)
      rw [← List.take_append_drop greatestFieldCount fields] at hfields
      rcases exists_append_of_fieldsText hfields with ⟨u, v, rfl, hu, hv⟩
      generalize fields.drop greatestFieldCount = late at hrest hv
      cases hv with
      | nothing => exact absurd rfl hrest
      | @field f fs w z hf hmore =>
          cases hf with
          | @field name value eol' hname _ _ =>
              cases name with
              | nil => cases hname
              | cons b name =>
                  have hread : before.follow? (x ++ eol ++ u) =
                      some (fieldStart line (fields.take greatestFieldCount).reverse) := by
                    have hopening : before.follow? (x ++ eol) = some (fieldStart line []) := by
                      rw [follow?_append (follow?_line hline), follow?_lineEnd line heol]
                    rw [follow?_append hopening, follow?_fields hu (by simp [hfront]),
                      List.append_nil]
                  have htoken : isTokenByte b = true := by
                    have hall := (Bool.and_eq_true_iff.mp hname).right
                    exact List.all_eq_true.mp hall b List.mem_cons_self
                  have hne := tokenByte_ne htoken
                  refine ⟨x ++ eol ++ u, b, name ++ colon :: value ++ eol' ++ z ++ last,
                    (fields.take greatestFieldCount).reverse, by simp, hread, ?_⟩
                  simp [step, htoken, hne.left, hne.right.left, List.length_reverse, hfront]

end Place
end Http
end ConstantReply
