import ConstantReply.Proofs.Http.HeadText

/-!
# What has been read of a head

Each place stands for the bytes that lead to it.  Whatever bytes come, a reader is at a place that
stands for the last of them, and a head that is complete is one that the grammar describes.
-/

namespace ConstantReply
namespace Http

open Place (versionStem addField)

/-!
# Tokens and field lines that grow
-/

theorem isToken_singleton {b : UInt8} (hb : isTokenByte b = true) : isToken [b] = true := by
  simp [isToken, hb]

theorem isToken_concat {x : List UInt8} {b : UInt8} (hx : isToken x = true)
    (hb : isTokenByte b = true) : isToken (x ++ [b]) = true := by
  have hall : forall c, c ∈ x -> isTokenByte c = true := by
    simpa [isToken] using (Bool.and_eq_true_iff.mp hx).right
  simp [isToken, hb]
  exact hall

theorem isValueByte_of_isBlank {b : UInt8} (hb : isBlank b = true) : isValueByte b = true := by
  have hcases : b = space ∨ b = tab := by
    simpa [isBlank] using hb
  rcases hcases with rfl | rfl <;> decide

theorem isValue_concat {x : List UInt8} {b : UInt8} (hx : isValue x = true)
    (hb : isValueByte b = true) : isValue (x ++ [b]) = true := by
  unfold isValue at hx ⊢
  simp only [List.all_append, List.all_cons, List.all_nil, hx, hb, Bool.and_true]

/-- The lines of a head that has not ended; the last field comes first. -/
inductive Opening : RequestLine -> List Field -> List UInt8 -> Prop where
  | opening {line : RequestLine} {fields : List Field} {x eol y : List UInt8} :
      LineText line x -> LineEnd eol -> FieldsText fields.reverse y ->
      fields.length ≤ greatestFieldCount -> Opening line fields (x ++ eol ++ y)

/-- An opening and a field line that has not ended, of whose value `r` has been read. -/
inductive Unfinished :
    RequestLine -> List Field -> List UInt8 -> List UInt8 -> List UInt8 -> Prop where
  | unfinished {line : RequestLine} {fields : List Field} {name value r x : List UInt8} :
      Opening line fields x -> fields.length < greatestFieldCount -> isToken name = true ->
      isValue value = true -> value.dropWhile isBlank = r.reverse ->
      Unfinished line fields name r (x ++ (name ++ colon :: value))

variable {line : RequestLine} {fields : List Field} {name r x : List UInt8} {b : UInt8}

theorem headText_of_opening (h : Opening line fields x) {last : List UInt8} (hlast : LineEnd last) :
    HeadText ⟨line, fields.reverse⟩ (x ++ last) := by
  cases h with
  | opening hline heol hfields hcount =>
      exact HeadText.head hline heol hfields (by simpa using hcount) hlast

theorem unfinished_blank (h : Unfinished line fields name [] x) (hb : isBlank b = true) :
    Unfinished line fields name [] (x ++ [b]) := by
  cases h with
  | @unfinished value _ x hopening hcount hname hvalue hread =>
      rw [List.append_assoc, List.append_assoc, List.cons_append]
      apply Unfinished.unfinished hopening hcount hname
      · exact isValue_concat hvalue (isValueByte_of_isBlank hb)
      · rw [List.dropWhile_append, hread]
        simp [hb]

theorem unfinished_byte (h : Unfinished line fields name r x) (hb : isValueByte b = true)
    (hkept : r ≠ [] ∨ isBlank b = false) :
    Unfinished line fields name (b :: r) (x ++ [b]) := by
  cases h with
  | @unfinished value _ x hopening hcount hname hvalue hread =>
      rw [List.append_assoc, List.append_assoc, List.cons_append]
      apply Unfinished.unfinished hopening hcount hname
      · exact isValue_concat hvalue hb
      · rw [List.dropWhile_append, hread]
        cases r with
        | nil =>
            have hblank : isBlank b = false := by
              simpa using hkept
            simp [hblank]
        | cons c more =>
            simp

theorem opening_of_unfinished (h : Unfinished line fields name r x) {eol : List UInt8}
    (heol : LineEnd eol) : Opening line (addField fields name r) (x ++ eol) := by
  cases h with
  | @unfinished value _ x hopening hcount hname hvalue hread =>
      cases hopening with
      | @opening y lineEol z hline hlineEol hfields _ =>
          have hfield : FieldText ⟨name, (r.dropWhile isBlank).reverse⟩
              (name ++ colon :: value ++ eol) := by
            have htrim : trimBlanks value = (r.dropWhile isBlank).reverse := by
              rw [trimBlanks, hread, List.reverse_reverse]
            rw [← htrim]
            exact FieldText.field hname hvalue heol
          have hmore := fieldsText_append hfields (FieldsText.field hfield FieldsText.nothing)
          have hassoc : y ++ lineEol ++ z ++ (name ++ colon :: value) ++ eol =
              y ++ lineEol ++ (z ++ (name ++ colon :: value ++ eol ++ [])) := by
            simp
          rw [hassoc]
          apply Opening.opening hline hlineEol
          · simpa [addField] using hmore
          · exact hcount

/-!
# The bytes that a place stands for
-/

/-- The bytes of a head that lead to a place; empty lines before it do not belong to it. -/
inductive Reads : Place -> List UInt8 -> Prop where
  | before : Reads .before []
  | beforeCr : Reads .beforeCr []
  | method {r : List UInt8} : isToken r.reverse = true -> Reads (.method r) r.reverse
  | target {m r : List UInt8} :
      isToken m = true -> (forall b, b ∈ r -> Target.isVisible b = true) ->
      Reads (.target m r) (m ++ space :: r.reverse)
  | version {m t read due : List UInt8} :
      isToken m = true -> TargetText t -> versionStem = read ++ due ->
      Reads (.version m t due) (m ++ space :: t ++ space :: read)
  | lineEnd {line : RequestLine} {x : List UInt8} :
      LineText line x -> Reads (.lineEnd line) x
  | lineCr {line : RequestLine} {x : List UInt8} :
      LineText line x -> Reads (.lineCr line) (x ++ [cr])
  | fieldStart {line : RequestLine} {fields : List Field} {x : List UInt8} :
      Opening line fields x -> Reads (.fieldStart line fields) x
  | name {line : RequestLine} {fields : List Field} {r x : List UInt8} :
      Opening line fields x -> fields.length < greatestFieldCount -> isToken r.reverse = true ->
      Reads (.name line fields r) (x ++ r.reverse)
  | beforeValue {line : RequestLine} {fields : List Field} {name x : List UInt8} :
      Unfinished line fields name [] x -> Reads (.beforeValue line fields name) x
  | value {line : RequestLine} {fields : List Field} {name r x : List UInt8} :
      Unfinished line fields name r x -> r ≠ [] -> Reads (.value line fields name r) x
  | valueCr {line : RequestLine} {fields : List Field} {name r x : List UInt8} :
      Unfinished line fields name r x -> Reads (.valueCr line fields name r) (x ++ [cr])
  | lastCr {line : RequestLine} {fields : List Field} {x : List UInt8} :
      Opening line fields x -> Reads (.lastCr line fields) (x ++ [cr])

theorem reads_lineEnd_of_version {m t : List UInt8} (hread : Reads (.version m t []) x)
    (v : Version) : Reads (.lineEnd ⟨m, t, v⟩) (x ++ [v.digit]) := by
  cases hread with
  | version hm ht hstem =>
      rw [List.append_nil] at hstem
      subst hstem
      exact Reads.lineEnd (LineText.line hm ht)

theorem reads_fieldStart_of_line (h : LineText line x) {eol : List UInt8} (heol : LineEnd eol) :
    Reads (.fieldStart line []) (x ++ eol) := by
  have hopening : Opening line [] (x ++ eol ++ []) :=
    Opening.opening h heol FieldsText.nothing (Nat.zero_le _)
  rw [List.append_nil] at hopening
  exact Reads.fieldStart hopening

/-!
# One more byte

There is one statement for each place inside a head.  The places before the request line only pass
over empty lines.
-/

variable {next : Place}

theorem reads_after_method (htoken : isToken r.reverse = true)
    (hstep : (Place.method r).step b = .more next) : Reads next (r.reverse ++ [b]) := by
  simp only [Place.step] at hstep
  split at hstep
  · cases hstep
    subst b
    exact Reads.target htoken (by simp)
  split at hstep
  · cases hstep
    have hmore : isToken (b :: r).reverse = true := by
      rw [List.reverse_cons]
      exact isToken_concat htoken ‹_›
    rw [← List.reverse_cons]
    exact Reads.method hmore
  · cases hstep

theorem reads_after_target {m : List UInt8} (htoken : isToken m = true)
    (hvisible : forall c, c ∈ r -> Target.isVisible c = true)
    (hstep : (Place.target m r).step b = .more next) :
    Reads next (m ++ space :: r.reverse ++ [b]) := by
  simp only [Place.step] at hstep
  split at hstep
  · split at hstep
    · rename_i hspace hcomplete
      cases hstep
      subst b
      have htext : TargetText r.reverse :=
        { nonempty := by simpa using hcomplete.left
          visible := fun c hc => hvisible c (List.mem_reverse.mp hc)
          wellFormed := hcomplete.right }
      exact Reads.version htoken htext rfl
    · cases hstep
  split at hstep
  · rename_i hbyte
    cases hstep
    have hmore : forall c, c ∈ b :: r -> Target.isVisible c = true := by
      intro c hc
      rcases List.mem_cons.mp hc with rfl | hc
      · exact hbyte
      · exact hvisible c hc
    have hreads := Reads.target htoken hmore
    rwa [List.reverse_cons, ← List.cons_append, ← List.append_assoc] at hreads
  · cases hstep

theorem reads_after_version {m t due : List UInt8} (hreads : Reads (.version m t due) x)
    (hstep : (Place.version m t due).step b = .more next) : Reads next (x ++ [b]) := by
  cases due with
  | nil =>
      simp only [Place.step] at hstep
      split at hstep
      · cases hstep
        subst b
        exact reads_lineEnd_of_version hreads .http10
      split at hstep
      · cases hstep
        subst b
        exact reads_lineEnd_of_version hreads .http11
      · cases hstep
  | cons d due =>
      simp only [Place.step] at hstep
      split at hstep
      · cases hstep
        subst d
        cases hreads with
        | @version _ _ read _ htoken htext hstem =>
            rw [List.append_assoc, List.cons_append]
            exact Reads.version htoken htext (by simpa using hstem)
      · cases hstep

theorem reads_after_lineEnd (hline : LineText line x)
    (hstep : (Place.lineEnd line).step b = .more next) : Reads next (x ++ [b]) := by
  simp only [Place.step] at hstep
  split at hstep
  · cases hstep
    subst b
    exact Reads.lineCr hline
  split at hstep
  · cases hstep
    subst b
    exact reads_fieldStart_of_line hline LineEnd.lf
  · cases hstep

theorem reads_after_lineCr (hline : LineText line x)
    (hstep : (Place.lineCr line).step b = .more next) : Reads next (x ++ [cr] ++ [b]) := by
  simp only [Place.step] at hstep
  split at hstep
  · cases hstep
    subst b
    rw [List.append_assoc]
    exact reads_fieldStart_of_line hline LineEnd.crlf
  · cases hstep

theorem reads_after_fieldStart (hopening : Opening line fields x)
    (hstep : (Place.fieldStart line fields).step b = .more next) : Reads next (x ++ [b]) := by
  simp only [Place.step] at hstep
  split at hstep
  · cases hstep
    subst b
    exact Reads.lastCr hopening
  split at hstep
  · cases hstep
  split at hstep
  · rename_i hbyte
    split at hstep
    · cases hstep
      exact Reads.name hopening ‹_› (isToken_singleton hbyte)
    · cases hstep
  · cases hstep

theorem reads_after_name (hopening : Opening line fields x)
    (hcount : fields.length < greatestFieldCount) (htoken : isToken r.reverse = true)
    (hstep : (Place.name line fields r).step b = .more next) :
    Reads next (x ++ r.reverse ++ [b]) := by
  simp only [Place.step] at hstep
  rw [List.append_assoc]
  split at hstep
  · cases hstep
    subst b
    exact Reads.beforeValue (Unfinished.unfinished hopening hcount htoken rfl rfl)
  split at hstep
  · cases hstep
    have hmore : isToken (b :: r).reverse = true := by
      rw [List.reverse_cons]
      exact isToken_concat htoken ‹_›
    rw [← List.reverse_cons]
    exact Reads.name hopening hcount hmore
  · cases hstep

theorem reads_after_beforeValue (hunfinished : Unfinished line fields name [] x)
    (hstep : (Place.beforeValue line fields name).step b = .more next) :
    Reads next (x ++ [b]) := by
  simp only [Place.step] at hstep
  split at hstep
  · cases hstep
    exact Reads.beforeValue (unfinished_blank hunfinished ‹_›)
  rename_i hblank
  split at hstep
  · cases hstep
    subst b
    exact Reads.valueCr hunfinished
  split at hstep
  · cases hstep
    subst b
    exact Reads.fieldStart (opening_of_unfinished hunfinished LineEnd.lf)
  split at hstep
  · cases hstep
    have hmore := unfinished_byte hunfinished ‹_› (Or.inr (by simpa using hblank))
    exact Reads.value hmore (List.cons_ne_nil b [])
  · cases hstep

theorem reads_after_value (hunfinished : Unfinished line fields name r x) (hne : r ≠ [])
    (hstep : (Place.value line fields name r).step b = .more next) : Reads next (x ++ [b]) := by
  simp only [Place.step] at hstep
  split at hstep
  · cases hstep
    subst b
    exact Reads.valueCr hunfinished
  split at hstep
  · cases hstep
    subst b
    exact Reads.fieldStart (opening_of_unfinished hunfinished LineEnd.lf)
  split at hstep
  · cases hstep
    exact Reads.value (unfinished_byte hunfinished ‹_› (Or.inl hne)) (List.cons_ne_nil b r)
  · cases hstep

theorem reads_after_valueCr (hunfinished : Unfinished line fields name r x)
    (hstep : (Place.valueCr line fields name r).step b = .more next) :
    Reads next (x ++ [cr] ++ [b]) := by
  simp only [Place.step] at hstep
  split at hstep
  · cases hstep
    subst b
    rw [List.append_assoc]
    exact Reads.fieldStart (opening_of_unfinished hunfinished LineEnd.crlf)
  · cases hstep

theorem reads_of_more {place : Place} (h : Reads place x) (hstep : place.step b = .more next) :
    exists gap text, x ++ [b] = gap ++ text ∧ Reads next text := by
  cases h with
  | before =>
      simp only [Place.step] at hstep
      split at hstep
      · cases hstep
        exact ⟨[b], [], rfl, Reads.beforeCr⟩
      split at hstep
      · cases hstep
        exact ⟨[b], [], rfl, Reads.before⟩
      split at hstep
      · cases hstep
        exact ⟨[], [b], rfl, Reads.method (isToken_singleton ‹_›)⟩
      · cases hstep
  | beforeCr =>
      simp only [Place.step] at hstep
      split at hstep
      · cases hstep
        exact ⟨[b], [], rfl, Reads.before⟩
      · cases hstep
  | method htoken =>
      exact ⟨[], _, rfl, reads_after_method htoken hstep⟩
  | target htoken hvisible =>
      exact ⟨[], _, rfl, reads_after_target htoken hvisible hstep⟩
  | version htoken htext hstem =>
      exact ⟨[], _, rfl, reads_after_version (Reads.version htoken htext hstem) hstep⟩
  | lineEnd hline =>
      exact ⟨[], _, rfl, reads_after_lineEnd hline hstep⟩
  | lineCr hline =>
      exact ⟨[], _, rfl, reads_after_lineCr hline hstep⟩
  | fieldStart hopening =>
      exact ⟨[], _, rfl, reads_after_fieldStart hopening hstep⟩
  | name hopening hcount htoken =>
      exact ⟨[], _, rfl, reads_after_name hopening hcount htoken hstep⟩
  | beforeValue hunfinished =>
      exact ⟨[], _, rfl, reads_after_beforeValue hunfinished hstep⟩
  | value hunfinished hne =>
      exact ⟨[], _, rfl, reads_after_value hunfinished hne hstep⟩
  | valueCr hunfinished =>
      exact ⟨[], _, rfl, reads_after_valueCr hunfinished hstep⟩
  | lastCr hopening =>
      simp only [Place.step] at hstep
      split at hstep <;> cases hstep

theorem place_of_complete {place : Place} {head : Head} (hstep : place.step b = .complete head) :
    exists line fields, head = ⟨line, fields.reverse⟩ ∧ b = lf ∧
      (place = .fieldStart line fields ∨ place = .lastCr line fields) := by
  cases place with
  | fieldStart line fields =>
      simp only [Place.step] at hstep
      split at hstep
      · cases hstep
      split at hstep
      · cases hstep
        exact ⟨line, fields, rfl, ‹_›, Or.inl rfl⟩
      · repeat' split at hstep
        all_goals cases hstep
  | lastCr line fields =>
      simp only [Place.step] at hstep
      split at hstep
      · cases hstep
        exact ⟨line, fields, rfl, ‹_›, Or.inr rfl⟩
      · cases hstep
  | version m t due =>
      cases due <;>
      · simp only [Place.step] at hstep
        repeat' split at hstep
        all_goals cases hstep
  | _ =>
      simp only [Place.step] at hstep
      repeat' split at hstep
      all_goals cases hstep

theorem headText_of_complete {place : Place} {head : Head} (h : Reads place x)
    (hstep : place.step b = .complete head) : HeadText head (x ++ [b]) := by
  rcases place_of_complete hstep with ⟨line, fields, rfl, rfl, rfl | rfl⟩
  · cases h with
    | fieldStart hopening =>
        exact headText_of_opening hopening LineEnd.lf
  · cases h with
    | lastCr hopening =>
        rw [List.append_assoc]
        exact headText_of_opening hopening LineEnd.crlf

end Http
end ConstantReply
