import ConstantReply.Http.Connection
import ConstantReply.Proofs.Http.Framing
import ConstantReply.Proofs.Http.HeadText

/-!
# Requests as clients write them

A request that is written carefully: lines end in a carriage return and a line feed, the target is a
path of unreserved characters, and the values of fields are printable.  Its bytes are the text of a
head that is not refused.
-/

namespace ConstantReply
namespace Http

structure WrittenField where
  name : List UInt8
  value : List UInt8
  deriving DecidableEq

structure WrittenRequest where
  method : List UInt8
  target : List UInt8
  version : Version
  fields : List WrittenField
  deriving DecidableEq

def crlf : List UInt8 := [cr, lf]

namespace WrittenField

def bytes (f : WrittenField) : List UInt8 := f.name ++ colon :: f.value ++ crlf

def field (f : WrittenField) : Field := ⟨f.name, trimBlanks f.value⟩

end WrittenField

namespace WrittenRequest

def bytes (r : WrittenRequest) : List UInt8 :=
  r.method ++ space :: r.target ++ space :: Ascii.bytes r.version.name ++ crlf ++
    r.fields.flatMap WrittenField.bytes ++ crlf

def head (r : WrittenRequest) : Head :=
  ⟨⟨r.method, r.target, r.version⟩, r.fields.map WrittenField.field⟩

end WrittenRequest

/-!
# Classes of bytes
-/

def isPlainByte (b : UInt8) : Bool :=
  Ascii.isAlphanumericByte b || [0x2D, 0x2E, 0x5F, 0x7E, 0x2F].contains b

def isPrintableByte (b : UInt8) : Bool := (0x20 ≤ b && b ≤ 0x7E) || b == tab

theorem forall_byte {p : UInt8 -> Prop} (h : forall n : Fin 256, p (UInt8.ofFin n)) (b : UInt8) :
    p b :=
  h b.toFin

theorem isPathByte_of_isPlainByte :
    forall b : UInt8, isPlainByte b = true ->
      Target.isPathByte b = true ∧ b ≠ Target.hash ∧ b ≠ Target.questionMark ∧ b < 0x80 :=
  forall_byte (by decide +kernel)

theorem isAscii_of_isPrintableByte :
    forall b : UInt8, isPrintableByte b = true -> decide (b < 0x80) = true :=
  forall_byte (by decide +kernel)

theorem isValueByte_of_isPrintableByte :
    forall b : UInt8, isPrintableByte b = true -> isValueByte b = true :=
  forall_byte (by decide +kernel)

/-!
# Text in ASCII
-/

theorem scan_ascii {x : List UInt8} (h : forall b, b ∈ x -> b < 0x80) :
    Utf8.scan x = x.map fun b => .scalar (Char.ofNat b.toNat) := by
  induction x with
  | nil =>
      rfl
  | cons b rest ih =>
      unfold Utf8.scan
      rw [if_pos (h b List.mem_cons_self), ih fun c hc => h c (List.mem_cons_of_mem b hc)]
      rfl

theorem wellFormed_ascii {x : List UInt8} (h : forall b, b ∈ x -> b < 0x80) :
    Utf8.WellFormed x = true := by
  have hscan : Utf8.scan x =
      Utf8.ofString (String.ofList (x.map fun b => Char.ofNat b.toNat)) := by
    rw [scan_ascii h, Utf8.ofString, String.toList_ofList, List.map_map]
    rfl
  rw [Utf8.WellFormed, hscan, Utf8.decode?_ofString]
  rfl

/-!
# Careful requests
-/

structure PlainTarget (target : List UInt8) : Prop where
  begins : target.head? = some Target.slash
  plain : forall b, b ∈ target -> isPlainByte b = true

instance (target : List UInt8) : Decidable (PlainTarget target) :=
  decidable_of_iff
    (target.head? = some Target.slash ∧ target.all isPlainByte = true)
    ⟨fun h => ⟨h.left, List.all_eq_true.mp h.right⟩,
      fun h => ⟨h.begins, List.all_eq_true.mpr h.plain⟩⟩

theorem targetText_of_plain {target : List UInt8} (h : PlainTarget target) :
    TargetText target where
  nonempty := by
    intro heq
    subst heq
    cases h.begins
  visible := by
    intro b hb
    have hpath := (isPathByte_of_isPlainByte b (h.plain b hb)).left
    simp only [Target.isPathByte, Bool.and_eq_true] at hpath
    exact hpath.left.left.left
  wellFormed := wellFormed_ascii fun b hb =>
    (isPathByte_of_isPlainByte b (h.plain b hb)).right.right.right

theorem path_of_plain {x : List UInt8} (h : forall b, b ∈ x -> isPlainByte b = true) :
    Target.path x = true := by
  induction x with
  | nil =>
      rfl
  | cons b rest ih =>
      have hb := isPathByte_of_isPlainByte b (h b List.mem_cons_self)
      rw [Target.path, if_neg hb.right.left, if_neg hb.right.right.left, hb.left, Bool.true_and]
      exact ih fun c hc => h c (List.mem_cons_of_mem b hc)

theorem isWellFormed_of_plain {target : List UInt8} (h : PlainTarget target) :
    Target.isWellFormed target = true := by
  have hne : target ≠ [Target.asterisk] := by
    intro heq
    subst heq
    exact absurd h.begins (by decide)
  rw [Target.isWellFormed, if_neg hne, if_pos h.begins, Target.pathAndQuery,
    path_of_plain h.plain, Bool.true_and]
  apply wellFormed_ascii
  intro b hb
  exact (isPathByte_of_isPlainByte b
    (h.plain b (List.takeWhile_subset _ hb))).right.right.right

namespace WrittenRequest

structure IsCareful (r : WrittenRequest) : Prop where
  method : isToken r.method = true
  target : PlainTarget r.target
  names : forall f, f ∈ r.fields -> isToken f.name = true
  values : forall f, f ∈ r.fields -> forall b, b ∈ f.value -> isPrintableByte b = true
  count : r.fields.length ≤ 100
  size : r.bytes.length ≤ 65536

def isCarefulField (f : WrittenField) : Bool := isToken f.name && f.value.all isPrintableByte

theorem isCarefulField_iff (f : WrittenField) :
    isCarefulField f = true <->
      isToken f.name = true ∧ forall b, b ∈ f.value -> isPrintableByte b = true := by
  rw [isCarefulField, Bool.and_eq_true, List.all_eq_true]

instance (r : WrittenRequest) : Decidable r.IsCareful :=
  decidable_of_iff
    (isToken r.method = true ∧ PlainTarget r.target ∧ r.fields.all isCarefulField = true ∧
      r.fields.length ≤ 100 ∧ r.bytes.length ≤ 65536) (by
    simp only [List.all_eq_true, isCarefulField_iff]
    constructor
    · intro h
      rcases h with ⟨method, target, fields, count, size⟩
      exact ⟨method, target, fun f hf => (fields f hf).left, fun f hf => (fields f hf).right,
        count, size⟩
    · intro h
      exact ⟨h.method, h.target, fun f hf => ⟨h.names f hf, h.values f hf⟩, h.count, h.size⟩)

variable {r : WrittenRequest}

theorem bytes_name (v : Version) : Ascii.bytes v.name = Place.versionStem ++ [v.digit] := by
  cases v <;> decide +kernel

theorem fieldsText_of_careful {fields : List WrittenField}
    (hnames : forall f, f ∈ fields -> isToken f.name = true)
    (hvalues : forall f, f ∈ fields -> forall b, b ∈ f.value -> isPrintableByte b = true) :
    FieldsText (fields.map WrittenField.field) (fields.flatMap WrittenField.bytes) := by
  induction fields with
  | nil =>
      exact FieldsText.nothing
  | cons f rest ih =>
      rw [List.map_cons, List.flatMap_cons]
      apply FieldsText.field
      · have hvalue : isValue f.value = true :=
          List.all_eq_true.mpr fun b hb =>
            isValueByte_of_isPrintableByte b (hvalues f List.mem_cons_self b hb)
        exact FieldText.field (hnames f List.mem_cons_self) hvalue LineEnd.crlf
      · exact ih (fun g hg => hnames g (List.mem_cons_of_mem f hg))
          (fun g hg => hvalues g (List.mem_cons_of_mem f hg))

theorem headText_of_careful (h : r.IsCareful) : HeadText r.head r.bytes := by
  have hline : LineText ⟨r.method, r.target, r.version⟩
      (r.method ++ space :: r.target ++ space :: Ascii.bytes r.version.name) := by
    rw [bytes_name, ← List.cons_append, ← List.append_assoc]
    exact LineText.line h.method (targetText_of_plain h.target)
  apply HeadText.head hline LineEnd.crlf (fieldsText_of_careful h.names h.values)
  · rw [List.length_map]
    exact h.count
  · exact LineEnd.crlf

theorem length_target_le (r : WrittenRequest) : r.target.length + 2 ≤ r.bytes.length := by
  simp only [bytes, List.length_append, List.length_cons]
  omega

theorem length_name_lt {f : WrittenField} (hf : f ∈ r.fields) :
    f.name.length < r.bytes.length := by
  rcases List.append_of_mem hf with ⟨front, rest, hfields⟩
  simp only [bytes, hfields, List.flatMap_append, List.flatMap_cons, WrittenField.bytes,
    List.length_append, List.length_cons]
  omega

theorem refusal?_of_careful (h : r.IsCareful) : r.head.refusal? = none := by
  have htarget : ¬ Target.greatestLength < r.target.length := by
    have hlength := r.length_target_le
    have hsize := h.size
    unfold Target.greatestLength
    omega
  have hnames : (r.head.fields.any fun f => greatestFieldName < f.name.length) = false := by
    rw [List.any_eq_false]
    intro f hf
    rcases List.mem_map.mp hf with ⟨g, hg, rfl⟩
    have hlength := length_name_lt hg
    have hsize := h.size
    have hle : g.name.length ≤ greatestFieldName := by
      unfold greatestFieldName
      omega
    rw [decide_eq_true_eq, Nat.not_lt]
    exact hle
  rw [Head.refusal?, hnames]
  simp [head, htarget, isWellFormed_of_plain h.target]

/-!
# Lengths of bodies
-/

theorem foldl_digits_lt {x : List UInt8} (h : forall b, b ∈ x -> Ascii.isDigitByte b = true)
    (n : Nat) :
    x.foldl (fun n b => n * 10 + (b.toNat - 0x30)) n <
      (n + 1) * Nat.pow 10 x.length := by
  induction x generalizing n with
  | nil =>
      simp
  | cons b rest ih =>
      have hdigit : b.toNat - 0x30 ≤ 9 := by
        have hb := h b List.mem_cons_self
        simp only [Ascii.isDigitByte, Bool.and_eq_true, decide_eq_true_eq, UInt8.le_iff_toNat_le]
          at hb
        have hlast := hb.right
        simp at hlast
        omega
      have hrest := ih (fun c hc => h c (List.mem_cons_of_mem b hc)) (n * 10 + (b.toNat - 0x30))
      have hpower : Nat.pow 10 (rest.length + 1) = 10 * Nat.pow 10 rest.length :=
        Nat.mul_comm (Nat.pow 10 rest.length) 10
      rw [List.foldl_cons, List.length_cons, hpower, ← Nat.mul_assoc]
      apply Nat.lt_of_lt_of_le hrest
      apply Nat.mul_le_mul_right
      omega

theorem exists_digitsValue? {x : List UInt8} (hne : x ≠ [])
    (hdigits : forall b, b ∈ x -> Ascii.isDigitByte b = true) (hlength : x.length ≤ 18) :
    exists n, digitsValue? x = some n ∧ n < lengthLimit := by
  have hbound := foldl_digits_lt hdigits 0
  have hpower : Nat.pow 10 x.length ≤ Nat.pow 10 18 := Nat.pow_le_pow_right (by decide) hlength
  have hvalue : Nat.pow 10 18 = 1000000000000000000 := by
    decide
  refine ⟨x.foldl (fun n b => n * 10 + (b.toNat - 0x30)) 0, ?_, ?_⟩
  · rw [digitsValue?, if_pos ⟨hne, List.all_eq_true.mpr hdigits⟩]
  · unfold lengthLimit lengthEnd
    omega

structure IsAnswerable (r : WrittenRequest) : Prop extends r.IsCareful where
  uncoded : valuesOf "transfer-encoding" r.head.fields = []
  measured : valuesOf "content-length" r.head.fields = [] ∨
    exists digits, valuesOf "content-length" r.head.fields = [digits] ∧ digits ≠ [] ∧
      (forall b, b ∈ digits -> Ascii.isDigitByte b = true) ∧ digits.length ≤ 18

def bodyLength (r : WrittenRequest) : Nat :=
  ((valuesOf "content-length" r.head.fields).head?.bind digitsValue?).getD 0

theorem exists_agrees (h : r.IsAnswerable) :
    exists l, Agrees l (valuesOf "content-length" r.head.fields) ∧ l.getD 0 = r.bodyLength := by
  unfold bodyLength
  rcases h.measured with hnone | ⟨digits, hone, hne, hdigits, hlength⟩
  · rw [hnone]
    exact ⟨none, Agrees.nothing, rfl⟩
  · rcases exists_digitsValue? hne hdigits hlength with ⟨n, hn, hlimit⟩
    rw [hone]
    refine ⟨some n, Agrees.number (by simp) hlimit ?_, ?_⟩
    · intro v hv
      rw [List.mem_singleton.mp hv, hn]
    · simp [hn]

theorem exists_judge (h : r.IsAnswerable) :
    exists persistent, r.head.judge = .ok ⟨r.head, BodyForm.ofLength r.bodyLength, persistent⟩ := by
  rcases exists_agrees h with ⟨l, hagrees, hlength⟩
  rw [← hlength]
  exact Head.exists_judge (refusal?_of_careful h.toIsCareful) h.uncoded hagrees

end WrittenRequest
end Http
end ConstantReply
