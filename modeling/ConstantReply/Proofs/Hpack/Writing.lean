import ConstantReply.Proofs.Hpack.BlockText

/-!
# Written blocks

The writer spells the fields that it is given, and leaves the table behind that a reader of the block
will have.  Its numbers take few bytes, as a table has no more fields than it has room for.
-/

namespace ConstantReply
namespace Hpack

/-!
## Sizes
-/

def wideIntegerSize : Nat := 6

namespace Integer

theorem length_continuation_le {n : Nat} (more : Nat) (h : n < Nat.pow 128 (more + 1)) :
    (continuation n).length ≤ more + 1 := by
  induction more generalizing n with
  | zero =>
      rw [continuation, if_pos (by simpa using h)]
      exact Nat.le_refl 1
  | succ more ih =>
      rw [continuation]
      split
      · exact Nat.le_add_left 1 (more + 1)
      · have hless : n / 128 < Nat.pow 128 (more + 1) := by
          rw [Nat.div_lt_iff_lt_mul (by decide)]
          exact h
        rw [List.length_cons]
        exact Nat.succ_le_succ (ih hless)

theorem length_encode_le (width other : Nat) {n : Nat} (h : n < 4294967296) :
    (encode width other n).length ≤ wideIntegerSize := by
  rw [encode]
  split
  · exact Nat.le_add_left 1 5
  · have hless : n - (Nat.pow 2 width - 1) < Nat.pow 128 (4 + 1) :=
      Nat.lt_of_le_of_lt (Nat.sub_le _ _) (Nat.lt_trans h (by decide))
    rw [List.length_cons]
    exact Nat.succ_le_succ (length_continuation_le 4 hless)

end Integer

namespace Huffman

theorem length_word_le {symbol : Nat} (h : symbol < lengths.length) :
    (word symbol).length ≤ greatestLength := by
  rcases exists_hasWord h with ⟨length, number, hword, _⟩
  rw [hword.word, bits, List.length_map, List.length_reverse, List.length_range]
  exact hword.short

theorem length_encodeBits_le (text : List UInt8) :
    (encodeBits text).length ≤ greatestLength * text.length := by
  induction text with
  | nil => exact Nat.le_refl 0
  | cons b more ih =>
      have hknown : b.toNat < lengths.length := Nat.lt_trans b.toNat_lt (by decide +kernel)
      have hword := length_word_le hknown
      rw [encodeBits, List.flatMap_cons, words_getElem?, List.length_append, List.length_cons,
        Nat.mul_succ]
      rw [encodeBits] at ih
      omega

theorem length_packBits_le (bs : List Bool) : 8 * (packBits bs).length ≤ bs.length + 7 := by
  induction bs using packBits.induct with
  | case1 b7 b6 b5 b4 b3 b2 b1 b0 rest ih =>
      simp only [packBits, List.length_cons]
      omega
  | case2 => decide
  | case3 few hmany hnil =>
      have hpos : 0 < few.length := List.length_pos_iff.mpr hnil
      rw [packBits.eq_3 few hmany hnil, List.length_singleton]
      omega

theorem length_encode_le (text : List UInt8) : (encode text).length ≤ 4 * text.length := by
  have hbits := length_encodeBits_le text
  have hbytes := length_packBits_le (encodeBits text)
  rw [greatestLength] at hbits
  rw [encode]
  omega

end Huffman

theorem length_writeText_le {text : List UInt8} (h : text.length < 1073741824) :
    (writeText text).length ≤ wideIntegerSize + 4 * text.length := by
  have hcoded := Huffman.length_encode_le text
  have hlength := Integer.length_encode_le 7 128 (n := (Huffman.encode text).length) (by omega)
  rw [writeText, List.length_append]
  exact Nat.add_le_add hlength hcoded

theorem literalText_writeText {text : List UInt8} (h : text.length < 1073741824) :
    LiteralText wideIntegerSize text (writeText text) := by
  have hcoded := Huffman.length_encode_le text
  exact LiteralText.coded (Integer.text_encode 7 128 _) (Integer.length_encode_le 7 128 (by omega))

/-!
## Tables
-/

namespace Table

/-- A table that has room for its fields, and a room of at most thirty-two bits. -/
structure Sound (t : Table) : Prop where
  fits : 32 * t.fields.length ≤ t.room
  bounded : t.room < 4294967296

theorem length_fitting_le (room : Nat) (fields : List Field) :
    32 * (fitting room fields).length ≤ room := by
  induction fields generalizing room with
  | nil => exact Nat.zero_le room
  | cons f rest ih =>
      rw [fitting]
      split
      · have hrest := ih (room - f.size)
        have hsize : 32 ≤ f.size := Nat.le_add_left 32 _
        rw [List.length_cons]
        omega
      · exact Nat.zero_le room

theorem sound_empty : Sound {} := ⟨by decide, by decide⟩

theorem sound_insert {t : Table} (h : t.Sound) (f : Field) : (t.insert f).Sound :=
  ⟨length_fitting_le t.room (f :: t.fields), h.bounded⟩

theorem sound_resize (t : Table) {room : Nat} (h : room < 4294967296) : (t.resize room).Sound :=
  ⟨length_fitting_le room t.fields, h⟩

theorem get?_of_findIdx? {t : Table} {p : Field -> Bool} {place : Nat}
    (h : ((fixedFields ++ t.fields).findIdx? p).map (· + 1) = some place) :
    exists f, t.get? place = some f ∧ p f = true ∧ place < fixedFields.length + t.fields.length + 1 := by
  rcases Option.map_eq_some_iff.mp h with ⟨i, hi, rfl⟩
  rcases List.findIdx?_eq_some_iff_getElem.mp hi with ⟨hlt, hp, _⟩
  refine ⟨(fixedFields ++ t.fields)[i], ?_, hp, ?_⟩
  · rw [get?, if_neg (Nat.succ_ne_zero i), Nat.add_sub_cancel, List.getElem?_eq_getElem hlt]
  · rw [List.length_append] at hlt
    omega

theorem place_lt {t : Table} (h : t.Sound) {place : Nat}
    (hplace : place < fixedFields.length + t.fields.length + 1) : place < 4294967296 := by
  have hfixed : fixedFields.length = 61 := by
    decide +kernel
  have hfits := h.fits
  have hbounded := h.bounded
  omega

theorem get?_of_placeOf? {t : Table} (ht : t.Sound) {f : Field} {place : Nat}
    (h : t.placeOf? f = some place) : t.get? place = some f ∧ place < 4294967296 := by
  rcases get?_of_findIdx? h with ⟨g, hget, hg, hlt⟩
  rw [← eq_of_beq hg]
  exact ⟨hget, place_lt ht hlt⟩

theorem get?_of_placeOfName? {t : Table} (ht : t.Sound) {name : List UInt8} {place : Nat}
    (h : t.placeOfName? name = some place) :
    exists f, t.get? place = some f ∧ f.name = name ∧ place < 4294967296 := by
  rcases get?_of_findIdx? h with ⟨f, hget, hf, hlt⟩
  exact ⟨f, hget, eq_of_beq hf, place_lt ht hlt⟩

end Table

/-!
## Blocks
-/

def Field.IsShort (f : Field) : Prop := f.size < 1073741824

def sourceOf (table : Table) (name : List UInt8) : NameSource :=
  match table.placeOfName? name with
  | some place => .place place
  | none => .text name

theorem instructionFor_eq (table : Table) (f : Field) :
    instructionFor table f =
      if f.name ∈ changingNames then (.literal .notAdded (sourceOf table f.name) f.value, table)
      else
        match table.placeOf? f with
        | some place => (.indexed place, table)
        | none =>
            if f.size ≤ table.room then
              (.literal .added (sourceOf table f.name) f.value, table.insert f)
            else (.literal .notAdded (sourceOf table f.name) f.value, table) := rfl

theorem nameText_writeName {table : Table} (ht : table.Sound) (i : Indexing) {name : List UInt8}
    (h : name.length < 1073741824) :
    NameText wideIntegerSize table i name (writeName i.width i.other (sourceOf table name)) := by
  rw [sourceOf]
  cases hplace : table.placeOfName? name with
  | none => exact NameText.text (literalText_writeText h)
  | some place =>
      rcases Table.get?_of_placeOfName? ht hplace with ⟨f, hget, rfl, hlt⟩
      exact NameText.place (Integer.text_encode _ _ _) (Integer.length_encode_le _ _ hlt) hget

theorem length_writeName_le {table : Table} (ht : table.Sound) (width other : Nat)
    {name : List UInt8} (h : name.length < 1073741824) :
    (writeName width other (sourceOf table name)).length ≤ wideIntegerSize + 1 + 4 * name.length := by
  rw [sourceOf]
  cases hplace : table.placeOfName? name with
  | none =>
      have htext := length_writeText_le h
      rw [writeName, List.length_cons]
      omega
  | some place =>
      rcases Table.get?_of_placeOfName? ht hplace with ⟨_, _, _, hlt⟩
      have hplace := Integer.length_encode_le width other hlt
      rw [writeName]
      omega

theorem bytes_literal (i : Indexing) (source : NameSource) (value : List UInt8) :
    (Instruction.literal i source value).bytes =
      writeName i.width i.other source ++ writeText value := by
  cases i <;> rfl

structure Writes (table : Table) (f : Field) (x : List UInt8) (after : Table) : Prop where
  text : forall {greatestRoom mayResize rest fs last},
    BlockText wideIntegerSize greatestRoom false after rest fs last ->
    BlockText wideIntegerSize greatestRoom mayResize table (x ++ rest) (f :: fs) last
  length : x.length ≤ 4 * f.size
  sound : after.Sound

theorem writes_literal {table : Table} (ht : table.Sound) (i : Indexing) {f : Field}
    (hf : f.IsShort) :
    Writes table f (Instruction.literal i (sourceOf table f.name) f.value).bytes
      (i.keep table f) := by
  have hsize : f.name.length + f.value.length + 32 < 1073741824 := hf
  have hname : f.name.length < 1073741824 := by omega
  have hvalue : f.value.length < 1073741824 := by omega
  rw [bytes_literal]
  exact
    { text := by
        intro _ _ rest _ _ hrest
        rw [List.append_assoc]
        exact BlockText.literal i (nameText_writeName ht i hname) (literalText_writeText hvalue) hrest
      length := by
        have hx := length_writeName_le ht i.width i.other hname
        have hy := length_writeText_le hvalue
        rw [List.length_append, Field.size]
        simp only [wideIntegerSize] at hx hy
        omega
      sound := by
        rw [Indexing.keep]
        split
        · exact Table.sound_insert ht f
        · exact ht }

theorem writes_instructionFor {table : Table} (ht : table.Sound) {f : Field} (hf : f.IsShort) :
    Writes table f (instructionFor table f).1.bytes (instructionFor table f).2 := by
  rw [instructionFor_eq]
  split
  · exact writes_literal ht .notAdded hf
  · split
    · rename_i place hplace
      rcases Table.get?_of_placeOf? ht hplace with ⟨hget, hlt⟩
      have hlength := Integer.length_encode_le 7 128 hlt
      exact
        { text := BlockText.indexed (Integer.text_encode 7 128 place) hlength hget
          length := Nat.le_trans hlength (by rw [Field.size, wideIntegerSize]; omega)
          sound := ht }
    · split
      · exact writes_literal ht .added hf
      · exact writes_literal ht .notAdded hf

theorem blockText_encode {table : Table} (ht : table.Sound) {fields : List Field}
    (hfields : forall f, f ∈ fields -> f.IsShort) (greatestRoom : Nat) (mayResize : Bool) :
    BlockText wideIntegerSize greatestRoom mayResize table (encode table fields).1 fields
        (encode table fields).2 ∧
      (encode table fields).1.length ≤ 4 * listSize fields ∧
      (encode table fields).2.Sound := by
  induction fields generalizing table mayResize with
  | nil => exact ⟨BlockText.nothing, Nat.le_refl 0, ht⟩
  | cons f rest ih =>
      have hwrites := writes_instructionFor ht (hfields f List.mem_cons_self)
      rcases ih hwrites.sound (fun g hg => hfields g (List.mem_cons_of_mem f hg)) false with
        ⟨htext, hlength, hsound⟩
      refine ⟨hwrites.text htext, ?_, hsound⟩
      have hf := hwrites.length
      simp only [encode, List.length_append, listSize]
      omega

theorem blockText_resize {rooms : List Nat} {greatestRoom : Nat}
    (hrooms : forall room, room ∈ rooms -> room ≤ greatestRoom ∧ room < 4294967296) {table after : Table}
    {block : List UInt8} {fields : List Field}
    (h : BlockText wideIntegerSize greatestRoom true (rooms.foldl Table.resize table) block fields
      after) :
    BlockText wideIntegerSize greatestRoom true table
      (rooms.flatMap (fun room => (Instruction.resize room).bytes) ++ block) fields after := by
  induction rooms generalizing table with
  | nil => exact h
  | cons room rest ih =>
      rcases hrooms room List.mem_cons_self with ⟨hle, hlt⟩
      rw [List.flatMap_cons, List.append_assoc]
      exact BlockText.resize (Integer.text_encode 5 32 room) (Integer.length_encode_le 5 32 hlt) hle
        (ih (fun r hr => hrooms r (List.mem_cons_of_mem room hr)) h)

end Hpack
end ConstantReply
