import ConstantReply.Hpack.Block
import ConstantReply.Proofs.Hpack.Huffman
import ConstantReply.Proofs.Hpack.Integer

/-!
# The grammar of header blocks

A block can be written in many ways: with or without the prefix code, with names and fields from the
tables or written out, and with numbers in more bytes than they need.  Every way in which the numbers
are short enough is read, and what the writer writes is one of them.
-/

namespace ConstantReply
namespace Hpack

def listSize : List Field -> Nat
  | [] => 0
  | f :: rest => f.size + listSize rest

theorem listSize_append (front rest : List Field) :
    listSize (front ++ rest) = listSize front + listSize rest := by
  induction front with
  | nil => exact (Nat.zero_add _).symm
  | cons f more ih => rw [List.cons_append, listSize, ih, listSize, Nat.add_assoc]

def Indexing.width : Indexing -> Nat
  | .added => 6
  | .notAdded => 4
  | .neverAdded => 4

def Indexing.other : Indexing -> Nat
  | .added => 64
  | .notAdded => 0
  | .neverAdded => 16

def Indexing.keep (i : Indexing) (table : Table) (f : Field) : Table :=
  if i = .added then table.insert f else table

/-- A text in a block, with numbers of at most `size` bytes. -/
inductive LiteralText (size : Nat) (text : List UInt8) : List UInt8 -> Prop where
  | plain {x : List UInt8} :
      IntegerText 7 0 text.length x -> x.length ≤ size -> LiteralText size text (x ++ text)
  | coded {x : List UInt8} :
      IntegerText 7 128 (Huffman.encode text).length x -> x.length ≤ size ->
      LiteralText size text (x ++ Huffman.encode text)

/-- A name in a block: the one at a place, or one that is written out. -/
inductive NameText (size : Nat) (table : Table) (i : Indexing) : List UInt8 -> List UInt8 -> Prop where
  | place {n : Nat} {f : Field} {x : List UInt8} :
      IntegerText i.width i.other n x -> x.length ≤ size -> table.get? n = some f ->
      NameText size table i f.name x
  | text {name x : List UInt8} :
      LiteralText size name x -> NameText size table i name (UInt8.ofNat i.other :: x)

/-- A block with the fields that it stands for and the table after it.  The room of the table may be
changed before the first field, to `greatestRoom` at most. -/
inductive BlockText (size greatestRoom : Nat) :
    Bool -> Table -> List UInt8 -> List Field -> Table -> Prop where
  | nothing {mayResize : Bool} {table : Table} :
      BlockText size greatestRoom mayResize table [] [] table
  | indexed {mayResize : Bool} {table after : Table} {place : Nat} {x rest : List UInt8} {f : Field}
      {fs : List Field} :
      IntegerText 7 128 place x -> x.length ≤ size -> table.get? place = some f ->
      BlockText size greatestRoom false table rest fs after ->
      BlockText size greatestRoom mayResize table (x ++ rest) (f :: fs) after
  | literal {mayResize : Bool} {table after : Table} (i : Indexing)
      {name value x y rest : List UInt8} {fs : List Field} :
      NameText size table i name x -> LiteralText size value y ->
      BlockText size greatestRoom false (i.keep table ⟨name, value⟩) rest fs after ->
      BlockText size greatestRoom mayResize table (x ++ (y ++ rest)) (⟨name, value⟩ :: fs) after
  | resize {table after : Table} {room : Nat} {x rest : List UInt8} {fs : List Field} :
      IntegerText 5 32 room x -> x.length ≤ size -> room ≤ greatestRoom ->
      BlockText size greatestRoom true (table.resize room) rest fs after ->
      BlockText size greatestRoom true table (x ++ rest) fs after

def plainBlock (fields : List Field) : List UInt8 :=
  fields.flatMap fun f =>
    0 :: ((UInt8.ofNat f.name.length :: f.name) ++ (UInt8.ofNat f.value.length :: f.value))

theorem literalText_plain {size : Nat} (hsize : 0 < size) {text : List UInt8}
    (h : text.length < 127) : LiteralText size text (UInt8.ofNat text.length :: text) := by
  have hshort : IntegerText 7 0 text.length [UInt8.ofNat (0 + text.length)] := IntegerText.short h
  rw [Nat.zero_add] at hshort
  exact LiteralText.plain hshort hsize

theorem blockText_plain {size greatestRoom : Nat} (hsize : 0 < size) {fields fs : List Field}
    (h : forall f, f ∈ fields -> f.name.length < 127 ∧ f.value.length < 127) {table after : Table}
    {rest : List UInt8}
    (hrest : forall {mayResize}, BlockText size greatestRoom mayResize table rest fs after)
    {mayResize : Bool} :
    BlockText size greatestRoom mayResize table (plainBlock fields ++ rest) (fields ++ fs) after := by
  induction fields generalizing mayResize with
  | nil => exact hrest
  | cons f more ih =>
      rcases h f List.mem_cons_self with ⟨hname, hvalue⟩
      have hmore : BlockText size greatestRoom false table (plainBlock more ++ rest) (more ++ fs) after :=
        ih fun g hg => h g (List.mem_cons_of_mem f hg)
      have hliteral : BlockText size greatestRoom mayResize table
          ((0 :: UInt8.ofNat f.name.length :: f.name) ++
            ((UInt8.ofNat f.value.length :: f.value) ++ (plainBlock more ++ rest)))
          (f :: (more ++ fs)) after :=
        BlockText.literal .notAdded (NameText.text (literalText_plain hsize hname))
          (literalText_plain hsize hvalue) hmore
      simpa [plainBlock] using hliteral

theorem blockText_plainBlock {size : Nat} (hsize : 0 < size) (greatestRoom : Nat)
    {fields : List Field} (h : forall f, f ∈ fields -> f.name.length < 127 ∧ f.value.length < 127)
    (mayResize : Bool) (table : Table) :
    BlockText size greatestRoom mayResize table (plainBlock fields) fields table := by
  have htext : BlockText size greatestRoom mayResize table (plainBlock fields ++ [])
      (fields ++ []) table :=
    blockText_plain hsize h .nothing
  rwa [List.append_nil, List.append_nil] at htext

/-!
## Reading
-/

theorem leavesRoom_text : LeavesRoom 7 0 := by
  decide

theorem leavesRoom_coded : LeavesRoom 7 128 := by
  decide

theorem leavesRoom_resize : LeavesRoom 5 32 := by
  decide

theorem leavesRoom_name (i : Indexing) : LeavesRoom i.width i.other := by
  cases i <;> decide

theorem readText_of_literalText {text bytes : List UInt8}
    (h : LiteralText greatestIntegerSize text bytes) (rest : List UInt8) :
    readText (bytes ++ rest) = some (text, rest) := by
  cases h with
  | @plain x hx hshort =>
      rcases head_of_integerText leavesRoom_text hx with ⟨b, more, rfl, _, hlt⟩
      have hread := Integer.decode_of_text leavesRoom_text hx hshort (text ++ rest)
      have hmark : ¬ 128 ≤ b := fun hle => Nat.not_lt.mpr (UInt8.le_iff_toNat_le.mp hle) hlt
      rw [List.append_assoc, readText, hread]
      simp [hmark]
  | @coded x hx hshort =>
      rcases head_of_integerText leavesRoom_coded hx with ⟨b, more, rfl, hle, _⟩
      have hread := Integer.decode_of_text leavesRoom_coded hx hshort (Huffman.encode text ++ rest)
      have hmark : 128 ≤ b := UInt8.le_iff_toNat_le.mpr hle
      rw [List.append_assoc, readText, hread]
      simp [hmark, Huffman.decode_encode]

theorem readLiteral_of_texts {table : Table} {i : Indexing} {name value x y : List UInt8}
    (hx : NameText greatestIntegerSize table i name x)
    (hy : LiteralText greatestIntegerSize value y) (rest : List UInt8) :
    exists source, readLiteral i i.width (x ++ (y ++ rest)) = some (.literal i source value, rest) ∧
      source.name? table = some name := by
  have hvalue := readText_of_literalText hy rest
  cases hx with
  | @place n f x hx hshort hget =>
      have hread := Integer.decode_of_text (leavesRoom_name i) hx hshort (y ++ rest)
      have hn : n ≠ 0 := by
        rintro rfl
        cases hget
      refine ⟨.place n, ?_, by rw [NameSource.name?, hget]; rfl⟩
      rw [readLiteral, hread]
      simp [hn, hvalue]
  | @text name x hname =>
      have hzero : IntegerText i.width i.other 0 [UInt8.ofNat i.other] :=
        IntegerText.short (by cases i <;> decide)
      have hshort : [UInt8.ofNat i.other].length ≤ greatestIntegerSize := by
        simp [greatestIntegerSize]
      have hread := Integer.decode_of_text (leavesRoom_name i) hzero hshort (x ++ (y ++ rest))
      have htext := readText_of_literalText hname (y ++ rest)
      refine ⟨.text name, ?_, rfl⟩
      rw [List.cons_append, readLiteral, ← List.singleton_append, hread]
      simp [htext, hvalue]

theorem head_of_nameText {size : Nat} {table : Table} {i : Indexing} {name x : List UInt8}
    (h : NameText size table i name x) :
    exists b more, x = b :: more ∧ i.other ≤ b.toNat ∧ b.toNat < i.other + Nat.pow 2 i.width := by
  cases h with
  | place hx _ _ => exact head_of_integerText (leavesRoom_name i) hx
  | @text name x _ =>
      exact ⟨_, x, rfl, by cases i <;> decide, by cases i <;> decide⟩

theorem readInstruction_cons (b : UInt8) (rest : List UInt8) :
    readInstruction (b :: rest) =
      if 128 ≤ b.toNat then (Integer.decode 7 (b :: rest)).map fun (n, rest) => (.indexed n, rest)
      else if 64 ≤ b.toNat then readLiteral .added 6 (b :: rest)
      else if 32 ≤ b.toNat then (Integer.decode 5 (b :: rest)).map fun (n, rest) => (.resize n, rest)
      else if 16 ≤ b.toNat then readLiteral .neverAdded 4 (b :: rest)
      else readLiteral .notAdded 4 (b :: rest) := by
  simp only [readInstruction, UInt8.le_iff_toNat_le]
  rfl

theorem readInstruction_of_indexed {place : Nat} {x : List UInt8} (hx : IntegerText 7 128 place x)
    (hshort : x.length ≤ greatestIntegerSize) (rest : List UInt8) :
    readInstruction (x ++ rest) = some (.indexed place, rest) := by
  have hread := Integer.decode_of_text leavesRoom_coded hx hshort rest
  rcases head_of_integerText leavesRoom_coded hx with ⟨b, more, rfl, hle, _⟩
  rw [List.cons_append] at hread ⊢
  rw [readInstruction_cons, if_pos hle, hread]
  rfl

theorem readInstruction_of_resize {room : Nat} {x : List UInt8} (hx : IntegerText 5 32 room x)
    (hshort : x.length ≤ greatestIntegerSize) (rest : List UInt8) :
    readInstruction (x ++ rest) = some (.resize room, rest) := by
  have hread := Integer.decode_of_text leavesRoom_resize hx hshort rest
  rcases head_of_integerText leavesRoom_resize hx with ⟨b, more, rfl, hle, hlt⟩
  have hlt : b.toNat < 64 := hlt
  rw [List.cons_append] at hread ⊢
  rw [readInstruction_cons, if_neg (by omega), if_neg (by omega), if_pos hle, hread]
  rfl

theorem readInstruction_of_literal {table : Table} {i : Indexing} {name value x y : List UInt8}
    (hx : NameText greatestIntegerSize table i name x)
    (hy : LiteralText greatestIntegerSize value y) (rest : List UInt8) :
    exists source, readInstruction (x ++ (y ++ rest)) = some (.literal i source value, rest) ∧
      source.name? table = some name := by
  rcases readLiteral_of_texts hx hy rest with ⟨source, hread, hname⟩
  refine ⟨source, ?_, hname⟩
  rcases head_of_nameText hx with ⟨b, more, rfl, hle, hlt⟩
  rw [List.cons_append] at hread ⊢
  rw [readInstruction_cons]
  cases i with
  | added =>
      have hle : 64 ≤ b.toNat := hle
      have hlt : b.toNat < 128 := hlt
      rw [if_neg (by omega), if_pos hle]
      exact hread
  | notAdded =>
      have hlt : b.toNat < 16 := hlt
      rw [if_neg (by omega), if_neg (by omega), if_neg (by omega), if_neg (by omega)]
      exact hread
  | neverAdded =>
      have hle : 16 ≤ b.toNat := hle
      have hlt : b.toNat < 32 := hlt
      rw [if_neg (by omega), if_neg (by omega), if_neg (by omega), if_pos hle]
      exact hread

theorem nameText_ne_nil {size : Nat} {table : Table} {i : Indexing} {name x : List UInt8}
    (h : NameText size table i name x) : x ≠ [] := by
  rcases head_of_nameText h with ⟨b, more, rfl, _⟩
  exact List.cons_ne_nil b more

theorem readInstructions_of_instruction {x rest : List UInt8} {instruction : Instruction}
    {instructions : List Instruction} {fuel : Nat} (hx : x ≠ [])
    (hfuel : (x ++ rest).length ≤ fuel)
    (hread : readInstruction (x ++ rest) = some (instruction, rest))
    (hrest : forall {fuel}, rest.length ≤ fuel ->
      readInstructions fuel rest = some instructions) :
    readInstructions fuel (x ++ rest) = some (instruction :: instructions) := by
  cases x with
  | nil => exact absurd rfl hx
  | cons b more =>
      cases fuel with
      | zero => exact absurd hfuel (by simp)
      | succ fuel =>
          have hlength : rest.length ≤ fuel := by
            simp only [List.cons_append, List.length_cons, List.length_append] at hfuel
            omega
          simp only [List.cons_append] at hread ⊢
          rw [readInstructions, hread]
          · simp [hrest hlength]
          · simp

theorem exists_instructions {mayResize : Bool} {table after : Table} {block : List UInt8}
    {fields : List Field}
    (h : BlockText greatestIntegerSize usualRoom mayResize table block fields after) :
    exists instructions,
      (forall {fuel}, block.length ≤ fuel -> readInstructions fuel block = some instructions) ∧
        apply usualRoom mayResize table instructions = some (fields, after) := by
  induction h with
  | nothing =>
      refine ⟨[], ?_, rfl⟩
      intro fuel _
      cases fuel <;> rfl
  | @indexed _ _ _ place x rest f fs hx hshort hget _ ih =>
      rcases ih with ⟨instructions, hread, happly⟩
      refine ⟨.indexed place :: instructions, ?_, ?_⟩
      · intro fuel hfuel
        exact readInstructions_of_instruction (integerText_ne_nil hx) hfuel
          (readInstruction_of_indexed hx hshort rest) hread
      · rw [apply, hget]
        simp [happly]
  | @literal _ table _ i name value x y rest fs hname hvalue _ ih =>
      rcases ih with ⟨instructions, hread, happly⟩
      rcases readInstruction_of_literal hname hvalue rest with ⟨source, hinstruction, hsource⟩
      refine ⟨.literal i source value :: instructions, ?_, ?_⟩
      · intro fuel hfuel
        have hne : x ++ y ≠ [] := fun hnil => nameText_ne_nil hname (List.append_eq_nil_iff.mp hnil).left
        rw [← List.append_assoc] at hfuel hinstruction ⊢
        exact readInstructions_of_instruction hne hfuel hinstruction hread
      · rw [Indexing.keep] at happly
        rw [apply, hsource]
        simp [happly]
  | @resize _ _ room x rest fs hx hshort hroom _ ih =>
      rcases ih with ⟨instructions, hread, happly⟩
      refine ⟨.resize room :: instructions, ?_, ?_⟩
      · intro fuel hfuel
        exact readInstructions_of_instruction (integerText_ne_nil hx) hfuel
          (readInstruction_of_resize hx hshort rest) hread
      · rw [apply, if_neg (by simp [Nat.not_lt.mpr hroom]), happly]

theorem decode_of_blockText {table after : Table} {block : List UInt8} {fields : List Field}
    (h : BlockText greatestIntegerSize usualRoom true table block fields after) :
    decode table block = some (fields, after) := by
  rcases exists_instructions h with ⟨instructions, hread, happly⟩
  rw [decode, instructions?, hread (Nat.le_refl _), Option.bind_some, happly]

end Hpack
end ConstantReply
