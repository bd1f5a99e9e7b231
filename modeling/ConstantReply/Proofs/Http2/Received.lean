import Mathlib.Data.List.Forall2
import ConstantReply.Proofs.Hpack.Writing
import ConstantReply.Proofs.Http2.Agreement
import ConstantReply.Session.Transcript

/-!
# What a client receives in frames

The bytes of the frames of the server are frames again, none of which carries content.  The header
blocks among them are complete and end their streams, and a client that keeps its table by them reads
the fields that were meant.
-/

namespace ConstantReply

def Outgoing.writeDated (w : Http2.Writer) : List (String × Outgoing) -> List UInt8 × Http2.Writer
  | [] => ([], w)
  | (date, o) :: rest =>
      let (bytes, w) := o.write w date
      let (more, w) := writeDated w rest
      (bytes ++ more, w)

theorem Outgoing.writeDated_map (w : Http2.Writer) (date : String) (sent : List Outgoing) :
    writeDated w (sent.map fun o => (date, o)) = writeAll w date sent := by
  induction sent generalizing w with
  | nil => rfl
  | cons o rest ih =>
      simp only [List.map_cons, writeDated, writeAll, ih]

namespace Http2

open Hpack (BlockText Field Table listSize)

structure Response where
  stream : Nat
  fields : List Field
  deriving DecidableEq

/-- The responses in frames, given the table before them: header blocks that are complete and end
their streams, among frames that have to do with the connection. -/
inductive Responses (greatestRoom : Nat) : Table -> List RawFrame -> List Response -> Prop where
  | nothing {table : Table} : Responses greatestRoom table [] []
  | other {table : Table} {f : RawFrame} {rest : List RawFrame} {responses : List Response} :
      f.1.kind ∈ [3, 4, 6, 7, 8] -> Responses greatestRoom table rest responses ->
      Responses greatestRoom table (f :: rest) responses
  | response {table after : Table} {f : RawFrame} {fields : List Field} {rest : List RawFrame}
      {responses : List Response} :
      f.1.kind = 1 -> f.1.flags = Flag.endHeaders ||| Flag.endStream ->
      BlockText Hpack.wideIntegerSize greatestRoom true table f.2 fields after ->
      Responses greatestRoom after rest responses ->
      Responses greatestRoom table (f :: rest) (⟨f.1.stream, fields⟩ :: responses)

def responseFields (date : String) : List Field :=
  [Field.ofStrings ":status" "200", Field.ofStrings "content-length" "0",
    Field.ofStrings "date" date]

def dateLength : Nat := 29

theorem answerFields_ok (date : String) : answerFields date okAnswer = responseFields date := by
  have hstatus : toString 200 = "200" := by
    decide +kernel
  simp [answerFields, okAnswer, responseFields, hstatus]

/-- A writer whose numbers are small. -/
structure Writer.Sound (greatestRoom : Nat) (w : Writer) : Prop where
  table : w.table.Sound
  rooms : forall room, room ∈ w.rooms -> room ≤ greatestRoom ∧ room < 4294967296

namespace Writer

variable {greatestRoom : Nat} {w : Writer}

theorem foldl_min_le (rooms : List Nat) (n : Nat) : rooms.foldl min n ≤ n := by
  induction rooms generalizing n with
  | nil => exact Nat.le_refl n
  | cons room rest ih => exact Nat.le_trans (ih (min n room)) (Nat.min_le_left n room)

theorem bounds_of_mem_roomsToTell (hw : w.Sound greatestRoom) {room : Nat}
    (h : room ∈ w.roomsToTell) : room ≤ greatestRoom ∧ room < 4294967296 := by
  rw [roomsToTell] at h
  cases hlast : w.rooms.getLast? with
  | none => simp [hlast] at h
  | some last =>
      have hbounds := hw.rooms last (List.mem_of_getLast? hlast)
      have hleast := foldl_min_le w.rooms last
      have hle : room ≤ last := by
        simp only [hlast] at h
        split at h
        · simp only [List.mem_cons, List.not_mem_nil, or_false] at h
          omega
        · split at h
          · cases h
          · exact Nat.le_of_eq (List.mem_singleton.mp h)
      omega

theorem length_roomsToTell_le (w : Writer) : w.roomsToTell.length ≤ 2 := by
  rw [roomsToTell]
  cases w.rooms.getLast? with
  | none => simp
  | some last =>
      simp only
      split
      · simp
      · split <;> simp

theorem sound_foldl_resize {table : Table} (ht : table.Sound) {rooms : List Nat}
    (h : forall room, room ∈ rooms -> room < 4294967296) : (rooms.foldl Table.resize table).Sound := by
  induction rooms generalizing table with
  | nil => exact ht
  | cons room rest ih =>
      exact ih (Table.sound_resize table (h room List.mem_cons_self))
        fun r hr => h r (List.mem_cons_of_mem room hr)

theorem length_flatMap_resize_le {rooms : List Nat} (h : forall room, room ∈ rooms -> room < 4294967296) :
    (rooms.flatMap fun room => (Hpack.Instruction.resize room).bytes).length ≤
      Hpack.wideIntegerSize * rooms.length := by
  induction rooms with
  | nil => exact Nat.le_refl 0
  | cons room rest ih =>
      have hroom : (Hpack.Instruction.resize room).bytes.length ≤ Hpack.wideIntegerSize :=
        Hpack.Integer.length_encode_le 5 32 (h room List.mem_cons_self)
      have hrest := ih fun r hr => h r (List.mem_cons_of_mem room hr)
      rw [List.flatMap_cons, List.length_append, List.length_cons, Nat.mul_succ]
      omega

theorem size_date (date : String) :
    (Field.ofStrings "date" date).size = 36 + (Ascii.bytes date).length := by
  have hname : (Ascii.bytes "date").length = 4 := by
    decide +kernel
  simp only [Field.size, Field.ofStrings, hname]
  omega

theorem size_status : (Field.ofStrings ":status" "200").size = 42 := by
  decide +kernel

theorem size_length : (Field.ofStrings "content-length" "0").size = 47 := by
  decide +kernel

theorem isShort_of_mem_responseFields {date : String}
    (hdate : (Ascii.bytes date).length ≤ dateLength) {f : Field} (hf : f ∈ responseFields date) :
    f.IsShort := by
  simp only [responseFields, List.mem_cons, List.not_mem_nil, or_false] at hf
  rw [dateLength] at hdate
  rw [Field.IsShort]
  rcases hf with rfl | rfl | rfl
  · rw [size_status]
    decide
  · rw [size_length]
    decide
  · rw [size_date]
    omega

theorem listSize_responseFields (date : String) :
    listSize (responseFields date) = 125 + (Ascii.bytes date).length := by
  simp only [responseFields, listSize, size_status, size_length, size_date]
  omega

theorem block_responseFields (hw : w.Sound greatestRoom) {date : String}
    (hdate : (Ascii.bytes date).length ≤ dateLength) :
    BlockText Hpack.wideIntegerSize greatestRoom true w.table (w.block (responseFields date)).1
        (responseFields date) (w.block (responseFields date)).2.table ∧
      (w.block (responseFields date)).1.length ≤ greatestPayload ∧
      (w.block (responseFields date)).2.Sound greatestRoom := by
  have hsmall : forall room, room ∈ w.roomsToTell -> room < 4294967296 :=
    fun room hroom => (bounds_of_mem_roomsToTell hw hroom).right
  have htable := sound_foldl_resize hw.table hsmall
  rcases Hpack.blockText_encode htable (fun f hf => isShort_of_mem_responseFields hdate hf) greatestRoom
      true with
    ⟨htext, hlength, hafter⟩
  refine ⟨Hpack.blockText_resize (fun room hroom => bounds_of_mem_roomsToTell hw hroom) htext, ?_,
    ⟨hafter, fun _ hroom => absurd hroom List.not_mem_nil⟩⟩
  have hrooms := length_flatMap_resize_le hsmall
  have htwo := length_roomsToTell_le w
  have hsum := listSize_responseFields date
  rw [dateLength] at hdate
  have hsix : Hpack.wideIntegerSize * w.roomsToTell.length ≤ Hpack.wideIntegerSize * 2 :=
    Nat.mul_le_mul_left _ htwo
  simp only [block, List.length_append]
  simp only [Hpack.wideIntegerSize, greatestPayload] at hrooms hsix ⊢
  omega

end Writer

/-!
## Frames
-/

structure Writes (greatestRoom : Nat) (w : Writer) (date : String) (f : ServerFrame) (raw : RawFrame)
    : Prop where
  bytes : (w.write date f).1 = raw.bytes
  fits : raw.Fits
  sound : (w.write date f).2.Sound greatestRoom
  read : forall {rest responses},
    Responses greatestRoom (w.write date f).2.table rest responses ->
    Responses greatestRoom w.table (raw :: rest)
      ((f.answered?.toList.map fun stream => ⟨stream, responseFields date⟩) ++ responses)

theorem forall_kind : forall kind, kind ∈ [3, 4, 6, 7, 8] -> kind < 256 := by
  decide

theorem writes_other {greatestRoom : Nat} {w after : Writer} {date : String} {f : ServerFrame}
    {kind : Nat} {flags : UInt8} {stream : Nat} {payload : List UInt8}
    (hwrite : w.write date f = ((RawFrame.of kind flags stream payload).bytes, after))
    (hkind : kind ∈ [3, 4, 6, 7, 8]) (hsize : payload.length ≤ greatestPayload)
    (hstream : stream < halfRange) (hafter : after.Sound greatestRoom)
    (htable : after.table = w.table) (hanswer : f.answered? = none) :
    Writes greatestRoom w date f (.of kind flags stream payload) where
  bytes := by rw [hwrite]
  fits := RawFrame.fits_of flags hsize (forall_kind kind hkind) hstream
  sound := by rwa [hwrite]
  read := by
    intro rest responses hrest
    rw [hwrite, htable] at hrest
    rw [hanswer]
    exact Responses.other hkind hrest

theorem exists_writes {greatestRoom : Nat} {w : Writer} (hw : w.Sound greatestRoom) {date : String}
    (hdate : (Ascii.bytes date).length ≤ dateLength) {rooms : List Nat}
    (hrooms : forall room, room ∈ rooms -> room ≤ greatestRoom ∧ room < 4294967296) {f : ServerFrame}
    (hf : f.IsPlain rooms) : exists raw, Writes greatestRoom w date f raw := by
  have hzero : 0 < halfRange := by
    decide
  cases hf with
  | settings =>
      have hsize : (serverSettings.flatMap Setting.bytes).length ≤ greatestPayload := by
        decide +kernel
      exact ⟨_, writes_other rfl (by decide) hsize hzero hw rfl rfl⟩
  | @settingsAck room hroom =>
      have hafter : Writer.Sound greatestRoom { w with rooms := w.rooms ++ room.toList } := by
        refine ⟨hw.table, ?_⟩
        intro n hn
        rcases List.mem_append.mp hn with hn | hn
        · exact hw.rooms n hn
        · exact hrooms n (hroom n (Option.mem_toList.mp hn))
      exact ⟨_, writes_other rfl (by decide) (by decide) hzero hafter rfl rfl⟩
  | @pingAck payload hlength =>
      have hsize : payload.length ≤ greatestPayload := by
        rw [hlength]
        decide
      exact ⟨_, writes_other rfl (by decide) hsize hzero hw rfl rfl⟩
  | windowUpdate n =>
      have hsize : (bytesOf 4 n).length ≤ greatestPayload := by
        rw [length_bytesOf]
        decide
      exact ⟨_, writes_other rfl (by decide) hsize hzero hw rfl rfl⟩
  | @reset stream hsmall =>
      exact ⟨_, writes_other rfl (by decide) (by decide) hsmall hw rfl rfl⟩
  | @answer stream hsmall =>
      rcases Writer.block_responseFields hw hdate with ⟨htext, hlength, hafter⟩
      have hwrite : w.write date (.answer stream okAnswer true) =
          ((RawFrame.of 1 (Flag.endHeaders ||| Flag.endStream) stream
              (w.block (responseFields date)).1).bytes, (w.block (responseFields date)).2) := by
        rw [← answerFields_ok]
        rfl
      refine ⟨.of 1 (Flag.endHeaders ||| Flag.endStream) stream (w.block (responseFields date)).1, ?_⟩
      exact
        { bytes := by rw [hwrite]
          fits := RawFrame.fits_of _ hlength (by decide) hsmall
          sound := by rwa [hwrite]
          read := by
            intro rest responses hrest
            rw [hwrite] at hrest
            exact Responses.response rfl rfl htext hrest }

structure IsAnswer (dates : List String) (stream : Nat) (r : Response) : Prop where
  stream : r.stream = stream
  fields : exists date, date ∈ dates ∧ r.fields = responseFields date

theorem isAnswer_cons {dates : List String} {stream : Nat} {r : Response}
    (h : IsAnswer dates stream r) (date : String) : IsAnswer (date :: dates) stream r := by
  rcases h.fields with ⟨known, hknown, hfields⟩
  exact ⟨h.stream, known, List.mem_cons_of_mem date hknown, hfields⟩

theorem exists_responses {greatestRoom : Nat} {rooms : List Nat}
    (hrooms : forall room, room ∈ rooms -> room ≤ greatestRoom ∧ room < 4294967296)
    {dated : List (String × ServerFrame)}
    (hdates : forall d, d ∈ dated -> (Ascii.bytes d.1).length ≤ dateLength)
    (hplain : forall d, d ∈ dated -> d.2.IsPlain rooms) {w : Writer} (hw : w.Sound greatestRoom) :
    exists raws responses,
      (Outgoing.writeDated w (dated.map fun d => (d.1, .frame d.2))).1 = raws.flatMap RawFrame.bytes ∧
        (forall raw, raw ∈ raws -> raw.Fits) ∧ Responses greatestRoom w.table raws responses ∧
        List.Forall₂ (IsAnswer (dated.map Prod.fst)) (answers (dated.map Prod.snd)) responses := by
  induction dated generalizing w with
  | nil => exact ⟨[], [], rfl, by simp, .nothing, .nil⟩
  | cons d rest ih =>
      rcases exists_writes hw (hdates d List.mem_cons_self) hrooms (hplain d List.mem_cons_self) with
        ⟨raw, hraw⟩
      rcases ih (fun e he => hdates e (List.mem_cons_of_mem d he))
        (fun e he => hplain e (List.mem_cons_of_mem d he)) hraw.sound with
        ⟨raws, responses, hbytes, hfits, hread, hanswers⟩
      refine ⟨raw :: raws, _, ?_, List.forall_mem_cons.mpr ⟨hraw.fits, hfits⟩, hraw.read hread, ?_⟩
      · have hfirst : Outgoing.write w d.1 (.frame d.2) = w.write d.1 d.2 := rfl
        simp only [List.map_cons, Outgoing.writeDated, hfirst, hbytes, hraw.bytes, List.flatMap_cons]
      · have hlater : List.Forall₂ (IsAnswer (d.1 :: rest.map Prod.fst)) _ responses :=
          hanswers.imp fun _ _ h => isAnswer_cons h d.1
        rw [List.map_cons, List.map_cons, answers, List.filterMap_cons]
        cases hanswer : d.2.answered? with
        | none => exact hlater
        | some stream => exact .cons ⟨rfl, d.1, List.mem_cons_self, rfl⟩ hlater

end Http2
end ConstantReply
