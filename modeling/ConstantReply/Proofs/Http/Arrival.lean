import ConstantReply.Http.Connection

/-!
# Bytes that arrive

Inputs of a connection carry bytes.  When nothing but bytes and pauses happens, the inputs deliver
their bytes, and segments deliver the bytes that they were cut from.
-/

namespace ConstantReply
namespace Http

def Input.byte? : Input -> Option UInt8
  | .byte b => some b
  | _ => none

def Input.bytes (inputs : List Input) : List UInt8 := inputs.filterMap Input.byte?

theorem append_bytes_of_not_byte {i : Input} (h : i.byte? = none) (x : List UInt8) :
    x ++ Input.bytes [i] = x := by
  rw [Input.bytes, List.filterMap_cons_none h, List.filterMap_nil, List.append_nil]

/-- Inputs that are these bytes and pauses between them. -/
inductive Delivers : List Input -> List UInt8 -> Prop where
  | nothing : Delivers [] []
  | byte {inputs : List Input} {bytes : List UInt8} (b : UInt8) :
      Delivers inputs bytes -> Delivers (.byte b :: inputs) (b :: bytes)
  | pause {inputs : List Input} {bytes : List UInt8} :
      Delivers inputs bytes -> Delivers (.pause :: inputs) bytes

theorem delivers_append {front rest : List Input} {x y : List UInt8}
    (hfront : Delivers front x) (hrest : Delivers rest y) :
    Delivers (front ++ rest) (x ++ y) := by
  induction hfront with
  | nothing => exact hrest
  | byte b _ ih => exact Delivers.byte b ih
  | pause _ ih => exact Delivers.pause ih

theorem delivers_map_byte (bytes : List UInt8) : Delivers (bytes.map Input.byte) bytes := by
  induction bytes with
  | nil =>
      exact Delivers.nothing
  | cons b rest ih =>
      exact Delivers.byte b ih

theorem delivers_segment (part : List UInt8) : Delivers (Input.segment part) part := by
  have hpart := delivers_append (delivers_map_byte part) (Delivers.pause Delivers.nothing)
  rwa [List.append_nil] at hpart

theorem delivers_segments (parts : List (List UInt8)) :
    Delivers (Input.segments parts) parts.flatten := by
  induction parts with
  | nil =>
      exact Delivers.nothing
  | cons part rest ih =>
      exact delivers_append (delivers_segment part) ih

theorem bytes_of_delivers {inputs : List Input} {bytes : List UInt8}
    (h : Delivers inputs bytes) : Input.bytes inputs = bytes := by
  induction h with
  | nothing => rfl
  | byte b _ ih => exact congrArg (b :: ·) ih
  | pause _ ih => exact ih

theorem exists_append_of_delivers {inputs : List Input} {x y : List UInt8}
    (h : Delivers inputs (x ++ y)) :
    exists front rest, inputs = front ++ rest ∧ Delivers front x ∧ Delivers rest y := by
  induction x generalizing inputs with
  | nil =>
      exact ⟨[], inputs, rfl, Delivers.nothing, h⟩
  | cons b more ih =>
      generalize hbytes : (b :: more) ++ y = bytes at h
      induction h with
      | nothing => cases hbytes
      | byte c hrest _ =>
          cases hbytes
          rcases ih hrest with ⟨front, rest, rfl, hfront, hrest'⟩
          exact ⟨.byte b :: front, rest, rfl, Delivers.byte b hfront, hrest'⟩
      | pause _ ihpause =>
          rcases ihpause hbytes with ⟨front, rest, rfl, hfront, hrest⟩
          exact ⟨.pause :: front, rest, rfl, Delivers.pause hfront, hrest⟩

theorem exists_byte_of_delivers {inputs : List Input} {x y : List UInt8} {b : UInt8}
    (h : Delivers inputs (x ++ b :: y)) :
    exists front rest, inputs = front ++ .byte b :: rest ∧ Delivers front x ∧ Delivers rest y := by
  rcases exists_append_of_delivers h with ⟨front, late, rfl, hfront, hlate⟩
  generalize hbytes : b :: y = bytes at hlate
  clear h
  induction hlate generalizing front with
  | nothing => cases hbytes
  | @byte rest bytes c hrest _ =>
      cases hbytes
      exact ⟨front, rest, rfl, hfront, hrest⟩
  | pause _ ih =>
      have hmore : Delivers (front ++ [.pause]) (x ++ []) :=
        delivers_append hfront (Delivers.pause Delivers.nothing)
      rw [List.append_nil] at hmore
      rw [List.append_cons]
      exact ih (front ++ [.pause]) hmore hbytes

def Input.Arrives : Input -> Prop
  | .byte _ => True
  | .pause => True
  | _ => False

theorem delivers_bytes {inputs : List Input} (h : forall i, i ∈ inputs -> i.Arrives) :
    Delivers inputs (Input.bytes inputs) := by
  induction inputs with
  | nil =>
      exact Delivers.nothing
  | cons i rest ih =>
      have hrest := ih fun j hj => h j (List.mem_cons_of_mem i hj)
      cases i with
      | byte b => exact Delivers.byte b hrest
      | pause => exact Delivers.pause hrest
      | finish => exact absurd (h _ List.mem_cons_self) id
      | headTimeout => exact absurd (h _ List.mem_cons_self) id
      | shutdown => exact absurd (h _ List.mem_cons_self) id

theorem arrives_of_delivers {inputs : List Input} {bytes : List UInt8}
    (h : Delivers inputs bytes) : forall i, i ∈ inputs -> i.Arrives := by
  induction h with
  | nothing =>
      intro i hi
      cases hi
  | byte b _ ih =>
      intro i hi
      rcases List.mem_cons.mp hi with rfl | hi
      · exact True.intro
      · exact ih i hi
  | pause _ ih =>
      intro i hi
      rcases List.mem_cons.mp hi with rfl | hi
      · exact True.intro
      · exact ih i hi

/-!
# Streams

A client sends its bytes until it ends its side; what would come after that is not part of its
stream.
-/

namespace Input

def stream (inputs : List Input) : List UInt8 :=
  bytes (inputs.takeWhile fun i => i ≠ .finish)

theorem stream_byte (b : UInt8) (rest : List Input) :
    stream (.byte b :: rest) = b :: stream rest := rfl

theorem stream_idle {i : Input} (hbyte : i.byte? = none) (hfinish : i ≠ .finish)
    (rest : List Input) : stream (i :: rest) = stream rest := by
  unfold stream
  rw [List.takeWhile_cons_of_pos (by simpa using hfinish), bytes,
    List.filterMap_cons_none hbyte, bytes]

theorem bytes_append (front rest : List Input) :
    bytes (front ++ rest) = bytes front ++ bytes rest := List.filterMap_append

theorem bytes_map_byte (x : List UInt8) : bytes (x.map .byte) = x :=
  bytes_of_delivers (delivers_map_byte x)

theorem stream_append {front : List Input} (h : Input.finish ∉ front) (rest : List Input) :
    stream (front ++ rest) = bytes front ++ stream rest := by
  unfold stream
  rw [List.takeWhile_append_of_pos, bytes_append]
  intro i hi
  simp only [ne_eq, decide_not, Bool.not_eq_true', decide_eq_false_iff_not]
  intro heq
  exact h (heq ▸ hi)

theorem stream_of_open {inputs : List Input} (h : Input.finish ∉ inputs) :
    stream inputs = bytes inputs := by
  have happend := stream_append h []
  rw [List.append_nil] at happend
  rw [happend]
  exact List.append_nil _

end Input

/-- What is read from the first byte on, once it is known how: the bytes that came up to some moment
without their pauses, and from then on everything as it happens. -/
inductive Replays : List Input -> List Input -> Prop where
  | upTo (front rest : List Input) :
      Input.finish ∉ front -> Replays (front ++ rest) ((Input.bytes front).map .byte ++ rest)

theorem replays_refl (inputs : List Input) : Replays inputs inputs :=
  Replays.upTo [] inputs (by simp)

theorem replays_byte {inputs seen : List Input} (h : Replays inputs seen) (b : UInt8) :
    Replays (.byte b :: inputs) (.byte b :: seen) := by
  cases h with
  | upTo front rest hfront => exact Replays.upTo (.byte b :: front) rest (by simpa)

theorem replays_idle {inputs seen : List Input} (h : Replays inputs seen) {i : Input}
    (hbyte : i.byte? = none) (hfinish : i ≠ .finish) : Replays (i :: inputs) seen := by
  cases h with
  | upTo front rest hfront =>
      have hbytes : Input.bytes (i :: front) = Input.bytes front := by
        rw [Input.bytes, List.filterMap_cons_none hbyte, Input.bytes]
      rw [← hbytes]
      apply Replays.upTo (i :: front) rest
      rw [List.mem_cons, not_or]
      exact ⟨hfinish.symm, hfront⟩

theorem stream_of_replays {inputs seen : List Input} (h : Replays inputs seen) :
    Input.stream seen = Input.stream inputs := by
  cases h with
  | upTo front rest hfront =>
      have hbytes : Input.finish ∉ (Input.bytes front).map Input.byte := by
        simp
      rw [Input.stream_append hbytes, Input.stream_append hfront, Input.bytes_map_byte]

theorem mem_of_replays {inputs seen : List Input} (h : Replays inputs seen) {i : Input}
    (hi : i ∈ seen) : i ∈ inputs := by
  cases h with
  | upTo front rest _ =>
      rcases List.mem_append.mp hi with hbyte | hrest
      · rcases List.mem_map.mp hbyte with ⟨b, hb, rfl⟩
        rcases List.mem_filterMap.mp hb with ⟨j, hj, hjb⟩
        cases j <;> cases hjb
        exact List.mem_append_left rest hj
      · exact List.mem_append_right front hrest

end Http
end ConstantReply
