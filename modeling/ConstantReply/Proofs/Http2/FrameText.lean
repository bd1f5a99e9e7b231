import ConstantReply.Http2.Client

/-!
# Frames as bytes

A reader gets the header and the payload of a frame back from its bytes, wherever they are cut, and
stands at the beginning of the next frame then.
-/

namespace ConstantReply
namespace Http2

/-!
## Numbers
-/

theorem number_append (front : List UInt8) (b : UInt8) :
    number (front ++ [b]) = number front * 256 + b.toNat := by
  simp [number]

theorem length_bytesOf (width n : Nat) : (bytesOf width n).length = width := by
  induction width generalizing n with
  | zero => rfl
  | succ width ih => rw [bytesOf, List.length_append, ih, List.length_singleton]

theorem number_bytesOf {width n : Nat} (h : n < Nat.pow 256 width) : number (bytesOf width n) = n := by
  induction width generalizing n with
  | zero =>
      have hzero : n = 0 := Nat.lt_one_iff.mp h
      rw [hzero]
      rfl
  | succ width ih =>
      have hdiv : n / 256 < Nat.pow 256 width := by
        rw [Nat.div_lt_iff_lt_mul (by decide)]
        exact h
      rw [bytesOf, number_append, ih hdiv, UInt8.toNat_ofNat']
      omega

/-!
## Headers
-/

abbrev RawFrame := FrameHeader × List UInt8

namespace RawFrame

def of (kind : Nat) (flags : UInt8) (stream : Nat) (payload : List UInt8) : RawFrame :=
  (⟨payload.length, kind, flags, stream⟩, payload)

def bytes (f : RawFrame) : List UInt8 := f.1.bytes ++ f.2

structure Fits (f : RawFrame) : Prop where
  length : f.1.length = f.2.length
  payload : f.2.length ≤ greatestPayload
  kind : f.1.kind < 256
  stream : f.1.stream < halfRange

theorem fits_of {kind : Nat} (flags : UInt8) {stream : Nat} {payload : List UInt8}
    (hpayload : payload.length ≤ greatestPayload) (hkind : kind < 256)
    (hstream : stream < halfRange) : (of kind flags stream payload).Fits :=
  ⟨rfl, hpayload, hkind, hstream⟩

end RawFrame

namespace FrameHeader

theorem length_bytes (h : FrameHeader) : h.bytes.length = size := by
  simp [bytes, length_bytesOf, size]

theorem ofBytes_append {x k s : List UInt8} (flags : UInt8) (hx : x.length = 3) (hk : k.length = 1) :
    ofBytes (x ++ (k ++ flags :: s)) = ⟨number x, number k, flags, number s % halfRange⟩ := by
  have hfront : (x ++ k).length = 4 := by
    rw [List.length_append, hx, hk]
  have hflags : (x ++ (k ++ flags :: s)).drop 4 = flags :: s := by
    rw [← List.append_assoc, List.drop_left' hfront]
  have hstream : (x ++ (k ++ flags :: s)).drop 5 = s := by
    rw [← List.drop_drop (i := 1) (j := 4), hflags]
    rfl
  rw [ofBytes, List.take_left' hx, List.drop_left' hx, List.take_left' hk, hflags, hstream]
  rfl

theorem ofBytes_bytes {f : RawFrame} (hf : f.Fits) : ofBytes f.1.bytes = f.1 := by
  have hlength : number (bytesOf 3 f.1.length) = f.1.length := by
    apply number_bytesOf
    rw [hf.length]
    exact Nat.lt_of_le_of_lt hf.payload (by decide)
  have hkind : number (bytesOf 1 f.1.kind) = f.1.kind := number_bytesOf (by simpa using hf.kind)
  have hstream : number (bytesOf 4 f.1.stream) = f.1.stream :=
    number_bytesOf (Nat.lt_trans hf.stream (by decide))
  have hbytes : f.1.bytes =
      bytesOf 3 f.1.length ++ (bytesOf 1 f.1.kind ++ f.1.flags :: bytesOf 4 f.1.stream) := by
    simp [bytes]
  rw [hbytes, ofBytes_append f.1.flags (length_bytesOf 3 _) (length_bytesOf 1 _), hlength, hkind,
    hstream, Nat.mod_eq_of_lt hf.stream]

end FrameHeader

/-!
## Reading
-/

/-- A reader that has a frame complete when these bytes have come. -/
inductive Awaits (f : RawFrame) : FrameReader -> List UInt8 -> Prop where
  | last {reader : FrameReader} {b : UInt8} :
      reader.step b = .complete f.1 f.2 -> Awaits f reader [b]
  | more {reader next : FrameReader} {b : UInt8} {due : List UInt8} :
      reader.step b = .more next -> Awaits f next due -> Awaits f reader (b :: due)

theorem awaits_payload (h : FrameHeader) (read : List UInt8) (b : UInt8) (rest : List UInt8) :
    Awaits (h, read.reverse ++ b :: rest) (.payload h (rest.length + 1) read) (b :: rest) := by
  induction rest generalizing b read with
  | nil =>
      apply Awaits.last
      simp [FrameReader.step]
  | cons c more ih =>
      have hstep : (FrameReader.payload h (more.length + 1 + 1) read).step b =
          .more (.payload h (more.length + 1) (b :: read)) := by
        simp [FrameReader.step]
      have hmore := ih (b :: read) c
      rw [List.reverse_cons, List.append_assoc, List.singleton_append] at hmore
      exact Awaits.more hstep hmore

theorem awaits_afterHeader {f : RawFrame} (hf : f.Fits) {reader : FrameReader} {b : UInt8}
    (hstep : reader.step b = FrameReader.afterHeader f.1) : Awaits f reader (b :: f.2) := by
  rcases f with ⟨h, payload⟩
  have hlength : h.length = payload.length := hf.length
  have hsmall : ¬ greatestPayload < h.length := by
    rw [hlength]
    exact Nat.not_lt.mpr hf.payload
  rw [FrameReader.afterHeader, if_neg hsmall] at hstep
  cases payload with
  | nil =>
      have hzero : h.length = 0 := hlength
      simp only [hzero, if_true] at hstep
      exact Awaits.last hstep
  | cons c rest =>
      have hmore : h.length = rest.length + 1 := hlength
      simp only [hmore, Nat.succ_ne_zero, if_false] at hstep
      exact Awaits.more hstep (awaits_payload h [] c rest)

theorem awaits_header {f : RawFrame} (hf : f.Fits) {read : List UInt8} {b : UInt8}
    {rest : List UInt8} (hbytes : read.reverse ++ b :: rest = f.1.bytes) :
    Awaits f (.header read) (b :: (rest ++ f.2)) := by
  have hlength : read.length + (rest.length + 1) = FrameHeader.size := by
    rw [← f.1.length_bytes, ← hbytes, List.length_append, List.length_reverse, List.length_cons]
  induction rest generalizing b read with
  | nil =>
      apply awaits_afterHeader hf
      have hlast : ¬ read.length + 1 < FrameHeader.size := Nat.not_lt.mpr (Nat.le_of_eq hlength.symm)
      rw [FrameReader.step, if_neg hlast, List.reverse_cons, hbytes, FrameHeader.ofBytes_bytes hf]
  | cons c more ih =>
      have hbytes : (b :: read).reverse ++ c :: more = f.1.bytes := by
        rw [← hbytes, List.reverse_cons, List.append_assoc, List.singleton_append]
      have hmore : read.length + 1 < FrameHeader.size := by
        rw [List.length_cons] at hlength
        omega
      have hrest := ih hbytes (by rw [List.length_cons] at hlength ⊢; omega)
      exact Awaits.more (by rw [FrameReader.step, if_pos hmore]) hrest

theorem awaits_bytes {f : RawFrame} (hf : f.Fits) : Awaits f .start f.bytes := by
  have hlength := f.1.length_bytes
  rw [RawFrame.bytes]
  cases hbytes : f.1.bytes with
  | nil =>
      rw [hbytes] at hlength
      cases hlength
  | cons b rest => exact awaits_header hf hbytes.symm

def readByte (s : FrameReader × List RawFrame) (b : UInt8) : FrameReader × List RawFrame :=
  match s.1.step b with
  | .more reader => (reader, s.2)
  | .complete header payload => (.start, s.2 ++ [(header, payload)])
  | .tooLarge => (.start, s.2)

theorem foldl_readByte_of_awaits {f : RawFrame} {reader : FrameReader} {due : List UInt8}
    (h : Awaits f reader due) (frames : List RawFrame) :
    due.foldl readByte (reader, frames) = (.start, frames ++ [f]) := by
  induction h with
  | last hstep => simp [readByte, hstep]
  | more hstep _ ih =>
      rw [List.foldl_cons, ← ih]
      simp [readByte, hstep]

theorem foldl_readByte_bytes {sent : List RawFrame} (h : forall f, f ∈ sent -> f.Fits)
    (frames : List RawFrame) :
    (sent.flatMap RawFrame.bytes).foldl readByte (.start, frames) = (.start, frames ++ sent) := by
  induction sent generalizing frames with
  | nil => simp
  | cons f rest ih =>
      have hrest := ih (fun g hg => h g (List.mem_cons_of_mem f hg)) (frames ++ [f])
      rw [List.flatMap_cons, List.foldl_append,
        foldl_readByte_of_awaits (awaits_bytes (h f List.mem_cons_self)), hrest, List.append_assoc,
        List.singleton_append]

theorem readFrames_bytes {sent : List RawFrame} (h : forall f, f ∈ sent -> f.Fits) :
    FrameClient.readFrames (sent.flatMap RawFrame.bytes) = sent := by
  have hread := foldl_readByte_bytes h []
  exact congrArg Prod.snd hread

end Http2
end ConstantReply
