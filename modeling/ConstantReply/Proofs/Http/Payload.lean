import ConstantReply.Proofs.Http.WrittenRequest
import Mathlib.Data.List.Forall2

/-!
# Payloads

A request declares its payload by a length or by the chunked coding.  A payload is passed over by
what its lines and its lengths say: two payloads of one shape, whose data differ, lead the reader of
bodies through the same places.
-/

namespace ConstantReply
namespace Http

/-!
# The grammar of payloads
-/

def semicolon : UInt8 := 0x3B

def hexValueFrom (n : Nat) (digits : List UInt8) : Nat :=
  digits.foldl (fun n b => n * 16 + (Ascii.hexDigitByte? b).getD 0) n

/-- What may follow the size of a chunk on its line. -/
inductive ExtensionText : List UInt8 -> Prop where
  | nothing : ExtensionText []
  | extension {x : List UInt8} :
      (forall b, b ∈ x -> b ≠ cr ∧ b ≠ lf) -> ExtensionText (semicolon :: x)

/-- The line before a chunk of this many bytes. -/
inductive SizeLine : Nat -> List UInt8 -> Prop where
  | line {digits blanks extension : List UInt8} :
      digits ≠ [] -> (forall b, b ∈ digits -> (Ascii.hexDigitByte? b).isSome = true) ->
      (forall b, b ∈ blanks -> isBlank b = true) -> ExtensionText extension ->
      SizeLine (hexValueFrom 0 digits) (digits ++ (blanks ++ (extension ++ crlf)))

structure Chunk where
  line : List UInt8
  data : List UInt8
  deriving DecidableEq

namespace Chunk

def bytes (c : Chunk) : List UInt8 := c.line ++ (c.data ++ crlf)

structure IsWellFormed (c : Chunk) : Prop where
  line : SizeLine c.data.length c.line
  nonempty : c.data ≠ []

structure SameShape (c d : Chunk) : Prop where
  line : d.line = c.line
  length : d.data.length = c.data.length

end Chunk

inductive Payload where
  | content (data : List UInt8)
  | chunked (chunks : List Chunk) (lastLine : List UInt8) (trailers : List WrittenField)

namespace Payload

def bytes : Payload -> List UInt8
  | .content data => data
  | .chunked chunks lastLine trailers =>
      chunks.flatMap Chunk.bytes ++
        (lastLine ++ (trailers.flatMap WrittenField.bytes ++ crlf))

def form : Payload -> BodyForm
  | .content data => BodyForm.ofLength data.length
  | .chunked _ _ _ => .chunked

inductive SameShape : Payload -> Payload -> Prop where
  | content {x y : List UInt8} :
      y.length = x.length -> SameShape (.content x) (.content y)
  | chunked {cs ds : List Chunk} (lastLine : List UInt8) (trailers : List WrittenField) :
      List.Forall₂ Chunk.SameShape cs ds ->
      SameShape (.chunked cs lastLine trailers) (.chunked ds lastLine trailers)

end Payload

/-- A head that declares a payload: by nothing if there is none, by one length, or by a last coding
that is chunked. -/
inductive Declares (head : Head) : Payload -> Prop where
  | nothing :
      valuesOf "transfer-encoding" head.fields = [] ->
      valuesOf "content-length" head.fields = [] -> Declares head (.content [])
  | length {digits data : List UInt8} :
      valuesOf "transfer-encoding" head.fields = [] ->
      valuesOf "content-length" head.fields = [digits] ->
      digitsValue? digits = some data.length -> Declares head (.content data)
  | chunked {values front : List (List UInt8)} {value coding : List UInt8} {chunks : List Chunk}
      {lastLine : List UInt8} {trailers : List WrittenField} :
      head.line.version = .http11 ->
      valuesOf "transfer-encoding" head.fields = values ++ [value] ->
      elements value = front ++ [coding] -> isWord "chunked" coding = true ->
      (forall c, c ∈ chunks -> c.IsWellFormed) -> SizeLine 0 lastLine ->
      (forall f, f ∈ trailers -> isToken f.name = true ∧ isValue f.value = true) ->
      Declares head (.chunked chunks lastLine trailers)

theorem body_of_declares {head : Head} {payload : Payload} {request : Request}
    (h : Declares head payload) (hjudge : head.judge = .ok request) :
    request.body = payload.form := by
  rcases Head.judge_eq_ok hjudge with ⟨summary, body, hsummary, hbody, rfl⟩
  have htells := FieldSummary.tells_of_ofFields hsummary
  have hmeasured (hcoding : valuesOf "transfer-encoding" head.fields = []) {l : Option Nat}
      (hlength : Agrees summary.length (valuesOf "content-length" head.fields) ->
        summary.length = l) : body = BodyForm.ofLength (l.getD 0) := by
    have hnone : summary.chunked = none := by
      rw [htells.coding, hcoding]
      rfl
    rw [FieldSummary.body, hnone, hlength (htells.length hnone)] at hbody
    cases l with
    | none =>
        cases hbody
        rfl
    | some n =>
        by_cases hzero : n = 0
        · simp only [if_pos hzero, Except.ok.injEq] at hbody
          simp [BodyForm.ofLength, hzero, ← hbody]
        · simp only [if_neg hzero, Except.ok.injEq] at hbody
          simp [BodyForm.ofLength, hzero, ← hbody]
  cases h with
  | nothing hcoding hlength =>
      apply hmeasured hcoding (l := none)
      rw [hlength]
      intro hagrees
      exact agrees_unique hagrees Agrees.nothing
  | @length digits data hcoding hlength hdigits =>
      apply hmeasured hcoding (l := some data.length)
      rw [hlength]
      intro hagrees
      generalize summary.length = l at hagrees
      cases hagrees with
      | number _ _ hvalues =>
          rw [hvalues digits (List.mem_singleton_self digits)] at hdigits
          exact hdigits
  | chunked _ hcoding _ _ _ _ _ =>
      have hsome := htells.coding
      rw [hcoding, List.getLast?_concat, Option.map_some] at hsome
      rw [FieldSummary.body, hsome] at hbody
      split at hbody
      · cases hbody
        rfl
      · cases hbody
      · rename_i hnone
        cases hnone

/-!
# Bodies that are passed over

What a reader does with two texts of one length, up to where it ends or gives up.
-/

/-- Two texts that lead a reader through the same places to a phase. -/
inductive Passes : BodyReader -> List UInt8 -> List UInt8 -> Phase -> Prop where
  | done (reader : BodyReader) : Passes reader [] [] (.body reader)
  | more {reader n : BodyReader} {b d : UInt8} {x y : List UInt8} {phase : Phase} :
      reader.step b = .more n -> reader.step d = .more n -> Passes n x y phase ->
      Passes reader (b :: x) (d :: y) phase
  | last {reader : BodyReader} {b d : UInt8} :
      reader.step b = .complete -> reader.step d = .complete ->
      Passes reader [b] [d] (.head {})
  | broken {reader : BodyReader} {b d : UInt8} {x y : List UInt8} :
      reader.step b = .broken -> reader.step d = .broken -> x.length = y.length ->
      Passes reader (b :: x) (d :: y) .closed

theorem length_of_passes {reader : BodyReader} {x y : List UInt8} {phase : Phase}
    (h : Passes reader x y phase) : x.length = y.length := by
  induction h with
  | done reader => rfl
  | more _ _ _ ih => exact congrArg (· + 1) ih
  | last _ _ => rfl
  | broken _ _ hlength => exact congrArg (· + 1) hlength

theorem passes_append {reader next : BodyReader} {x y u v : List UInt8} {phase : Phase}
    (h : Passes reader x y (.body next)) (hnext : Passes next u v phase) :
    Passes reader (x ++ u) (y ++ v) phase := by
  generalize hbody : Phase.body next = between at h
  induction h with
  | done reader =>
      cases hbody
      exact hnext
  | more hb hd _ ih => exact Passes.more hb hd (ih hbody)
  | last _ _ => cases hbody
  | broken _ _ _ => cases hbody

theorem passes_append_of_closed {reader : BodyReader} {x y u v : List UInt8}
    (h : Passes reader x y .closed) (hlength : u.length = v.length) :
    Passes reader (x ++ u) (y ++ v) .closed := by
  generalize hclosed : Phase.closed = phase at h
  induction h with
  | done reader => cases hclosed
  | more hb hd _ ih => exact Passes.more hb hd (ih hclosed)
  | last _ _ => cases hclosed
  | broken hb hd hrest =>
      exact Passes.broken hb hd (by simp [hrest, hlength])

def Reaches (reader : BodyReader) (x y : List UInt8) (phase : Phase) : Prop :=
  Passes reader x y phase ∨ Passes reader x y .closed

theorem length_of_reaches {reader : BodyReader} {x y : List UInt8} {phase : Phase}
    (h : Reaches reader x y phase) : x.length = y.length := by
  rcases h with h | h <;> exact length_of_passes h

theorem reaches_append {reader n : BodyReader} {x y u v : List UInt8} {phase : Phase}
    (h : Reaches reader x y (.body n)) (hnext : Reaches n u v phase) :
    Reaches reader (x ++ u) (y ++ v) phase := by
  rcases h with h | h
  · exact hnext.imp (passes_append h) (passes_append h)
  · exact Or.inr (passes_append_of_closed h (length_of_reaches hnext))

theorem reaches_cons {reader n : BodyReader} {b : UInt8} {x y : List UInt8} {phase : Phase}
    (hstep : reader.step b = .more n) (h : Reaches n x y phase) :
    Reaches reader (b :: x) (b :: y) phase :=
  h.imp (Passes.more hstep hstep) (Passes.more hstep hstep)

theorem reaches_nil (reader : BodyReader) : Reaches reader [] [] (.body reader) :=
  Or.inl (Passes.done reader)

theorem reaches_same {reader : BodyReader} {x : List UInt8}
    (h : forall b, b ∈ x -> reader.step b = .more reader) : Reaches reader x x (.body reader) := by
  induction x with
  | nil =>
      exact reaches_nil reader
  | cons b rest ih =>
      apply reaches_cons (h b List.mem_cons_self)
      exact ih fun c hc => h c (List.mem_cons_of_mem b hc)

/-!
# Data

Only their number counts.
-/

theorem passes_exactly {x y : List UInt8} (hne : x ≠ []) (hlength : y.length = x.length) :
    Passes (.exactly x.length) x y (.head {}) := by
  induction x generalizing y with
  | nil =>
      exact absurd rfl hne
  | cons b rest ih =>
      cases y with
      | nil => cases hlength
      | cons d more =>
          have hrest : more.length = rest.length := by
            simpa using hlength
          cases rest with
          | nil =>
              rw [List.length_eq_zero_iff.mp hrest]
              exact Passes.last rfl rfl
          | cons c late =>
              exact Passes.more (n := .exactly (c :: late).length) rfl rfl
                (ih (by simp) hrest)

theorem passes_data {x y : List UInt8} (hne : x ≠ []) (hlength : y.length = x.length) :
    Passes (.chunked (.data x.length) true) x y (.body (.chunked .dataCr true)) := by
  induction x generalizing y with
  | nil =>
      exact absurd rfl hne
  | cons b rest ih =>
      cases y with
      | nil => cases hlength
      | cons d more =>
          have hrest : more.length = rest.length := by
            simpa using hlength
          cases rest with
          | nil =>
              rw [List.length_eq_zero_iff.mp hrest]
              exact Passes.more rfl rfl (Passes.done _)
          | cons c late =>
              exact Passes.more (n := .chunked (.data (c :: late).length) true) rfl rfl
                (ih (by simp) hrest)

/-!
# Lines with sizes
-/

variable {had : Bool}

theorem reaches_digits {n : Nat} {digits : List UInt8}
    (hdigits : forall b, b ∈ digits -> (Ascii.hexDigitByte? b).isSome = true) :
    Reaches (.chunked (.size n) had) digits digits
      (.body (.chunked (.size (hexValueFrom n digits)) had)) := by
  induction digits generalizing n with
  | nil =>
      exact reaches_nil _
  | cons b rest ih =>
      rcases Option.isSome_iff_exists.mp (hdigits b List.mem_cons_self) with ⟨d, hd⟩
      by_cases hsize : n * 16 + d < chunkSizeEnd
      · have hstep : BodyReader.step (.chunked (.size n) had) b =
            .more (.chunked (.size (n * 16 + d)) had) := by
          simp [BodyReader.step, ChunkPlace.step, hd, hsize]
        have hvalue : hexValueFrom n (b :: rest) = hexValueFrom (n * 16 + d) rest := by
          simp [hexValueFrom, hd]
        rw [hvalue]
        exact reaches_cons hstep (ih fun c hc => hdigits c (List.mem_cons_of_mem b hc))
      · have hstep : BodyReader.step (.chunked (.size n) had) b = .broken := by
          simp [BodyReader.step, ChunkPlace.step, hd, hsize]
        exact Or.inr (Passes.broken hstep hstep rfl)

structure FollowsSize (n : Nat) (place : ChunkPlace) : Prop where
  blank : forall b had, isBlank b = true ->
    BodyReader.step (.chunked place had) b = .more (.chunked (.sizeBlank n) had)
  extension : forall had,
    BodyReader.step (.chunked place had) semicolon = .more (.chunked (.extension n) had)
  ends : forall had, BodyReader.step (.chunked place had) cr = .more (.chunked (.sizeLf n) had)

theorem followsSize_sizeBlank (n : Nat) : FollowsSize n (.sizeBlank n) where
  blank b had hb := by simp [BodyReader.step, ChunkPlace.step, hb]
  extension had := rfl
  ends had := rfl

theorem followsSize_size (n : Nat) : FollowsSize n (.size n) where
  blank b had hb := by
    have hcases : b = space ∨ b = tab := by
      simpa [isBlank] using hb
    rcases hcases with rfl | rfl <;> rfl
  extension had := rfl
  ends had := rfl

theorem reaches_extension {n : Nat} {place : ChunkPlace} (hplace : FollowsSize n place)
    {extension : List UInt8} (h : ExtensionText extension) :
    Reaches (.chunked place had) (extension ++ [cr]) (extension ++ [cr])
      (.body (.chunked (.sizeLf n) had)) := by
  cases h with
  | nothing => exact reaches_cons (hplace.ends had) (reaches_nil _)
  | @extension x hx =>
      apply reaches_cons (hplace.extension had)
      apply reaches_append (n := .chunked (.extension n) had)
      · apply reaches_same
        intro b hb
        simp [BodyReader.step, ChunkPlace.step, (hx b hb).left, (hx b hb).right]
      · exact reaches_cons rfl (reaches_nil _)

theorem reaches_lineEnd {n : Nat} {place : ChunkPlace} (hplace : FollowsSize n place)
    {blanks extension : List UInt8} (hblanks : forall b, b ∈ blanks -> isBlank b = true)
    (h : ExtensionText extension) :
    Reaches (.chunked place had) (blanks ++ (extension ++ [cr])) (blanks ++ (extension ++ [cr]))
      (.body (.chunked (.sizeLf n) had)) := by
  cases blanks with
  | nil => exact reaches_extension hplace h
  | cons b rest =>
      apply reaches_cons (hplace.blank b had (hblanks b List.mem_cons_self))
      apply reaches_append (n := .chunked (.sizeBlank n) had)
      · apply reaches_same
        intro c hc
        exact (followsSize_sizeBlank n).blank c had (hblanks c (List.mem_cons_of_mem b hc))
      · exact reaches_extension (followsSize_sizeBlank n) h

theorem reaches_sizeLine {n : Nat} {line : List UInt8} (h : SizeLine n line) {next : BodyReader}
    (hafter : ChunkPlace.afterSize n had = .more next ∨ ChunkPlace.afterSize n had = .broken) :
    Reaches (.chunked .sizeStart had) line line (.body next) := by
  cases h with
  | @line digits blanks extension hne hdigits hblanks hextension =>
      have hend : Reaches (.chunked (.sizeLf (hexValueFrom 0 digits)) had) [lf] [lf]
          (.body next) := by
        rcases hafter with hmore | hbroken
        · exact reaches_cons hmore (reaches_nil next)
        · exact Or.inr (Passes.broken hbroken hbroken rfl)
      have hassoc : digits ++ (blanks ++ (extension ++ crlf)) =
          digits ++ (blanks ++ (extension ++ [cr])) ++ [lf] := by
        simp [crlf]
      rw [hassoc]
      apply reaches_append (n := .chunked (.sizeLf (hexValueFrom 0 digits)) had) _ hend
      cases digits with
      | nil => exact absurd rfl hne
      | cons b rest =>
          rcases Option.isSome_iff_exists.mp (hdigits b List.mem_cons_self) with ⟨d, hd⟩
          have hstep : BodyReader.step (.chunked .sizeStart had) b =
              .more (.chunked (.size d) had) := by
            simp [BodyReader.step, ChunkPlace.step, hd]
          have hvalue : hexValueFrom 0 (b :: rest) = hexValueFrom d rest := by
            simp [hexValueFrom, hd]
          rw [hvalue]
          apply reaches_cons hstep
          exact reaches_append
            (reaches_digits fun c hc => hdigits c (List.mem_cons_of_mem b hc))
            (reaches_lineEnd (followsSize_size _) hblanks hextension)

/-!
# Chunks and trailers
-/

theorem reaches_chunk {c d : Chunk} (hc : c.IsWellFormed) (hshape : c.SameShape d) :
    Reaches (.chunked .sizeStart had) c.bytes d.bytes (.body (.chunked .sizeStart true)) := by
  have hsize : c.data.length ≠ 0 := by
    intro hzero
    exact hc.nonempty (List.length_eq_zero_iff.mp hzero)
  have hline : Reaches (.chunked .sizeStart had) c.line c.line
      (.body (.chunked (.data c.data.length) true)) := by
    apply reaches_sizeLine hc.line
    cases had <;> simp [ChunkPlace.afterSize, hsize]
  have hdata : Reaches (.chunked (.data c.data.length) true) c.data d.data
      (.body (.chunked .dataCr true)) :=
    Or.inl (passes_data hc.nonempty hshape.length)
  have hend : Reaches (.chunked .dataCr true) crlf crlf (.body (.chunked .sizeStart true)) :=
    reaches_cons rfl (reaches_cons rfl (reaches_nil _))
  rw [Chunk.bytes, Chunk.bytes, hshape.line]
  exact reaches_append hline (reaches_append hdata hend)

theorem reaches_chunks {cs ds : List Chunk} (hshape : List.Forall₂ Chunk.SameShape cs ds)
    (hcs : forall c, c ∈ cs -> c.IsWellFormed) (had : Bool) :
    exists has, Reaches (.chunked .sizeStart had) (cs.flatMap Chunk.bytes) (ds.flatMap Chunk.bytes)
      (.body (.chunked .sizeStart has)) := by
  induction hshape generalizing had with
  | nil =>
      exact ⟨had, reaches_nil _⟩
  | @cons c d cs ds hc _ ih =>
      rcases ih (fun e he => hcs e (List.mem_cons_of_mem c he)) true with ⟨has, hrest⟩
      refine ⟨has, ?_⟩
      rw [List.flatMap_cons, List.flatMap_cons]
      exact reaches_append (reaches_chunk (hcs c List.mem_cons_self) hc) hrest

theorem reaches_trailer {f : WrittenField} (hname : isToken f.name = true)
    (hvalue : isValue f.value = true) :
    Reaches (.chunked .trailerStart had) f.bytes f.bytes (.body (.chunked .trailerStart had)) := by
  have hbytes : f.bytes = f.name ++ (colon :: (f.value ++ crlf)) := by
    simp [WrittenField.bytes]
  have hread : Reaches (.chunked .trailerName had) (colon :: (f.value ++ crlf))
      (colon :: (f.value ++ crlf)) (.body (.chunked .trailerStart had)) := by
    apply reaches_cons (n := .chunked .trailerValue had) rfl
    apply reaches_append (n := .chunked .trailerValue had)
    · apply reaches_same
      intro b hb
      have hbyte := List.all_eq_true.mp hvalue b hb
      simp [BodyReader.step, ChunkPlace.step, hbyte, (valueByte_ne hbyte).left]
    · exact reaches_cons rfl (reaches_cons rfl (reaches_nil _))
  rw [hbytes]
  cases hcases : f.name with
  | nil =>
      rw [hcases] at hname
      cases hname
  | cons b rest =>
      have hall : isTokenByte b = true ∧ forall c, c ∈ rest -> isTokenByte c = true := by
        simpa [isToken, hcases] using hname
      apply reaches_cons (n := .chunked .trailerName had)
      · simp [BodyReader.step, ChunkPlace.step, hall.left, (tokenByte_ne hall.left).left]
      apply reaches_append (n := .chunked .trailerName had) _ hread
      apply reaches_same
      intro c hc
      have hbyte := hall.right c hc
      simp [BodyReader.step, ChunkPlace.step, hbyte, (tokenByte_ne hbyte).right.right.right]

theorem reaches_trailers {trailers : List WrittenField}
    (h : forall f, f ∈ trailers -> isToken f.name = true ∧ isValue f.value = true) :
    Reaches (.chunked .trailerStart had) (trailers.flatMap WrittenField.bytes)
      (trailers.flatMap WrittenField.bytes) (.body (.chunked .trailerStart had)) := by
  induction trailers with
  | nil =>
      exact reaches_nil _
  | cons f rest ih =>
      have hf := h f List.mem_cons_self
      rw [List.flatMap_cons]
      exact reaches_append (reaches_trailer hf.left hf.right)
        (ih fun g hg => h g (List.mem_cons_of_mem f hg))

theorem reaches_of_declares {head : Head} {payload other : Payload} (h : Declares head payload)
    (hshape : payload.SameShape other) {reader : BodyReader}
    (hreader : BodyReader.ofForm? payload.form = some reader) :
    Reaches reader payload.bytes other.bytes (.head {}) := by
  cases hshape with
  | @content x y hlength =>
      by_cases hzero : x.length = 0
      · simp [Payload.form, BodyForm.ofLength, hzero, BodyReader.ofForm?] at hreader
      · simp only [Payload.form, BodyForm.ofLength, hzero, if_false, BodyReader.ofForm?,
          Option.some.injEq] at hreader
        subst hreader
        exact Or.inl (passes_exactly (fun hnil => hzero (congrArg List.length hnil)) hlength)
  | @chunked cs ds lastLine trailers hchunks =>
      cases hreader
      cases h with
      | chunked _ _ _ _ hcs hlast htrailers =>
          rcases reaches_chunks hchunks hcs false with ⟨has, hread⟩
          have hline : Reaches (.chunked .sizeStart has) lastLine lastLine
              (.body (.chunked .trailerStart has)) :=
            reaches_sizeLine hlast (Or.inl rfl)
          have hend : Reaches (.chunked .trailerStart has) crlf crlf (.head {}) :=
            reaches_cons (n := .chunked .lastLf has) rfl (Or.inl (Passes.last rfl rfl))
          exact reaches_append hread
            (reaches_append hline (reaches_append (reaches_trailers htrailers) hend))

theorem bytes_of_ofForm?_none {payload other : Payload}
    (h : BodyReader.ofForm? payload.form = none) (hshape : payload.SameShape other) :
    payload.bytes = [] ∧ other.bytes = [] := by
  cases hshape with
  | @content x y hlength =>
      by_cases hzero : x.length = 0
      · exact ⟨List.length_eq_zero_iff.mp hzero, List.length_eq_zero_iff.mp (hlength.trans hzero)⟩
      · simp [Payload.form, BodyForm.ofLength, hzero, BodyReader.ofForm?] at h
  | chunked _ _ _ => cases h

theorem Payload.length_bytes_of_sameShape {payload other : Payload}
    (h : payload.SameShape other) : payload.bytes.length = other.bytes.length := by
  cases h with
  | content hlength => exact hlength.symm
  | chunked lastLine trailers hchunks =>
      simp only [Payload.bytes, List.length_append]
      congr 1
      induction hchunks with
      | nil => rfl
      | cons hshape _ ih =>
          simp [Chunk.bytes, hshape.line, hshape.length, ih]

end Http
end ConstantReply
