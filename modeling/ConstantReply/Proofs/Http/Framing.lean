import ConstantReply.Http.Framing

/-!
# How the bodies of answered requests are delimited

A summary of fields tells what the fields with a meaning say together.  From it follows that a
request is answered only if its body is delimited in one way, and that a request without codings
whose lengths agree is not refused for them.
-/

namespace ConstantReply
namespace Http

def valuesOf (word : String) (fields : List Field) : List (List UInt8) :=
  (fields.filter fun f => isWord word f.name).map Field.value

theorem valuesOf_append (word : String) (front rest : List Field) :
    valuesOf word (front ++ rest) = valuesOf word front ++ valuesOf word rest := by
  simp [valuesOf]

theorem valuesOf_singleton {word : String} {f : Field} (h : isWord word f.name = true) :
    valuesOf word [f] = [f.value] := by
  simp [valuesOf, h]

theorem valuesOf_singleton_of_not {word : String} {f : Field} (h : isWord word f.name = false) :
    valuesOf word [f] = [] := by
  simp [valuesOf, h]

theorem not_isWord_of_valuesOf_cons {word : String} {f : Field} {rest : List Field}
    (h : valuesOf word (f :: rest) = []) :
    isWord word f.name = false ∧ valuesOf word rest = [] := by
  rw [← List.singleton_append, valuesOf_append, List.append_eq_nil_iff] at h
  refine ⟨?_, h.right⟩
  rw [← Bool.not_eq_true]
  intro hname
  rw [valuesOf_singleton hname] at h
  cases h.left

theorem isWord_of_isWord_of_ne {word other : String} {x : List UInt8} (h : isWord word x = true)
    (hne : Ascii.bytes word ≠ Ascii.bytes other) : isWord other x = false := by
  unfold isWord at h ⊢
  rw [beq_iff_eq] at h
  rw [h]
  exact beq_false_of_ne hne

theorem length_ne_coding :
    Ascii.bytes "content-length" ≠ Ascii.bytes "transfer-encoding" := by
  decide +kernel

/-!
# Lengths that agree
-/

/-- The length that these values give, all of them the same number and one that can be counted. -/
inductive Agrees : Option Nat -> List (List UInt8) -> Prop where
  | nothing : Agrees none []
  | number {n : Nat} {values : List (List UInt8)} :
      values ≠ [] -> n < lengthLimit -> (forall v, v ∈ values -> digitsValue? v = some n) ->
      Agrees (some n) values

theorem agrees_unique {l m : Option Nat} {values : List (List UInt8)} (hl : Agrees l values)
    (hm : Agrees m values) : l = m := by
  cases hl with
  | nothing =>
      cases hm with
      | nothing => rfl
      | number hne _ _ => exact absurd rfl hne
  | number hne _ hl =>
      cases hm with
      | nothing => exact absurd rfl hne
      | number _ _ hm =>
          rcases List.exists_mem_of_ne_nil _ hne with ⟨v, hv⟩
          rw [← hl v hv, hm v hv]

theorem agrees_concat {l : Option Nat} {values : List (List UInt8)} {v : List UInt8} {n : Nat}
    (h : Agrees l values) (hv : digitsValue? v = some n)
    (hknown : l = some n ∨ (l = none ∧ n < lengthLimit)) : Agrees (some n) (values ++ [v]) := by
  have hmem : (forall w, w ∈ values -> digitsValue? w = some n) ->
      forall w, w ∈ values ++ [v] -> digitsValue? w = some n := by
    intro hvalues w hw
    rcases List.mem_append.mp hw with hw | hw
    · exact hvalues w hw
    · rw [List.mem_singleton.mp hw, hv]
  cases h with
  | nothing =>
      rcases hknown with hknown | ⟨_, hn⟩
      · cases hknown
      · exact Agrees.number (by simp) hn (hmem (by simp))
  | number _ hn hvalues =>
      rcases hknown with hknown | ⟨hknown, _⟩
      · cases hknown
        exact Agrees.number (by simp) hn (hmem hvalues)
      · cases hknown

/-!
# What a summary tells
-/

namespace FieldSummary

structure Tells (version : Version) (fields : List Field) (s : FieldSummary) : Prop where
  coding : s.chunked = (valuesOf "transfer-encoding" fields).getLast?.map endsChunked
  coded : s.chunked ≠ none -> version = .http11
  length : s.chunked = none -> Agrees s.length (valuesOf "content-length" fields)

theorem tells_nothing (version : Version) : Tells version [] {} where
  coding := rfl
  coded := by simp
  length := fun _ => Agrees.nothing

variable {version : Version} {fields : List Field} {s next : FieldSummary}

theorem addLength_eq_ok {value : List UInt8} (h : s.addLength value = .ok next) :
    next.chunked = s.chunked ∧
      (s.chunked = none -> exists n, digitsValue? value = some n ∧ next.length = some n ∧
        (s.length = some n ∨ (s.length = none ∧ n < lengthLimit))) := by
  unfold addLength at h
  split at h
  · rename_i hcoded
    cases h
    refine ⟨rfl, ?_⟩
    intro hnone
    simp [hnone] at hcoded
  · split at h
    · cases h
    rename_i n hdigits
    split at h
    · cases h
    split at h
    · rename_i known hknown
      split at h
      · rename_i hsame
        cases h
        subst hsame
        exact ⟨rfl, fun _ => ⟨known, hdigits, hknown, Or.inl hknown⟩⟩
      · cases h
    · rename_i hnone
      split at h
      · cases h
      · cases h
        exact ⟨rfl, fun _ => ⟨n, hdigits, rfl, Or.inr ⟨hnone, by omega⟩⟩⟩

theorem addConnection_same (s : FieldSummary) (value : List UInt8) :
    (s.addConnection value).chunked = s.chunked ∧ (s.addConnection value).length = s.length := by
  unfold addConnection
  split
  · exact ⟨rfl, rfl⟩
  split <;> exact ⟨rfl, rfl⟩

theorem tells_concat_other (hs : Tells version fields s) {f : Field}
    (hlength : isWord "content-length" f.name = false)
    (hcoding : isWord "transfer-encoding" f.name = false)
    (hsame : next.chunked = s.chunked ∧ next.length = s.length) :
    Tells version (fields ++ [f]) next := by
  constructor
  · rw [valuesOf_append, valuesOf_singleton_of_not hcoding, List.append_nil, hsame.left]
    exact hs.coding
  · rw [hsame.left]
    exact hs.coded
  · rw [valuesOf_append, valuesOf_singleton_of_not hlength, List.append_nil, hsame.left,
      hsame.right]
    exact hs.length

theorem tells_add (hs : Tells version fields s) {f : Field} (h : s.add version f = .ok next) :
    Tells version (fields ++ [f]) next := by
  unfold add at h
  split at h
  · rename_i hname
    have hother := isWord_of_isWord_of_ne hname length_ne_coding
    have hadd := addLength_eq_ok h
    constructor
    · rw [valuesOf_append, valuesOf_singleton_of_not hother, List.append_nil, hadd.left]
      exact hs.coding
    · rw [hadd.left]
      exact hs.coded
    · intro hnone
      rw [hadd.left] at hnone
      rcases hadd.right hnone with ⟨n, hdigits, hnext, hknown⟩
      rw [valuesOf_append, valuesOf_singleton hname, hnext]
      exact agrees_concat (hs.length hnone) hdigits hknown
  rename_i hlength
  rw [Bool.not_eq_true] at hlength
  split at h
  · rename_i hname
    cases version with
    | http10 => cases h
    | http11 =>
        cases h
        constructor
        · rw [valuesOf_append, valuesOf_singleton hname]
          simp
        · intro _
          rfl
        · intro hnone
          cases hnone
  rename_i hcoding
  rw [Bool.not_eq_true] at hcoding
  split at h
  · cases h
    exact tells_concat_other hs hlength hcoding (addConnection_same s f.value)
  · cases h
    exact tells_concat_other hs hlength hcoding ⟨rfl, rfl⟩

theorem tells_of_foldlM {more : List Field} (hs : Tells version fields s)
    (h : more.foldlM (fun s f => s.add version f) s = .ok next) :
    Tells version (fields ++ more) next := by
  induction more generalizing fields s with
  | nil =>
      cases h
      rw [List.append_nil]
      exact hs
  | cons f rest ih =>
      rw [List.foldlM_cons] at h
      cases hadd : s.add version f with
      | error why =>
          rw [hadd] at h
          cases h
      | ok between =>
          rw [hadd] at h
          rw [← List.singleton_append, ← List.append_assoc]
          exact ih (tells_add hs hadd) h

theorem tells_of_ofFields (h : ofFields version fields = .ok s) : Tells version fields s :=
  tells_of_foldlM (tells_nothing version) h

/-!
# Fields that are not refused
-/

structure Expects (n : Nat) (s : FieldSummary) : Prop where
  uncoded : s.chunked = none
  length : s.length = none ∨ s.length = some n

theorem add_of_expects {n : Nat} (hs : Expects n s) (hn : n < lengthLimit) {f : Field}
    (hcoding : isWord "transfer-encoding" f.name = false)
    (hlength : isWord "content-length" f.name = true -> digitsValue? f.value = some n) :
    exists next, s.add version f = .ok next ∧ Expects n next := by
  unfold add
  split
  · rename_i hname
    have hend : ¬ lengthEnd ≤ n := by
      unfold lengthLimit at hn
      omega
    unfold addLength
    simp only [hs.uncoded, hlength hname, hend, if_false, Option.isSome_none, Bool.false_eq_true]
    rcases hs.length with hnone | hsome
    · simp only [hnone, Nat.not_le.mpr hn, if_false]
      exact ⟨_, rfl, rfl, Or.inr rfl⟩
    · simp only [hsome, if_true]
      exact ⟨_, rfl, hs⟩
  rw [hcoding]
  simp only [Bool.false_eq_true, if_false]
  split
  · have hsame := addConnection_same s f.value
    refine ⟨_, rfl, ?_, ?_⟩
    · rw [hsame.left, hs.uncoded]
    · rw [hsame.right]
      exact hs.length
  · exact ⟨_, rfl, hs⟩

theorem exists_foldlM {n : Nat} (hs : Expects n s) (hn : n < lengthLimit)
    (hcoding : valuesOf "transfer-encoding" fields = [])
    (hlength : forall v, v ∈ valuesOf "content-length" fields -> digitsValue? v = some n) :
    exists next, fields.foldlM (fun s f => s.add version f) s = .ok next := by
  induction fields generalizing s with
  | nil =>
      exact ⟨s, rfl⟩
  | cons f rest ih =>
      rcases not_isWord_of_valuesOf_cons hcoding with ⟨hfcoding, hrest⟩
      rw [← List.singleton_append, valuesOf_append] at hlength
      have hflength : isWord "content-length" f.name = true -> digitsValue? f.value = some n := by
        intro hname
        apply hlength
        rw [valuesOf_singleton hname]
        exact List.mem_append_left _ (List.mem_singleton_self _)
      have hf : exists next, s.add version f = .ok next ∧ Expects n next :=
        add_of_expects hs hn hfcoding hflength
      rcases hf with ⟨next, hadd, hnext⟩
      rw [List.foldlM_cons, hadd]
      exact ih hnext hrest fun v hv => hlength v (List.mem_append_right _ hv)

end FieldSummary

/-!
# Judgement
-/

/-- Heads that delimit the body in one way: the last coding is chunked, or there are no codings and
all lengths agree. -/
inductive WellFramed (head : Head) : Prop where
  | coded {values front : List (List UInt8)} {value coding : List UInt8} :
      valuesOf "transfer-encoding" head.fields = values ++ [value] ->
      elements value = front ++ [coding] -> isWord "chunked" coding = true ->
      head.line.version = .http11 -> WellFramed head
  | measured (n : Nat) :
      valuesOf "transfer-encoding" head.fields = [] -> n < lengthLimit ->
      (forall v, v ∈ valuesOf "content-length" head.fields -> digitsValue? v = some n) ->
      WellFramed head

def BodyForm.ofLength (n : Nat) : BodyForm := if n = 0 then .empty else .exactly n

theorem exists_of_endsChunked {value : List UInt8} (h : endsChunked value = true) :
    exists front coding, elements value = front ++ [coding] ∧ isWord "chunked" coding = true := by
  unfold endsChunked at h
  rw [Bool.and_eq_true] at h
  cases hlast : (elements value).getLast? with
  | none => simp [hlast] at h
  | some coding =>
      rw [hlast] at h
      rcases List.getLast?_eq_some_iff.mp hlast with ⟨front, hfront⟩
      exact ⟨front, coding, hfront, h.right⟩

theorem exists_of_agrees {l : Option Nat} {values : List (List UInt8)} (h : Agrees l values) :
    exists n, n < lengthLimit ∧ forall v, v ∈ values -> digitsValue? v = some n := by
  cases h with
  | nothing => exact ⟨0, by decide, by simp⟩
  | @number n _ _ hn hvalues => exact ⟨n, hn, hvalues⟩

namespace Head

theorem judge_eq_ok {head : Head} {request : Request} (h : head.judge = .ok request) :
    exists summary body, FieldSummary.ofFields head.line.version head.fields = .ok summary ∧
      summary.body = .ok body ∧
      request = ⟨head, body, summary.persistent head.line.version⟩ := by
  unfold judge at h
  split at h
  · cases h
  split at h
  · cases h
  rename_i summary hsummary
  split at h
  · cases h
  rename_i body hbody
  cases h
  exact ⟨summary, body, hsummary, hbody, rfl⟩

theorem head_of_judge {head : Head} {request : Request} (h : head.judge = .ok request) :
    request.head = head := by
  rcases judge_eq_ok h with ⟨_, _, _, _, rfl⟩
  rfl

theorem wellFramed_of_judge {head : Head} {request : Request} (h : head.judge = .ok request) :
    WellFramed head := by
  rcases judge_eq_ok h with ⟨summary, body, hsummary, hbody, _⟩
  have htells := FieldSummary.tells_of_ofFields hsummary
  cases hlast : (valuesOf "transfer-encoding" head.fields).getLast? with
  | none =>
      have hnone : summary.chunked = none := by
        rw [htells.coding, hlast]
        rfl
      rcases exists_of_agrees (htells.length hnone) with ⟨n, hn, hvalues⟩
      exact WellFramed.measured n (List.getLast?_eq_none_iff.mp hlast) hn hvalues
  | some value =>
      have hsome : summary.chunked = some (endsChunked value) := by
        rw [htells.coding, hlast]
        rfl
      have hchunked : endsChunked value = true := by
        cases hends : endsChunked value with
        | true => rfl
        | false =>
            rw [hends] at hsome
            simp [FieldSummary.body, hsome] at hbody
      rcases List.getLast?_eq_some_iff.mp hlast with ⟨values, hvalues⟩
      rcases exists_of_endsChunked hchunked with ⟨front, coding, helements, hcoding⟩
      apply WellFramed.coded hvalues helements hcoding
      apply htells.coded
      simp [hsome]

theorem exists_judge {head : Head} {l : Option Nat} (hform : head.refusal? = none)
    (hcoding : valuesOf "transfer-encoding" head.fields = [])
    (hlength : Agrees l (valuesOf "content-length" head.fields)) :
    exists persistent,
      head.judge = .ok ⟨head, BodyForm.ofLength (l.getD 0), persistent⟩ := by
  rcases exists_of_agrees hlength with ⟨n, hn, hvalues⟩
  have hexpects : FieldSummary.Expects n {} := ⟨rfl, Or.inl rfl⟩
  have hfields : exists summary,
      FieldSummary.ofFields head.line.version head.fields = .ok summary :=
    FieldSummary.exists_foldlM hexpects hn hcoding hvalues
  rcases hfields with ⟨summary, hsummary⟩
  have htells := FieldSummary.tells_of_ofFields hsummary
  have hnone : summary.chunked = none := by
    rw [htells.coding, hcoding]
    rfl
  have hbody : summary.body = .ok (BodyForm.ofLength (l.getD 0)) := by
    rw [FieldSummary.body, hnone, agrees_unique (htells.length hnone) hlength]
    cases l with
    | none => rfl
    | some m =>
        simp only [BodyForm.ofLength, Option.getD_some]
        split <;> rfl
  refine ⟨summary.persistent head.line.version, ?_⟩
  unfold judge
  simp only [hform, hsummary, hbody]

end Head
end Http
end ConstantReply
