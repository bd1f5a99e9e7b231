import ConstantReply.Proofs.Hpack.BlockText
import ConstantReply.Proofs.Http2.Authority

/-!
# Lists of valid requests

A valid request gives the parts of its request line once each and before its fields, none of which
is about the connection.  Its list is accepted, and so is a list of fields that ends a request.
-/

namespace ConstantReply
namespace Http2

open Hpack (Field listSize listSize_append)
open Http (PlainTarget)

structure Liberties where
  integerSize : Nat := Hpack.greatestIntegerSize
  lengthDigits : Nat := 19
  escapes : Bool := false
  addressColons : Nat := 8
  anyCase : Bool := false
  selfDependence : Bool := false
  continuations : Nat := greatestContinuations
  deriving DecidableEq

/-!
## Requests
-/

structure IsField (may : Liberties) (f : Field) : Prop where
  name : HeaderList.isLowerToken f.name = true
  value : Http.isValue f.value = true
  place : f.name ∉ HeaderList.connectionNames
  trailers : f.name = Ascii.bytes "te" ->
    f.value = Ascii.bytes "trailers" ∨
      (may.anyCase = true ∧ Http.isWord "trailers" f.value = true)

instance (may : Liberties) (f : Field) : Decidable (IsField may f) :=
  decidable_of_iff
    (HeaderList.isLowerToken f.name = true ∧ Http.isValue f.value = true ∧
      HeaderList.connectionNames.contains f.name = false ∧
      (f.name = Ascii.bytes "te" ->
        f.value = Ascii.bytes "trailers" ∨
          (may.anyCase = true ∧ Http.isWord "trailers" f.value = true)))
    ⟨fun h => ⟨h.left, h.right.left, by simpa using h.right.right.left, h.right.right.right⟩,
      fun h => ⟨h.name, h.value, by simpa using h.place, h.trailers⟩⟩

/-- The length that fields state for the content. -/
inductive StatesLength (may : Liberties) (fields : List Field) : Option Nat -> Prop where
  | nothing :
      (forall f, f ∈ fields -> f.name ≠ Ascii.bytes "content-length") -> StatesLength may fields none
  | number {n : Nat} :
      (exists f, f ∈ fields ∧ f.name = Ascii.bytes "content-length") ->
      (forall f, f ∈ fields -> f.name = Ascii.bytes "content-length" ->
        Http.digitsValue? f.value = some n ∧ f.value.length ≤ may.lengthDigits) ->
      StatesLength may fields (some n)

structure RequestText where
  method : List UInt8
  path : List UInt8
  authority : Option (List UInt8)
  fields : List Field

namespace RequestText

def parts (r : RequestText) : List (Part × List UInt8) :=
  [(.method, r.method), (.scheme, Ascii.bytes "http"), (.path, r.path)] ++
    r.authority.toList.map fun a => (.authority, a)

def partField (p : Part × List UInt8) : Field := ⟨Ascii.bytes p.1.name, p.2⟩

def IsList (r : RequestText) (list : List Field) : Prop :=
  exists front : List (Part × List UInt8), front.Perm r.parts ∧
    list = front.map partField ++ r.fields

def list (r : RequestText) : List Field := r.parts.map partField ++ r.fields

theorem isList_list (r : RequestText) : r.IsList r.list := ⟨r.parts, List.Perm.refl _, rfl⟩

structure IsValid (may : Liberties) (r : RequestText) : Prop where
  method : Http.isToken r.method = true
  noTunnel : r.method ≠ Ascii.bytes "CONNECT"
  path : PlainTarget r.path
  authority : forall a, a ∈ r.authority -> AuthorityText may.escapes may.addressColons a
  fields : forall f, f ∈ r.fields -> IsField may f

end RequestText

def usualListSize : Nat := 8192

/-!
## Collecting
-/

namespace HeaderList

theorem head?_name (p : Part) : (Ascii.bytes p.name).head? = some Http.colon := by
  cases p <;> decide +kernel

theorem ofName?_name (p : Part) : Part.ofName? (Ascii.bytes p.name) = some p := by
  cases p <;> decide +kernel

theorem add?_part {known : List (Part × List UInt8)} {size : Nat} {p : Part × List UInt8}
    (hadmits : p.1.admits p.2 = true) (hnew : p.1 ∉ known.map Prod.fst)
    (hsize : size + (RequestText.partField p).size < listLimit) :
    add? { parts := known, size := size } (RequestText.partField p) =
      some { parts := known ++ [p], size := size + (RequestText.partField p).size } := by
  have hlookup : known.lookup p.1 = none := by
    rw [List.lookup_eq_none_iff]
    intro q hq
    rw [bne_iff_ne]
    exact fun heq => hnew (heq ▸ List.mem_map_of_mem hq)
  have hhas : has { parts := known, size := size } p.1 = false := by
    simp [has, part?, hlookup]
  have hname : (RequestText.partField p).name.head? = some Http.colon := head?_name p.1
  have hpart : Part.ofName? (RequestText.partField p).name = some p.1 := ofName?_name p.1
  have hvalue : (RequestText.partField p).value = p.2 := rfl
  rw [add?, if_pos hname, hpart]
  simp [hvalue, hadmits, addPart, hhas, hsize]

theorem foldlM_parts {front known : List (Part × List UInt8)} {size : Nat}
    (hadmits : forall p, p ∈ front -> p.1.admits p.2 = true)
    (honce : ((known ++ front).map Prod.fst).Nodup)
    (hsize : size + listSize (front.map RequestText.partField) < listLimit) :
    (front.map RequestText.partField).foldlM add? { parts := known, size := size } =
      some { parts := known ++ front
             size := size + listSize (front.map RequestText.partField) } := by
  induction front generalizing known size with
  | nil => simp [listSize]
  | cons p rest ih =>
      rw [List.map_cons, listSize] at hsize ⊢
      have hnew : p.1 ∉ known.map Prod.fst := by
        rw [List.map_append, List.map_cons, List.nodup_append] at honce
        exact fun hmem => honce.right.right _ hmem _ List.mem_cons_self rfl
      have hfits : size + (RequestText.partField p).size < listLimit := by
        omega
      have honce : ((known ++ [p] ++ rest).map Prod.fst).Nodup := by
        rwa [List.append_assoc, List.singleton_append]
      rw [List.foldlM_cons, add?_part (hadmits p List.mem_cons_self) hnew hfits]
      refine (ih (fun q hq => hadmits q (List.mem_cons_of_mem p hq)) honce ?_).trans ?_
      · omega
      · rw [List.append_assoc, List.singleton_append, Nat.add_assoc]

theorem add?_field {f : Field} (hf : IsField {} f) {parts : List (Part × List UInt8)}
    {known : List Field} {size : Nat} (hsize : size + f.size < listLimit) :
    add? { parts := parts, fields := known, size := size } f =
      some { parts := parts, fields := known ++ [f], size := size + f.size } := by
  have htoken : Http.isToken f.name = true := by
    have hname := hf.name
    rw [isLowerToken, Bool.and_eq_true] at hname
    exact hname.left
  have hhead : f.name.head? ≠ some Http.colon := by
    intro hcolon
    rw [Http.isToken, Bool.and_eq_true, List.all_eq_true] at htoken
    exact absurd (htoken.right _ (List.mem_of_mem_head? hcolon)) (by decide)
  have hte : ¬ (f.name = Ascii.bytes "te" ∧ f.value ≠ Ascii.bytes "trailers") := by
    rintro ⟨hte, hne⟩
    rcases hf.trailers hte with heq | ⟨hno, _⟩
    · exact hne heq
    · cases hno
  have hplace : isOutOfPlace f = false := by
    have hnot : connectionNames.contains f.name = false := by
      simpa using hf.place
    rw [isOutOfPlace, hnot, Bool.false_or]
    simpa using hte
  rw [add?, if_neg hhead, if_pos ⟨hf.name, hf.value⟩]
  simp [addField, hplace, hsize]

theorem foldlM_fields {fields known : List Field} (hfields : forall f, f ∈ fields -> IsField {} f)
    {parts : List (Part × List UInt8)} {size : Nat} (hsize : size + listSize fields < listLimit) :
    fields.foldlM add? { parts := parts, fields := known, size := size } =
      some { parts := parts, fields := known ++ fields, size := size + listSize fields } := by
  induction fields generalizing known size with
  | nil => simp [listSize]
  | cons f rest ih =>
      rw [listSize] at hsize ⊢
      have hfits : size + f.size < listLimit := by
        omega
      rw [List.foldlM_cons, add?_field (hfields f List.mem_cons_self) hfits]
      refine (ih (fun g hg => hfields g (List.mem_cons_of_mem f hg)) ?_).trans ?_
      · omega
      · rw [List.append_assoc, List.singleton_append, Nat.add_assoc]

structure Gives (l : HeaderList) (r : RequestText) : Prop where
  malformed : l.malformed = false
  tooLarge : l.tooLarge = false
  fields : l.fields = r.fields
  parts : l.parts.Perm r.parts

theorem isPath_of_plain {path : List UInt8} (h : PlainTarget path) :
    Utf8.WellFormed path = true ∧ isPath path = true := by
  have hascii : forall b, b ∈ path -> b < 0x80 := fun b hb =>
    (Http.isPathByte_of_isPlainByte b (h.plain b hb)).right.right.right
  have hne : path ≠ [] := by
    rintro rfl
    cases h.begins
  have hfront : Utf8.WellFormed (path.takeWhile (· ≠ Http.Target.hash)) = true :=
    Http.wellFormed_ascii fun b hb => hascii b (List.takeWhile_subset _ hb)
  refine ⟨Http.wellFormed_ascii hascii, ?_⟩
  rw [isPath, Http.Target.pathAndQuery, Http.path_of_plain h.plain, hfront]
  simpa using hne

theorem admits_of_valid {r : RequestText} (hr : r.IsValid {}) :
    forall p, p ∈ r.parts -> p.1.admits p.2 = true := by
  intro p hp
  simp only [RequestText.parts, List.cons_append, List.nil_append, List.mem_cons, List.mem_map,
    Option.mem_toList] at hp
  rcases hp with rfl | rfl | rfl | ⟨a, ha, rfl⟩
  · exact hr.method
  · exact (by decide +kernel : Utf8.WellFormed (Ascii.bytes "http") = true)
  · exact (isPath_of_plain hr.path).left
  · exact Http.wellFormed_ascii fun b hb =>
      (harmless_of_isAuthorityByte b (isAuthorityByte_of_text (hr.authority a ha) b hb)).right

theorem nodup_parts (r : RequestText) : (r.parts.map Prod.fst).Nodup := by
  rcases r with ⟨method, path, authority, fields⟩
  cases authority <;> simp [RequestText.parts]

theorem ofFields?_of_valid {r : RequestText} (hr : r.IsValid {}) {list : List Field}
    (hlist : r.IsList list) (hsize : listSize list ≤ usualListSize) :
    exists l, ofFields? list = some l ∧ l.Gives r := by
  rcases hlist with ⟨front, hperm, rfl⟩
  rw [listSize_append] at hsize
  have hlimit : usualListSize < listLimit := by
    decide
  have hadmits : forall p, p ∈ front -> p.1.admits p.2 = true :=
    fun p hp => admits_of_valid hr p (hperm.mem_iff.mp hp)
  have honce : (([] ++ front).map Prod.fst).Nodup :=
    (hperm.map Prod.fst).nodup_iff.mpr (nodup_parts r)
  have hfits : 0 + listSize (front.map RequestText.partField) < listLimit := by
    omega
  have hmore : 0 + listSize (front.map RequestText.partField) + listSize r.fields < listLimit := by
    omega
  have hcollected : ofFields? (front.map RequestText.partField ++ r.fields) =
      some { parts := front
             fields := r.fields
             size := 0 + listSize (front.map RequestText.partField) + listSize r.fields } := by
    rw [ofFields?, List.foldlM_append]
    rw [foldlM_parts hadmits honce hfits]
    exact foldlM_fields hr.fields hmore
  exact ⟨_, hcollected, { malformed := rfl, tooLarge := rfl, fields := rfl, parts := hperm }⟩

theorem ofFields?_of_fields {fields : List Field} (hfields : forall f, f ∈ fields -> IsField {} f)
    (hsize : listSize fields ≤ usualListSize) :
    exists l, ofFields? fields = some l ∧ l.malformed = false := by
  have hlimit : usualListSize < listLimit := by
    decide
  have hfits : 0 + listSize fields < listLimit := by
    omega
  exact ⟨_, foldlM_fields hfields hfits, rfl⟩

theorem lengthValue?_of_digitsValue? {value : List UInt8} {n : Nat}
    (h : Http.digitsValue? value = some n) (hshort : value.length ≤ 19) :
    lengthValue? value = some n := by
  rw [Http.digitsValue?] at h
  split at h
  · rename_i hdigits
    rw [lengthValue?, if_pos ⟨hshort, hdigits.right⟩]
    exact h
  · cases h

theorem contentLength?_of_states {l : HeaderList} {length : Option Nat}
    (h : StatesLength {} l.fields length) : l.contentLength? = some length := by
  rw [contentLength?]
  cases h with
  | nothing hnone =>
      have hfind : (l.fields.find? fun f => f.name == Ascii.bytes "content-length") = none := by
        rw [List.find?_eq_none]
        intro f hf
        simpa using hnone f hf
      rw [hfind]
  | @number n hsome hall =>
      cases hfind : l.fields.find? fun f => f.name == Ascii.bytes "content-length" with
      | none =>
          rcases hsome with ⟨f, hf, hname⟩
          exact absurd (beq_iff_eq.mpr hname) (List.find?_eq_none.mp hfind f hf)
      | some f =>
          have hfound := List.find?_some hfind
          have hname : f.name = Ascii.bytes "content-length" := eq_of_beq hfound
          rcases hall f (List.mem_of_find?_eq_some hfind) hname with ⟨hvalue, hshort⟩
          simp [lengthValue?_of_digitsValue? hvalue hshort]

theorem part?_of_gives {r : RequestText} {l : HeaderList} (h : l.Gives r) {p : Part}
    {value : List UInt8} (hmem : (p, value) ∈ r.parts) : l.part? p = some value := by
  have honce : (l.parts.map Prod.fst).Nodup :=
    (h.parts.map Prod.fst).nodup_iff.mpr (nodup_parts r)
  rcases List.append_of_mem (h.parts.mem_iff.mpr hmem) with ⟨front, rest, hparts⟩
  rw [part?, List.lookup_eq_some_iff]
  refine ⟨front, rest, hparts, ?_⟩
  intro q hq
  rw [hparts, List.map_append, List.map_cons, List.nodup_append] at honce
  rw [bne_iff_ne]
  exact fun heq => honce.right.right q.1 (List.mem_map_of_mem hq) p List.mem_cons_self heq.symm

theorem part?_eq_none_of_gives {r : RequestText} {l : HeaderList} (h : l.Gives r) {p : Part}
    (hnot : p ∉ r.parts.map Prod.fst) : l.part? p = none := by
  rw [part?, List.lookup_eq_none_iff]
  intro q hq
  rw [bne_iff_ne]
  exact fun heq => hnot (heq ▸ List.mem_map_of_mem (h.parts.mem_iff.mp hq))

theorem makesRequest_of_gives {r : RequestText} (hr : r.IsValid {}) {l : HeaderList}
    (h : l.Gives r) : l.makesRequest = true := by
  have hmethod : l.part? .method = some r.method := part?_of_gives h (by simp [RequestText.parts])
  have hscheme : l.part? .scheme = some (Ascii.bytes "http") :=
    part?_of_gives h (by simp [RequestText.parts])
  have hpath : l.part? .path = some r.path := part?_of_gives h (by simp [RequestText.parts])
  have hprotocol : l.part? .protocol = none :=
    part?_eq_none_of_gives h (by simp [RequestText.parts])
  have hstatus : l.part? .status = none := part?_eq_none_of_gives h (by simp [RequestText.parts])
  have hauthority : (l.part? .authority).all isAuthority = true := by
    cases hgiven : r.authority with
    | none =>
        rw [part?_eq_none_of_gives h (by simp [RequestText.parts, hgiven])]
        rfl
    | some a =>
        rw [part?_of_gives h (by simp [RequestText.parts, hgiven] : (Part.authority, a) ∈ r.parts)]
        exact isAuthority_of_text (hr.authority a hgiven)
  have htunnel : l.asksTunnel = false := by
    simpa [asksTunnel, hmethod] using hr.noTunnel
  have hhttp : isScheme (Ascii.bytes "http") = true := by
    decide +kernel
  simp [makesRequest, has, hmethod, hscheme, hpath, hprotocol, hstatus, hauthority, htunnel, hhttp,
    (isPath_of_plain hr.path).right]

theorem judge_of_gives {r : RequestText} (hr : r.IsValid {}) {l : HeaderList} (h : l.Gives r)
    {length : Option Nat} (hlength : StatesLength {} r.fields length) {endStream : Bool}
    (hend : endStream = true -> length.getD 0 = 0) :
    l.judge endStream = .accepted ⟨r.method, length⟩ := by
  have hmethod : l.part? .method = some r.method := part?_of_gives h (by simp [RequestText.parts])
  have hcontent : l.contentLength? = some length := contentLength?_of_states (h.fields ▸ hlength)
  have hdone : ¬ (endStream = true ∧ length.any (0 < ·) = true) := by
    rintro ⟨hended, hmore⟩
    have hzero := hend hended
    cases length with
    | none => cases hmore
    | some n => simp_all
  rw [judge, h.malformed, hcontent]
  simp only [Bool.false_eq_true, if_false, hdone, h.tooLarge, makesRequest_of_gives hr h, if_true,
    hmethod, Option.getD_some]

end HeaderList

end Http2
end ConstantReply
