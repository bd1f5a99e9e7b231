import ConstantReply.Http2.HeaderList
import ConstantReply.Proofs.Http.WrittenRequest

/-!
# Authorities

An authority names a host or gives an address in brackets, and may tell a port.  Every authority
without escapes is read.
-/

namespace ConstantReply
namespace Http2

def isHostByte (b : UInt8) : Bool :=
  Ascii.isAlphanumericByte b || Http.Target.authorityMarks.contains b

def isHexByte (b : UInt8) : Bool := (Ascii.hexDigitByte? b).isSome

def isAddressByte (b : UInt8) : Bool := isHostByte b || b == Http.colon

/-- The name of a host, with escapes or without. -/
inductive HostText (escapes : Bool) : List UInt8 -> Prop where
  | nothing : HostText escapes []
  | plain {b : UInt8} {rest : List UInt8} :
      isHostByte b = true -> HostText escapes rest -> HostText escapes (b :: rest)
  | escaped {a b : UInt8} {rest : List UInt8} :
      escapes = true -> isHexByte a = true -> isHexByte b = true -> HostText escapes rest ->
      HostText escapes (Http.Target.percent :: a :: b :: rest)

/-- A port with its colon, or nothing. -/
inductive PortText : List UInt8 -> Prop where
  | nothing : PortText []
  | given {digits : List UInt8} :
      (forall b, b ∈ digits -> Ascii.isDigitByte b = true) -> PortText (Http.colon :: digits)

/-- A host, or an address in brackets, and perhaps a port. -/
inductive AuthorityText (escapes : Bool) (colons : Nat) : List UInt8 -> Prop where
  | host {name port : List UInt8} :
      name ≠ [] -> HostText escapes name -> PortText port ->
      AuthorityText escapes colons (name ++ port)
  | address {inside port : List UInt8} :
      (forall b, b ∈ inside -> isAddressByte b = true) -> inside.count Http.colon ≤ colons ->
      PortText port -> AuthorityText escapes colons (0x5B :: (inside ++ 0x5D :: port))

/-!
## Reading
-/

open Http (forall_byte)
open Http.Target (AuthorityState)

def isAuthorityByte (b : UInt8) : Bool :=
  isHostByte b || b == Http.colon || b == 0x5B || b == 0x5D

theorem apart_of_isHostByte : forall b : UInt8, isHostByte b = true ->
    b ≠ Http.colon ∧ b ≠ 0x5B ∧ b ≠ 0x5D ∧ b ≠ Http.Target.atSign ∧ b ≠ Http.Target.percent :=
  forall_byte (by decide +kernel)

theorem isHostByte_of_isDigitByte : forall b : UInt8, Ascii.isDigitByte b = true ->
    isHostByte b = true :=
  forall_byte (by decide +kernel)

theorem isHostByte_of_isAddressByte : forall b : UInt8, isAddressByte b = true ->
    b ≠ Http.colon -> isHostByte b = true :=
  forall_byte (by decide +kernel)

theorem harmless_of_isAuthorityByte : forall b : UInt8, isAuthorityByte b = true ->
    Http.Target.endsAuthority b = false ∧ b < 0x80 :=
  forall_byte (by decide +kernel)

theorem step?_of_isHostByte {s : AuthorityState} (hs : s.afterAt = false) {b : UInt8}
    (h : isHostByte b = true) : s.step? b = some s := by
  rcases apart_of_isHostByte b h with ⟨hcolon, hopen, hclose, hat, hpercent⟩
  have hsame : { s with afterAt := false } = s := by
    rw [← hs]
  rw [AuthorityState.step?]
  simp only [hcolon, hopen, hclose, hat, hpercent, if_false]
  exact (if_pos h).trans (congrArg some hsame)

theorem foldlM_step?_host {s : AuthorityState} (hs : s.afterAt = false) {x : List UInt8}
    (hx : forall b, b ∈ x -> isHostByte b = true) : x.foldlM AuthorityState.step? s = some s := by
  induction x with
  | nil => rfl
  | cons b rest ih =>
      rw [List.foldlM_cons, step?_of_isHostByte hs (hx b List.mem_cons_self)]
      exact ih fun c hc => hx c (List.mem_cons_of_mem b hc)

theorem step?_colon {s : AuthorityState} (hs : s.afterAt = false) (hfew : s.colons < 8) :
    s.step? Http.colon = some { s with colons := s.colons + 1 } := by
  have hmany : ¬ 8 ≤ s.colons := Nat.not_le.mpr hfew
  rw [AuthorityState.step?, ← hs]
  simp only [if_true, hmany, if_false]

theorem foldlM_step?_address {x : List UInt8} (hx : forall b, b ∈ x -> isAddressByte b = true)
    {s : AuthorityState} (hs : s.afterAt = false) (hcount : s.colons + x.count Http.colon ≤ 8) :
    x.foldlM AuthorityState.step? s =
      some { s with colons := s.colons + x.count Http.colon } := by
  induction x generalizing s with
  | nil => rfl
  | cons b rest ih =>
      have hrest : forall c, c ∈ rest -> isAddressByte c = true :=
        fun c hc => hx c (List.mem_cons_of_mem b hc)
      by_cases hb : b = Http.colon
      · subst hb
        rw [List.count_cons_self] at hcount ⊢
        have hmore : s.colons + 1 + rest.count Http.colon = s.colons + (rest.count Http.colon + 1) := by
          omega
        have hread := ih hrest (s := { s with colons := s.colons + 1 }) hs (by simp only; omega)
        rw [List.foldlM_cons, step?_colon hs (by omega)]
        simp only [hmore] at hread
        exact hread
      · have hhost := isHostByte_of_isAddressByte b (hx b List.mem_cons_self) hb
        rw [List.count_cons_of_ne hb] at hcount ⊢
        rw [List.foldlM_cons, step?_of_isHostByte hs hhost]
        exact ih hrest hs hcount

theorem isHostByte_of_hostText {name : List UInt8} (h : HostText false name) :
    forall b, b ∈ name -> isHostByte b = true := by
  induction h with
  | nothing => simp
  | plain hb _ ih => exact List.forall_mem_cons.mpr ⟨hb, ih⟩
  | escaped hno => cases hno

theorem exists_foldlM_port {s : AuthorityState} (hs : s.afterAt = false) (hnone : s.colons = 0)
    {port : List UInt8} (h : PortText port) :
    exists n, n ≤ 1 ∧ port.foldlM AuthorityState.step? s = some { s with colons := n } := by
  cases h with
  | nothing => exact ⟨0, by decide, by rw [← hnone]; rfl⟩
  | @given digits hdigits =>
      have hfew : s.colons < 8 := by
        omega
      have hhost : forall b, b ∈ digits -> isHostByte b = true :=
        fun b hb => isHostByte_of_isDigitByte b (hdigits b hb)
      refine ⟨s.colons + 1, by omega, ?_⟩
      rw [List.foldlM_cons, step?_colon hs hfew]
      exact foldlM_step?_host (s := { s with colons := s.colons + 1 }) hs hhost

theorem authority_of_foldlM {x : List UInt8} {s : AuthorityState}
    (h : x.foldlM AuthorityState.step? {} = some s) (hs : s.isComplete = true) :
    Http.Target.authority x = true := by
  rw [Http.Target.authority, h]
  exact hs

theorem authority_of_text {a : List UInt8} (h : AuthorityText false 8 a) :
    Http.Target.authority a = true := by
  cases h with
  | @host name port _ hname hport =>
      rcases exists_foldlM_port (s := {}) rfl rfl hport with ⟨n, hn, hread⟩
      apply authority_of_foldlM (s := { colons := n })
      · rw [List.foldlM_append, foldlM_step?_host rfl (isHostByte_of_hostText hname)]
        exact hread
      · simp [AuthorityState.isComplete, hn]
  | @address inside port hinside hcount hport =>
      rcases exists_foldlM_port (s := { opened := true, closed := true }) rfl rfl hport with
        ⟨n, hn, hread⟩
      have haddress := foldlM_step?_address hinside (s := { opened := true }) rfl
        (by simpa using hcount)
      apply authority_of_foldlM (s := { colons := n, opened := true, closed := true })
      · rw [List.foldlM_cons]
        change (inside ++ 0x5D :: port).foldlM AuthorityState.step? { opened := true } = _
        rw [List.foldlM_append, haddress]
        change (0x5D :: port).foldlM AuthorityState.step? { opened := true, colons := _ } = _
        rw [List.foldlM_cons]
        exact hread
      · simp [AuthorityState.isComplete, hn]

theorem isAuthorityByte_of_portText {port : List UInt8} (h : PortText port) :
    forall b, b ∈ port -> isAuthorityByte b = true := by
  cases h with
  | nothing => simp
  | given hdigits =>
      refine List.forall_mem_cons.mpr ⟨by decide, ?_⟩
      intro b hb
      simp [isAuthorityByte, isHostByte_of_isDigitByte b (hdigits b hb)]

theorem isAuthorityByte_of_text {a : List UInt8} (h : AuthorityText false 8 a) :
    forall b, b ∈ a -> isAuthorityByte b = true := by
  cases h with
  | host _ hname hport =>
      intro b hb
      rcases List.mem_append.mp hb with hb | hb
      · simp [isAuthorityByte, isHostByte_of_hostText hname b hb]
      · exact isAuthorityByte_of_portText hport b hb
  | address hinside _ hport =>
      refine List.forall_mem_cons.mpr ⟨by decide, ?_⟩
      intro b hb
      rcases List.mem_append.mp hb with hb | hb
      · by_cases hcolon : b = Http.colon
        · rw [hcolon]
          decide
        · simp [isAuthorityByte, isHostByte_of_isAddressByte b (hinside b hb) hcolon]
      · exact List.forall_mem_cons.mpr ⟨by decide, isAuthorityByte_of_portText hport⟩ b hb

theorem authorityText_ne_nil {escapes : Bool} {colons : Nat} {a : List UInt8}
    (h : AuthorityText escapes colons a) :
    a ≠ [] := by
  cases h with
  | host hne _ _ => exact fun hnil => hne (List.append_eq_nil_iff.mp hnil).left
  | address _ _ _ => exact List.cons_ne_nil _ _

theorem isAuthority_of_text {a : List UInt8} (h : AuthorityText false 8 a) :
    HeaderList.isAuthority a = true := by
  have hends : a.any Http.Target.endsAuthority = false := by
    rw [List.any_eq_false]
    intro b hb
    simp [(harmless_of_isAuthorityByte b (isAuthorityByte_of_text h b hb)).left]
  simp [HeaderList.isAuthority, authorityText_ne_nil h, hends, authority_of_text h]

end Http2
end ConstantReply
