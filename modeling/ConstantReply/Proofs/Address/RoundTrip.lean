import ConstantReply.Failure
import ConstantReply.Proofs.Address.Canonical
import ConstantReply.Proofs.Address.Reading
import ConstantReply.Startup

/-!
# Printed addresses are read back

What is printed of an address is one of its texts, so it is read as the address it was printed of.
-/

namespace ConstantReply
namespace Address

/-!
## What is printed is a text of the address
-/

theorem CanonicalText.ipv6Text {cs : List Char} {ip : Ipv6} (h : CanonicalText cs ip) :
    Ipv6Text cs ip := by
  cases h with
  | @dotted cs _ v4 hip hcs =>
      have hfull : ShortGroup "ffff".toList 0xFFFF := shortGroup_iff.mpr (by decide)
      have hback : PartText true ("ffff".toList ++ ':' :: cs) (0xFFFF :: v4.toGroups) :=
        .some (.cons hfull.groupText (.dotted hcs))
      exact .compressed .none hback (by decide : 0 < 5) hip
  | compressed _ hrun htwo hfront hback =>
      have hpos := Nat.lt_of_lt_of_le Nat.zero_lt_two htwo
      exact .compressed hfront.partText hback.partText hpos hrun.cut
  | full _ _ _ hcs =>
      have hne : ip.groups ≠ [] := by
        intro hnil
        have hlength := ip.length_groups
        rw [hnil] at hlength
        cases hlength
      exact .full (hcs.partText.groupsText hne)

/-!
## Socket addresses
-/

/-- The canonical text of a socket address; a scope of zero is not shown. -/
inductive CanonicalSocketText : List Char -> SocketAddress -> Prop where
  | v4 {cs number : List Char} {ip : Ipv4} {port : UInt16} :
      Ipv4Text cs ip -> ShortNumber number port.toNat ->
      CanonicalSocketText (cs ++ ':' :: number) ⟨.v4 ip, port⟩
  | v6 {cs number : List Char} {ip : Ipv6} {port : UInt16} :
      CanonicalText cs ip -> ShortNumber number port.toNat ->
      CanonicalSocketText ('[' :: cs ++ ']' :: ':' :: number) ⟨.v6 ip 0, port⟩
  | numbered {cs zone number : List Char} {ip : Ipv6} {scope : UInt32} {port : UInt16} :
      CanonicalText cs ip -> scope ≠ 0 -> ShortNumber zone scope.toNat ->
      ShortNumber number port.toNat ->
      CanonicalSocketText ('[' :: cs ++ '%' :: zone ++ ']' :: ':' :: number) ⟨.v6 ip scope, port⟩

theorem canonicalSocketText_iff {cs : List Char} {address : SocketAddress} :
    CanonicalSocketText cs address <-> cs = address.chars := by
  constructor
  · intro h
    cases h with
    | v4 hip hport =>
        rw [ipv4Text_iff.mp hip, shortNumber_iff.mp hport]
        rfl
    | v6 hip hport =>
        rw [canonicalText_iff.mp hip, shortNumber_iff.mp hport]
        simp [SocketAddress.chars]
    | numbered hip hscope hzone hport =>
        rw [canonicalText_iff.mp hip, shortNumber_iff.mp hzone, shortNumber_iff.mp hport]
        simp [SocketAddress.chars, hscope]
  · rintro rfl
    rcases address with ⟨ip, port⟩
    have hport : ShortNumber (Nat.toDigits 10 port.toNat) port.toNat := shortNumber_iff.mpr rfl
    cases ip with
    | v4 ip => exact .v4 (ipv4Text_iff.mpr rfl) hport
    | v6 ip scope =>
        have hip : CanonicalText ip.chars ip := canonicalText_iff.mpr rfl
        simp only [SocketAddress.chars]
        split
        · rename_i hzero
          rw [List.append_nil, hzero]
          exact .v6 hip hport
        · rename_i hscope
          exact .numbered hip hscope (shortNumber_iff.mpr rfl) hport

theorem CanonicalSocketText.socketText {cs : List Char} {address : SocketAddress}
    (h : CanonicalSocketText cs address) : SocketText cs address := by
  cases h with
  | v4 hip hport => exact .v4 hip hport.number
  | v6 hip hport => exact .v6 (.bare hip.ipv6Text) hport.number
  | numbered hip _ hzone hport =>
      have htext := SocketText.v6 (.numbered hip.ipv6Text hzone.number) hport.number
      rwa [← List.cons_append] at htext

theorem parse?_display (address : SocketAddress) :
    SocketAddress.parse? address.display = some address := by
  apply parse?_eq_some_iff.mpr
  rw [SocketAddress.display, String.toList_ofList]
  exact (canonicalSocketText_iff.mpr rfl).socketText

theorem display_injective {a b : SocketAddress} (h : a.display = b.display) : a = b := by
  have hread := parse?_display a
  rw [h, parse?_display b] at hread
  exact (Option.some.inj hread).symm

/-!
## Where addresses are shown
-/

/-- The texts that show an address, each with what stands in front of the address and after it. -/
inductive Shown (address : SocketAddress) : String -> String -> String -> Prop where
  | inUse : Shown address (ListenError.addressInUse address).display
      "failed to bind " ": address already in use"
  | denied : Shown address (ListenError.permissionDenied address).display
      "failed to bind " ": permission denied"
  | unbound (cause : SystemError) : Shown address (ListenError.bind address cause).display
      "failed to bind " (": " ++ cause.display)
  | announced : Shown address (announcement address) "Listening on http://" "\n"

theorem Shown.eq_append {address : SocketAddress} {message opening closing : String}
    (h : Shown address message opening closing) :
    message = opening ++ address.display ++ closing := by
  cases h with
  | inUse => rfl
  | denied => rfl
  | unbound cause => exact String.append_assoc
  | announced => rfl

theorem dot_mem_display_iff {ip : Ipv6} {scope : UInt32} {port : UInt16} :
    '.' ∈ (SocketAddress.mk (.v6 ip scope) port).display.toList <-> '.' ∈ ip.chars := by
  have hdigits (n : Nat) : '.' ∉ Nat.toDigits 10 n :=
    (numberText_toDigits (by decide) (by decide) n).not_mem (by decide) (by decide)
  rw [SocketAddress.display, String.toList_ofList]
  simp only [SocketAddress.chars]
  split <;> simp [hdigits]

/-- What printing an address and reading texts have to do with each other. -/
structure ReadsBack (address : SocketAddress) : Prop where
  shown : forall message opening closing, Shown address message opening closing ->
    exists text, SocketAddress.parse? text = some address ∧
      forall other, message = opening ++ other ++ closing <-> other = text
  accepted : forall s, SocketAddress.parse? s = some address <-> SocketText s.toList address
  alike : forall s t other, SocketAddress.parse? s = some address ->
    SocketAddress.parse? t = some other -> (address.display = other.display <-> address = other)
  idempotent : (SocketAddress.parse? address.display).map SocketAddress.display =
    some address.display
  canonical : forall cs, CanonicalSocketText cs address <-> cs = address.display.toList
  dotted : forall ip scope, address.ip = .v6 ip scope ->
    ('.' ∈ address.display.toList <-> exists v4, StandsFor ip v4)

/-- Printed addresses are read back, wherever they are shown, and printed canonically. -/
theorem readsBack (address : SocketAddress) : ReadsBack address := by
  refine ⟨?_, fun s => parse?_eq_some_iff, ?_, ?_, ?_, ?_⟩
  · intro message opening closing hshown
    refine ⟨address.display, parse?_display address, fun other => ?_⟩
    rw [hshown.eq_append, String.append_left_inj, String.append_right_inj]
    exact eq_comm
  · intro s t other _ _
    exact ⟨display_injective, congrArg SocketAddress.display⟩
  · rw [parse?_display, Option.map_some]
  · intro cs
    rw [SocketAddress.display, String.toList_ofList]
    exact canonicalSocketText_iff
  · intro ip scope hip
    rcases address with ⟨_, port⟩
    cases hip
    exact dot_mem_display_iff.trans dot_mem_chars_iff

end Address
end ConstantReply
