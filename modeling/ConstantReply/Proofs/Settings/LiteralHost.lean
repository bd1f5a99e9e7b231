import ConstantReply.Listener.Bind
import ConstantReply.Proofs.Address.Reading
import ConstantReply.Proofs.Listener.Classification

/-!
# Hosts that are addresses

A host may be an address already.  Put together with the port it is read as that address, so no
name is looked up and nothing else is bound.  Whether a host goes into brackets is decided from two
of its characters, which is enough because dotted quads have no colon and the other addresses have
one.
-/

namespace ConstantReply
namespace Address

/-!
## Characters of addresses
-/

section

variable {c : Char} (hdigit : Ascii.hexDigit? c = none) (hdot : c ≠ '.')

include hdigit hdot

theorem not_mem_ipv4Text {cs : List Char} {ip : Ipv4} (h : Ipv4Text cs ip) : c ∉ cs := by
  cases h with
  | quad ha hb hc hd =>
      have hnone {cs : List Char} {n : Nat} (h : ShortNumber cs n) : c ∉ cs :=
        h.number.not_mem (by decide) hdigit
      simp [hnone ha, hnone hb, hnone hc, hnone hd, hdot]

variable (hcolon : c ≠ ':')

include hcolon

theorem not_mem_groupsText {dotted : Bool} {cs : List Char} {groups : List UInt16}
    (h : GroupsText dotted cs groups) : c ∉ cs := by
  induction h with
  | group hgroup => exact hgroup.number.not_mem (Nat.le_refl 16) hdigit
  | dotted hip => exact not_mem_ipv4Text hdigit hdot hip
  | cons hgroup _ ih => simp [hgroup.number.not_mem (Nat.le_refl 16) hdigit, hcolon, ih]

theorem not_mem_partText {dotted : Bool} {cs : List Char} {groups : List UInt16}
    (h : PartText dotted cs groups) : c ∉ cs := by
  cases h with
  | none => exact List.not_mem_nil
  | some hgroups => exact not_mem_groupsText hdigit hdot hcolon hgroups

theorem not_mem_ipv6Text {cs : List Char} {ip : Ipv6} (h : Ipv6Text cs ip) : c ∉ cs := by
  cases h with
  | full hgroups => exact not_mem_groupsText hdigit hdot hcolon hgroups
  | compressed hfront hback =>
      have hfront' := not_mem_partText hdigit hdot hcolon hfront
      have hback' := not_mem_partText hdigit hdot hcolon hback
      simp [hfront', hback', hcolon]

end

theorem GroupsText.colon_mem {dotted : Bool} {cs : List Char} {groups : List UInt16}
    (h : GroupsText dotted cs groups) (hmany : 2 < groups.length) : ':' ∈ cs := by
  cases h with
  | group => exact absurd hmany (by simp)
  | dotted => exact absurd hmany (by simp [Ipv4.toGroups])
  | cons => simp

theorem Ipv6Text.colon_mem {cs : List Char} {ip : Ipv6} (h : Ipv6Text cs ip) : ':' ∈ cs := by
  cases h with
  | full hgroups => exact hgroups.colon_mem (by rw [ip.length_groups]; decide)
  | compressed => simp

theorem ScopedText.colon_mem {cs : List Char} {ip : Ipv6} {scope : UInt32}
    (h : ScopedText cs ip scope) : ':' ∈ cs := by
  cases h with
  | bare hip => exact hip.colon_mem
  | numbered hip => exact List.mem_append_left _ hip.colon_mem

theorem ScopedText.not_mem_bracket {cs : List Char} {ip : Ipv6} {scope : UInt32}
    (h : ScopedText cs ip scope) : '[' ∉ cs := by
  have hnone {cs : List Char} (hip : Ipv6Text cs ip) : '[' ∉ cs :=
    not_mem_ipv6Text (by decide) (by decide) (by decide) hip
  cases h with
  | bare hip => exact hnone hip
  | numbered hip hnumber =>
      have hnumber' := hnumber.not_mem (by decide) (by decide : Ascii.hexDigit? '[' = none)
      simp [hnone hip, hnumber']

end Address

/-!
## The text of host and port
-/

namespace Endpoint

open Address

variable {endpoint : Endpoint}

theorem numberText_port (port : UInt16) :
    NumberText 10 (toString port.toNat).toList port.toNat := by
  rw [Nat.toString_eq_repr, Nat.toList_repr]
  exact numberText_toDigits (by decide) (by decide) _

theorem toList_address_of_bare (hcolon : ':' ∈ endpoint.host.toList)
    (hbracket : '[' ∉ endpoint.host.toList) :
    endpoint.address.toList =
      '[' :: endpoint.host.toList ++ ']' :: ':' :: (toString endpoint.port.toNat).toList := by
  have hhead : endpoint.host.toList.head? ≠ some '[' :=
    fun h => hbracket (List.mem_of_mem_head? h)
  simp [address, hcolon, hhead]

theorem toList_address_of_plain (h : ':' ∉ endpoint.host.toList ∨
      endpoint.host.toList.head? = some '[') :
    endpoint.address.toList =
      endpoint.host.toList ++ ':' :: (toString endpoint.port.toNat).toList := by
  have hnot : ¬(':' ∈ endpoint.host.toList ∧ endpoint.host.toList.head? ≠ some '[') :=
    fun hboth => h.elim (fun hcolon => hcolon hboth.left) hboth.right
  simp [address, if_neg hnot]

/-- A host that is an address.  Brackets belong to the addresses with colons. -/
inductive Literal : List Char -> Ip -> Prop where
  | v4 {cs : List Char} {ip : Ipv4} : Ipv4Text cs ip -> Literal cs (.v4 ip)
  | bare {cs : List Char} {ip : Ipv6} {scope : UInt32} :
      ScopedText cs ip scope -> Literal cs (.v6 ip scope)
  | bracketed {cs : List Char} {ip : Ipv6} {scope : UInt32} :
      ScopedText cs ip scope -> Literal ('[' :: cs ++ [']']) (.v6 ip scope)

theorem socketText_address {ip : Ip} (h : Literal endpoint.host.toList ip) :
    SocketText endpoint.address.toList ⟨ip, endpoint.port⟩ := by
  have hport := numberText_port endpoint.port
  generalize hhost : endpoint.host.toList = host at h
  cases h with
  | v4 hip =>
      have hcolon : ':' ∉ host := not_mem_ipv4Text (by decide) (by decide) hip
      rw [toList_address_of_plain (Or.inl (hhost ▸ hcolon)), hhost]
      exact .v4 hip hport
  | bare hip =>
      rw [toList_address_of_bare (hhost ▸ hip.colon_mem) (hhost ▸ hip.not_mem_bracket), hhost]
      exact .v6 hip hport
  | @bracketed cs _ _ hip =>
      rw [toList_address_of_plain (Or.inr (by rw [hhost]; rfl)), hhost, List.append_assoc]
      exact .v6 hip hport

theorem parse?_address {ip : Ip} (h : Literal endpoint.host.toList ip) :
    SocketAddress.parse? endpoint.address = some ⟨ip, endpoint.port⟩ :=
  parse?_eq_some_iff.mpr (socketText_address h)

/-!
## What is done with it
-/

/-- A host that is an address stays that address: no name is looked up and nothing else bound. -/
structure KeepsLiteral (endpoint : Endpoint) (ip : Ip) : Prop where
  parsed : SocketAddress.parse? endpoint.address = some ⟨ip, endpoint.port⟩
  brackets : forall cs v6 scope, ip = .v6 v6 scope -> ScopedText cs v6 scope ->
    { endpoint with host := String.ofList cs }.address =
      { endpoint with host := String.ofList ('[' :: cs ++ [']']) }.address
  resolved : forall {m : Type -> Type} [Monad m]
    (lookup : String -> m (Except SystemError (List Ip))),
    (Resolution.ofAddress endpoint.address).run lookup = pure (.ok [⟨ip, endpoint.port⟩])
  attempted : forall {m : Type -> Type} [Monad m] [LawfulMonad m] (calls : SocketCalls m)
    (lookup : String -> m (Except SystemError (List Ip))),
    (forall text, calls.resolve text = (Resolution.ofAddress text).run lookup) ->
    Listener.bind calls endpoint = Listener.bindAddress calls endpoint ⟨ip, endpoint.port⟩
  bound : forall (network : Network) (table : SocketTable) listener after, table.Numbered ->
    network.listen endpoint table = (.bound listener, after) ->
    listener.address.ip = ip ∧ (endpoint.port ≠ 0 -> listener.address.port = endpoint.port)

theorem address_of_brackets {cs : List Char} {ip : Ipv6} {scope : UInt32}
    (h : ScopedText cs ip scope) :
    { endpoint with host := String.ofList cs }.address =
      { endpoint with host := String.ofList ('[' :: cs ++ [']']) }.address := by
  apply String.toList_inj.mp
  rw [toList_address_of_bare (by simpa using h.colon_mem) (by simpa using h.not_mem_bracket),
    toList_address_of_plain (Or.inr (by simp)), String.toList_ofList, String.toList_ofList,
    List.append_assoc]
  rfl

theorem ip_of_bind {network : Network} {bound : List SocketAddress} {address got : SocketAddress}
    (h : network.bind bound address = .ok got) :
    got.ip = address.ip ∧ (address.port ≠ 0 -> got.port = address.port) := by
  unfold Network.bind at h
  split at h
  · cases h
  split at h
  · rename_i hzero
    cases h
    exact ⟨rfl, fun hport => absurd hzero hport⟩
  split at h
  · cases h
  · cases h
    exact ⟨rfl, fun _ => rfl⟩

theorem ip_of_listen {network : Network} {table after : SocketTable} {address : SocketAddress}
    {listener : Listener} (hresolve : network.resolve endpoint.address = .ok [address])
    (hnumbered : table.Numbered)
    (h : network.listen endpoint table = (.bound listener, after)) :
    listener.address.ip = address.ip ∧
      (address.port ≠ 0 -> listener.address.port = address.port) := by
  have hrun : (network.outcomes.calls.resolve endpoint.address).run table =
      (.ok [address], table) := congrArg (·, table) hresolve
  have hslots : endpoint.maxConnections.toNat ≤ maxSlots := by
    rw [Network.listen, Listener.bind, run_bind_of_run hrun] at h
    exact Listener.slots_of_bindAddress h
  have hends : Listener.Ends network.outcomes endpoint table _ :=
    Listener.ends_bind hnumbered hslots
  rw [Network.listen] at h
  rw [h] at hends
  cases hends with
  | bound hfound _ hbind htold =>
      have heq := hresolve.symm.trans hfound
      cases heq
      cases htold
      exact ip_of_bind hbind

theorem keepsLiteral_of_literal {ip : Ip} (h : Literal endpoint.host.toList ip) :
    KeepsLiteral endpoint ip := by
  have hparsed := parse?_address h
  have hresolution : Resolution.ofAddress endpoint.address = .done (.ok [⟨ip, endpoint.port⟩]) := by
    simp only [Resolution.ofAddress, hparsed]
  refine ⟨hparsed, fun cs v6 scope _ htext => address_of_brackets htext, ?_, ?_, ?_⟩
  · intro m _ lookup
    rw [hresolution]
    rfl
  · intro m _ _ calls lookup hcalls
    simp only [Listener.bind, hcalls, hresolution, Resolution.run, pure_bind]
  · intro network table listener after hnumbered hbound
    have hresolve : network.resolve endpoint.address = .ok [⟨ip, endpoint.port⟩] := by
      rw [Network.resolve, hresolution]
      rfl
    exact ip_of_listen hresolve hnumbered hbound

theorem keepsLiteral_of_loopback :
    Literal "[::1%02]".toList (.v6 Ipv6.loopback 2) ∧
      KeepsLiteral { host := "[::1%02]" } (.v6 Ipv6.loopback 2) := by
  have hgroup : GroupText ['1'] 1 := ⟨.digit (by decide), by decide⟩
  have hip : Ipv6Text [':', ':', '1'] Ipv6.loopback :=
    .compressed .none (.some (.group hgroup)) (by decide : 0 < 7) rfl
  have hzero : IsDigit 10 '0' 0 := by decide
  have htwo : IsDigit 10 '2' 2 := by decide
  have hscope : NumberText 10 ['0', '2'] (2 : UInt32).toNat := .more (.digit hzero) htwo
  have hliteral : Literal "[::1%02]".toList (.v6 Ipv6.loopback 2) := by
    have htext : "[::1%02]".toList = '[' :: ([':', ':', '1'] ++ '%' :: ['0', '2']) ++ [']'] := rfl
    rw [htext]
    exact .bracketed (.numbered hip hscope)
  exact ⟨hliteral, keepsLiteral_of_literal hliteral⟩

end Endpoint
end ConstantReply
