import ConstantReply.Proofs.Address.Digits

/-!
# Reading is by the grammar

Each reader takes a text of its kind off the front, and takes every such text, as long as nothing
follows that could go on with it.  So a whole text is read as a socket address exactly if it is one
that the address can be written as.
-/

namespace ConstantReply
namespace Address

/-!
## What follows
-/

theorem stops_nil {radix : Nat} : Stops radix [] := by
  intro c hc
  cases hc

theorem stops_cons {radix : Nat} {c : Char} {rest : List Char} (hradix : radix ≤ 16)
    (hc : Ascii.hexDigit? c = none) : Stops radix (c :: rest) := by
  intro first hfirst d hd
  cases hfirst
  have hread := (hexDigit?_eq_some_iff c d).mpr ⟨Nat.lt_of_lt_of_le hd.left hradix, hd.right⟩
  rw [hc] at hread
  cases hread

theorem skip_eq_some_iff {c : Char} {cs rest : List Char} :
    skip c cs = some rest <-> cs = c :: rest := by
  cases cs with
  | nil => simp [skip]
  | cons d more =>
      by_cases hd : d = c
      · simp [skip, hd]
      · simp [skip, hd]

/-!
## Numbers
-/

theorem digitRun_number {radix : Nat} {digit? : Char -> Option Nat}
    (hdigits : forall c d, digit? c = some d <-> IsDigit radix c d) {cs : List Char}
    (hne : (digitRun digit? cs).1 ≠ []) : exists text,
      cs = text ++ (digitRun digit? cs).2 ∧ Stops radix (digitRun digit? cs).2 ∧
      List.Forall₂ (IsDigit radix) text (digitRun digit? cs).1 ∧
      NumberText radix text (ofDigits radix (digitRun digit? cs).1) := by
  rcases (digitRun_eq_iff hdigits).mp (Prod.eta (digitRun digit? cs)).symm with
    ⟨text, hcs, htext, hstops⟩
  exact ⟨text, hcs, hstops, htext, numberText_iff.mpr ⟨_, htext, hne, rfl⟩⟩

theorem digitRun_of_number {radix : Nat} {digit? : Char -> Option Nat}
    (hdigits : forall c d, digit? c = some d <-> IsDigit radix c d) {text rest : List Char}
    {n : Nat} (h : NumberText radix text n) (hstops : Stops radix rest) : exists ds,
      digitRun digit? (text ++ rest) = (ds, rest) ∧ List.Forall₂ (IsDigit radix) text ds ∧
      ds ≠ [] ∧ ofDigits radix ds = n := by
  rcases numberText_iff.mp h with ⟨ds, htext, hne, hn⟩
  exact ⟨ds, (digitRun_eq_iff hdigits).mpr ⟨text, rfl, htext, hstops⟩, htext, hne, hn⟩

theorem readDecimal_eq_some_iff {greatest n : Nat} {cs rest : List Char} :
    readDecimal greatest cs = some (n, rest) <-> exists text,
      cs = text ++ rest ∧ NumberText 10 text n ∧ n ≤ greatest ∧ Stops 10 rest := by
  constructor
  · intro h
    simp only [readDecimal, Option.ite_none_right_eq_some, Option.some.injEq, Prod.mk.injEq] at h
    rcases h with ⟨⟨hne, hle⟩, rfl, rfl⟩
    rcases digitRun_number digit?_eq_some_iff hne with ⟨text, hcs, hstops, _, hnumber⟩
    exact ⟨text, hcs, hnumber, hle, hstops⟩
  · rintro ⟨text, rfl, hnumber, hle, hstops⟩
    rcases digitRun_of_number digit?_eq_some_iff hnumber hstops with ⟨ds, hrun, _, hne, rfl⟩
    simp only [readDecimal, hrun]
    exact if_pos ⟨hne, hle⟩

theorem noLeadingZero_iff {text : List Char} {ds : List Nat}
    (h : List.Forall₂ (IsDigit 10) text ds) :
    NoLeadingZero text <-> (ds.head? = some 0 -> ds.length = 1) := by
  cases h with
  | nil => simp [NoLeadingZero]
  | @cons c d text ds hc htext =>
      have hzero : c = '0' <-> d = 0 := by
        constructor
        · rintro rfl
          exact eq_zero_of_isDigit (by decide) hc
        · rintro rfl
          exact isDigit_zero hc
      have hnil : text = [] <-> ds = [] := by
        rw [← List.length_eq_zero_iff, ← List.length_eq_zero_iff, htext.length_eq]
      simp only [NoLeadingZero, List.head?_cons, Option.some.injEq, List.cons.injEq, hzero, hnil,
        List.length_cons, Nat.add_eq_right, List.length_eq_zero_iff]
      exact forall_congr' fun hd => and_iff_right hd

theorem readOctet_eq_some_iff {cs rest : List Char} {b : UInt8} :
    readOctet cs = some (b, rest) <-> exists text,
      cs = text ++ rest ∧ ShortNumber text b.toNat ∧ Stops 10 rest := by
  constructor
  · intro h
    simp only [readOctet, Option.ite_none_right_eq_some, Option.some.injEq, Prod.mk.injEq] at h
    rcases h with ⟨⟨hne, _, hzero, hle⟩, rfl, rfl⟩
    rcases digitRun_number digit?_eq_some_iff hne with ⟨text, hcs, hstops, htext, hnumber⟩
    refine ⟨text, hcs, ⟨?_, (noLeadingZero_iff htext).mpr hzero⟩, hstops⟩
    rwa [UInt8.toNat_ofNat_of_lt' (Nat.lt_succ_of_le hle)]
  · rintro ⟨text, rfl, hoctet, hstops⟩
    rcases digitRun_of_number digit?_eq_some_iff hoctet.number hstops with
      ⟨ds, hrun, htext, hne, hvalue⟩
    have hlt := b.toNat_lt
    have hlength : ds.length ≤ 3 := by
      rw [← htext.length_eq]
      exact hoctet.number.length_le hoctet.noZero (by decide) (Nat.lt_trans hlt (by decide))
    have hzero := (noLeadingZero_iff htext).mp hoctet.noZero
    simp only [readOctet, hrun, hvalue, UInt8.ofNat_toNat]
    exact if_pos ⟨hne, hlength, hzero, by omega⟩

theorem readGroup_eq_some_iff {cs rest : List Char} {g : UInt16} :
    readGroup cs = some (g, rest) <-> exists text,
      cs = text ++ rest ∧ GroupText text g ∧ Stops 16 rest := by
  constructor
  · intro h
    simp only [readGroup, Option.ite_none_right_eq_some, Option.some.injEq, Prod.mk.injEq] at h
    rcases h with ⟨⟨hne, hle⟩, rfl, rfl⟩
    rcases digitRun_number hexDigit?_eq_some_iff hne with ⟨text, hcs, hstops, htext, hnumber⟩
    have hlength : text.length ≤ 4 := htext.length_eq ▸ hle
    have hlt := Nat.lt_of_lt_of_le hnumber.lt_pow (Nat.pow_le_pow_right (by decide) hlength)
    refine ⟨text, hcs, ⟨?_, hlength⟩, hstops⟩
    rwa [UInt16.toNat_ofNat_of_lt' hlt]
  · rintro ⟨text, rfl, hgroup, hstops⟩
    rcases digitRun_of_number hexDigit?_eq_some_iff hgroup.number hstops with
      ⟨ds, hrun, htext, hne, hvalue⟩
    have hlength : ds.length ≤ 4 := htext.length_eq ▸ hgroup.length_le
    simp only [readGroup, hrun, hvalue, UInt16.ofNat_toNat]
    exact if_pos ⟨hne, hlength⟩

/-!
## Dotted quads
-/

theorem readIpv4_eq_some_iff {cs rest : List Char} {ip : Ipv4} :
    readIpv4 cs = some (ip, rest) <-> exists text,
      cs = text ++ rest ∧ Ipv4Text text ip ∧ Stops 10 rest := by
  have hdot (more : List Char) : Stops 10 ('.' :: more) := stops_cons (by decide) (by decide)
  simp only [readIpv4, Option.bind_eq_bind, Option.bind_eq_some_iff, Prod.exists,
    readOctet_eq_some_iff, skip_eq_some_iff, Option.pure_def, Option.some.injEq, Prod.mk.injEq]
  constructor
  · rintro ⟨a, _, ⟨ta, rfl, ha, _⟩, _, rfl, b, _, ⟨tb, rfl, hb, _⟩, _, rfl, c, _,
      ⟨tc, rfl, hc, _⟩, _, rfl, d, _, ⟨td, rfl, hd, hstops⟩, rfl, rfl⟩
    exact ⟨ta ++ '.' :: tb ++ '.' :: tc ++ '.' :: td, by simp, .quad ha hb hc hd, hstops⟩
  · rintro ⟨text, rfl, htext, hstops⟩
    cases htext with
    | @quad ta tb tc td _ ha hb hc hd =>
        exact ⟨ip.a, _, ⟨ta, by simp, ha, hdot _⟩, _, rfl, ip.b, _, ⟨tb, rfl, hb, hdot _⟩, _, rfl,
          ip.c, _, ⟨tc, rfl, hc, hdot _⟩, _, rfl, ip.d, rest, ⟨td, rfl, hd, hstops⟩, rfl, rfl⟩

/-!
## Groups
-/

/-- What can follow the groups of an address. -/
inductive Ends : List Char -> Prop where
  | nothing : Ends []
  | bracket {more : List Char} : Ends (']' :: more)
  | scope {more : List Char} : Ends ('%' :: more)
  | double {more : List Char} : Ends (':' :: ':' :: more)

theorem Ends.stops {radix : Nat} {rest : List Char} (hradix : radix ≤ 16) (h : Ends rest) :
    Stops radix rest := by
  cases h with
  | nothing => exact stops_nil
  | bracket => exact stops_cons hradix (by decide)
  | scope => exact stops_cons hradix (by decide)
  | double => exact stops_cons hradix (by decide)

theorem readGroup_of_stops {cs : List Char} (h : Stops 16 cs) : readGroup cs = none := by
  simp [readGroup, digitRun_of_stops hexDigit?_eq_some_iff h]

theorem Stops.decimal {cs : List Char} (h : Stops 16 cs) : Stops 10 cs :=
  fun c hc d hd => h c hc d ⟨Nat.lt_trans hd.left (by decide), hd.right⟩

theorem readIpv4_of_stops {cs : List Char} (h : Stops 10 cs) : readIpv4 cs = none := by
  simp [readIpv4, readOctet, digitRun_of_stops digit?_eq_some_iff h]

theorem readIpv4_of_groupText {text rest : List Char} {g : UInt16} (h : GroupText text g)
    (hstops : Stops 16 rest) (hdot : rest.head? ≠ some '.') : readIpv4 (text ++ rest) = none := by
  cases hread : readIpv4 (text ++ rest) with
  | none => rfl
  | some read =>
      rcases readIpv4_eq_some_iff.mp hread with ⟨quad, hcs, hquad, _⟩
      cases hquad with
      | @quad a b c d _ ha _ _ _ =>
          rcases numberText_iff.mp ha.number with ⟨ds, hds, _⟩
          have hhex : List.Forall₂ (IsDigit 16) a ds :=
            hds.imp fun c d hd => ⟨Nat.lt_trans hd.left (by decide), hd.right⟩
          rcases digitRun_of_number hexDigit?_eq_some_iff h.number hstops with ⟨es, hrun, _⟩
          have hsplit : text ++ rest = a ++ '.' :: (b ++ '.' :: (c ++ '.' :: (d ++ read.snd))) := by
            simpa using hcs
          have hother := (digitRun_eq_iff hexDigit?_eq_some_iff).mpr
            ⟨a, hsplit, hhex, stops_cons (Nat.le_refl 16) (by decide)⟩
          rw [hrun] at hother
          exact absurd (congrArg List.head? (congrArg Prod.snd hother)) hdot

/-- Groups as they are read: those after the first have a colon in front. -/
inductive LedText : Bool -> Bool -> List Char -> List UInt16 -> Prop where
  | none {first : Bool} : LedText first false [] []
  | first {dotted : Bool} {cs : List Char} {groups : List UInt16} :
      GroupsText dotted cs groups -> LedText true dotted cs groups
  | later {dotted : Bool} {cs : List Char} {groups : List UInt16} :
      GroupsText dotted cs groups -> LedText false dotted (':' :: cs) groups

theorem ledText_true_iff {dotted : Bool} {cs : List Char} {groups : List UInt16} :
    LedText true dotted cs groups <-> PartText dotted cs groups := by
  constructor
  · intro h
    cases h with
    | none => exact .none
    | first hgroups => exact .some hgroups
  · intro h
    cases h with
    | none => exact .none
    | some hgroups => exact .first hgroups

def afterColon (first : Bool) (cs : List Char) : Option (List Char) :=
  if first then some cs else skip ':' cs

theorem GroupsText.cons_led {dotted : Bool} {text more : List Char} {g : UInt16}
    {groups : List UInt16} (hgroup : GroupText text g) (hmore : LedText false dotted more groups) :
    GroupsText dotted (text ++ more) (g :: groups) := by
  cases hmore with
  | none =>
      rw [List.append_nil]
      exact .group hgroup
  | later hgroups => exact .cons hgroup hgroups

theorem LedText.of_afterColon {first dotted : Bool} {cs inner text rest : List Char}
    {groups : List UInt16} (hinner : afterColon first cs = some inner)
    (hgroups : GroupsText dotted text groups) (hsplit : inner = text ++ rest) :
    exists led, cs = led ++ rest ∧ LedText first dotted led groups := by
  cases first with
  | true =>
      cases hinner
      exact ⟨text, hsplit, .first hgroups⟩
  | false =>
      rw [skip_eq_some_iff.mp hinner, hsplit]
      exact ⟨':' :: text, rfl, .later hgroups⟩

theorem readGroups_sound (limit : Nat) (first : Bool) (cs : List Char) :
    (readGroups limit first cs).groups.length ≤ limit ∧ exists led,
      cs = led ++ (readGroups limit first cs).rest ∧
      LedText first (readGroups limit first cs).dotted led (readGroups limit first cs).groups := by
  induction limit generalizing first cs with
  | zero => exact ⟨Nat.le_refl 0, [], rfl, .none⟩
  | succ limit ih =>
      have hnothing : ([] : List UInt16).length ≤ limit + 1 ∧ exists led,
          cs = led ++ cs ∧ LedText first false led [] := ⟨Nat.zero_le _, [], rfl, .none⟩
      rw [readGroups]
      cases hinner : afterColon first cs with
      | none =>
          rw [afterColon] at hinner
          rwa [hinner]
      | some inner =>
          have hinner' := hinner
          rw [afterColon] at hinner'
          simp only [hinner']
          split
          · rename_i ip rest hquad
            split at hquad
            · cases hquad
            rename_i hroom
            rcases readIpv4_eq_some_iff.mp hquad with ⟨text, hsplit, htext, _⟩
            refine ⟨?_, LedText.of_afterColon hinner (.dotted htext) hsplit⟩
            exact Nat.succ_le_succ (Nat.pos_of_ne_zero hroom)
          · cases hgroup : readGroup inner with
            | none => exact hnothing
            | some read =>
                rcases read with ⟨g, rest⟩
                rcases readGroup_eq_some_iff.mp hgroup with ⟨text, hsplit, htext, _⟩
                rcases ih false rest with ⟨hlength, more, hrest, hmore⟩
                refine ⟨Nat.succ_le_succ hlength, ?_⟩
                apply LedText.of_afterColon hinner (.cons_led htext hmore)
                rw [hsplit, List.append_assoc, ← hrest]

section

variable {limit : Nat} {first : Bool} {cs inner : List Char}

theorem readGroups_of_none (h : afterColon first cs = none) :
    readGroups (limit + 1) first cs = ⟨[], false, cs⟩ := by
  rw [afterColon] at h
  simp only [readGroups, h]

theorem readGroups_of_stops (h : afterColon first cs = some inner) (hstops : Stops 16 inner) :
    readGroups (limit + 1) first cs = ⟨[], false, cs⟩ := by
  rw [afterColon] at h
  simp only [readGroups, h, readIpv4_of_stops hstops.decimal, readGroup_of_stops hstops, ite_self]

theorem readGroups_of_readIpv4 {ip : Ipv4} {rest : List Char}
    (h : afterColon first cs = some inner) (hroom : limit ≠ 0)
    (hread : readIpv4 inner = some (ip, rest)) :
    readGroups (limit + 1) first cs = ⟨ip.toGroups, true, rest⟩ := by
  rw [afterColon] at h
  simp only [readGroups, h, hread, if_neg hroom]

theorem readGroups_of_readGroup {g : UInt16} {rest : List Char}
    (h : afterColon first cs = some inner) (hquad : readIpv4 inner = none)
    (hread : readGroup inner = some (g, rest)) :
    readGroups (limit + 1) first cs =
      ⟨g :: (readGroups limit false rest).groups, (readGroups limit false rest).dotted,
        (readGroups limit false rest).rest⟩ := by
  rw [afterColon] at h
  simp only [readGroups, h, hquad, hread, ite_self]

end

theorem readGroups_of_ends {rest : List Char} (h : Ends rest) (limit : Nat) (first : Bool) :
    readGroups limit first rest = ⟨[], false, rest⟩ := by
  cases limit with
  | zero => rfl
  | succ limit =>
      cases first with
      | true => exact readGroups_of_stops rfl (h.stops (Nat.le_refl 16))
      | false =>
          cases h with
          | nothing => exact readGroups_of_none rfl
          | bracket => exact readGroups_of_none rfl
          | scope => exact readGroups_of_none rfl
          | double => exact readGroups_of_stops rfl (stops_cons (Nat.le_refl 16) (by decide))

theorem readGroups_complete {dotted : Bool} {text rest : List Char} {groups : List UInt16}
    (h : GroupsText dotted text groups) (hends : Ends rest) {limit : Nat}
    (hlength : groups.length ≤ limit) {first : Bool} {cs : List Char}
    (hcs : afterColon first cs = some (text ++ rest)) :
    readGroups limit first cs = ⟨groups, dotted, rest⟩ := by
  induction h generalizing limit first cs with
  | @group text g hgroup =>
      cases limit with
      | zero => exact absurd hlength (by simp)
      | succ limit =>
          have hstops := hends.stops (Nat.le_refl 16)
          have hdot : rest.head? ≠ some '.' := by cases hends <;> simp
          rw [readGroups_of_readGroup hcs (readIpv4_of_groupText hgroup hstops hdot)
            (readGroup_eq_some_iff.mpr ⟨text, rfl, hgroup, hstops⟩), readGroups_of_ends hends]
  | @dotted text ip hquad =>
      cases limit with
      | zero => exact absurd hlength (by simp [Ipv4.toGroups])
      | succ limit =>
          have hroom : limit ≠ 0 := by
            rintro rfl
            exact absurd hlength (by simp [Ipv4.toGroups])
          exact readGroups_of_readIpv4 hcs hroom
            (readIpv4_eq_some_iff.mpr ⟨text, rfl, hquad, hends.stops (by decide)⟩)
  | @cons dotted text more g groups hgroup _ ih =>
      cases limit with
      | zero => exact absurd hlength (by simp)
      | succ limit =>
          have hstops : Stops 16 (':' :: (more ++ rest)) :=
            stops_cons (Nat.le_refl 16) (by decide)
          have hmore : readGroups limit false (':' :: (more ++ rest)) = ⟨groups, dotted, rest⟩ :=
            ih (Nat.le_of_succ_le_succ hlength) rfl
          rw [List.append_assoc, List.cons_append] at hcs
          rw [readGroups_of_readGroup hcs (readIpv4_of_groupText hgroup hstops (by simp))
            (readGroup_eq_some_iff.mpr ⟨text, rfl, hgroup, hstops⟩), hmore]

theorem readGroups_of_partText {dotted : Bool} {text rest : List Char} {groups : List UInt16}
    (h : PartText dotted text groups) (hends : Ends rest) {limit : Nat}
    (hlength : groups.length ≤ limit) :
    readGroups limit true (text ++ rest) = ⟨groups, dotted, rest⟩ := by
  cases h with
  | none => exact readGroups_of_ends hends limit true
  | some hgroups => exact readGroups_complete hgroups hends hlength rfl

/-!
## Addresses of eight groups
-/

theorem readIpv6_sound {cs rest : List Char} {ip : Ipv6} (h : readIpv6 cs = some (ip, rest)) :
    exists text, cs = text ++ rest ∧ Ipv6Text text ip := by
  rcases readGroups_sound 8 true cs with ⟨hroom, front, hcs, hfront⟩
  simp only [readIpv6] at h
  generalize readGroups 8 true cs = read at h hroom hcs hfront
  rcases read with ⟨groups, dotted, following⟩
  simp only at h hroom hcs hfront
  split at h
  · rename_i hfull
    rcases Option.map_eq_some_iff.mp h with ⟨_, hip, heq⟩
    cases heq
    cases hfront with
    | none => cases hfull
    | first hgroups =>
        rw [← Ipv6.groups_of_ofList? hip] at hgroups
        exact ⟨front, hcs, .full hgroups⟩
  · rename_i hfew
    split at h
    · cases h
    rename_i hdotted
    rw [Bool.not_eq_true] at hdotted
    split at h
    · rename_i _ inner
      rcases readGroups_sound (7 - groups.length) true inner with ⟨hback, back, hinner, hlast⟩
      rcases Option.map_eq_some_iff.mp h with ⟨_, hip, heq⟩
      cases heq
      refine ⟨front ++ ':' :: ':' :: back, ?_, .compressed ?_ (ledText_true_iff.mp hlast) ?_
        (Ipv6.groups_of_ofList? hip)⟩
      · rw [hcs, List.append_assoc, List.cons_append, List.cons_append, ← hinner]
      · rw [← hdotted]
        exact ledText_true_iff.mp hfront
      · omega
    · cases h

theorem readIpv6_complete {text rest : List Char} {ip : Ipv6} (h : Ipv6Text text ip)
    (hends : Ends rest) : readIpv6 (text ++ rest) = some (ip, rest) := by
  cases h with
  | @full dotted _ _ hgroups =>
      have hread := readGroups_of_partText (.some hgroups) hends (Nat.le_of_eq ip.length_groups)
      simp only [readIpv6, hread, ip.length_groups, if_pos, Ipv6.ofList?_groups, Option.map_some]
  | @compressed dotted front back first last zeros _ hfront hback hpos hgroups =>
      have hlength : first.length + zeros + last.length = 8 := by
        have hall := congrArg List.length hgroups
        simp only [List.length_append, List.length_replicate, ip.length_groups] at hall
        exact hall.symm
      have hfirst : readGroups 8 true (front ++ ':' :: ':' :: (back ++ rest)) =
          ⟨first, false, ':' :: ':' :: (back ++ rest)⟩ :=
        readGroups_of_partText hfront .double (by omega)
      have hlast : readGroups (7 - first.length) true (back ++ rest) = ⟨last, dotted, rest⟩ :=
        readGroups_of_partText hback hends (by omega)
      have hzeros : 8 - first.length - last.length = zeros := by omega
      have hfew : first.length ≠ 8 := by omega
      simp only [readIpv6, List.append_assoc, List.cons_append, hfirst, hlast, hzeros, if_neg hfew,
        Bool.false_eq_true, if_false]
      rw [← List.append_assoc, ← hgroups, Ipv6.ofList?_groups, Option.map_some]

/-!
## Scope and port
-/

/-- The text of a scope between an address and the bracket after it. -/
inductive ScopePart : List Char -> UInt32 -> Prop where
  | none : ScopePart [] 0
  | some {number : List Char} {scope : UInt32} :
      NumberText 10 number scope.toNat -> ScopePart ('%' :: number) scope

theorem scopedText_iff {cs : List Char} {ip : Ipv6} {scope : UInt32} :
    ScopedText cs ip scope <-> exists text part,
      cs = text ++ part ∧ Ipv6Text text ip ∧ ScopePart part scope := by
  constructor
  · intro h
    cases h with
    | bare htext => exact ⟨cs, [], (List.append_nil cs).symm, htext, .none⟩
    | numbered htext hnumber => exact ⟨_, _, rfl, htext, .some hnumber⟩
  · rintro ⟨text, part, rfl, htext, hpart⟩
    cases hpart with
    | none =>
        rw [List.append_nil]
        exact .bare htext
    | some hnumber => exact .numbered htext hnumber

theorem readScope_iff {cs rest : List Char} {scope : UInt32} :
    readScope cs = (scope, ']' :: rest) <-> exists part,
      cs = part ++ ']' :: rest ∧ ScopePart part scope := by
  constructor
  · intro h
    unfold readScope at h
    split at h
    · rename_i n following hread
      rcases Option.bind_eq_some_iff.mp hread with ⟨_, hskip, hnumber⟩
      rcases readDecimal_eq_some_iff.mp hnumber with ⟨text, rfl, htext, hle, _⟩
      cases h
      refine ⟨'%' :: text, skip_eq_some_iff.mp hskip, .some ?_⟩
      rwa [UInt32.toNat_ofNat_of_lt' (Nat.lt_succ_of_le hle)]
    · cases h
      exact ⟨[], rfl, .none⟩
  · rintro ⟨part, rfl, hpart⟩
    cases hpart with
    | none => rfl
    | @some number _ hnumber =>
        have hstops : Stops 10 (']' :: rest) := stops_cons (by decide) (by decide)
        have hread := readDecimal_eq_some_iff.mpr
          ⟨number, rfl, hnumber, Nat.le_of_lt_succ scope.toNat_lt, hstops⟩
        have hskip : skip '%' ('%' :: number ++ ']' :: rest) = some (number ++ ']' :: rest) :=
          skip_eq_some_iff.mpr rfl
        simp only [readScope, hskip, Option.bind_some, hread, UInt32.ofNat_toNat]

theorem readPort_eq_some_iff {cs rest : List Char} {port : UInt16} :
    readPort cs = some (port, rest) <-> exists number,
      cs = ':' :: number ++ rest ∧ NumberText 10 number port.toNat ∧ Stops 10 rest := by
  simp only [readPort, Option.map_eq_some_iff, Option.bind_eq_some_iff, Prod.exists,
    skip_eq_some_iff, readDecimal_eq_some_iff, Prod.mk.injEq]
  constructor
  · rintro ⟨n, _, ⟨_, rfl, number, rfl, hnumber, hle, hstops⟩, rfl, rfl⟩
    refine ⟨number, rfl, ?_, hstops⟩
    rwa [UInt16.toNat_ofNat_of_lt' (Nat.lt_succ_of_le hle)]
  · rintro ⟨number, rfl, hnumber, hstops⟩
    exact ⟨port.toNat, rest, ⟨number ++ rest, rfl, number, rfl, hnumber,
      Nat.le_of_lt_succ port.toNat_lt, hstops⟩, UInt16.ofNat_toNat, rfl⟩

/-!
## Socket addresses
-/

theorem readV4_eq_some_iff {cs rest : List Char} {address : SocketAddress} :
    readV4 cs = some (address, rest) <-> exists text ip number port,
      cs = text ++ ':' :: number ++ rest ∧ Ipv4Text text ip ∧ NumberText 10 number port.toNat ∧
        Stops 10 rest ∧ address = ⟨.v4 ip, port⟩ := by
  simp only [readV4, Option.bind_eq_bind, Option.bind_eq_some_iff, Prod.exists,
    readIpv4_eq_some_iff, readPort_eq_some_iff, Option.pure_def, Option.some.injEq, Prod.mk.injEq]
  constructor
  · rintro ⟨ip, _, ⟨text, rfl, htext, _⟩, port, _, ⟨number, rfl, hnumber, hstops⟩, rfl, rfl⟩
    exact ⟨text, ip, number, port, by simp, htext, hnumber, hstops, rfl⟩
  · rintro ⟨text, ip, number, port, rfl, htext, hnumber, hstops, rfl⟩
    exact ⟨ip, ':' :: number ++ rest,
      ⟨text, List.append_assoc _ _ _, htext, stops_cons (by decide) (by decide)⟩,
      port, rest, ⟨number, rfl, hnumber, hstops⟩, rfl, rfl⟩

theorem readV6_eq_some_iff {cs rest : List Char} {address : SocketAddress} :
    readV6 cs = some (address, rest) <-> exists text ip scope number port,
      cs = '[' :: text ++ ']' :: ':' :: number ++ rest ∧ ScopedText text ip scope ∧
        NumberText 10 number port.toNat ∧ Stops 10 rest ∧ address = ⟨.v6 ip scope, port⟩ := by
  simp only [readV6, Option.bind_eq_bind, Option.bind_eq_some_iff, Prod.exists,
    skip_eq_some_iff, readPort_eq_some_iff, Option.pure_def, Option.some.injEq, Prod.mk.injEq]
  constructor
  · rintro ⟨_, rfl, ip, following, hip, _, hbracket, port, _, ⟨number, rfl, hnumber, hstops⟩,
      rfl, rfl⟩
    rcases readIpv6_sound hip with ⟨text, rfl, htext⟩
    rcases readScope_iff.mp (Prod.ext rfl hbracket) with ⟨part, rfl, hpart⟩
    exact ⟨text ++ part, ip, _, number, port, by simp,
      scopedText_iff.mpr ⟨text, part, rfl, htext, hpart⟩, hnumber, hstops, rfl⟩
  · rintro ⟨_, ip, scope, number, port, rfl, htext, hnumber, hstops, rfl⟩
    rcases scopedText_iff.mp htext with ⟨text, part, rfl, htext, hpart⟩
    have hends : Ends (part ++ ']' :: ':' :: number ++ rest) := by
      cases hpart with
      | none => exact .bracket
      | some hnumber => exact .scope
    have hscope : readScope (part ++ ']' :: ':' :: number ++ rest) =
        (scope, ']' :: ':' :: number ++ rest) :=
      readScope_iff.mpr ⟨part, List.append_assoc _ _ _, hpart⟩
    exact ⟨text ++ (part ++ ']' :: ':' :: number ++ rest), by simp, ip, _,
      readIpv6_complete htext hends, ':' :: number ++ rest, congrArg Prod.snd hscope, port, rest,
      ⟨number, rfl, hnumber, hstops⟩, by rw [hscope], rfl⟩

theorem parse?_eq_some_iff_read {s : String} {address : SocketAddress} :
    SocketAddress.parse? s = some address <->
      (readV4 s.toList <|> readV6 s.toList) = some (address, []) := by
  unfold SocketAddress.parse?
  split
  · rename_i read hread
    simp [hread]
  · rename_i hread
    constructor
    · intro h
      cases h
    · intro h
      exact absurd h (hread address)

theorem parse?_eq_some_iff {s : String} {address : SocketAddress} :
    SocketAddress.parse? s = some address <-> SocketText s.toList address := by
  rw [parse?_eq_some_iff_read]
  constructor
  · intro h
    cases hv4 : readV4 s.toList with
    | some read =>
        rw [hv4] at h
        cases h
        rcases readV4_eq_some_iff.mp hv4 with ⟨text, ip, number, port, hs, htext, hnumber, _, rfl⟩
        rw [hs, List.append_nil]
        exact .v4 htext hnumber
    | none =>
        rw [hv4] at h
        rcases readV6_eq_some_iff.mp h with
          ⟨text, ip, scope, number, port, hs, htext, hnumber, _, rfl⟩
        rw [hs, List.append_nil]
        exact .v6 htext hnumber
  · generalize s.toList = cs
    intro h
    cases h with
    | @v4 text number ip port htext hnumber =>
        have hread : readV4 (text ++ ':' :: number) = some (⟨.v4 ip, port⟩, []) :=
          readV4_eq_some_iff.mpr ⟨text, ip, number, port, (List.append_nil _).symm, htext, hnumber,
            stops_nil, rfl⟩
        rw [hread]
        rfl
    | @v6 text number ip scope port htext hnumber =>
        have hother : readV4 ('[' :: text ++ ']' :: ':' :: number) = none := by
          have hquad : readIpv4 ('[' :: text ++ ']' :: ':' :: number) = none :=
            readIpv4_of_stops (stops_cons (by decide) (by decide))
          simp only [readV4, hquad, Option.bind_eq_bind, Option.bind_none]
        rw [hother]
        exact readV6_eq_some_iff.mpr ⟨text, ip, scope, number, port, (List.append_nil _).symm,
          htext, hnumber, stops_nil, rfl⟩

end Address
end ConstantReply
