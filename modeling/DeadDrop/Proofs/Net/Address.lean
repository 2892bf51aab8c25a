import DeadDrop.Net.Address
import DeadDrop.Proofs.Json.Strings
import DeadDrop.Proofs.Text.Split
import Mathlib.Data.List.Basic
import Mathlib.Data.Nat.Basic

/-!
# Reading back addresses

The canonical text of an address is read as that address (`IPAddress.ofText?_toText`), so different
addresses have different texts. Of the two families the second is the harder one: the text leaves
out a run of zero groups, and it is read back because the run that was found is one of zeros and as
long as what the reader fills in.
-/

namespace DeadDrop

namespace Text

theorem not_mem_ofNat {c : Char} (hc : c.isDigit = false) (n : Nat) : c ∉ ofNat n := by
  intro hmem
  rw [Nat.isDigit_of_mem_toDigits (by decide) (by decide) hmem] at hc
  exact absurd hc (by simp)

theorem toNat?_eq_none_of_mem {t : Text} {c : Char} (hc : c ∈ t) (hdigit : digit? c = none) :
    toNat? t = none := by
  have hdigits : ∀ value, digitsFrom? value t = none := by
    induction t with
    | nil => exact absurd hc (by simp)
    | cons d t ih =>
      intro value
      rw [digitsFrom?]
      rcases List.mem_cons.1 hc with rfl | hmem
      · rw [hdigit]
        rfl
      · cases digit? d with
        | none => rfl
        | some n => exact ih hmem _
  rw [toNat?, hdigits]
  split <;> rfl

end Text

/-- Nothing is read from pieces of which one cannot be read. -/
theorem mapM_eq_none_of_mem {α : Type} {read : Text → Option α} {pieces : List Text} {piece : Text}
    (hpiece : piece ∈ pieces) (hread : read piece = none) : pieces.mapM read = none := by
  induction pieces with
  | nil => exact absurd hpiece (by simp)
  | cons first pieces ih =>
    rw [List.mapM_cons]
    rcases List.mem_cons.1 hpiece with rfl | hrest
    · rw [hread]
      rfl
    · rw [ih hrest]
      cases read first <;> rfl

/-! ### IPv4 -/

theorem octet?_ofNat (octet : UInt8) : octet? (Text.ofNat octet.toNat) = some octet := by
  have hall : ∀ n < 256, octet? (Text.ofNat n) = some (UInt8.ofNat n) := by decide +kernel
  rw [hall octet.toNat octet.toNat_lt, UInt8.ofNat_toNat]

theorem octet?_eq_none_of_mem {t : Text} {c : Char} (hc : c ∈ t) (hdigit : Text.digit? c = none) :
    octet? t = none := by
  rw [octet?, Text.toNat?_eq_none_of_mem hc hdigit]

theorem IPv4.toText_eq (address : IPv4) :
    address.toText = Text.join ['.'] [Text.ofNat address.a.toNat, Text.ofNat address.b.toNat,
      Text.ofNat address.c.toNat, Text.ofNat address.d.toNat] := by
  simp [toText, Text.join]

theorem IPv4.ofText?_toText (address : IPv4) : ofText? address.toText = some address := by
  have hpieces : ∀ piece ∈ [Text.ofNat address.a.toNat, Text.ofNat address.b.toNat,
      Text.ofNat address.c.toNat, Text.ofNat address.d.toNat], '.' ∉ piece := by
    intro piece hpiece
    simp only [List.mem_cons, List.not_mem_nil, or_false] at hpiece
    rcases hpiece with rfl | rfl | rfl | rfl <;> exact Text.not_mem_ofNat (by decide) _
  rw [ofText?, toText_eq, Text.splitOn_join (by simp) hpieces]
  simp [octet?_ofNat]

theorem IPv4.not_mem_toText {c : Char} (hc : c.isDigit = false) (hdot : c ≠ '.')
    (address : IPv4) : c ∉ address.toText := by
  simp [toText, Text.not_mem_ofNat hc, hdot]

theorem IPv4.ofText?_eq_none_of_mem {t : Text} {c : Char} (hc : c ∈ t) (hdot : c ≠ '.')
    (hdigit : Text.digit? c = none) : ofText? t = none := by
  obtain ⟨piece, hpiece, hmem⟩ := Text.exists_mem_splitOn hc hdot
  rw [ofText?, mapM_eq_none_of_mem hpiece (octet?_eq_none_of_mem hmem hdigit)]

/-! ### Groups -/

/-- A group in lower-case hexadecimal. -/
def groupText (group : UInt16) : Text := Nat.toDigits 16 group.toNat

theorem hexFrom?_append (value : Nat) (t : Text) (c : Char) :
    hexFrom? value (t ++ [c]) =
      (hexFrom? value t).bind fun n => (Hex.digit? c).map (n * 16 + ·) := by
  induction t generalizing value with
  | nil =>
    change (Hex.digit? c).bind (fun n => some (value * 16 + n)) = _
    cases Hex.digit? c <;> rfl
  | cons d t ih =>
    rw [List.cons_append, hexFrom?, hexFrom?]
    cases Hex.digit? d with
    | none => rfl
    | some n => exact ih _

theorem hexFrom?_toDigits (n : Nat) : hexFrom? 0 (Nat.toDigits 16 n) = some n := by
  induction n using Nat.strongRecOn with
  | ind n ih =>
    rw [Nat.toDigits_eq_if (by decide)]
    by_cases hn : n < 16
    · rw [if_pos hn]
      simp [hexFrom?, Hex.digit?_digitChar n hn]
    · have hvalue : n / 16 * 16 + n % 16 = n := by omega
      rw [if_neg hn, hexFrom?_append, ih (n / 16) (by omega),
        Hex.digit?_digitChar (n % 16) (by omega)]
      simp [hvalue]

theorem exists_digitChar_of_mem {c : Char} {n : Nat} (hc : c ∈ Nat.toDigits 16 n) :
    ∃ d < 16, c = Nat.digitChar d := by
  induction n using Nat.strongRecOn with
  | ind n ih =>
    rw [Nat.toDigits_eq_if (by decide)] at hc
    by_cases hn : n < 16
    · rw [if_pos hn] at hc
      exact ⟨n, hn, List.mem_singleton.1 hc⟩
    · rw [if_neg hn] at hc
      rcases List.mem_append.1 hc with hc | hc
      · exact ih (n / 16) (by omega) hc
      · exact ⟨n % 16, by omega, List.mem_singleton.1 hc⟩

theorem not_mem_groupText {c : Char} (hc : ∀ d < 16, c ≠ Nat.digitChar d) (group : UInt16) :
    c ∉ groupText group := by
  intro hmem
  obtain ⟨d, hd, heq⟩ := exists_digitChar_of_mem hmem
  exact hc d hd heq

theorem groupText_ne_nil (group : UInt16) : groupText group ≠ [] := Nat.toDigits_ne_nil

theorem group?_groupText (group : UInt16) : group? (groupText group) = some group := by
  have hlength : (groupText group).length ≤ 4 :=
    (Nat.length_toDigits_le_iff (by decide) (by decide)).2 group.toNat_lt
  have hempty : (groupText group).isEmpty = false := by
    simpa using groupText_ne_nil group
  rw [group?, if_neg (by simp [hempty, hlength]), groupText, hexFrom?_toDigits]
  simp

theorem mapM_group?_map (groups : List UInt16) :
    (groups.map groupText).mapM group? = some groups := by
  induction groups with
  | nil => rfl
  | cons group groups ih =>
    rw [List.map_cons, List.mapM_cons, group?_groupText, ih]
    rfl

theorem ofText?_groupText (group : UInt16) : IPv4.ofText? (groupText group) = none := by
  have hdot : '.' ∉ groupText group := not_mem_groupText (by decide) group
  rw [IPv4.ofText?, Text.splitOn_of_not_mem hdot, List.mapM_cons]
  cases octet? (groupText group) <;> rfl

theorem groups?_map (groups : List UInt16) : groups? (groups.map groupText) = some groups := by
  induction groups with
  | nil => rfl
  | cons group groups ih =>
    cases groups with
    | nil => simp [groups?, ofText?_groupText, group?_groupText]
    | cons next groups =>
      rw [List.map_cons, List.map_cons, groups?, group?_groupText, ← List.map_cons, ih]
      · rfl
      · simp

theorem groupsText_eq (groups : List UInt16) :
    groupsText groups = Text.join [':'] (groups.map groupText) := rfl

theorem groupsText_cons_cons (group next : UInt16) (groups : List UInt16) :
    groupsText (group :: next :: groups) =
      groupText group ++ ':' :: groupsText (next :: groups) := by
  simp [groupsText_eq, Text.join]

/-- The text of groups begins with a digit. -/
theorem groupsText_cons (group : UInt16) (groups : List UInt16) :
    ∃ c rest, groupsText (group :: groups) = c :: rest ∧ c ≠ ':' := by
  obtain ⟨c, digits, hdigits⟩ := List.exists_cons_of_ne_nil (groupText_ne_nil group)
  have hc : c ≠ ':' := by
    rintro rfl
    have hcolon : ':' ∉ groupText group := not_mem_groupText (by decide) group
    exact hcolon (by simp [hdigits])
  cases groups with
  | nil => exact ⟨c, digits, hdigits, hc⟩
  | cons next groups =>
    rw [groupsText_cons_cons, hdigits]
    exact ⟨c, _, rfl, hc⟩

theorem colonPieces_groupsText (groups : List UInt16) :
    colonPieces (groupsText groups) = groups.map groupText := by
  cases groups with
  | nil => rfl
  | cons group groups =>
    have hpieces : ∀ piece ∈ (group :: groups).map groupText, ':' ∉ piece := by
      intro piece hpiece
      obtain ⟨g, _, rfl⟩ := List.mem_map.1 hpiece
      exact not_mem_groupText (by decide) g
    have hne : (groupsText (group :: groups)).isEmpty = false := by
      obtain ⟨c, rest, htext, _⟩ := groupsText_cons group groups
      rw [htext]
      rfl
    rw [colonPieces, hne]
    exact Text.splitOn_join (by simp) hpieces

/-! ### The double colon -/

theorem cutDoubleColon_append {t : Text} (h : ':' ∉ t) (rest : Text) :
    cutDoubleColon (t ++ rest) =
      (cutDoubleColon rest).map fun parts => (t ++ parts.1, parts.2) := by
  induction t with
  | nil => simp
  | cons c t ih =>
    have hc : c ≠ ':' := fun heq => h (heq ▸ List.mem_cons_self)
    have hstep : cutDoubleColon (c :: (t ++ rest)) =
        (cutDoubleColon (t ++ rest)).map fun parts => (c :: parts.1, parts.2) := by
      rw [cutDoubleColon]
      rintro _ rfl
      exact absurd rfl hc
    rw [List.cons_append, hstep, ih fun hmem => h (List.mem_cons_of_mem _ hmem), Option.map_map]
    rfl

theorem cutDoubleColon_colon {c : Char} (hc : c ≠ ':') (rest : Text) :
    cutDoubleColon (':' :: c :: rest) =
      (cutDoubleColon (c :: rest)).map fun parts => (':' :: parts.1, parts.2) := by
  rw [cutDoubleColon]
  rintro _ _ heq
  exact absurd (List.cons.inj heq).1 hc

/-- There is no double colon within groups, and none that reaches from their end into what
follows. -/
theorem cutDoubleColon_groupsText (groups : List UInt16) (rest : Text) :
    cutDoubleColon (groupsText groups ++ rest) =
      (cutDoubleColon rest).map fun parts => (groupsText groups ++ parts.1, parts.2) := by
  induction groups with
  | nil => simp [groupsText_eq, Text.join]
  | cons group groups ih =>
    have hcolon : ':' ∉ groupText group := not_mem_groupText (by decide) group
    cases groups with
    | nil => exact cutDoubleColon_append hcolon rest
    | cons next groups =>
      obtain ⟨c, more, hnext, hc⟩ := groupsText_cons next groups
      have hbehind : cutDoubleColon (':' :: (groupsText (next :: groups) ++ rest)) =
          (cutDoubleColon (groupsText (next :: groups) ++ rest)).map
            fun parts => (':' :: parts.1, parts.2) := by
        rw [hnext]
        exact cutDoubleColon_colon hc _
      rw [groupsText_cons_cons, List.append_assoc, cutDoubleColon_append hcolon, List.cons_append,
        hbehind, ih, Option.map_map, Option.map_map]
      congr 1
      funext parts
      simp

/-! ### Runs of zeros -/

/-- The run is one of zeros in the groups. -/
def ZeroRun.In (run : ZeroRun) (groups : List UInt16) : Prop :=
  ∃ before behind, groups = before ++ List.replicate run.length 0 ++ behind ∧
    before.length = run.start

/-- The run is one of zeros that reaches up to the end. -/
def ZeroRun.AtEnd (run : ZeroRun) (groups : List UInt16) : Prop :=
  ∃ before, groups = before ++ List.replicate run.length 0 ∧ before.length = run.start

theorem longestZeroRun_in {best current : ZeroRun} {done rest : List UInt16}
    (hbest : best.In (done ++ rest)) (hcurrent : 0 < current.length → current.AtEnd done) :
    (longestZeroRun best current done.length rest).In (done ++ rest) := by
  -- the best run lies anywhere in the groups, and the current one ends where the search stands
  induction rest generalizing best current done with
  | nil => exact hbest
  | cons group rest ih =>
    have hsplit : done ++ group :: rest = (done ++ [group]) ++ rest := by simp
    have hlength : done.length + 1 = (done ++ [group]).length := by simp
    rw [hsplit] at hbest ⊢
    rw [longestZeroRun, hlength]
    by_cases hzero : group = 0
    · rw [if_pos hzero]
      have hgrown : (if current.length = 0 then (⟨done.length, 1⟩ : ZeroRun)
          else ⟨current.start, current.length + 1⟩).AtEnd (done ++ [group]) := by
        by_cases hlength : current.length = 0
        · rw [if_pos hlength]
          exact ⟨done, by simp [hzero], rfl⟩
        · rw [if_neg hlength]
          obtain ⟨before, hdone, hstart⟩ := hcurrent (by omega)
          refine ⟨before, ?_, hstart⟩
          rw [hdone, hzero, List.replicate_succ', List.append_assoc]
      simp only
      generalize (if current.length = 0 then (⟨done.length, 1⟩ : ZeroRun)
          else ⟨current.start, current.length + 1⟩) = grown at hgrown ⊢
      refine ih ?_ fun _ => hgrown
      split
      · obtain ⟨before, hdone, hstart⟩ := hgrown
        exact ⟨before, rest, by rw [hdone], hstart⟩
      · exact hbest
    · rw [if_neg hzero]
      exact ih hbest fun h => absurd h (by simp)

theorem longestZeroRun_eq (groups : List UInt16) :
    let run := longestZeroRun ⟨0, 0⟩ ⟨0, 0⟩ 0 groups
    groups = groups.take run.start ++ List.replicate run.length 0 ++
      groups.drop (run.start + run.length) := by
  intro run
  have hrun : run.In ([] ++ groups) :=
    longestZeroRun_in ⟨[], groups, rfl, rfl⟩ fun h => absurd h (by simp)
  rw [List.nil_append] at hrun
  obtain ⟨before, behind, hgroups, hstart⟩ := hrun
  have htake : groups.take run.start = before := by
    rw [hgroups, List.append_assoc, ← hstart, List.take_left]
  have hdrop : groups.drop (run.start + run.length) = behind := by
    have hlength : (before ++ List.replicate run.length (0 : UInt16)).length =
        run.start + run.length := by simp [hstart]
    rw [hgroups, ← hlength, List.drop_left]
  rw [htake, hdrop]
  exact hgroups

/-! ### IPv6 -/

theorem IPv6.ofText?_of_no_cut {t : Text} (h : cutDoubleColon t = none) {address : IPv6}
    (hgroups : groups? (colonPieces t) = some address.groups) : ofText? t = some address := by
  rw [ofText?, h]
  simp only [hgroups, address.length_groups, dite_true]

theorem IPv6.ofText?_of_cut {t before behind : Text}
    (h : cutDoubleColon t = some (before, behind)) {head tail : List UInt16}
    (hhead : (colonPieces before).mapM group? = some head)
    (htail : groups? (colonPieces behind) = some tail) {address : IPv6} {gap : Nat}
    (hgap : 0 < gap) (hgroups : address.groups = head ++ List.replicate gap 0 ++ tail) :
    ofText? t = some address := by
  have hlength := address.length_groups
  rw [hgroups, List.length_append, List.length_append, List.length_replicate] at hlength
  have hfill : 8 - (head.length + tail.length) = gap := by omega
  have hroom : head.length + tail.length ≤ 7 := by omega
  have hread : (do
      let head ← (colonPieces before).mapM group?
      let tail ← groups? (colonPieces behind)
      if head.length + tail.length ≤ 7 then
        some (head ++ List.replicate (8 - (head.length + tail.length)) 0 ++ tail)
      else none) = some address.groups := by
    rw [hhead, htail, hgroups, ← hfill]
    exact if_pos hroom
  rw [ofText?, h]
  simp only [hread, address.length_groups, dite_true]

theorem cutDoubleColon_doubleColon (rest : Text) :
    cutDoubleColon (':' :: ':' :: rest) = some ([], rest) := rfl

/-- The groups of an IPv4 address at the end are the two that it was made from. -/
theorem IPv4.toGroups_halves (high low : UInt16) :
    IPv4.toGroups
        { a := UInt8.ofNat (high.toNat / 256), b := UInt8.ofNat high.toNat
          c := UInt8.ofNat (low.toNat / 256), d := UInt8.ofNat low.toNat } = [high, low] := by
  have hhalves : ∀ group : UInt16, UInt16.ofNat
      ((UInt8.ofNat (group.toNat / 256)).toNat * 256 + (UInt8.ofNat group.toNat).toNat) =
        group := by
    intro group
    have hbound := group.toNat_lt
    have hvalue : (UInt8.ofNat (group.toNat / 256)).toNat * 256 + (UInt8.ofNat group.toNat).toNat =
        group.toNat := by
      simp only [UInt8.toNat_ofNat']
      omega
    rw [hvalue, UInt16.ofNat_toNat]
  rw [toGroups, hhalves, hhalves]

/-- The text of an address that stands for an IPv4 address. -/
theorem IPv6.ofText?_mapped (mapped : IPv4) {address : IPv6}
    (h : address.groups = [0, 0, 0, 0, 0, 0xFFFF] ++ mapped.toGroups) :
    ofText? ("::ffff:".toList ++ mapped.toText) = some address := by
  have hcolon : ':' ∉ mapped.toText := IPv4.not_mem_toText (by decide) (by decide) mapped
  have hpieces : colonPieces ("ffff:".toList ++ mapped.toText) =
      ["ffff".toList, mapped.toText] := by
    change Text.splitOn ':' ("ffff".toList ++ ':' :: mapped.toText) = _
    rw [Text.splitOn_append (by decide), Text.splitOn_of_not_mem hcolon]
  have htail : groups? (colonPieces ("ffff:".toList ++ mapped.toText)) =
      some (0xFFFF :: mapped.toGroups) := by
    have hfirst : group? "ffff".toList = some 0xFFFF := by decide
    rw [hpieces, groups?, hfirst, groups?, IPv4.ofText?_toText]
    · rfl
    · simp
  have hgroups : address.groups = [] ++ List.replicate 5 0 ++ (0xFFFF :: mapped.toGroups) := h
  exact ofText?_of_cut (cutDoubleColon_doubleColon _) rfl htail (by decide) hgroups

/-- Zero groups that are left out are read back. -/
theorem IPv6.ofText?_of_gap {head tail : List UInt16} {gap : Nat} (hgap : 0 < gap)
    {address : IPv6} (h : address.groups = head ++ List.replicate gap 0 ++ tail) :
    ofText? (groupsText head ++ [':', ':'] ++ groupsText tail) = some address := by
  have hcut : cutDoubleColon (groupsText head ++ [':', ':'] ++ groupsText tail) =
      some (groupsText head, groupsText tail) := by
    rw [List.append_assoc, cutDoubleColon_groupsText]
    change (cutDoubleColon (':' :: ':' :: groupsText tail)).map _ = _
    rw [cutDoubleColon_doubleColon, Option.map_some, List.append_nil]
  refine ofText?_of_cut hcut ?_ ?_ hgap h
  · rw [colonPieces_groupsText, mapM_group?_map]
  · rw [colonPieces_groupsText, groups?_map]

theorem IPv6.ofText?_toText (address : IPv6) : ofText? address.toText = some address := by
  unfold toText
  split
  · rename_i high low hgroups
    refine ofText?_mapped _ ?_
    rw [IPv4.toGroups_halves, hgroups]
    rfl
  · simp only
    split
    · exact ofText?_of_gap (by omega) (longestZeroRun_eq address.groups)
    · refine ofText?_of_no_cut ?_ ?_
      · have hcut := cutDoubleColon_groupsText address.groups []
        rwa [List.append_nil] at hcut
      · rw [colonPieces_groupsText, groups?_map]

theorem mem_groupsText {groups : List UInt16} (h : 2 ≤ groups.length) :
    ':' ∈ groupsText groups := by
  match groups, h with
  | group :: next :: groups, _ =>
    rw [groupsText_cons_cons]
    simp

theorem IPv6.mem_toText (address : IPv6) : ':' ∈ address.toText := by
  unfold toText
  split
  · simp
  · simp only
    split
    · simp
    · exact mem_groupsText (by rw [address.length_groups]; decide)

/-! ### Both families -/

/-- **The canonical text of an address is read as the address.** -/
theorem IPAddress.ofText?_toText (address : IPAddress) :
    ofText? address.toText = some address := by
  cases address with
  | v4 address => rw [toText, ofText?, IPv4.ofText?_toText]
  | v6 address =>
    -- the text has a colon, so it is not taken for an IPv4 address
    have hv4 : IPv4.ofText? address.toText = none :=
      IPv4.ofText?_eq_none_of_mem address.mem_toText (by decide) (by decide)
    rw [toText, ofText?, hv4, IPv6.ofText?_toText, Option.map_some]

theorem IPAddress.toText_injective : Function.Injective IPAddress.toText := by
  intro a b hab
  have hread : some a = some b := by rw [← ofText?_toText a, ← ofText?_toText b, hab]
  exact Option.some.inj hread

end DeadDrop
