import DeadDrop.Proofs.Net.Address

/-!
# The texts of socket addresses

A socket address is the text of an address, in brackets and perhaps with a scope if it is one of
IPv6, and a port behind a colon. The marks that stand between the parts occur in none of them: a
character that is no digit of an address and no mark within one makes the text unreadable as an
address (`IPv6.ofText?_eq_none_of_mem`), and every address of the second family has a colon. So the
host of a socket address is read as the same address, unless it has a scope, and then it is read as
no address at all.
-/

namespace DeadDrop

/-! ### Characters -/

theorem hexFrom?_eq_none_of_mem {t : Text} {c : Char} (hc : c ∈ t) (hdigit : Hex.digit? c = none)
    (value : Nat) : hexFrom? value t = none := by
  induction t generalizing value with
  | nil => exact absurd hc (by simp)
  | cons d t ih =>
    rw [hexFrom?]
    rcases List.mem_cons.1 hc with rfl | hmem
    · rw [hdigit]
      rfl
    · cases Hex.digit? d with
      | none => rfl
      | some n => exact ih hmem _

theorem group?_eq_none_of_mem {t : Text} {c : Char} (hc : c ∈ t) (hdigit : Hex.digit? c = none) :
    group? t = none := by
  rw [group?, hexFrom?_eq_none_of_mem hc hdigit]
  split <;> rfl

theorem groups?_eq_none_of_mem {pieces : List Text} {piece : Text} (hpiece : piece ∈ pieces)
    (haddress : IPv4.ofText? piece = none) (hgroup : group? piece = none) :
    groups? pieces = none := by
  induction pieces with
  | nil => exact absurd hpiece (by simp)
  | cons first pieces ih =>
    cases pieces with
    | nil =>
      obtain rfl := List.mem_singleton.1 hpiece
      simp [groups?, haddress, hgroup]
    | cons next pieces =>
      rw [groups?]
      · rcases List.mem_cons.1 hpiece with rfl | hrest
        · rw [hgroup]
          rfl
        · rw [ih hrest]
          cases group? first <;> rfl
      · simp

theorem cutDoubleColon_eq_some {t before behind : Text}
    (h : cutDoubleColon t = some (before, behind)) : t = before ++ ':' :: ':' :: behind := by
  fun_induction cutDoubleColon t generalizing before with
  | case1 rest =>
    obtain ⟨rfl, rfl⟩ := Prod.mk.inj (Option.some.inj h)
    rfl
  | case2 c rest _ ih =>
    obtain ⟨⟨before', behind'⟩, hrest, heq⟩ := Option.map_eq_some_iff.1 h
    obtain ⟨rfl, rfl⟩ := Prod.mk.inj heq
    rw [ih hrest]
    rfl
  | case3 => cases h

theorem exists_mem_colonPieces {t : Text} {c : Char} (hc : c ∈ t) (hcolon : c ≠ ':') :
    ∃ piece ∈ colonPieces t, c ∈ piece := by
  rw [colonPieces, List.isEmpty_eq_false_iff.2 (List.ne_nil_of_mem hc)]
  exact Text.exists_mem_splitOn hc hcolon

/-- A text is no address if there is a character in it that no address has. -/
theorem IPv6.ofText?_eq_none_of_mem {t : Text} {c : Char} (hc : c ∈ t) (hcolon : c ≠ ':')
    (hdot : c ≠ '.') (hdigit : Text.digit? c = none) (hhex : Hex.digit? c = none) :
    ofText? t = none := by
  -- the character stands in a piece that is no group and no address of IPv4
  have hread : ∀ {part : Text}, c ∈ part →
      (colonPieces part).mapM group? = none ∧ groups? (colonPieces part) = none := by
    intro part hpart
    obtain ⟨piece, hpiece, hmem⟩ := exists_mem_colonPieces hpart hcolon
    have hgroup := group?_eq_none_of_mem hmem hhex
    exact ⟨mapM_eq_none_of_mem hpiece hgroup,
      groups?_eq_none_of_mem hpiece (IPv4.ofText?_eq_none_of_mem hmem hdot hdigit) hgroup⟩
  unfold ofText?
  cases hcut : cutDoubleColon t with
  | none => simp [(hread hc).2]
  | some parts =>
    obtain ⟨before, behind⟩ := parts
    have hmem : c ∈ before ∨ c ∈ behind := by
      rw [cutDoubleColon_eq_some hcut] at hc
      simpa [hcolon] using hc
    rcases hmem with hbefore | hbehind
    · simp [(hread hbefore).1]
    · cases hhead : (colonPieces before).mapM group? <;> simp [hhead, (hread hbehind).2]

theorem length_groups?_singleton {piece : Text} {groups : List UInt16}
    (h : groups? [piece] = some groups) : groups.length ≤ 2 := by
  rw [groups?] at h
  split at h
  · obtain rfl := Option.some.inj h
    exact Nat.le_refl 2
  · obtain ⟨group, -, rfl⟩ := Option.map_eq_some_iff.1 h
    exact Nat.le_succ 1

theorem IPv6.colon_mem_of_ofText? {t : Text} {address : IPv6} (h : ofText? t = some address) :
    ':' ∈ t := by
  by_contra hcolon
  have hcut : cutDoubleColon t = none := by
    have hnone := cutDoubleColon_append hcolon []
    rwa [List.append_nil] at hnone
  -- there is one piece at most, and the text of an address has eight groups
  have hshort : ∀ groups, groups? (colonPieces t) = some groups → groups.length ≤ 2 := by
    intro groups hgroups
    rw [colonPieces, Text.splitOn_of_not_mem hcolon] at hgroups
    split at hgroups
    · obtain rfl := Option.some.inj hgroups
      exact Nat.zero_le 2
    · exact length_groups?_singleton hgroups
  rw [ofText?, hcut] at h
  simp only at h
  split at h
  · rename_i groups hgroups
    split at h
    · rename_i hlength
      have := hshort groups hgroups
      omega
    · cases h
  · cases h

theorem IPAddress.ofText?_of_ipv6 {t : Text} {address : IPv6} (h : IPv6.ofText? t = some address) :
    ofText? t = some (.v6 address) := by
  have hv4 : IPv4.ofText? t = none :=
    IPv4.ofText?_eq_none_of_mem (IPv6.colon_mem_of_ofText? h) (by decide) (by decide)
  rw [ofText?, hv4, h, Option.map_some]

theorem IPAddress.ofText?_eq_none_of_scope {t : Text} (h : '%' ∈ t) : ofText? t = none := by
  rw [ofText?, IPv4.ofText?_eq_none_of_mem h (by decide) (by decide),
    IPv6.ofText?_eq_none_of_mem h (by decide) (by decide) (by decide) (by decide), Option.map_none]

/-! ### Socket addresses -/

namespace SocketAddress

theorem not_mem_of_numberBelow? {limit n : Nat} {t : Text} {c : Char}
    (h : numberBelow? limit t = some n) (hdigit : Text.digit? c = none) : c ∉ t := by
  intro hc
  rw [numberBelow?, Text.toNat?_eq_none_of_mem hc hdigit] at h
  cases h

/-- How the text of a socket address is put together from the text of an address and a port. In the
brackets of IPv6 there may be a scope behind the address. -/
inductive Spelled (address : SocketAddress) : Text → Prop
  | v4 {host port : Text} {ip : IPv4} {n : Nat} (read : IPv4.ofText? host = some ip)
      (whose : address.ip = .v4 ip) (number : numberBelow? UInt16.size port = some n) :
      Spelled address (host ++ ':' :: port)
  | v6 {host port : Text} {ip : IPv6} {n : Nat} (read : IPv6.ofText? host = some ip)
      (whose : address.ip = .v6 ip) (number : numberBelow? UInt16.size port = some n) :
      Spelled address ('[' :: (host ++ ']' :: ':' :: port))
  | v6Scoped {host scope port : Text} {ip : IPv6} {n : Nat} (read : IPv6.ofText? host = some ip)
      (whose : address.ip = .v6 ip) (closed : ']' ∉ scope)
      (number : numberBelow? UInt16.size port = some n) :
      Spelled address ('[' :: (host ++ '%' :: scope ++ ']' :: ':' :: port))

theorem spelled_of_ofIPv4Text? {t : Text} {address : SocketAddress}
    (h : ofIPv4Text? t = some address) : Spelled address t := by
  unfold ofIPv4Text? at h
  simp only [Option.bind_eq_bind, Option.bind_eq_some_iff, Option.pure_def, Option.some.injEq] at h
  obtain ⟨ip, hip, port, hcut, n, hport, rfl⟩ := h
  obtain ⟨ht, -⟩ := Text.cut_eq_iff.1 (Prod.ext rfl hcut : t.cut ':' = ((t.cut ':').1, some port))
  rw [ht]
  exact .v4 hip rfl hport

/-- Behind the bracket stands a port. -/
theorem exists_of_behind {ip : IPv6} {scope : Nat} {behind : Text} {address : SocketAddress}
    (h : (match behind with
      | ':' :: digits => (numberBelow? UInt16.size digits).bind fun port =>
          some (⟨.v6 ip, port, scope⟩ : SocketAddress)
      | _ => none) = some address) :
    address.ip = .v6 ip ∧ ∃ port n, behind = ':' :: port ∧
      numberBelow? UInt16.size port = some n := by
  split at h
  · obtain ⟨n, hnumber, heq⟩ := Option.bind_eq_some_iff.1 h
    obtain rfl := Option.some.inj heq
    exact ⟨rfl, _, n, rfl, hnumber⟩
  · cases h

theorem spelled_of_ofIPv6Text? {t : Text} {address : SocketAddress}
    (h : ofIPv6Text? t = some address) : Spelled address ('[' :: t) := by
  unfold ofIPv6Text? at h
  rcases Text.cut_cases ']' t with ⟨-, hcut⟩ | ⟨inside, behind, rfl, hclosed, hcut⟩
  · rw [hcut] at h
    dsimp only at h
    obtain ⟨ip, -, h⟩ := Option.bind_eq_some_iff.1 h
    split at h <;> simp at h
  · rw [hcut] at h
    dsimp only at h
    rcases Text.cut_cases '%' inside with ⟨-, hscope⟩ | ⟨host, digits, rfl, -, hscope⟩
    · rw [hscope] at h
      obtain ⟨ip, hip, h⟩ := Option.bind_eq_some_iff.1 h
      obtain ⟨haddress, port, n, rfl, hport⟩ := exists_of_behind h
      exact .v6 hip haddress hport
    · rw [hscope] at h
      obtain ⟨ip, hip, h⟩ := Option.bind_eq_some_iff.1 h
      obtain ⟨scope, -, h⟩ := Option.bind_eq_some_iff.1 h
      obtain ⟨haddress, port, n, rfl, hport⟩ := exists_of_behind h
      exact .v6Scoped hip haddress (fun hmem => hclosed (by simp [hmem])) hport

theorem spelled_of_ofText? {t : Text} {address : SocketAddress} (h : ofText? t = some address) :
    Spelled address t := by
  unfold ofText? at h
  split at h
  · exact spelled_of_ofIPv6Text? h
  · exact spelled_of_ofIPv4Text? h

end SocketAddress

end DeadDrop
