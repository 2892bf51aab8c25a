import DeadDrop.Proofs.Limiter.Clients
import DeadDrop.Proofs.Net.Socket

/-!
# Clients given as text

A client is given as a host and a port behind a colon, and the port does not matter. What is a host
is said here by how the text is put together (`Names`), and a text that is not put together so is
refused. Of a host it matters only which client it is: the address that it spells, in whatever way,
or else the host itself. A request changes the bucket of its client and no other, so two requests
are charged to one bucket exactly if their hosts are those of one client.

The text of a socket address names its address as a host, and so the limiter decides the same
whichever of the two it is given. But a scope stays in the host, and a host with a scope spells no
address: the limiter takes it for a name (`sockets_limited_alike`).
-/

namespace DeadDrop.Limiter

/-! ### Hosts -/

/-- A text that names a client by a host. A host in brackets ends at the first bracket that closes
one, and a colon follows; without brackets there is one colon, and the host stands in front of it. -/
inductive Names (host : Text) : Text → Prop
  | bracketed (free : ']' ∉ host) (port : Text) :
      Names host ('[' :: (host ++ ']' :: ':' :: port))
  | bare {port : Text} (first : host.head? ≠ some '[') (free : ':' ∉ host) (last : ':' ∉ port) :
      Names host (host ++ ':' :: port)

/-- The shape of a text that names a client: `[host]:port`, or no bracket in front and one colon. -/
def IsClient (client : Text) : Prop :=
  (∃ host port, client = '[' :: (host ++ ']' :: ':' :: port) ∧ ']' ∉ host) ∨
    client.head? ≠ some '[' ∧ client.count ':' = 1

variable {client host : Text}

theorem hostOf?_bracket (rest : Text) :
    hostOf? ('[' :: rest) =
      match Text.cut ']' rest with
      | (host, some (':' :: _)) => some host
      | _ => none := rfl

theorem hostOf?_of_head (h : client.head? ≠ some '[') :
    hostOf? client =
      match Text.cut ':' client with
      | (host, some port) => if ':' ∈ port then none else some host
      | (_, none) => none := by
  rw [hostOf?.eq_def]
  split
  · exact absurd rfl h
  · rfl

theorem names_of_hostOf? (h : hostOf? client = some host) : Names host client := by
  by_cases hbracket : client.head? = some '['
  · obtain ⟨rest, rfl⟩ := List.head?_eq_some_iff.1 hbracket
    rw [hostOf?_bracket] at h
    rcases Text.cut_cases ']' rest with ⟨-, hcut⟩ | ⟨inside, behind, rfl, hinside, hcut⟩
    · rw [hcut] at h
      cases h
    · rw [hcut] at h
      split at h
      · rename_i hparts
        obtain ⟨rfl, hbehind⟩ := Prod.mk.inj hparts
        obtain rfl := Option.some.inj hbehind
        obtain rfl := Option.some.inj h
        exact .bracketed hinside _
      · cases h
  · rw [hostOf?_of_head hbracket] at h
    rcases Text.cut_cases ':' client with ⟨-, hcut⟩ | ⟨before, port, rfl, hbefore, hcut⟩
    · rw [hcut] at h
      cases h
    · rw [hcut] at h
      dsimp only at h
      split at h
      · cases h
      · rename_i hport
        obtain rfl := Option.some.inj h
        refine .bare (fun hhead => hbracket ?_) hbefore hport
        rw [List.head?_append, hhead, Option.some_or]

theorem hostOf?_of_names (h : Names host client) : hostOf? client = some host := by
  cases h with
  | bracketed free port =>
    rw [hostOf?_bracket, Text.cut_append free]
    rfl
  | @bare port first free last =>
    have hhead : (host ++ ':' :: port).head? ≠ some '[' := by
      cases host with
      | nil => simp
      | cons c host => exact first
    rw [hostOf?_of_head hhead, Text.cut_append free]
    exact if_neg last

theorem exists_names_iff : (∃ host, Names host client) ↔ IsClient client := by
  constructor
  · rintro ⟨host, h⟩
    have hhost := hostOf?_of_names h
    cases h with
    | bracketed free port => exact .inl ⟨host, port, rfl, free⟩
    | @bare port first free last =>
      refine .inr ⟨?_, ?_⟩
      · cases host with
        | nil => simp
        | cons c host => exact first
      · rw [List.count_append, List.count_cons_self, List.count_eq_zero_of_not_mem free,
          List.count_eq_zero_of_not_mem last]
  · rintro (⟨host, port, rfl, hfree⟩ | ⟨hhead, hcount⟩)
    · exact ⟨host, .bracketed hfree port⟩
    · have hmem : ':' ∈ client := List.count_pos_iff.1 (by omega)
      obtain ⟨host, port, rfl, hfree⟩ := List.eq_append_cons_of_mem hmem
      rw [List.count_append, List.count_cons_self] at hcount
      have hlast : ':' ∉ port := List.count_eq_zero.1 (by omega)
      refine ⟨host, .bare (fun hfirst => hhead ?_) hfree hlast⟩
      rw [List.head?_append, hfirst, Option.some_or]

/-! ### Whom a host is -/

/-- The hosts are those of one client: they spell one address, or they are one name. -/
def SameClient (host host' : Text) : Prop :=
  (∃ ip, IPAddress.ofText? host = some ip ∧ IPAddress.ofText? host' = some ip) ∨
    IPAddress.ofText? host = none ∧ IPAddress.ofText? host' = none ∧ host = host'

theorem ofHost_eq_iff {host' : Text} :
    Client.ofHost host = Client.ofHost host' ↔ SameClient host host' := by
  unfold SameClient
  cases h : IPAddress.ofText? host with
  | some ip =>
    rw [Client.ofHost_of_some h]
    cases h' : IPAddress.ofText? host' with
    | some ip' =>
      rw [Client.ofHost_of_some h']
      simp [eq_comm]
    | none =>
      rw [Client.ofHost_of_none h']
      simp
  | none =>
    rw [Client.ofHost_of_none h]
    cases h' : IPAddress.ofText? host' with
    | some ip' =>
      rw [Client.ofHost_of_some h']
      simp
    | none =>
      rw [Client.ofHost_of_none h']
      simp

/-- A host that spells none of the addresses without a bucket. -/
def NotLoopback (host : Text) : Prop :=
  ∀ ip, IPAddress.ofText? host = some ip → ip.isLoopback = false

theorem isLoopback_ofHost (h : NotLoopback host) : (Client.ofHost host).isLoopback = false := by
  cases hip : IPAddress.ofText? host with
  | some ip =>
    rw [Client.ofHost_of_some hip]
    exact h ip hip
  | none =>
    rw [Client.ofHost_of_none hip]
    rfl

theorem client?_of_names (h : Names host client) :
    (Ask.text client).client? = some (Client.ofHost host) := by
  rw [Ask.client?, hostOf?_of_names h, Option.map_some]

theorem check_of_names (h : Names host client) (now : Nat) (l : Limiter) :
    l.check now client =
      if (Client.ofHost host).isLoopback then (.ok .allow, l)
      else
        (.ok (l.checkKey now (Client.ofHost host).key).1,
          (l.checkKey now (Client.ofHost host).key).2) :=
  @answer_of_client ⟨⟨0, now⟩, .text client⟩ _ (client?_of_names h) l

theorem check_of_not_names (h : ∀ host, ¬ Names host client) (now : Nat) (l : Limiter) :
    l.check now client = (.error (.badClientAddress client), l) := by
  have hhost : hostOf? client = none :=
    Option.eq_none_iff_forall_ne_some.2 fun host hhost => h host (names_of_hostOf? hhost)
  rw [check, hhost]

/-! ### Buckets -/

/-- A request of the client changes the bucket, in some state of the limiter. -/
def Charges (client key : Text) : Prop :=
  ∃ (now : Nat) (l : Limiter), (l.check now client).2.buckets.get? key ≠ l.buckets.get? key

theorem charges_iff (h : Names host client) (hloopback : NotLoopback host) {key : Text} :
    Charges client key ↔ key = (Client.ofHost host).key := by
  have hcheck : ∀ (now : Nat) (l : Limiter),
      (l.check now client).2 = (l.checkKey now (Client.ofHost host).key).2 := by
    intro now l
    rw [check_of_names h, isLoopback_ofHost hloopback]
    rfl
  constructor
  · rintro ⟨now, l, hchanged⟩
    by_contra hother
    rw [hcheck, (checkKey_eq now _ l).2.2.2, if_neg hother] at hchanged
    exact hchanged rfl
  · rintro rfl
    -- the first request of a client makes the bucket
    refine ⟨0, sampleLimiter, ?_⟩
    have hunseen : sampleLimiter.buckets.get? (Client.ofHost host).key = none := rfl
    rw [hcheck, (checkKey_eq 0 _ sampleLimiter).2.2.2, if_pos rfl, hunseen]
    exact Option.ne_none_iff_isSome.2 (isSome_decideOn _ _ _ _)

/-- What others ask leaves the bucket of a client, and the decision on its next request. -/
theorem checkKey_stateAfter_of_others {c : Client} {run : List (Timed Ask)}
    (hrun : ∀ i ∈ run, i.call.client? ≠ some c) (now : Nat) (l : Limiter) :
    ((stateAfter answer run l).checkKey now c.key).1 = (l.checkKey now c.key).1 := by
  have hsame : (stateAfter answer run l).period = l.period ∧
      (stateAfter answer run l).burst = l.burst ∧
      (stateAfter answer run l).buckets.get? c.key = l.buckets.get? c.key := by
    refine stateAfter_induction (fun _ (l' : Limiter) => l'.period = l.period ∧
      l'.burst = l.burst ∧ l'.buckets.get? c.key = l.buckets.get? c.key) ⟨rfl, rfl, rfl⟩ ?_
    rintro before i rest rfl l' ⟨hperiod, hburst, hbucket⟩
    obtain ⟨hperiod', hburst', hbucket'⟩ := answer_of_other (hrun i (by simp)) l'
    exact ⟨hperiod'.trans hperiod, hburst'.trans hburst, hbucket'.trans hbucket⟩
  obtain ⟨hperiod, hburst, hbucket⟩ := hsame
  rw [(checkKey_eq now c.key _).1, (checkKey_eq now c.key l).1, hperiod, hburst, hbucket]

/-- The text names a client by a host that spells no address. -/
def NamesHost (ask : Ask) : Prop :=
  ∃ client host, ask = .text client ∧ Names host client ∧ IPAddress.ofText? host = none

theorem client?_ne_of_namesHost {ask : Ask} (h : NamesHost ask) (ip : IPAddress) :
    ask.client? ≠ some (.address ip) := by
  obtain ⟨client, host, rfl, hnames, hunread⟩ := h
  rw [client?_of_names hnames, Client.ofHost_of_none hunread]
  simp

theorem checkIp_stateAfter_of_names {run : List (Timed Ask)}
    (hrun : ∀ i ∈ run, NamesHost i.call) (now : Nat) (ip : IPAddress) (l : Limiter) :
    ((stateAfter answer run l).checkIp now ip).1 = (l.checkIp now ip).1 := by
  rw [checkIp_eq, checkIp_eq]
  split
  · rfl
  · exact checkKey_stateAfter_of_others (fun i hi => client?_ne_of_namesHost (hrun i hi) ip) now l

/-- **Clients are told apart by their hosts.** A text is refused exactly if it has neither shape of
a client, and then nothing changes. A client is charged to one bucket, and two clients to the same
one exactly if their hosts spell one address or are one name. No run of requests under names changes
what an address is told. -/
theorem clients_told_apart :
    (∀ (now : Nat) (client : Text) (l : Limiter),
      ((l.check now client).1 = .error (.badClientAddress client) ↔ ¬ IsClient client) ∧
      ∀ reason, (l.check now client).1 = .error reason →
        reason = .badClientAddress client ∧ (l.check now client).2 = l) ∧
    (∀ client client' host host' : Text, Names host client → Names host' client' →
      NotLoopback host → NotLoopback host' →
      (∃! key, Charges client key) ∧
      ((∃ key, Charges client key ∧ Charges client' key) ↔ SameClient host host')) ∧
    ∀ (run : List (Timed Ask)), (∀ i ∈ run, NamesHost i.call) →
      ∀ (now : Nat) (ip : IPAddress) (l : Limiter),
        ((stateAfter answer run l).checkIp now ip).1 = (l.checkIp now ip).1 := by
  refine ⟨fun now client l => ?_, fun client client' host host' h h' hloopback hloopback' => ?_,
    fun run hrun now ip l => checkIp_stateAfter_of_names hrun now ip l⟩
  · rw [← exists_names_iff]
    by_cases hnames : ∃ host, Names host client
    · obtain ⟨host, hhost⟩ := hnames
      have hok : ∃ admission, (l.check now client).1 = .ok admission := by
        rw [check_of_names hhost]
        split
        · exact ⟨_, rfl⟩
        · exact ⟨_, rfl⟩
      obtain ⟨admission, hok⟩ := hok
      rw [hok]
      exact ⟨iff_of_false (by simp) fun hnone => hnone ⟨host, hhost⟩, fun reason h => by cases h⟩
    · rw [check_of_not_names (not_exists.1 hnames)]
      exact ⟨iff_of_true rfl hnames, fun reason h => ⟨(Except.error.inj h).symm, rfl⟩⟩
  · refine ⟨⟨_, (charges_iff h hloopback).2 rfl, fun key => (charges_iff h hloopback).1⟩, ?_⟩
    rw [← ofHost_eq_iff]
    simp only [charges_iff h hloopback, charges_iff h' hloopback']
    constructor
    · rintro ⟨key, rfl, hkey⟩
      exact Client.key_injective hkey
    · intro heq
      exact ⟨_, rfl, by rw [heq]⟩

/-- Two spellings of one address, an address and a name that looks like it, and a run of requests
under that name. -/
theorem clients_told_apart_sample :
    (∃ key, Charges "[2001:DB8::0:1]:443".toList key ∧ Charges "[2001:db8::1]:80".toList key) ∧
    (¬ ∃ key, Charges "10.0.0.1:80".toList key ∧ Charges "010.0.0.1:80".toList key) ∧
    (∀ now, ((stateAfter answer
      [⟨⟨0, now⟩, .text "010.0.0.1:80".toList⟩] sampleLimiter).checkIp now samplePeer).1 =
        (sampleLimiter.checkIp now samplePeer).1) ∧
    (∀ now, (sampleLimiter.check now "2001:db8::1:80".toList).1 =
      .error (.badClientAddress "2001:db8::1:80".toList)) := by
  obtain ⟨hrefused, hcharged, hrun⟩ := clients_told_apart
  have hupper : Names "2001:DB8::0:1".toList "[2001:DB8::0:1]:443".toList :=
    .bracketed (by decide) "443".toList
  have hlower : Names "2001:db8::1".toList "[2001:db8::1]:80".toList :=
    .bracketed (by decide) "80".toList
  have hpeer : Names "10.0.0.1".toList "10.0.0.1:80".toList :=
    .bare (by decide) (by decide) (by decide : ':' ∉ "80".toList)
  have hname : Names "010.0.0.1".toList "010.0.0.1:80".toList :=
    .bare (by decide) (by decide) (by decide : ':' ∉ "80".toList)
  have hread : IPAddress.ofText? "2001:DB8::0:1".toList = IPAddress.ofText? "2001:db8::1".toList :=
    by decide
  have hunread : IPAddress.ofText? "010.0.0.1".toList = none := by decide
  have hnot : ∀ {host : Text} {ip : IPAddress}, IPAddress.ofText? host = some ip →
      ip.isLoopback = false → NotLoopback host := by
    rintro host ip hip hloopback ip' hip'
    rwa [← Option.some.inj (hip.symm.trans hip')]
  have hpeer? : IPAddress.ofText? "10.0.0.1".toList = some samplePeer := by decide
  obtain ⟨ip, hip⟩ : ∃ ip, IPAddress.ofText? "2001:db8::1".toList = some ip := ⟨_, rfl⟩
  refine ⟨?_, ?_, fun now => hrun _ ?_ now samplePeer sampleLimiter, fun now => ?_⟩
  · have hloopback : ip.isLoopback = false := by
      rw [← Option.some.inj ((rfl : IPAddress.ofText? "2001:db8::1".toList = some _).symm.trans hip)]
      decide
    exact (hcharged _ _ _ _ hupper hlower (hnot (hread.trans hip) hloopback)
      (hnot hip hloopback)).2.2 (.inl ⟨ip, hread.trans hip, hip⟩)
  · rw [(hcharged _ _ _ _ hpeer hname (hnot hpeer? (by decide))
      fun ip hip => by rw [hunread] at hip; cases hip).2]
    rintro (⟨ip, -, hip⟩ | ⟨hnone, -⟩)
    · rw [hunread] at hip
      cases hip
    · rw [hpeer?] at hnone
      cases hnone
  · intro i hi
    obtain rfl := List.mem_singleton.1 hi
    exact ⟨_, _, rfl, hname, hunread⟩
  · refine (hrefused now _ sampleLimiter).1.2 ?_
    rintro (⟨host, port, hbracket, -⟩ | ⟨-, hcount⟩)
    · cases hbracket
    · exact absurd hcount (by decide)

/-! ### Socket addresses -/

section Sockets

variable {text : Text} {address : SocketAddress}

/-- A socket address without a scope names its address. With a scope it names a host that spells no
address. -/
theorem names_of_spelled (h : address.Spelled text) :
    ∃ host, Names host text ∧
      IPAddress.ofText? host = if '%' ∈ text then none else some address.ip := by
  cases h with
  | @v4 host port ip n read whose number =>
    have hhost : ∀ c : Char, c ≠ '.' → Text.digit? c = none → c ∉ host := by
      intro c hdot hdigit hmem
      rw [IPv4.ofText?_eq_none_of_mem hmem hdot hdigit] at read
      cases read
    have hport : ∀ c : Char, Text.digit? c = none → c ∉ port :=
      fun c hdigit => SocketAddress.not_mem_of_numberBelow? number hdigit
    have hscope : '%' ∉ host ++ ':' :: port := by
      simp [hhost '%' (by decide) (by decide), hport '%' (by decide)]
    refine ⟨host, .bare (fun hhead => ?_) (hhost ':' (by decide) (by decide))
      (hport ':' (by decide)), ?_⟩
    · exact hhost '[' (by decide) (by decide) (List.mem_of_mem_head? hhead)
    · rw [if_neg hscope, IPAddress.ofText?, read, whose]
  | @v6 host port ip n read whose number =>
    have hhost : ∀ c : Char, c ≠ ':' → c ≠ '.' → Text.digit? c = none → Hex.digit? c = none →
        c ∉ host := by
      intro c hcolon hdot hdigit hhex hmem
      rw [IPv6.ofText?_eq_none_of_mem hmem hcolon hdot hdigit hhex] at read
      cases read
    have hport : '%' ∉ port := SocketAddress.not_mem_of_numberBelow? number (by decide)
    have hscope : '%' ∉ '[' :: (host ++ ']' :: ':' :: port) := by
      simp [hhost '%' (by decide) (by decide) (by decide) (by decide), hport]
    refine ⟨host, .bracketed (hhost ']' (by decide) (by decide) (by decide) (by decide)) port, ?_⟩
    rw [if_neg hscope, IPAddress.ofText?_of_ipv6 read, whose]
  | @v6Scoped host scope port ip n read whose closed number =>
    have hhost : ']' ∉ host := by
      intro hmem
      rw [IPv6.ofText?_eq_none_of_mem hmem (by decide) (by decide) (by decide) (by decide)] at read
      cases read
    -- the host ends at the bracket, so the scope is a part of it
    refine ⟨host ++ '%' :: scope, .bracketed (by simp [hhost, closed]) port, ?_⟩
    rw [if_pos (by simp), IPAddress.ofText?_eq_none_of_scope (by simp)]

theorem check_of_address {host : Text} (h : Names host text)
    (hread : IPAddress.ofText? host = some address.ip) (now : Nat) (l : Limiter) :
    l.check now text = (.ok (l.checkSocket now address).1, (l.checkSocket now address).2) := by
  rw [check_of_names h, Client.ofHost_of_some hread, checkSocket, checkIp_eq]
  split <;> rfl

/-- **A socket address and its text are limited alike, unless the text has a scope.** Without one the
limiter gives the same answer and is left in the same state, and loopback addresses are allowed and
have no bucket. With one the text is charged to a bucket under its host, scope and all, and the
address, if it is charged at all, to another. -/
theorem sockets_limited_alike (h : SocketAddress.ofText? text = some address) :
    ('%' ∉ text → ∀ (now : Nat) (l : Limiter),
      l.check now text = (.ok (l.checkSocket now address).1, (l.checkSocket now address).2) ∧
      (address.ip.isLoopback = true → l.check now text = (.ok .allow, l))) ∧
    ('%' ∈ text → ∃ host, hostOf? text = some host ∧ ∀ (now : Nat) (l : Limiter),
      l.check now text = (.ok (l.checkKey now host).1, (l.checkKey now host).2) ∧
      (l.buckets.get? host = none →
        (l.check now text).2.buckets.get? host ≠ none ∧
        (l.checkSocket now address).2.buckets.get? host = none)) := by
  obtain ⟨host, hnames, hread⟩ := names_of_spelled (SocketAddress.spelled_of_ofText? h)
  refine ⟨fun hscope now l => ?_, fun hscope => ⟨host, hostOf?_of_names hnames, fun now l => ?_⟩⟩
  · rw [if_neg hscope] at hread
    have hcheck := check_of_address hnames hread now l
    refine ⟨hcheck, fun hloopback => ?_⟩
    have hexempt : l.checkSocket now address = (.allow, l) := if_pos hloopback
    rw [hcheck, hexempt]
  · rw [if_pos hscope] at hread
    have hcheck : l.check now text = (.ok (l.checkKey now host).1, (l.checkKey now host).2) := by
      rw [check_of_names hnames, Client.ofHost_of_none hread]
      rfl
    refine ⟨hcheck, fun hunseen => ⟨?_, ?_⟩⟩
    · rw [hcheck, (checkKey_eq now host l).2.2.2, if_pos rfl]
      exact Option.ne_none_iff_isSome.2 (isSome_decideOn _ _ _ _)
    · have hother : host ≠ (Client.address address.ip).key := by
        rintro rfl
        rw [Client.ofText?_key] at hread
        cases hread
      rw [checkSocket, checkIp_eq]
      split
      · exact hunseen
      · rw [(checkKey_eq now _ l).2.2.2, if_neg hother, hunseen]

/-- The loopback address of IPv6, on a link of its own or on none. -/
def sampleLoopback (scope : Nat) : SocketAddress where
  ip := .v6 ⟨[0, 0, 0, 0, 0, 0, 0, 1], rfl⟩
  port := 80
  scope

theorem sockets_limited_alike_sample :
    SocketAddress.ofText? "[0:0::0001]:80".toList = some (sampleLoopback 0) ∧
    (∀ (now : Nat) (l : Limiter), l.check now "[0:0::0001]:80".toList = (.ok .allow, l)) ∧
    SocketAddress.ofText? "[::1%1]:80".toList = some (sampleLoopback 1) ∧
    ∀ now, (sampleLimiter.check now "[::1%1]:80".toList).2.buckets.get? "::1%1".toList ≠ none := by
  have hplain : SocketAddress.ofText? "[0:0::0001]:80".toList = some (sampleLoopback 0) := by decide
  have hscoped : SocketAddress.ofText? "[::1%1]:80".toList = some (sampleLoopback 1) := by decide
  refine ⟨hplain, fun now l => ?_, hscoped, fun now => ?_⟩
  · exact ((sockets_limited_alike hplain).1 (by decide) now l).2 (by decide)
  · obtain ⟨host, hhost, hcheck⟩ := (sockets_limited_alike hscoped).2 (by decide)
    have hname : hostOf? "[::1%1]:80".toList = some "::1%1".toList := by decide
    rw [← Option.some.inj (hhost.symm.trans hname)]
    exact ((hcheck now sampleLimiter).2 rfl).1

/-- A loopback address with a scope is exempt as an address, and has a bucket as a text. -/
theorem not_sockets_limited_alike_scope :
    ¬ ∀ (text : Text) (address : SocketAddress), SocketAddress.ofText? text = some address →
      ∀ (now : Nat) (l : Limiter),
        l.check now text = (.ok (l.checkSocket now address).1, (l.checkSocket now address).2) := by
  intro halike
  have hsame := halike "[::1%1]:80".toList (sampleLoopback 1) (by decide) 0 sampleLimiter
  have htracked := congrArg (fun result => result.2.trackedClients) hsame
  exact absurd htracked (by decide)

end Sockets

end DeadDrop.Limiter
