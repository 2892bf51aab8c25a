import DeadDrop.Proofs.Table
import DeadDrop.Stats

/-!
# Counters

What the operations of the statistics do to the counters. An event adds one to the lifetime count of
its kind and to that of its hour, a hit adds one to the hits of its client, and a snapshot adds
nothing and drops hours. The list of denied clients is looked up by name: a client has one line in
it, and a client without a line has no hits, so after any hits it is a tally of their clients
(`mem_tally_iff`).
-/

namespace DeadDrop

namespace EventCounts

@[simp]
theorem of_zero (event : StatsEvent) : zero.of event = 0 := by cases event <;> rfl

@[simp]
theorem of_count (c : EventCounts) (event other : StatsEvent) :
    (c.count event).of other = c.of other + if event = other then 1 else 0 := by
  cases event <;> cases other <;> rfl

@[simp]
theorem of_add (c d : EventCounts) (event : StatsEvent) :
    (c.add d).of event = c.of event + d.of event := by
  cases event <;> rfl

theorem of_foldl_count (events : List StatsEvent) (c : EventCounts) (event : StatsEvent) :
    (events.foldl count c).of event = c.of event + events.count event := by
  induction events generalizing c with
  | nil => rfl
  | cons first rest ih =>
    rw [List.foldl_cons, ih, of_count, List.count_cons, Nat.add_assoc, Nat.add_comm (ite _ _ _)]
    congr 2
    simp

end EventCounts

namespace Stats

variable (event : StatsEvent) (moment : Moment) (client : Text) (s : Stats)

@[simp]
theorem lifetime_record : (s.record event moment).lifetime = s.lifetime.count event := rfl

theorem get?_hourly_record (hour : Int) :
    (s.record event moment).hourly.get? hour =
      if hour = hourOf moment then
        some (((s.hourly.get? (hourOf moment)).getD .zero).count event)
      else s.hourly.get? hour :=
  Table.get?_insert ..

@[simp]
theorem hourly_recordRateLimitHit : (s.recordRateLimitHit client).hourly = s.hourly := rfl

theorem get?_hourly_snapshot (hour : Int) :
    (s.snapshot moment).2.hourly.get? hour =
      (s.hourly.get? hour).filter fun _ => inWindow moment hour :=
  Table.get?_filter ..

/-! ### Denied clients -/

theorem get?_countHit (other : Text) (clients : List (Text × Nat)) :
    Assoc.get? other (countHit client clients) =
      if other = client then some ((Assoc.get? client clients).getD 0 + 1)
      else Assoc.get? other clients := by
  induction clients with
  | nil => simp [countHit, Assoc.get?, eq_comm]
  | cons line rest ih =>
    obtain ⟨name, hits⟩ := line
    simp only [countHit]
    by_cases hname : name = client
    · rw [if_pos hname]
      subst hname
      by_cases hother : name = other
      · simp [Assoc.get?, hother]
      · simp [Assoc.get?, hother, Ne.symm hother]
    · rw [if_neg hname]
      by_cases hother : name = other
      · subst hother
        simp [Assoc.get?, hname]
      · simp [Assoc.get?, hname, hother, ih]

/-- A client that has a line keeps its place, and one that has none comes last. -/
theorem map_fst_countHit (clients : List (Text × Nat)) :
    (countHit client clients).map Prod.fst =
      if client ∈ clients.map Prod.fst then clients.map Prod.fst
      else clients.map Prod.fst ++ [client] := by
  induction clients with
  | nil => rfl
  | cons line rest ih =>
    obtain ⟨name, hits⟩ := line
    simp only [countHit]
    by_cases hname : name = client
    · simp [hname]
    · rw [if_neg hname, List.map_cons, ih]
      by_cases hrest : client ∈ rest.map Prod.fst
      · simp [hrest]
      · simp [hrest, Ne.symm hname]

theorem nodup_countHit {clients : List (Text × Nat)} (h : (clients.map Prod.fst).Nodup) :
    ((countHit client clients).map Prod.fst).Nodup := by
  rw [map_fst_countHit]
  split
  · exact h
  · rename_i habsent
    apply List.nodup_append.2
    refine ⟨h, List.pairwise_singleton _ client, ?_⟩
    intro name hname other hother heq
    rw [List.mem_singleton] at hother
    exact habsent (hother ▸ heq ▸ hname)

/-- The hits of a client, none if it has no line. -/
def hitsOf (client : Text) (clients : List (Text × Nat)) : Nat := (Assoc.get? client clients).getD 0

theorem hitsOf_countHit (other : Text) (clients : List (Text × Nat)) :
    hitsOf other (countHit client clients) =
      hitsOf other clients + if other = client then 1 else 0 := by
  rw [hitsOf, get?_countHit, hitsOf]
  by_cases hother : other = client
  · rw [if_pos hother, if_pos hother, hother, Option.getD_some]
  · rw [if_neg hother, if_neg hother, Nat.add_zero]

/-- The lines after hits of these clients, one after the other. -/
def tally (clients : List Text) : List (Text × Nat) :=
  clients.foldl (fun lines client => countHit client lines) []

theorem tally_concat (clients : List Text) :
    tally (clients ++ [client]) = countHit client (tally clients) := by
  rw [tally, List.foldl_append]
  rfl

theorem nodup_tally (clients : List Text) : ((tally clients).map Prod.fst).Nodup := by
  induction clients using List.reverseRecOn with
  | nil => exact List.nodup_nil
  | append_singleton clients client ih =>
    rw [tally_concat]
    exact nodup_countHit client ih

theorem get?_tally (clients : List Text) :
    Assoc.get? client (tally clients) =
      if client ∈ clients then some (clients.count client) else none := by
  induction clients using List.reverseRecOn with
  | nil => rfl
  | append_singleton clients other ih =>
    rw [tally_concat, get?_countHit]
    by_cases hclient : client = other
    · subst hclient
      have hlast : client ∈ clients ++ [client] := List.mem_append_right _ List.mem_cons_self
      rw [if_pos rfl, if_pos hlast, ih, List.count_append, List.count_singleton_self]
      by_cases hbefore : client ∈ clients
      · rw [if_pos hbefore, Option.getD_some]
      · rw [if_neg hbefore, List.count_eq_zero_of_not_mem hbefore, Option.getD_none]
    · simp [hclient, ih, List.count_append, Ne.symm hclient]

theorem sum_countHit (clients : List (Text × Nat)) :
    ((countHit client clients).map Prod.snd).sum = (clients.map Prod.snd).sum + 1 := by
  induction clients with
  | nil => rfl
  | cons line rest ih =>
    obtain ⟨name, hits⟩ := line
    rw [countHit]
    split
    · simp only [List.map_cons, List.sum_cons]
      omega
    · simp only [List.map_cons, List.sum_cons, ih]
      omega

/-- Every hit is in the line of its client. -/
theorem sum_tally (clients : List Text) :
    ((tally clients).map Prod.snd).sum = clients.length := by
  induction clients using List.reverseRecOn with
  | nil => rfl
  | append_singleton clients client ih =>
    rw [tally_concat, sum_countHit, ih, List.length_append, List.length_singleton]

theorem mem_tally_iff (clients : List Text) (hits : Nat) :
    (client, hits) ∈ tally clients ↔ client ∈ clients ∧ hits = clients.count client := by
  rw [← Assoc.get?_eq_some_iff_of_nodup (nodup_tally clients), get?_tally]
  by_cases hclient : client ∈ clients
  · simp [hclient, eq_comm]
  · simp [hclient]

/-- The clients are in the order of their first hits. -/
theorem pairwise_tally (clients : List Text) :
    ((tally clients).map Prod.fst).Pairwise fun a b => clients.idxOf a < clients.idxOf b := by
  induction clients using List.reverseRecOn with
  | nil => exact List.Pairwise.nil
  | append_singleton clients client ih =>
    have hmem : ∀ name ∈ (tally clients).map Prod.fst, name ∈ clients := by
      intro name hname
      obtain ⟨⟨name, hits⟩, hline, rfl⟩ := List.mem_map.1 hname
      exact ((mem_tally_iff name clients hits).1 hline).1
    -- a later hit does not move the first one
    have hkept : ((tally clients).map Prod.fst).Pairwise fun a b =>
        (clients ++ [client]).idxOf a < (clients ++ [client]).idxOf b := by
      refine ih.imp_of_mem fun {a b} ha hb hlt => ?_
      rwa [List.idxOf_append_of_mem (hmem a ha), List.idxOf_append_of_mem (hmem b hb)]
    rw [tally_concat, map_fst_countHit]
    split
    · exact hkept
    · rename_i habsent
      have hnew : client ∉ clients := by
        intro hclient
        have hline := (mem_tally_iff client clients _).2 ⟨hclient, rfl⟩
        exact habsent (List.mem_map.2 ⟨_, hline, rfl⟩)
      refine List.pairwise_append.2 ⟨hkept, List.pairwise_singleton _ client, ?_⟩
      intro name hname other hother
      obtain rfl := List.mem_singleton.1 hother
      rw [List.idxOf_append_of_mem (hmem name hname), List.idxOf_append_of_notMem hnew]
      exact Nat.lt_add_right _ (List.idxOf_lt_length_of_mem (hmem name hname))

end Stats

end DeadDrop
