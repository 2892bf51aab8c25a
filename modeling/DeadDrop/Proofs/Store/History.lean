import DeadDrop.Proofs.Store.Calls
import DeadDrop.Proofs.Store.Live
import DeadDrop.Proofs.Table

/-!
# What a memory holds, told from its history

An ideal map that forgets would answer a read from the history alone: a value is seen if the last
call that edited the key wrote it, and its time is not over. The memory answers reads in this way
although it drops entries as it goes. What it has dropped shows in two other answers, of a removal
and of a sweep, and these too can be told from the history: an entry is held as long as no read of
its key and no sweep came across it when its time was over.

So the invariant of a run is that the entries in memory are those that the history says are held.
Each call moves both sides in the same way.
-/

namespace DeadDrop.Backend

/-! ### Histories -/

/-- The call decides anew what is under a key. -/
def Call.Edits (key : Text) : Call → Prop
  | .write other _ _ | .remove other => other = key
  | .read _ | .sweep => False

/-- The call comes across the entry under a key, and removes it if its time is over. -/
def Call.Visits (key : Text) : Call → Prop
  | .read other => other = key
  | .sweep => True
  | .write .. | .remove _ => False

/-- The last call of a history that edits the key is a write, and what was called since. -/
structure LastWrite (history : List (Timed Call)) (key : Text) (value : Bytes) (ttl : Option Nat)
    (clock : Clock) (since : List (Timed Call)) : Prop where
  split : ∃ earlier, history = earlier ++ ⟨clock, .write key value ttl⟩ :: since
  not_edits : ∀ i ∈ since, ¬ i.call.Edits key

/-- The value was the last to be written under the key, for good or for a time that is not over. -/
def Seen (history : List (Timed Call)) (now : Nat) (key : Text) (value : Bytes) : Prop :=
  ∃ ttl clock since, LastWrite history key value ttl clock since ∧
    ∀ span, ttl = some span → now < clock.monotonic + span

/-- The entry was the last to be written under the key, and was not over when it was visited. -/
def Held (history : List (Timed Call)) (key : Text) (entry : MemoryEntry) : Prop :=
  ∃ ttl clock since, LastWrite history key entry.value ttl clock since ∧
    entry.expiry = ttl.map (clock.monotonic + ·) ∧
    ∀ i ∈ since, i.call.Visits key → entry.isOver i.clock.monotonic = false

/-- How a map that forgets in time answers a call after a history. -/
def Answered (history : List (Timed Call)) (now : Nat) : Call → Reply → Prop
  | .read key, .value found => ∀ value, found = some value ↔ Seen history now key value
  | .write .., .written => True
  | .remove key, .removed held => held = true ↔ ∃ entry, Held history key entry
  | .sweep, .swept count =>
    count = {key | ∃ entry, Held history key entry ∧ entry.isOver now = true}.ncard
  | _, _ => False

variable {history since : List (Timed Call)} {i : Timed Call} {key : Text} {value : Bytes}
  {ttl : Option Nat} {clock : Clock} {entry : MemoryEntry}

/-! ### One call more -/

theorem not_lastWrite_nil : ¬ LastWrite [] key value ttl clock since := by
  rintro ⟨⟨earlier, hsplit⟩, _⟩
  simp at hsplit

/-- The last write is the last call, or it was the last write before and the call does not edit. -/
theorem lastWrite_concat_iff :
    LastWrite (history ++ [i]) key value ttl clock since ↔
      (since = [] ∧ i = ⟨clock, .write key value ttl⟩) ∨
        ∃ since', since = since' ++ [i] ∧ ¬ i.call.Edits key ∧
          LastWrite history key value ttl clock since' := by
  constructor
  · rintro ⟨⟨earlier, hsplit⟩, hsince⟩
    rcases List.eq_nil_or_concat' since with rfl | ⟨since', last, rfl⟩
    · exact .inl ⟨rfl, (List.append_inj' hsplit rfl).2 |> List.singleton_inj.1⟩
    · have hsplit' : history ++ [i] =
          (earlier ++ ⟨clock, .write key value ttl⟩ :: since') ++ [last] := by
        rw [hsplit, List.append_assoc]
        rfl
      obtain ⟨hhistory, hlast⟩ := List.append_inj' hsplit' rfl
      obtain rfl : i = last := List.singleton_inj.1 hlast
      refine .inr ⟨since', rfl, hsince i (by simp), ⟨earlier, hhistory⟩, fun j hj => ?_⟩
      exact hsince j (List.mem_append_left _ hj)
  · rintro (⟨rfl, rfl⟩ | ⟨since', rfl, hi, ⟨earlier, rfl⟩, hsince'⟩)
    · exact ⟨⟨history, rfl⟩, by simp⟩
    · refine ⟨⟨earlier, by simp⟩, fun j hj => ?_⟩
      rcases List.mem_append.1 hj with hj | hj
      · exact hsince' j hj
      · rwa [List.mem_singleton.1 hj]

theorem not_held_nil : ¬ Held [] key entry := by
  rintro ⟨ttl, clock, since, hlast, _⟩
  exact not_lastWrite_nil hlast

theorem held_concat_of_not_edits (hi : ¬ i.call.Edits key) :
    Held (history ++ [i]) key entry ↔
      Held history key entry ∧ (i.call.Visits key → entry.isOver i.clock.monotonic = false) := by
  constructor
  · rintro ⟨ttl, clock, since, hlast, hexpiry, hvisits⟩
    rcases lastWrite_concat_iff.1 hlast with ⟨_, rfl⟩ | ⟨since', rfl, _, hlast'⟩
    · exact absurd rfl hi
    · exact ⟨⟨ttl, clock, since', hlast', hexpiry,
        fun j hj => hvisits j (List.mem_append_left _ hj)⟩, hvisits i (by simp)⟩
  · rintro ⟨⟨ttl, clock, since, hlast, hexpiry, hvisits⟩, hvisit⟩
    refine ⟨ttl, clock, since ++ [i], lastWrite_concat_iff.2 (.inr ⟨since, rfl, hi, hlast⟩),
      hexpiry, fun j hj => ?_⟩
    rcases List.mem_append.1 hj with hj | hj
    · exact hvisits j hj
    · rwa [List.mem_singleton.1 hj]

theorem held_concat_write_self :
    Held (history ++ [⟨clock, .write key value ttl⟩]) key entry ↔
      entry = ⟨value, ttl.map (clock.monotonic + ·)⟩ := by
  constructor
  · rintro ⟨ttl', clock', since, hlast, hexpiry, _⟩
    rcases lastWrite_concat_iff.1 hlast with ⟨_, hi⟩ | ⟨_, _, hi, _⟩
    · obtain ⟨rfl, hcall⟩ := Timed.mk.inj hi
      obtain ⟨_, rfl, rfl⟩ := Call.write.inj hcall
      rw [← hexpiry]
    · exact absurd rfl hi
  · rintro rfl
    exact ⟨ttl, clock, [], lastWrite_concat_iff.2 (.inl ⟨rfl, rfl⟩), rfl, by simp⟩

theorem not_held_concat_remove_self :
    ¬ Held (history ++ [⟨clock, .remove key⟩]) key entry := by
  rintro ⟨ttl, clock', since, hlast, _⟩
  rcases lastWrite_concat_iff.1 hlast with ⟨_, hi⟩ | ⟨_, _, hi, _⟩
  · exact absurd hi (by simp)
  · exact absurd rfl hi

/-- What was last written and is not over is held: no visit has come too late for it. -/
theorem seen_iff_held {now : Nat} (hpast : ∀ i ∈ history, i.clock.monotonic ≤ now) :
    Seen history now key value ↔
      ∃ entry, Held history key entry ∧ entry.value = value ∧ entry.isOver now = false := by
  have hlive : ∀ (ttl : Option Nat) (start : Nat),
      MemoryEntry.isOver now ⟨value, ttl.map (start + ·)⟩ = false ↔
        ∀ span, ttl = some span → now < start + span := by
    intro ttl start
    cases ttl with
    | none => simp [MemoryEntry.isOver]
    | some span => simp [MemoryEntry.isOver]
  constructor
  · rintro ⟨ttl, clock, since, hlast, hspan⟩
    have hnow := (hlive ttl clock.monotonic).2 hspan
    refine ⟨⟨value, ttl.map (clock.monotonic + ·)⟩, ⟨ttl, clock, since, hlast, rfl, ?_⟩, rfl, hnow⟩
    intro i hi _
    obtain ⟨earlier, rfl⟩ := hlast.split
    -- an entry that was over at a visit is over now
    by_contra hover
    rw [Memory.isOver_of_le (hpast i (by simp [hi])) (by simpa using hover)] at hnow
    exact absurd hnow (by simp)
  · rintro ⟨⟨_, expiry⟩, ⟨ttl, clock, since, hlast, rfl, _⟩, rfl, hnow⟩
    exact ⟨ttl, clock, since, hlast, (hlive ttl clock.monotonic).1 hnow⟩

end DeadDrop.Backend

/-! ### The memory -/

namespace DeadDrop.Memory

open Backend

/-- The entries in memory are those that the history says are held. -/
def Remembers (history : List (Timed Call)) (m : Memory) : Prop :=
  ∀ key entry, m.entries.get? key = some entry ↔ Held history key entry

/-- The expiry that a call asks for is within the range of the clock. -/
def InRange : Timed Call → Prop
  | ⟨clock, .write _ _ (some ttl)⟩ => clock.monotonic + ttl < clockLimit
  | _ => True

instance : DecidablePred InRange := fun i => by
  unfold InRange
  split <;> infer_instance

theorem get?_read {clock : Clock} {key other : Text} {m : Memory} {entry : MemoryEntry} :
    (read clock other m).2.entries.get? key = some entry ↔
      m.entries.get? key = some entry ∧
        (other = key → entry.isOver clock.monotonic = false) := by
  unfold read
  cases hother : m.entries.get? other with
  | none =>
    refine ⟨fun h => ⟨h, ?_⟩, And.left⟩
    rintro rfl
    exact absurd (hother.symm.trans h) (by simp)
  | some found =>
    by_cases hover : found.isOver clock.monotonic = true
    · simp only [hover, if_true]
      rw [Table.get?_erase]
      by_cases hkey : key = other
      · subst hkey
        rw [if_pos rfl, hother]
        refine iff_of_false (by simp) ?_
        rintro ⟨hfound, hlive⟩
        obtain rfl := Option.some.inj hfound
        rw [hlive rfl] at hover
        exact absurd hover (by simp)
      · rw [if_neg hkey]
        exact ⟨fun h => ⟨h, fun heq => absurd heq.symm hkey⟩, And.left⟩
    · simp only [hover, Bool.false_eq_true, if_false]
      refine ⟨fun h => ⟨h, ?_⟩, And.left⟩
      rintro rfl
      obtain rfl := Option.some.inj (hother.symm.trans h)
      simpa using hover

theorem get?_sweep {clock : Clock} {key : Text} {m : Memory} {entry : MemoryEntry} :
    (sweep clock m).2.entries.get? key = some entry ↔
      m.entries.get? key = some entry ∧ entry.isOver clock.monotonic = false := by
  change (m.entries.filter _).get? key = some entry ↔ _
  rw [Table.get?_filter, Option.filter_eq_some_iff]
  simp

theorem write_of_inRange {clock : Clock} {key : Text} {value : Bytes} {ttl : Option Nat}
    (h : InRange ⟨clock, .write key value ttl⟩) (m : Memory) :
    write clock key value ttl m =
      (.ok (), ⟨m.entries.insert key ⟨value, ttl.map (clock.monotonic + ·)⟩⟩) := by
  cases ttl with
  | none => rfl
  | some ttl => exact write_of_lt h key value m

/-- A call on a memory is its operation, with the reply made from what that ends with. -/
theorem perform_eq (clock : Clock) (call : Call) (m : Memory) :
    call.perform clock m = match call with
      | .read key => ((read clock key m).1.map Reply.value, (read clock key m).2)
      | .write key value ttl =>
        ((write clock key value ttl m).1.map fun _ => Reply.written,
          (write clock key value ttl m).2)
      | .remove key => (.ok (.removed (m.entries.contains key)), ⟨m.entries.erase key⟩)
      | .sweep => ((sweep clock m).1.map Reply.swept, (sweep clock m).2) := by
  cases call <;>
    · rw [Call.perform, Action.bind_pure_apply]
      rfl

variable {history : List (Timed Call)} {m : Memory}

/-- One call keeps the memory in step with the history. -/
theorem Remembers.perform (h : Remembers history m) {i : Timed Call} (hrange : InRange i) :
    Remembers (history ++ [i]) (i.call.perform i.clock m).2 := by
  obtain ⟨clock, call⟩ := i
  intro key entry
  rw [perform_eq]
  cases call with
  | read other =>
    rw [get?_read, h, held_concat_of_not_edits id]
    rfl
  | write other value ttl =>
    dsimp only
    rw [write_of_inRange hrange, Table.get?_insert]
    by_cases hkey : key = other
    · subst hkey
      rw [if_pos rfl, held_concat_write_self, Option.some_inj]
      exact eq_comm
    · have hedits : ¬ Call.Edits key (.write other value ttl) := Ne.symm hkey
      rw [if_neg hkey, h, held_concat_of_not_edits hedits]
      simp [Call.Visits]
  | remove other =>
    rw [Table.get?_erase]
    by_cases hkey : key = other
    · subst hkey
      rw [if_pos rfl]
      exact iff_of_false (by simp) not_held_concat_remove_self
    · have hedits : ¬ Call.Edits key (.remove other) := Ne.symm hkey
      rw [if_neg hkey, h, held_concat_of_not_edits hedits]
      simp [Call.Visits]
  | sweep =>
    rw [get?_sweep, h, held_concat_of_not_edits id]
    simp [Call.Visits]

/-- A memory that is in step with the history answers as the history says. -/
theorem Remembers.answered (h : Remembers history m) {i : Timed Call} (hrange : InRange i)
    (hpast : ∀ j ∈ history, j.clock.monotonic ≤ i.clock.monotonic) :
    ∃ reply, (i.call.perform i.clock m).1 = .ok reply ∧
      Answered history i.clock.monotonic i.call reply := by
  obtain ⟨clock, call⟩ := i
  rw [perform_eq]
  cases call with
  | read key =>
    dsimp only
    rw [read_fst]
    refine ⟨_, rfl, ?_⟩
    intro value
    rw [seen_iff_held hpast]
    simp only [live, Table.live, Option.map_eq_some_iff, Option.filter_eq_some_iff, h key,
      Bool.not_eq_true', and_assoc]
    grind
  | write key value ttl =>
    dsimp only
    rw [write_of_inRange hrange]
    exact ⟨.written, rfl, trivial⟩
  | remove key =>
    refine ⟨.removed (m.entries.contains key), rfl, ?_⟩
    change (m.entries.get? key).isSome = true ↔ _
    rw [Option.isSome_iff_exists]
    exact exists_congr (h key)
  | sweep =>
    refine ⟨.swept (m.entries.size - (sweep clock m).2.entries.size), rfl, ?_⟩
    change m.entries.size - (m.entries.filter _).size = _
    rw [Table.size_sub_size_filter, Table.size_eq_ncard]
    congr 1
    ext key
    apply exists_congr
    intro entry
    rw [Table.get?_filter, Option.filter_eq_some_iff, h, Bool.not_not]

/-- The memory after a run of calls, from empty. -/
def after (run : List (Timed Call)) : Memory :=
  stateAfter (fun i => i.call.perform i.clock) run empty

theorem remembers_after {run : List (Timed Call)} (hrange : ∀ i ∈ run, InRange i) :
    Remembers run (after run) := by
  refine stateAfter_induction (fun history m => Remembers history m) ?_ ?_
  · exact fun key entry => iff_of_false (by simp [empty, Table.empty, Table.get?, Assoc.get?])
      not_held_nil
  · rintro before i rest rfl m hm
    exact hm.perform (hrange i (by simp))

/-- **The memory is a map that forgets in time.** Each call of a run is answered as the calls before
it say, the entries in memory are those that are held, and none of them is over after a sweep. -/
theorem calls_answered {run : List (Timed Call)} (hforward : Forward run)
    (hrange : ∀ i ∈ run, InRange i) :
    (∀ before i rest, run = before ++ i :: rest →
      ∃ reply, (calls run empty)[before.length]? = some (i, .ok reply) ∧
        Answered before i.clock.monotonic i.call reply) ∧
    (∀ key entry, (after run).entries.get? key = some entry ↔ Held run key entry) ∧
    (∀ before clock, run = before ++ [⟨clock, .sweep⟩] →
      ∀ key entry, (after run).entries.get? key = some entry →
        entry.isOver clock.monotonic = false) := by
  refine ⟨?_, remembers_after hrange, ?_⟩
  · rintro before i rest rfl
    have hbefore : Remembers before (after before) :=
      remembers_after fun j hj => hrange j (List.mem_append_left _ hj)
    have hpast : ∀ j ∈ before, j.clock.monotonic ≤ i.clock.monotonic :=
      fun j hj => (List.pairwise_append.1 hforward).2.2 j hj i List.mem_cons_self
    obtain ⟨reply, hreply, hanswered⟩ := hbefore.answered (hrange i (by simp)) hpast
    refine ⟨reply, ?_, hanswered⟩
    calc (calls (before ++ i :: rest) empty)[before.length]?
      _ = some (i, (i.call.perform i.clock (after before)).1) :=
        getElem?_transcript _ before rest i _
      _ = some (i, .ok reply) := by rw [hreply]
  · rintro before clock rfl key entry hentry
    rw [remembers_after hrange, held_concat_of_not_edits id] at hentry
    exact hentry.2 trivial

def sampleHistory : List (Timed Call) :=
  [(0, .write ['a'] [1] (some 5)), (4, .read ['a']), (5, .read ['a']), (6, .write ['a'] [2] none),
    (6, .write ['b'] [3] (some 2)), (8, .sweep), (9, .remove ['b'])].map fun p => ⟨⟨0, p.1⟩, p.2⟩

theorem calls_answered_sample :
    Forward sampleHistory ∧ (∀ i ∈ sampleHistory, InRange i) ∧
      (∃ reply, (calls sampleHistory empty)[5]? = some (⟨⟨0, 8⟩, .sweep⟩, .ok reply) ∧
        Answered (sampleHistory.take 5) 8 .sweep reply) ∧
      ∀ key entry, (after sampleHistory).entries.get? key = some entry ↔
        Held sampleHistory key entry := by
  have hforward : Forward sampleHistory := by decide
  have hrange : ∀ i ∈ sampleHistory, InRange i := by decide
  obtain ⟨hanswers, hheld, _⟩ := calls_answered hforward hrange
  have hsweep := hanswers (sampleHistory.take 5) ⟨⟨0, 8⟩, .sweep⟩ (sampleHistory.drop 6) rfl
  exact ⟨hforward, hrange, hsweep, hheld⟩

end DeadDrop.Memory
