import DeadDrop.Time.Clock
import Mathlib.Data.List.Induction

/-!
# Runs and their transcripts

A run is a list of calls, each with the reading of the clocks at which it is made, so the time that
passes between two calls is the difference of their readings. Its transcript has every call with its
answer.

There are two inductions over runs. `stateAfter_induction` carries what ties the calls so far to the
state that they leave. `filter_transcript_eq` compares: two machines are run side by side, the
second one on a part of the calls only. A relation between their states, which may depend on the
time, is kept by the calls that both make and by those that only the first one makes; then the
second machine's transcript is what the first one's shows of that part. Within one machine, the
calls that changed nothing can be left out (`transcript_of_sublist`).
-/

namespace DeadDrop

instance : LE Clock where
  le c d := c.wall ≤ d.wall ∧ c.monotonic ≤ d.monotonic

instance (c d : Clock) : Decidable (c ≤ d) :=
  inferInstanceAs (Decidable (c.wall ≤ d.wall ∧ c.monotonic ≤ d.monotonic))

theorem Clock.le_iff {c d : Clock} : c ≤ d ↔ c.wall ≤ d.wall ∧ c.monotonic ≤ d.monotonic := Iff.rfl

/-- A call and the reading of the clocks at which it is made. -/
structure Timed (α : Type) where
  clock : Clock
  call : α

/-- The clocks never go back from one call to a later one. -/
def Chronological {α : Type} (run : List (Timed α)) : Prop :=
  run.Pairwise fun a b => a.clock ≤ b.clock

instance {α : Type} (run : List (Timed α)) : Decidable (Chronological run) :=
  inferInstanceAs (Decidable (run.Pairwise fun a b => a.clock ≤ b.clock))

variable {α β σ τ : Type}

/-- Every call of a run with its answer, from a state on. -/
def transcript (answer : Timed α → σ → β × σ) : List (Timed α) → σ → List (Timed α × β)
  | [], _ => []
  | t :: rest, s => (t, (answer t s).1) :: transcript answer rest (answer t s).2

/-- The state that a run leaves. -/
def stateAfter (answer : Timed α → σ → β × σ) (run : List (Timed α)) (s : σ) : σ :=
  run.foldl (fun s t => (answer t s).2) s

/-- The monotonic clock never goes back from one call to a later one. The wall clock may be set. -/
def Forward {α : Type} (run : List (Timed α)) : Prop :=
  run.Pairwise fun a b => a.clock.monotonic ≤ b.clock.monotonic

instance {α : Type} (run : List (Timed α)) : Decidable (Forward run) :=
  inferInstanceAs (Decidable (run.Pairwise fun a b => a.clock.monotonic ≤ b.clock.monotonic))

theorem Forward.filter {α : Type} {run : List (Timed α)} (h : Forward run)
    (keep : Timed α → Bool) : Forward (run.filter keep) :=
  List.Pairwise.filter keep h

theorem stateAfter_concat (answer : Timed α → σ → β × σ) (run : List (Timed α)) (t : Timed α)
    (s : σ) : stateAfter answer (run ++ [t]) s = (answer t (stateAfter answer run s)).2 := by
  rw [stateAfter, List.foldl_append]
  rfl

theorem transcript_append (answer : Timed α → σ → β × σ) (run rest : List (Timed α)) (s : σ) :
    transcript answer (run ++ rest) s =
      transcript answer run s ++ transcript answer rest (stateAfter answer run s) := by
  induction run generalizing s with
  | nil => rfl
  | cons t run ih => exact congrArg _ (ih _)

theorem map_fst_transcript (answer : Timed α → σ → β × σ) (run : List (Timed α)) (s : σ) :
    (transcript answer run s).map Prod.fst = run := by
  induction run generalizing s with
  | nil => rfl
  | cons t run ih => exact congrArg _ (ih _)

theorem length_transcript (answer : Timed α → σ → β × σ) (run : List (Timed α)) (s : σ) :
    (transcript answer run s).length = run.length := by
  rw [← List.length_map Prod.fst, map_fst_transcript]

/-- A call is answered in the state that the calls before it leave. -/
theorem getElem?_transcript (answer : Timed α → σ → β × σ) (before rest : List (Timed α))
    (t : Timed α) (s : σ) :
    (transcript answer (before ++ t :: rest) s)[before.length]? =
      some (t, (answer t (stateAfter answer before s)).1) := by
  rw [transcript_append, List.getElem?_append_right (Nat.le_of_eq (length_transcript ..)),
    length_transcript, Nat.sub_self]
  rfl

/-- What stands before an entry of a transcript and what stands behind it are the transcripts of the
calls before and behind. -/
theorem exists_of_transcript_eq {answer : Timed α → σ → β × σ} {run : List (Timed α)} {s : σ}
    {before rest : List (Timed α × β)} {t : Timed α} {b : β}
    (h : transcript answer run s = before ++ (t, b) :: rest) :
    ∃ history later, before = transcript answer history s ∧
      b = (answer t (stateAfter answer history s)).1 ∧
      rest = transcript answer later (answer t (stateAfter answer history s)).2 := by
  induction before generalizing run s with
  | nil =>
    cases run with
    | nil => cases h
    | cons t' run =>
      obtain ⟨hentry, hlater⟩ := List.cons.inj h
      obtain ⟨rfl, rfl⟩ := Prod.mk.inj hentry
      exact ⟨[], run, rfl, rfl, hlater.symm⟩
  | cons entry before ih =>
    cases run with
    | nil => cases h
    | cons t' run =>
      obtain ⟨rfl, hlater⟩ := List.cons.inj h
      obtain ⟨history, later, rfl, rfl, rfl⟩ := ih hlater
      exact ⟨t' :: history, later, rfl, rfl, rfl⟩

/-- Calls whose answers show that they changed nothing can be left out of a run. -/
theorem transcript_of_sublist {answer : Timed α → σ → β × σ} (acts : β → Bool)
    (hidle : ∀ t s, acts (answer t s).1 = false → (answer t s).2 = s) {run : List (Timed α)} {s : σ}
    {kept : List (Timed α × β)} (hsublist : kept.Sublist (transcript answer run s))
    (hacts : kept.filter (fun e => acts e.2) =
      (transcript answer run s).filter (fun e => acts e.2)) :
    transcript answer (kept.map Prod.fst) s = kept := by
  induction run generalizing s kept with
  | nil => rw [List.sublist_nil.1 hsublist, List.map_nil, transcript]
  | cons t rest ih =>
    rw [transcript] at hsublist hacts
    rcases List.sublist_cons_iff.1 hsublist with hdropped | ⟨kept', rfl, hkept'⟩
    · cases hact : acts (answer t s).1 with
      | false =>
        rw [List.filter_cons_of_neg (by simp [hact])] at hacts
        rw [hidle t s hact] at hdropped hacts
        exact ih hdropped hacts
      | true =>
        -- the call acts, so a run without it has fewer calls that act
        rw [List.filter_cons_of_pos (by simpa using hact)] at hacts
        have hle := (hdropped.filter fun e => acts e.2).length_le
        rw [hacts, List.length_cons] at hle
        omega
    · have hacts' : kept'.filter (fun e => acts e.2) =
          (transcript answer rest (answer t s).2).filter (fun e => acts e.2) := by
        simp only [List.filter_cons] at hacts
        split at hacts
        · exact List.tail_eq_of_cons_eq hacts
        · exact hacts
      rw [List.map_cons, transcript, ih hkept' hacts']

/-- What holds of a state before anything was called, and is kept from the calls so far to one call
more, holds of the state after a run. -/
theorem stateAfter_induction {answer : Timed α → σ → β × σ} (I : List (Timed α) → σ → Prop)
    {run : List (Timed α)} {s : σ} (hstart : I [] s)
    (hstep : ∀ before t rest, run = before ++ t :: rest → ∀ s, I before s →
      I (before ++ [t]) (answer t s).2) : I run (stateAfter answer run s) := by
  suffices h : ∀ before rest, run = before ++ rest → I before (stateAfter answer before s) from
    h run [] (List.append_nil run).symm
  -- on the calls so far, which are the beginning of the run
  intro before
  induction before using List.reverseRecOn with
  | nil => exact fun _ _ => hstart
  | append_singleton before t ih =>
    intro rest hrun
    have hrun' : run = before ++ t :: rest := by rw [hrun, List.append_assoc]; rfl
    rw [stateAfter_concat]
    exact hstep before t rest hrun' _ (ih _ hrun')

/-- What a relation says at a call's time, it says at the time of every later call. -/
def Carried (R : Clock → σ → τ → Prop) (run : List (Timed α)) : Prop :=
  run.Pairwise fun i j => ∀ s t, R i.clock s t → R j.clock s t

theorem carried_of_chronological {R : Clock → σ → τ → Prop} {run : List (Timed α)}
    (hchron : Chronological run) (hlater : ∀ c d s t, c ≤ d → R c s t → R d s t) :
    Carried R run :=
  hchron.imp fun hle s t h => hlater _ _ s t hle h

theorem carried_const (R : σ → τ → Prop) (run : List (Timed α)) :
    Carried (fun _ => R) run :=
  List.pairwise_of_forall fun _ _ _ _ h => h

theorem filter_transcript_eq {f : Timed α → σ → β × σ} {g : Timed α → τ → β × τ}
    (R : Clock → σ → τ → Prop) (shared : α → Bool) {run : List (Timed α)}
    (hshared : ∀ i ∈ run, shared i.call = true → ∀ s t, R i.clock s t →
      (f i s).1 = (g i t).1 ∧ R i.clock (f i s).2 (g i t).2)
    (hother : ∀ i ∈ run, shared i.call = false → ∀ s t, R i.clock s t → R i.clock (f i s).2 t)
    (hcarried : Carried R run) {s : σ} {t : τ} (hstart : ∀ i ∈ run, R i.clock s t) :
    (transcript f run s).filter (fun entry => shared entry.1.call) =
      transcript g (run.filter fun i => shared i.call) t := by
  induction run generalizing s t with
  | nil => rfl
  | cons i rest ih =>
    have hlater : ∀ j ∈ rest, ∀ s t, R i.clock s t → R j.clock s t :=
      fun j hj => List.rel_of_pairwise_cons hcarried hj
    have hrest := @ih (fun j hj => hshared j (List.mem_cons_of_mem _ hj))
      (fun j hj => hother j (List.mem_cons_of_mem _ hj)) hcarried.of_cons
    have hnow : R i.clock s t := hstart i List.mem_cons_self
    cases hcall : shared i.call with
    | true =>
      obtain ⟨hanswer, hstate⟩ := hshared i List.mem_cons_self hcall s t hnow
      simp only [transcript, List.filter_cons, hcall, if_true, hanswer]
      rw [hrest fun j hj => hlater j hj _ _ hstate]
    | false =>
      have hstate := hother i List.mem_cons_self hcall s t hnow
      simp only [transcript, List.filter_cons, hcall, Bool.false_eq_true, if_false]
      exact hrest fun j hj => hlater j hj _ _ hstate

/-- Two machines that answer every call alike have the same transcript. -/
theorem transcript_eq {f : Timed α → σ → β × σ} {g : Timed α → τ → β × τ}
    (R : Clock → σ → τ → Prop) {run : List (Timed α)}
    (hstep : ∀ i ∈ run, ∀ s t, R i.clock s t →
      (f i s).1 = (g i t).1 ∧ R i.clock (f i s).2 (g i t).2)
    (hcarried : Carried R run) {s : σ} {t : τ} (hstart : ∀ i ∈ run, R i.clock s t) :
    transcript f run s = transcript g run t := by
  have h := filter_transcript_eq R (fun _ => true) (fun i hi _ => hstep i hi)
    (fun i _ hi => by simp at hi) hcarried hstart
  have hall : ∀ {γ : Type} (l : List γ), l.filter (fun _ => true) = l := fun l => by simp
  rwa [hall, hall] at h

end DeadDrop
