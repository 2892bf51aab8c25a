import DeadDrop.Proofs.Limiter.Clients

/-!
# The load that a limiter lets through

In a window of time a client gets at most a full bucket and what comes back during the window. Each
allowed request puts the arrival time off by one refill period, from the start of the window at
least; the last one of the window may leave it a full bucket of periods after the end of the window
and not more. So the requests fit between the two.

The other way round, a bucket that has not been drawn from for long enough is full: then the arrival
time is past, and a full bucket of requests in a row is allowed.
-/

namespace DeadDrop.Limiter

/-- The question was allowed, at a time from `x` to `y`. -/
def AllowedIn (x y : Nat) (e : Timed Ask × Except Error Admission) : Prop :=
  e.2 = .ok .allow ∧ x ≤ e.1.clock.monotonic ∧ e.1.clock.monotonic ≤ y

instance (x y : Nat) : DecidablePred (AllowedIn x y) := fun e =>
  inferInstanceAs (Decidable (e.2 = .ok .allow ∧ _ ∧ _))

variable {period burst : Nat}

theorem room_add_period (period : Nat) (hburst : 0 < burst) :
    period * (burst - 1) + period = period * burst := by
  rw [← Nat.mul_succ, Nat.succ_eq_add_one, Nat.sub_add_cancel hburst]

/-! ### At most -/

theorem max_getD_le {x now : Nat} (hx : x ≤ now) (arrival? : Option Nat) :
    max (arrival?.getD x) x ≤ max (arrival?.getD now) now := by
  cases arrival? with
  | none => simpa using hx
  | some arrival => exact max_le_max_left arrival hx

theorem max_getD_le_next (period x now : Nat) (arrival? : Option Nat) :
    max (arrival?.getD x) x ≤ max (max (arrival?.getD now) now + period) x := by
  cases arrival? with
  | none =>
    rw [Option.getD_none, max_self]
    exact le_max_right ..
  | some arrival =>
    apply max_le_max_right
    exact (le_max_left arrival now).trans (Nat.le_add_right ..)

/-- The requests that are allowed in a window follow one another, a period each, from the arrival
time that the window begins with. -/
theorem add_countP_allowed_le (hburst : 0 < burst) (x y : Nat) (own : List (Timed Ask))
    (arrival? : Option Nat) :
    0 < (transcript (answerAlone period burst) own arrival?).countP (AllowedIn x y) →
      max (arrival?.getD x) x +
          period * (transcript (answerAlone period burst) own arrival?).countP (AllowedIn x y) ≤
        y + period * burst := by
  induction own generalizing arrival? with
  | nil =>
    intro hpos
    exact absurd hpos (Nat.lt_irrefl 0)
  | cons i rest ih =>
    rw [transcript]
    rcases answerAlone_cases period burst i arrival? with ⟨hnear, hallow⟩ | ⟨_, hdeny⟩
    · rw [hallow]
      have hrest := ih (some (max (arrival?.getD i.clock.monotonic) i.clock.monotonic + period))
      rw [Option.getD_some] at hrest
      dsimp only at hrest ⊢
      by_cases hin : x ≤ i.clock.monotonic ∧ i.clock.monotonic ≤ y
      · have hstart := max_getD_le hin.1 arrival?
        rw [List.countP_cons_of_pos (by simpa [AllowedIn] using hin), Nat.mul_succ]
        intro _
        rcases Nat.eq_zero_or_pos
          ((transcript (answerAlone period burst) rest _).countP (AllowedIn x y)) with hlast | hpos
        · -- this is the last one in the window, so the rule that let it in bounds it
          calc max (arrival?.getD x) x + (period * _ + period)
            _ ≤ max (arrival?.getD i.clock.monotonic) i.clock.monotonic + period := by
              rw [hlast, Nat.mul_zero]
              omega
            _ ≤ i.clock.monotonic + period * (burst - 1) + period := by omega
            _ ≤ y + period * burst := by
              rw [Nat.add_assoc, room_add_period period hburst]
              exact Nat.add_le_add_right hin.2 _
        · -- the others follow from an arrival time that is a period later
          calc max (arrival?.getD x) x + (period * _ + period)
            _ ≤ max (max (arrival?.getD i.clock.monotonic) i.clock.monotonic + period) x +
                period * _ := by omega
            _ ≤ y + period * burst := hrest hpos
      · rw [List.countP_cons_of_neg (by simpa [AllowedIn] using hin)]
        intro hpos
        have hstart := max_getD_le_next period x i.clock.monotonic arrival?
        exact (Nat.add_le_add_right hstart _).trans (hrest hpos)
    · rw [hdeny, List.countP_cons_of_neg (by simp [AllowedIn])]
      exact ih arrival?

/-! ### At least -/

/-- If the arrival time is at most `used` periods ahead, as many requests are allowed as fit into the
rest of the bucket. -/
theorem take_allowed_of_near {own : List (Timed Ask)} (hforward : Forward own)
    (x used : Nat) (hlate : ∀ i ∈ own, x ≤ i.clock.monotonic) {arrival? : Option Nat}
    (hnear : arrival?.getD x ≤ x + period * used) :
    ∀ e ∈ (transcript (answerAlone period burst) own arrival?).take (burst - used),
      e.2 = .ok .allow := by
  induction own generalizing x used arrival? with
  | nil =>
    intro e he
    exact absurd he (by simp [transcript])
  | cons i rest ih =>
    intro e he
    rcases Nat.lt_or_ge used burst with hused | hfull
    · have hx : x ≤ i.clock.monotonic := hlate i List.mem_cons_self
      have hnow : arrival?.getD i.clock.monotonic ≤ i.clock.monotonic + period * used := by
        cases arrival? with
        | none => exact Nat.le_add_right ..
        | some arrival => exact hnear.trans (Nat.add_le_add_right hx _)
      have hroom : period * used ≤ period * (burst - 1) :=
        Nat.mul_le_mul_left period (Nat.le_sub_one_of_lt hused)
      have hleft : burst - used = burst - (used + 1) + 1 := by omega
      rcases answerAlone_cases period burst i arrival? with ⟨_, hallow⟩ | ⟨hfar, _⟩
      · rw [transcript, hallow, hleft, List.take_succ_cons] at he
        rcases List.mem_cons.1 he with rfl | he
        · rfl
        · refine ih hforward.of_cons i.clock.monotonic (used + 1)
            (fun j hj => List.rel_of_pairwise_cons hforward hj) ?_ e he
          rw [Option.getD_some, Nat.mul_succ]
          omega
      · omega
    · rw [Nat.sub_eq_zero_of_le hfull] at he
      exact absurd he (by simp)

/-- A request that is allowed leaves the arrival time a full bucket of periods ahead at most. -/
theorem take_allowed_of_quiet (hburst : 0 < burst) {own : List (Timed Ask)}
    (hforward : Forward own) {x : Nat} {arrival? : Option Nat} (harrival : arrival?.getD x ≤ x)
    (hquiet : ∀ e ∈ transcript (answerAlone period burst) own arrival?, e.2 = .ok .allow →
      e.1.clock.monotonic < x → e.1.clock.monotonic + period * burst ≤ x) :
    ∀ e ∈ ((transcript (answerAlone period burst) own arrival?).filter
        fun e => decide (x ≤ e.1.clock.monotonic)).take burst,
      e.2 = .ok .allow := by
  induction own generalizing arrival? with
  | nil =>
    intro e he
    exact absurd he (by simp [transcript])
  | cons i rest ih =>
    rcases Nat.lt_or_ge i.clock.monotonic x with hearly | hlate
    · rw [transcript] at hquiet ⊢
      rw [List.filter_cons_of_neg (by simpa using hearly)]
      refine ih hforward.of_cons ?_ fun e he => hquiet e (List.mem_cons_of_mem _ he)
      have hroom := room_add_period period hburst
      rcases answerAlone_cases period burst i arrival? with ⟨hnear, hallow⟩ | ⟨_, hdeny⟩
      · have hpast : i.clock.monotonic + period * burst ≤ x :=
          hquiet _ List.mem_cons_self (by rw [hallow]) hearly
        rw [hallow, Option.getD_some]
        omega
      · rwa [hdeny]
    · have hall : ∀ j ∈ i :: rest, x ≤ j.clock.monotonic := by
        intro j hj
        rcases List.mem_cons.1 hj with rfl | hj
        · exact hlate
        · exact hlate.trans (List.rel_of_pairwise_cons hforward hj)
      have hfilter : (transcript (answerAlone period burst) (i :: rest) arrival?).filter
          (fun e => decide (x ≤ e.1.clock.monotonic)) =
          transcript (answerAlone period burst) (i :: rest) arrival? := by
        apply List.filter_eq_self.2
        intro e he
        have hcall : e.1 ∈ i :: rest := by
          rw [← map_fst_transcript (answerAlone period burst) (i :: rest) arrival?]
          exact List.mem_map_of_mem he
        exact decide_eq_true (hall e.1 hcall)
      rw [hfilter]
      exact take_allowed_of_near hforward x 0 hall harrival

/-! ### The bounds -/

theorem countP_allowed_le {l : Limiter} (hperiod : 0 < l.period) (hburst : 0 < l.burst) {c : Client}
    (hc : c.isLoopback = false) (run : List (Timed Ask)) (x w : Nat) :
    (answersTo c run l).countP (AllowedIn x (x + w)) ≤ l.burst + w / l.period := by
  rw [answersTo_eq hc]
  rcases Nat.eq_zero_or_pos ((transcript (answerAlone l.period l.burst) (asksOf c run)
    (l.buckets.get? c.key)).countP (AllowedIn x (x + w))) with hnone | hpos
  · rw [hnone]
    exact Nat.zero_le _
  · have hfit := add_countP_allowed_le hburst x (x + w) (asksOf c run) (l.buckets.get? c.key) hpos
    generalize (transcript _ _ _).countP _ = n at hfit ⊢
    have hspan : n * l.period ≤ w + l.period * l.burst := by
      rw [Nat.mul_comm]
      omega
    calc n
      _ ≤ (w + l.period * l.burst) / l.period := (Nat.le_div_iff_mul_le hperiod).2 hspan
      _ = l.burst + w / l.period := by
        rw [Nat.add_mul_div_left w l.burst hperiod, Nat.add_comm]

/-- **Load bounds.** In a window of time a client gets a full bucket and what comes back in the
window at most, and a client that got nothing for the time in which a bucket fills up gets a full
bucket. -/
theorem load_bounds {l : Limiter} (hempty : l.buckets = Table.empty) (hperiod : 0 < l.period)
    (hburst : 0 < l.burst) {run : List (Timed Ask)} (hforward : Forward run) {c : Client}
    (hc : c.isLoopback = false) :
    (∀ x w : Nat,
      (answersTo c run l).countP (AllowedIn x (x + w)) ≤ l.burst + w / l.period) ∧
    ∀ x : Nat,
      (∀ e ∈ answersTo c run l, e.2 = .ok .allow → e.1.clock.monotonic < x →
        e.1.clock.monotonic + l.period * l.burst ≤ x) →
      ∀ e ∈ ((answersTo c run l).filter fun e => decide (x ≤ e.1.clock.monotonic)).take l.burst,
        e.2 = .ok .allow := by
  refine ⟨countP_allowed_le hperiod hburst hc run, ?_⟩
  intro x hquiet
  rw [answersTo_of_empty hempty hc] at hquiet ⊢
  exact take_allowed_of_quiet hburst (hforward.filter _) (Nat.le_refl x) hquiet

theorem load_bounds_sample :
    sampleLimiter.buckets = Table.empty ∧ 0 < sampleLimiter.period ∧ 0 < sampleLimiter.burst ∧
      Forward sampleAsks ∧ (Client.address samplePeer).isLoopback = false ∧
      (answersTo (.address samplePeer) sampleAsks sampleLimiter).countP (AllowedIn 0 (0 + 14)) ≤
        2 + 14 / 10 ∧
      ∀ e ∈ ((answersTo (.address samplePeer) sampleAsks sampleLimiter).filter
          fun e => decide (40 ≤ e.1.clock.monotonic)).take 2, e.2 = .ok .allow := by
  have hforward : Forward sampleAsks := by decide
  have hbounds := load_bounds (l := sampleLimiter) rfl (by decide) (by decide) hforward
    (c := .address samplePeer) rfl
  refine ⟨rfl, by decide, by decide, hforward, rfl, hbounds.1 0 14, hbounds.2 40 ?_⟩
  decide +kernel

end DeadDrop.Limiter
