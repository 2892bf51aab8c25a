import DeadDrop.Action

/-!
# Calls compared

Six ways of following a call without opening it. `Agree` compares two calls, each on a kind of
state of its own: started in related states they end alike, and in related states again. This passes
through sequencing, so a call made of several steps is compared step by step. `AgreeUpTo` asks for
less: that the errors and the values are related. `Keeps` says of one
call that it does not touch what a view of the state shows; such a call agrees with itself.
`FailsWithin` bounds what a call may have done to the state if it has failed, and `FailsOnly` which
errors it may fail with. `Ensures` says that a call keeps an invariant, and what its value meets.
-/

namespace DeadDrop

namespace Outcome

variable {ε δ α β : Type}

@[simp]
theorem mapError_ok (f : ε → δ) (value : α) :
    (Outcome.ok value : Outcome ε α).mapError f = .ok value := rfl

@[simp]
theorem mapError_error (f : ε → δ) (reason : ε) :
    (Outcome.error reason : Outcome ε α).mapError f = .error (f reason) := rfl

@[simp]
theorem mapError_abort (f : ε → δ) :
    (Outcome.abort : Outcome ε α).mapError f = .abort := rfl

theorem bind_eq_ok_iff (o : Outcome ε α) (next : α → Outcome ε β) (result : β) :
    o.bind next = .ok result ↔ ∃ value, o = .ok value ∧ next value = .ok result := by
  cases o <;> simp [Outcome.bind]

theorem mapError_eq_ok_iff (f : ε → δ) (o : Outcome ε α) (value : α) :
    o.mapError f = .ok value ↔ o = .ok value := by
  cases o <;> simp [mapError]

/-- Two outcomes of the same kind, with related errors and related values. -/
inductive Alike (E : ε → δ → Prop) (P : α → β → Prop) : Outcome ε α → Outcome δ β → Prop
  | ok {v : α} {w : β} (values : P v w) : Alike E P (.ok v) (.ok w)
  | error {e : ε} {d : δ} (errors : E e d) : Alike E P (.error e) (.error d)
  | abort : Alike E P .abort .abort

theorem alike_refl {E : ε → ε → Prop} {P : α → α → Prop} (hE : ∀ e, E e e) (hP : ∀ v, P v v)
    (o : Outcome ε α) : Alike E P o o := by
  cases o with
  | ok value => exact .ok (hP value)
  | error reason => exact .error (hE reason)
  | abort => exact .abort

end Outcome

namespace Action

variable {σ τ ν ε δ α β : Type}

@[simp]
theorem done_apply (o : Outcome ε α) (s : σ) : (done o : Action σ ε α) s = (o, s) := rfl

section Bind

variable {first : Action σ ε α} {next : α → Action σ ε β} {s s' s'' : σ}

theorem bind_of_ok {value : α} (h : first s = (.ok value, s')) :
    (first >>= next) s = next value s' := by
  change andThen first next s = _
  simp [andThen, h]

theorem bind_of_error {reason : ε} (h : first s = (.error reason, s')) :
    (first >>= next) s = (.error reason, s') := by
  change andThen first next s = _
  simp [andThen, h]

theorem bind_of_abort (h : first s = (.abort, s')) : (first >>= next) s = (.abort, s') := by
  change andThen first next s = _
  simp [andThen, h]

/-- A sequence that ends with a value has a first step that does. -/
theorem bind_eq_ok {result : β} (h : (first >>= next) s = (.ok result, s'')) :
    ∃ value s', first s = (.ok value, s') ∧ next value s' = (.ok result, s'') := by
  change andThen first next s = _ at h
  unfold andThen at h
  split at h
  · exact ⟨_, _, by assumption, h⟩
  · simp at h
  · simp at h

/-- A sequence whose second step keeps the state. -/
theorem bind_done {f : α → Outcome ε β} (hnext : ∀ value, next value = done (f value)) (s : σ) :
    (first >>= next) s = ((first s).1.bind f, (first s).2) := by
  rcases h : first s with ⟨o, s'⟩
  cases o with
  | ok value => rw [bind_of_ok h, hnext]; rfl
  | error reason => rw [bind_of_error h]; rfl
  | abort => rw [bind_of_abort h]; rfl

/-- A sequence whose second step only changes the value. -/
theorem bind_pure_apply (f : α → β) (s : σ) :
    (first >>= fun value => pure (f value)) s = ((first s).1.map f, (first s).2) := by
  have h : (first >>= fun value => pure (f value)) s =
      ((first s).1.bind fun value => .ok (f value), (first s).2) := bind_done (fun _ => rfl) s
  rw [h]
  cases (first s).1 <;> rfl

@[simp]
theorem done_error_bind (reason : ε) (next : α → Action σ ε β) :
    (done (.error reason) >>= next) = done (.error reason) := rfl

end Bind

/-! ### Two calls -/

/-- From related states both calls end with the same outcome, and in related states. -/
def Agree (R : σ → τ → Prop) (a : Action σ ε α) (b : Action τ ε α) : Prop :=
  ∀ s t, R s t → (a s).1 = (b t).1 ∧ R (a s).2 (b t).2

theorem agree_done (R : σ → τ → Prop) (o : Outcome ε α) :
    Agree R (done o : Action σ ε α) (done o) := fun _ _ h => ⟨rfl, h⟩

theorem Agree.bind {R : σ → τ → Prop} {a : Action σ ε α} {b : Action τ ε α}
    {next : α → Action σ ε β} {next' : α → Action τ ε β}
    (hfirst : Agree R a b) (hnext : ∀ value, Agree R (next value) (next' value)) :
    Agree R (a >>= next) (b >>= next') := by
  intro s t hst
  obtain ⟨houtcome, hstate⟩ := hfirst s t hst
  rcases ha : a s with ⟨o, s'⟩
  rcases hb : b t with ⟨o', t'⟩
  simp only [ha, hb] at houtcome hstate
  subst houtcome
  cases o with
  | ok value =>
    rw [bind_of_ok ha, bind_of_ok hb]
    exact hnext value s' t' hstate
  | error reason =>
    rw [bind_of_error ha, bind_of_error hb]
    exact ⟨rfl, hstate⟩
  | abort =>
    rw [bind_of_abort ha, bind_of_abort hb]
    exact ⟨rfl, hstate⟩

/-- From related states both calls end alike, up to relations on their errors and on their values,
and in related states. -/
def AgreeUpTo (R : σ → τ → Prop) (E : ε → δ → Prop) (P : α → β → Prop) (a : Action σ ε α)
    (b : Action τ δ β) : Prop :=
  ∀ s t, R s t → Outcome.Alike E P (a s).1 (b t).1 ∧ R (a s).2 (b t).2

section AgreeUpTo

variable {R : σ → τ → Prop}

theorem agreeUpTo_done {E : ε → δ → Prop} {P : α → β → Prop} {o : Outcome ε α} {o' : Outcome δ β}
    (h : Outcome.Alike E P o o') : AgreeUpTo R E P (done o) (done o') := fun _ _ hst => ⟨h, hst⟩

theorem Agree.upTo {E : ε → ε → Prop} {P : α → α → Prop} {a : Action σ ε α} {b : Action τ ε α}
    (h : Agree R a b) (hE : ∀ e, E e e) (hP : ∀ v, P v v) : AgreeUpTo R E P a b := by
  intro s t hst
  obtain ⟨houtcome, hstate⟩ := h s t hst
  rw [houtcome]
  exact ⟨Outcome.alike_refl hE hP _, hstate⟩

theorem AgreeUpTo.bind {γ ζ : Type} {E : ε → δ → Prop} {P : α → β → Prop} {Q : γ → ζ → Prop}
    {a : Action σ ε α} {b : Action τ δ β} {next : α → Action σ ε γ} {next' : β → Action τ δ ζ}
    (hfirst : AgreeUpTo R E P a b) (hnext : ∀ v w, P v w → AgreeUpTo R E Q (next v) (next' w)) :
    AgreeUpTo R E Q (a >>= next) (b >>= next') := by
  intro s t hst
  obtain ⟨houtcome, hstate⟩ := hfirst s t hst
  rcases ha : a s with ⟨o, s'⟩
  rcases hb : b t with ⟨o', t'⟩
  simp only [ha, hb] at houtcome hstate
  cases houtcome with
  | ok values =>
    rw [bind_of_ok ha, bind_of_ok hb]
    exact hnext _ _ values s' t' hstate
  | error errors =>
    rw [bind_of_error ha, bind_of_error hb]
    exact ⟨.error errors, hstate⟩
  | abort =>
    rw [bind_of_abort ha, bind_of_abort hb]
    exact ⟨.abort, hstate⟩

end AgreeUpTo

/-! ### One call -/

/-- The call leaves what the view shows. -/
def Keeps (view : σ → ν) (a : Action σ ε α) : Prop := ∀ s, view (a s).2 = view s

/-- One state seen twice, of which the view shows one thing. -/
def Same (view : σ → ν) (shown : ν) (s t : σ) : Prop := s = t ∧ view s = shown

/-- A call that keeps a view agrees with itself. -/
theorem Keeps.agree {view : σ → ν} {a : Action σ ε α} (h : Keeps view a) (shown : ν) :
    Agree (Same view shown) a a := by
  rintro s _ ⟨rfl, hshown⟩
  exact ⟨rfl, rfl, (h s).trans hshown⟩

/-! ### Calls that fail -/

/-- From every state the call moves within a relation. -/
def Within (R : σ → σ → Prop) (a : Action σ ε α) : Prop := ∀ s, R s (a s).2

/-- The call moves within a relation if it does not end with a value. -/
def FailsWithin (R : σ → σ → Prop) (a : Action σ ε α) : Prop :=
  ∀ s, (∀ value, (a s).1 ≠ .ok value) → R s (a s).2

section Within

variable {R : σ → σ → Prop} {a : Action σ ε α} {next : α → Action σ ε β}

theorem Within.failsWithin (h : Within R a) : FailsWithin R a := fun s _ => h s

theorem within_done (hrefl : ∀ s, R s s) (o : Outcome ε α) : Within R (done o : Action σ ε α) :=
  hrefl

theorem Within.bind (htrans : ∀ {s t u}, R s t → R t u → R s u) (hfirst : Within R a)
    (hnext : ∀ value, Within R (next value)) : Within R (a >>= next) := by
  intro s
  have hmoved := hfirst s
  rcases ha : a s with ⟨o, s'⟩
  rw [ha] at hmoved
  cases o with
  | ok value =>
    rw [bind_of_ok ha]
    exact htrans hmoved (hnext value s')
  | error reason => rwa [bind_of_error ha]
  | abort => rwa [bind_of_abort ha]

theorem Keeps.bind {view : σ → ν} (hfirst : Keeps view a) (hnext : ∀ value, Keeps view (next value)) :
    Keeps view (a >>= next) :=
  @Within.bind _ _ _ _ (fun s t => view t = view s) _ _ (fun hst htu => htu.trans hst) hfirst hnext

/-- A sequence fails within a relation if its first step moves within it, come what may. -/
theorem Within.bind_failsWithin (htrans : ∀ {s t u}, R s t → R t u → R s u) (hfirst : Within R a)
    (hnext : ∀ value, FailsWithin R (next value)) : FailsWithin R (a >>= next) := by
  intro s hfails
  have hmoved := hfirst s
  rcases ha : a s with ⟨o, s'⟩
  rw [ha] at hmoved
  cases o with
  | ok value =>
    rw [bind_of_ok ha] at hfails ⊢
    exact htrans hmoved (hnext value s' hfails)
  | error reason => rwa [bind_of_error ha]
  | abort => rwa [bind_of_abort ha]

/-- What follows a step and cannot fail does not make the sequence fail elsewhere. -/
theorem FailsWithin.bind_pure (h : FailsWithin R a) (f : α → β) :
    FailsWithin R (a >>= fun value => (pure (f value) : Action σ ε β)) := by
  intro s hfails
  rw [bind_pure_apply] at hfails ⊢
  refine h s fun value hvalue => hfails (f value) ?_
  rw [hvalue]
  rfl

end Within

/-- The call has no other errors than those. -/
def FailsOnly (P : ε → Prop) (a : Action σ ε α) : Prop :=
  ∀ s reason, (a s).1 = .error reason → P reason

section FailsOnly

variable {P : ε → Prop} {a : Action σ ε α} {next : α → Action σ ε β}

theorem failsOnly_done {o : Outcome ε α} (h : ∀ reason, o = .error reason → P reason) :
    FailsOnly P (done o : Action σ ε α) := fun _ => h

theorem failsOnly_pure (value : α) : FailsOnly P (pure value : Action σ ε α) :=
  failsOnly_done fun _ h => by simp at h

theorem failsOnly_fail {reason : ε} (h : P reason) : FailsOnly P (fail reason : Action σ ε α) :=
  failsOnly_done fun _ heq => by simpa [← Outcome.error.inj heq] using h

theorem FailsOnly.mono {Q : ε → Prop} (h : FailsOnly P a) (himp : ∀ reason, P reason → Q reason) :
    FailsOnly Q a := fun s reason hreason => himp reason (h s reason hreason)

theorem FailsOnly.bind (hfirst : FailsOnly P a) (hnext : ∀ value, FailsOnly P (next value)) :
    FailsOnly P (a >>= next) := by
  intro s reason h
  rcases ha : a s with ⟨o, s'⟩
  cases o with
  | ok value =>
    rw [bind_of_ok ha] at h
    exact hnext value s' reason h
  | error cause =>
    rw [bind_of_error ha] at h
    have hreason := hfirst s cause (by rw [ha])
    rwa [← Outcome.error.inj h]
  | abort =>
    rw [bind_of_abort ha] at h
    simp at h

end FailsOnly

/-! ### Invariants -/

/-- From where the invariant holds the call ends where it holds, and its value meets a condition. -/
def Ensures (I : σ → Prop) (post : α → Prop) (a : Action σ ε α) : Prop :=
  ∀ s, I s → I (a s).2 ∧ ∀ value, (a s).1 = .ok value → post value

section Ensures

variable {I : σ → Prop} {post : α → Prop} {after : β → Prop} {a : Action σ ε α}
  {next : α → Action σ ε β}

theorem ensures_done {o : Outcome ε α} (h : ∀ value, o = .ok value → post value) :
    Ensures I post (done o : Action σ ε α) := fun _ hI => ⟨hI, h⟩

theorem ensures_pure {value : α} (h : post value) :
    Ensures I post (pure value : Action σ ε α) :=
  ensures_done fun _ heq => Outcome.ok.inj heq ▸ h

theorem ensures_fail (reason : ε) : Ensures I post (fail reason : Action σ ε α) :=
  ensures_done fun _ heq => by simp at heq

theorem Ensures.bind (hfirst : Ensures I post a)
    (hnext : ∀ value, post value → Ensures I after (next value)) : Ensures I after (a >>= next) := by
  intro s hI
  obtain ⟨hkept, hvalue⟩ := hfirst s hI
  rcases ha : a s with ⟨o, s'⟩
  rw [ha] at hkept hvalue
  cases o with
  | ok value =>
    rw [bind_of_ok ha]
    exact hnext value (hvalue value rfl) s' hkept
  | error reason =>
    rw [bind_of_error ha]
    exact ⟨hkept, fun _ heq => by simp at heq⟩
  | abort =>
    rw [bind_of_abort ha]
    exact ⟨hkept, fun _ heq => by simp at heq⟩

/-- What follows and keeps the state can change the value. -/
theorem Ensures.bind_pure (hfirst : Ensures I post a) (f : α → β)
    (hf : ∀ value, post value → after (f value)) :
    Ensures I after (a >>= fun value => (pure (f value) : Action σ ε β)) :=
  hfirst.bind fun value hvalue => ensures_pure (hf value hvalue)

end Ensures

end Action

end DeadDrop
