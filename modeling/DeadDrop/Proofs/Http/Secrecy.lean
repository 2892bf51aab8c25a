import DeadDrop.Proofs.Http.Reports
import DeadDrop.Proofs.Store.Twins

/-!
# What a fault tells a client

Nothing but that there is one. Two sites are twins if they differ only in the stored values that are no
records and in the wording with which the storage fails; their logs may be anything. A request is
followed on twins from the storage outwards, and what comes out of each step is alike: equal records, or
faults of the server, whose wordings the response leaves out. Only raw bytes may differ as values, and
they are sent with status 200. So two replies are equal, or both requests have succeeded
(`RepliesAlike`), and an answer to a fault is one of two lines on both sites.
-/

namespace DeadDrop

open DeadDrop.Action

/-! ### The service -/

namespace Service

open RecordStore (Related)

variable {σ : Type} {R : σ → σ → Prop} {retention : Nat}

theorem alike_downloadKeyOf (uploadKey : Text) :
    AgreeUpTo (Related R retention) Error.Akin Eq
      (done (.ofExcept (downloadKeyOf uploadKey)) : Action (RecordStore σ) Error Text)
      (done (.ofExcept (downloadKeyOf uploadKey))) :=
  agreeUpTo_done (Outcome.alike_refl Error.Akin.refl (fun _ => rfl) _)

variable [Backend σ] (hR : Backend.KeepsTwins R) (clock : Clock)
include hR

theorem alike_commit (key : Text) (change : Moment → Record) :
    AgreeUpTo (Related R retention) Error.Akin Eq (commit clock key change)
      (commit clock key change) := by
  refine ((agree_now rfl _).upTo Error.Akin.refl fun _ => rfl).bind ?_
  rintro moment _ rfl
  exact (RecordStore.alike_put hR clock key _).bind fun _ _ _ => agreeUpTo_done (.ok rfl)

theorem alike_upload (uploadKey : Text) (params : Params) :
    AgreeUpTo (Related R retention) Error.Akin Eq (upload clock uploadKey params)
      (upload clock uploadKey params) := by
  rw [upload_eq]
  refine (alike_downloadKeyOf uploadKey).bind ?_
  rintro key _ rfl
  exact alike_commit hR clock key _

theorem alike_patch (uploadKey path : Text) (params : Params) :
    AgreeUpTo (Related R retention) Error.Akin Eq (patch clock uploadKey path params)
      (patch clock uploadKey path params) := by
  rw [patch_eq]
  refine (alike_downloadKeyOf uploadKey).bind ?_
  rintro key _ rfl
  refine (RecordStore.alike_getOrEmpty hR clock key).bind ?_
  rintro existing _ rfl
  exact alike_commit hR clock key _

theorem alike_delete (uploadKey : Text) :
    AgreeUpTo (Related R retention) Error.Akin Eq (delete clock uploadKey)
      (delete clock uploadKey) := by
  refine (alike_downloadKeyOf uploadKey).bind ?_
  rintro key _ rfl
  exact (RecordStore.alike_delete hR clock key).bind fun _ _ _ => agreeUpTo_done (.ok rfl)

theorem alike_downloadField (downloadKey path : Text) :
    AgreeUpTo (Related R retention) Error.Akin Eq (downloadField clock downloadKey path)
      (downloadField clock downloadKey path) := by
  refine (RecordStore.alike_get hR clock _).bind ?_
  rintro record _ rfl
  cases record.field path with
  | ok value => exact agreeUpTo_done (.ok rfl)
  | error cause => cases cause <;> exact agreeUpTo_done (.error (.refl _))

end Service

namespace Http

/-! ### Replies -/

/-- Two replies are the same, or both requests have succeeded. -/
inductive RepliesAlike : Response → Response → Prop
  | served {reply reply' : Response} (left : reply.status = 200) (right : reply'.status = 200) :
    RepliesAlike reply reply'
  | refused {reply : Response} (status : reply.status < 500) : RepliesAlike reply reply
  | fault : RepliesAlike faultResponse faultResponse
  | notBase64 : RepliesAlike Failure.notBase64.response Failure.notBase64.response

def FailuresAlike (failure failure' : Failure) : Prop :=
  RepliesAlike failure.response failure'.response

/-- All faults of the server are told alike. -/
theorem errorResponse_of_fault {e : Error} (h : e.isClientError = false) :
    errorResponse e = faultResponse := by
  cases e with
  | derivation | encode | decode | badClientAddress | storage | config => rfl
  | _ => cases h

theorem failuresAlike_service {e e' : Error} (h : e.Akin e') :
    FailuresAlike (.service e) (.service e') := by
  have hfault : ∀ {e : Error}, e.isClientError = false →
      (Failure.service e).response = faultResponse := errorResponse_of_fault
  unfold FailuresAlike
  rcases h with rfl | ⟨he, he'⟩
  · cases hclient : e.isClientError with
    | true => exact .refused (of_decide_eq_true hclient)
    | false =>
      rw [hfault hclient]
      exact .fault
  · rw [hfault he, hfault he']
    exact .fault

theorem FailuresAlike.refl (failure : Failure) : FailuresAlike failure failure := by
  cases failure with
  | service e => exact failuresAlike_service (.refl e)
  | notBase64 => exact .notBase64
  | illFormedCapture name => exact .refused (by decide : (400 : Nat) < 500)

/-! ### Sites -/

/-- Two sites that differ only in what a fault must not tell of. -/
structure Site.Twins {σ : Type} (R : σ → σ → Prop) (s t : Site σ) : Prop where
  backend : R s.store.backend t.store.backend
  retention : s.store.retention = t.store.retention
  stats : s.stats = t.stats
  limiter : s.limiter = t.limiter
  maxRequestSize : s.maxRequestSize = t.maxRequestSize

section Handlers

variable {σ α β : Type} {R : σ → σ → Prop} {clock : Clock} {event : StatsEvent}

theorem alike_onStore {P : α → β → Prop} {a : Action (RecordStore σ) Error α}
    {b : Action (RecordStore σ) Error β}
    (h : ∀ retention, AgreeUpTo (RecordStore.Related R retention) Error.Akin P a b) :
    AgreeUpTo (Site.Twins R) FailuresAlike P (Site.onStore a) (Site.onStore b) := by
  intro s t hst
  obtain ⟨houtcome, hstore⟩ :=
    h t.store.retention s.store t.store ⟨hst.backend, hst.retention, rfl⟩
  refine ⟨?_, hstore.backend, hstore.left.trans hstore.right.symm, hst.stats, hst.limiter,
    hst.maxRequestSize⟩
  unfold Site.onStore
  generalize (a s.store).1 = o at houtcome ⊢
  generalize (b t.store).1 = o' at houtcome ⊢
  cases houtcome with
  | ok values => exact .ok values
  | error errors => exact .error (failuresAlike_service errors)
  | abort => exact .abort

theorem alike_onStats {P : α → α → Prop} {change : Moment → Stats → α × Stats}
    (h : ∀ moment stats, P (change moment stats).1 (change moment stats).1) :
    AgreeUpTo (Site.Twins R) FailuresAlike P (Site.onStats clock change)
      (Site.onStats clock change) := by
  intro s t hst
  unfold Site.onStats
  rw [hst.stats]
  cases clock.moment? with
  | none => exact ⟨.abort, hst⟩
  | some moment =>
    exact ⟨.ok (h moment t.stats), hst.backend, hst.retention, rfl, hst.limiter, hst.maxRequestSize⟩

theorem alike_count_bind {reply reply' : Response} (h : RepliesAlike reply reply') :
    AgreeUpTo (Site.Twins R) FailuresAlike RepliesAlike
      (Site.count clock event >>= fun _ => pure reply)
      (Site.count clock event >>= fun _ => pure reply') :=
  (@alike_onStats σ Unit R clock Eq _ fun _ _ => rfl).bind fun _ _ _ => agreeUpTo_done (.ok h)

variable [Backend σ] (hR : Backend.KeepsTwins R)
include hR

theorem alike_onRoute (random : Bytes) (request : Request) (route : Route) :
    AgreeUpTo (Site.Twins R) FailuresAlike RepliesAlike (onRoute clock random request route)
      (onRoute clock random request route) := by
  cases route with
  | keyPair =>
    change AgreeUpTo _ _ _ (issueKeyPair random) (issueKeyPair random)
    unfold issueKeyPair
    split
    · exact agreeUpTo_done (.ok (.served rfl rfl))
    · exact agreeUpTo_done (.error (.refl _))
  | health => exact agreeUpTo_done (.ok (.served rfl rfl))
  | stats => exact alike_onStats fun _ _ => .served rfl rfl
  | upload key =>
    refine (alike_onStore fun _ => Service.alike_upload hR clock key _).bind fun _ _ _ => ?_
    exact alike_count_bind (.served rfl rfl)
  | patch key path =>
    refine (alike_onStore fun _ => Service.alike_patch hR clock key path _).bind fun _ _ _ => ?_
    exact alike_count_bind (.served rfl rfl)
  | downloadJson key =>
    refine (alike_onStore fun _ => RecordStore.alike_getBytes hR clock _).bind fun _ _ _ => ?_
    exact alike_count_bind (.served rfl rfl)
  | downloadPlain key field =>
    refine (alike_onStore fun _ => Service.alike_downloadField hR clock key field).bind
      fun _ _ _ => ?_
    exact alike_count_bind (.served rfl rfl)
  | downloadDecoded key field =>
    refine (alike_onStore fun _ => Service.alike_downloadField hR clock key field).bind ?_
    rintro value _ rfl
    cases decodedText? value with
    | none => exact agreeUpTo_done (.error (.refl _))
    | some text => exact alike_count_bind (.served rfl rfl)
  | delete key =>
    refine (alike_onStore fun _ => Service.alike_delete hR clock key).bind fun _ _ _ => ?_
    exact agreeUpTo_done (.ok (.served rfl rfl))

end Handlers

/-! ### Layers -/

section Layers

variable {σ : Type} {R : σ → σ → Prop} {clock : Clock} {random : Bytes} {request : Request}

/-- What the answerer makes of a request is alike on twins. -/
abbrev AnswersAlike (R : σ → σ → Prop) (inner : Answerer σ) (request : Request) : Prop :=
  AgreeUpTo (Site.Twins R) Eq RepliesAlike (inner request) (inner request)

theorem alike_respond {reply : Response} (h : RepliesAlike reply reply)
    (events events' : List LogEvent) :
    AgreeUpTo (Site.Twins R) Eq RepliesAlike (Site.respond reply events)
      (Site.respond reply events') :=
  fun _ _ hst => ⟨.ok h, hst.backend, hst.retention, hst.stats, hst.limiter, hst.maxRequestSize⟩

theorem alike_answering {call : Action (Site σ) Failure Response}
    (h : AgreeUpTo (Site.Twins R) FailuresAlike RepliesAlike call call) :
    AgreeUpTo (Site.Twins R) Eq RepliesAlike (Site.answering call) (Site.answering call) := by
  intro s t hst
  obtain ⟨houtcome, hstate⟩ := h s t hst
  unfold Site.answering
  rcases hs : call s with ⟨o, s'⟩
  rcases ht : call t with ⟨o', t'⟩
  rw [hs, ht] at houtcome hstate
  cases houtcome with
  | ok values => exact ⟨.ok values, hstate⟩
  | error errors =>
    exact ⟨.ok errors, hstate.backend, hstate.retention, hstate.stats, hstate.limiter,
      hstate.maxRequestSize⟩
  | abort => exact ⟨.abort, hstate⟩

theorem alike_limitRate {inner : Answerer σ} (h : AnswersAlike R inner request) :
    AnswersAlike R (limitRate clock inner) request := by
  intro s t hst
  unfold limitRate
  cases request.peer with
  | none => exact h s t hst
  | some peer =>
    simp only [hst.limiter]
    rcases t.limiter.checkSocket clock.monotonic peer with ⟨admission, limiter⟩
    cases admission with
    | allow =>
      exact h _ _ ⟨hst.backend, hst.retention, hst.stats, rfl, hst.maxRequestSize⟩
    | deny =>
      refine alike_respond (.refused (by decide : (429 : Nat) < 500)) _ _ _ _ ?_
      exact ⟨hst.backend, hst.retention, congrArg (Stats.recordRateLimitHit _) hst.stats, rfl,
        hst.maxRequestSize⟩

theorem alike_limitSize {inner : Answerer σ} (h : AnswersAlike R inner request) :
    AnswersAlike R (limitSize inner) request := by
  intro s t hst
  unfold limitSize
  cases request.size? with
  | none => exact h s t hst
  | some size =>
    simp only [hst.maxRequestSize]
    split
    · exact alike_respond (.refused (by decide : (413 : Nat) < 500)) _ _ s t hst
    · exact h s t hst

variable [Backend σ] (hR : Backend.KeepsTwins R)
include hR

theorem alike_dispatch : AnswersAlike R (dispatch clock random) request := by
  intro s t hst
  cases hroute : request.route? with
  | none =>
    obtain ⟨refusal, hrefused, hdispatch⟩ := @dispatch_of_no_route σ _ _ hroute clock random
    have hstatus : refusal.status < 500 := by
      simp only [List.mem_cons, List.not_mem_nil, or_false] at hrefused
      omega
    rw [hdispatch, hdispatch]
    exact ⟨.ok (.refused hstatus), hst⟩
  | some route =>
    rw [dispatch_of_route hroute, dispatch_of_route hroute]
    exact alike_answering (alike_onRoute hR random request route) s t hst

theorem alike_limited : AnswersAlike R (limited clock random) request :=
  alike_limitSize (alike_limitRate (alike_dispatch hR))

end Layers

/-! ### Answers -/

/-- The bodies of the responses to faults. There is none in the response to a `HEAD`. -/
def IsFaultBody (request : Request) (body : Bytes) : Prop :=
  if request.method = .head then body = []
  else body = faultResponse.body ∨ body = Failure.notBase64.response.body

/-- An answer that tells of a fault tells nothing else: twins give it as well, and its body is one of
two lines. -/
def FaultsRevealNothing {σ : Type} [Backend σ] (R : σ → σ → Prop) : Prop :=
  ∀ (clock : Clock) (random : Bytes) (request : Request) (s t : Site σ) (response : Response),
    Site.Twins R s t → (answer clock random request s).1 = .ok response → 500 ≤ response.status →
    (answer clock random request t).1 = .ok response ∧ IsFaultBody request response.body

/-- Whether a response can be settled depends on the clock alone. -/
theorem settle_fst_eq {σ : Type} (clock : Clock) (response : Response) (s t : Site σ) :
    (settle clock response s).1 = (settle clock response t).1 := by
  unfold settle
  split
  · cases clock.moment? <;> rfl
  · rfl

theorem isFaultBody_dressed {request : Request} {reply : Response}
    (h : reply = faultResponse ∨ reply = Failure.notBase64.response) :
    IsFaultBody request (dressed request reply).body := by
  unfold IsFaultBody
  by_cases hmethod : request.method = .head
  · rw [if_pos hmethod, dressed, finish, if_pos hmethod]
  · rw [if_neg hmethod, dressed, body_finish hmethod]
    exact h.imp (congrArg Response.body) (congrArg Response.body)

theorem faultsRevealNothing_of_keepsTwins {σ : Type} [Backend σ] {R : σ → σ → Prop}
    (hR : Backend.KeepsTwins R) : FaultsRevealNothing R := by
  intro clock random request s t response hst hanswer hstatus
  by_cases hmethod : request.method = .options
  case pos =>
    obtain ⟨preflight, hok, hpreflight⟩ := @answer_of_options _ _ clock random _ s hmethod
    rw [hpreflight] at hanswer
    obtain rfl := Outcome.ok.inj hanswer
    omega
  case neg =>
    have halike := (@alike_limited σ R clock random request _ hR s t hst).1
    rcases hs : limited clock random request s with ⟨o, s'⟩
    rcases ht : limited clock random request t with ⟨o', t'⟩
    rw [hs, ht] at halike
    cases halike with
    | @error e => exact e.elim
    | abort =>
      rw [answer_of_limited_abort hmethod hs] at hanswer
      cases hanswer
    | @ok reply reply' values =>
      rw [answer_eq_settle hmethod hs] at hanswer
      rw [answer_eq_settle hmethod ht]
      have hresponse : response = dressed request reply := response_of_settle hanswer
      rw [hresponse, status_dressed] at hstatus
      have hlines : reply' = reply ∧
          (reply = faultResponse ∨ reply = Failure.notBase64.response) := by
        cases values with
        | served left => omega
        | refused status => omega
        | fault => exact ⟨rfl, .inl rfl⟩
        | notBase64 => exact ⟨rfl, .inr rfl⟩
      obtain ⟨rfl, hline⟩ := hlines
      refine ⟨(settle_fst_eq clock _ t' s').trans hanswer, ?_⟩
      rw [hresponse]
      exact isFaultBody_dressed hline

/-- **Faults reveal nothing.** On every storage of the server, and on either backend with operations
switched off, a response to a fault tells neither which bytes are stored that are no record nor why an
operation has failed. -/
theorem faults_reveal_nothing :
    FaultsRevealNothing Storage.Twins ∧ FaultsRevealNothing (Faulty.Twins Memory.Twins) ∧
      FaultsRevealNothing (Faulty.Twins Rows.Twins) :=
  ⟨faultsRevealNothing_of_keepsTwins Storage.keepsTwins,
    faultsRevealNothing_of_keepsTwins (Faulty.keepsTwins Memory.keepsTwins),
    faultsRevealNothing_of_keepsTwins (Faulty.keepsTwins Rows.keepsTwins)⟩

/-- A site that holds bytes under a key, and refuses to write. -/
def foreignSite (b : Bytes) (reason : String) : Site (Faulty Memory) :=
  let backend : Faulty Memory :=
    { inner := ⟨Table.empty.insert ['k'] ⟨b, none⟩⟩, off := [(.write, reason.toList)], sweeps := 0 }
  .started ⟨backend, 60000000000⟩ Limiter.sampleLimiter 10240 ⟨0, 0⟩

theorem twins_foreignSite {b b' : Bytes} (h : SameRecord b b') (reason reason' : String) :
    Site.Twins (Faulty.Twins Memory.Twins) (foreignSite b reason) (foreignSite b' reason') where
  backend :=
    { inner := Table.matches_empty.insert ['k'] ⟨rfl, h⟩
      off := fun operation => by cases operation <;> rfl }
  retention := rfl
  stats := rfl
  limiter := rfl
  maxRequestSize := rfl

theorem faults_reveal_nothing_sample :
    let s := foreignSite [123] "disk on fire"
    let t := foreignSite [91, 93] "no space left"
    let request := sampleGet "/d/k/plain/x" ""
    Site.Twins (Faulty.Twins Memory.Twins) s t ∧ ∃ response,
      (answer ⟨0, 0⟩ [] request s).1 = .ok response ∧ response.status = 500 ∧
        (answer ⟨0, 0⟩ [] request t).1 = .ok response ∧ IsFaultBody request response.body := by
  intro s t request
  have htwins : Site.Twins (Faulty.Twins Memory.Twins) s t := by
    apply twins_foreignSite
    exact .inr ⟨Option.isNone_iff_eq_none.1 (by decide +kernel),
      Option.isNone_iff_eq_none.1 (by decide +kernel)⟩
  obtain ⟨response, s', hanswer, hstatus⟩ :=
    @exists_of_map _ _ (answer ⟨0, 0⟩ [] request s) (·.status) 500 (by decide +kernel)
  have hfirst : (answer ⟨0, 0⟩ [] request s).1 = .ok response := congrArg Prod.fst hanswer
  obtain ⟨hsecond, hbody⟩ := faults_reveal_nothing.2.1 ⟨0, 0⟩ [] request s t response htwins hfirst
    (by rw [hstatus])
  exact ⟨htwins, response, hfirst, hstatus, hsecond, hbody⟩

/-- Not every response to a fault has one of the two lines for its body: that to a `HEAD` has none. -/
theorem not_fault_line_head :
    ¬ ∀ (clock : Clock) (random : Bytes) (request : Request) (s t : Site (Faulty Memory))
      (response : Response), Site.Twins (Faulty.Twins Memory.Twins) s t →
      (answer clock random request s).1 = .ok response → 500 ≤ response.status →
      response.body = faultResponse.body ∨ response.body = Failure.notBase64.response.body := by
  intro hline
  let request : Request := { sampleGet "/d/k/plain/x" "" with method := .head }
  let s := foreignSite [123] "disk on fire"
  obtain ⟨response, s', hanswer, hview⟩ :=
    @exists_of_map _ _ (answer ⟨0, 0⟩ [] request s) (fun r => (r.status, r.body)) (500, [])
      (by decide +kernel)
  obtain ⟨hstatus, hempty⟩ := Prod.mk.inj hview
  have hbody := hline ⟨0, 0⟩ [] request s s response (twins_foreignSite (.refl _) _ _)
    (congrArg Prod.fst hanswer) (by rw [hstatus])
  rw [hempty] at hbody
  exact absurd hbody (by decide)

end Http

end DeadDrop
