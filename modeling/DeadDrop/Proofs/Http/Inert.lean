import DeadDrop.Proofs.Http.Accounting
import DeadDrop.Proofs.Http.Exchange
import DeadDrop.Proofs.Service.Leaves
import DeadDrop.Proofs.Text.Html

/-!
# Stored values are inert in HTML

Every text that a site stores is the escape of a value of some query, or the stamp of some write. The
escapes are inert, and so are the stamps, since a moment is written with digits and a few marks. So a
site that begins with an empty store never holds a leaf that is not inert: a request gives the
service inert values only, the service keeps what all leaves have in common, and so does a run, as
long as whatever else happens to the store puts nothing in it.
-/

namespace DeadDrop.Http

open DeadDrop.Action
open Backend (Contents Holds)
open RecordStore (Stores)

/-! ### What requests give -/

/-- The values that a write takes from a query are escapes. -/
theorem inert_paramsOf (uri : Uri) : ∀ entry ∈ (paramsOf uri).entries, Html.Inert entry.2 := by
  intro entry hentry
  have htext := (Table.get?_eq_some_iff _).2 hentry
  obtain ⟨value, -, hescape⟩ := Option.map_eq_some_iff.1 ((get?_paramsOf uri _).symm.trans htext)
  exact hescape ▸ Html.inert_escape value

theorem gives_asks? {request : Request} {call : Service.Request}
    (h : request.asks? = some call) : call.Gives Html.Inert := by
  obtain ⟨route, -, hcall⟩ := Option.bind_eq_some_iff.1 h
  cases route with
  | upload key | patch key path =>
    obtain rfl := Option.some.inj hcall
    exact inert_paramsOf request.uri
  | downloadJson key | downloadPlain key field | downloadDecoded key field | delete key =>
    obtain rfl := Option.some.inj hcall
    trivial
  | keyPair | health | stats => cases hcall

section Run

variable {σ : Type} [Backend σ]

/-- An exchange of a run was made in the state that the calls before it leave. -/
theorem exists_of_mem_exchanges {run : List (Timed (Occurrence σ))} {s : Site σ}
    {e : Request × Response} (h : e ∈ exchanges run s) :
    ∃ before t rest, run = before ++ t :: rest ∧
      e ∈ (occur t (stateAfter occur before s)).1 := by
  induction run generalizing s with
  | nil => cases h
  | cons t rest ih =>
    rw [exchanges_cons] at h
    rcases List.mem_append.1 h with hfirst | hlater
    · exact ⟨[], t, rest, rfl, hfirst⟩
    · obtain ⟨before, u, after, rfl, hmem⟩ := ih hlater
      exact ⟨t :: before, u, after, rfl, hmem⟩

theorem exists_of_mem_occur {t : Timed (Occurrence σ)} {s : Site σ} {e : Request × Response}
    (h : e ∈ (occur t s).1) :
    ∃ random s', answer t.clock random e.1 s = (.ok e.2, s') := by
  unfold occur at h
  cases hcall : t.call with
  | store change =>
    rw [hcall] at h
    cases h
  | request random request =>
    rw [hcall] at h
    rcases hanswer : answer t.clock random request s with ⟨o, s'⟩
    simp only [hanswer] at h
    cases o with
    | ok response =>
      obtain rfl := List.mem_singleton.1 h
      exact ⟨random, s', hanswer⟩
    | error reason => cases h
    | abort => cases h

variable [Contents σ]

theorem stores_answer (clock : Clock) (random : Bytes) (request : Request) {s : Site σ}
    (h : Stores Html.Inert s.store) :
    Stores Html.Inert (answer clock random request s).2.store := by
  rcases store_answer clock random request s with hsame | heffect
  · rw [hsame]
    exact h
  · rw [heffect]
    cases hcall : request.asks? with
    | none => exact h
    | some call =>
      exact (call.ensures_respond Moment.inert_toSecondsText (gives_asks? hcall) s.store h).1

/-- A field that is downloaded as plain text has inert leaves. -/
theorem inert_downloadPlain {clock : Clock} {random : Bytes} {request : Request}
    {response : Response} {s s' : Site σ} {key field : Text} (h : Stores Html.Inert s.store)
    (hmethod : request.method = .get) (hroute : request.route? = some (.downloadPlain key field))
    (hanswer : answer clock random request s = (.ok response, s'))
    (hstatus : response.status = 200) :
    ∃ value : Value, response.body = Text.toUtf8 (value.toPlain ++ ['\n']) ∧
      value.AllLeaves Html.Inert := by
  obtain ⟨route, s₁, reply, hserved, hstore, honRoute, hbody⟩ :=
    exists_of_answered hmethod hanswer hstatus
  obtain rfl := Option.some.inj (hroute.symm.trans hserved)
  obtain ⟨value, hvalue, rfl⟩ := onStore_count_eq_ok honRoute
  refine ⟨value, hbody, ?_⟩
  exact (Service.ensures_downloadField key field s₁.store (hstore ▸ h)).2 value
    (by rw [hvalue])

/-! ### Runs -/

/-- Whatever happens to the store apart from requests, nothing is put in it. -/
def Occurrence.PutsNothing : Occurrence σ → Prop
  | .request _ _ => True
  | .store change => ∀ store b, Holds (change store).backend b → Holds store.backend b

theorem putsNothing_purge (clock : Clock) :
    Occurrence.PutsNothing (.store fun store : RecordStore σ => (RecordStore.purge clock store).2) :=
  fun _ _ h => Contents.after_sweep h

theorem stores_occur {t : Timed (Occurrence σ)} (ht : t.call.PutsNothing) {s : Site σ}
    (h : Stores Html.Inert s.store) : Stores Html.Inert (occur t s).2.store := by
  obtain ⟨clock, call⟩ := t
  cases call with
  | request random request => exact stores_answer clock random request h
  | store change => exact fun b hb => h b (ht s.store b hb)

theorem stores_stateAfter {run : List (Timed (Occurrence σ))}
    (hrun : ∀ t ∈ run, t.call.PutsNothing) {s : Site σ} (h : Stores Html.Inert s.store) :
    Stores Html.Inert (stateAfter occur run s).store := by
  refine stateAfter_induction (fun _ (s : Site σ) => Stores Html.Inert s.store) h ?_
  rintro before t rest rfl s hs
  exact stores_occur (hrun t (by simp)) hs

end Run

/-- **Stored values are inert in HTML.** After any run of a site that begins with an empty store, on
either backend and with operations failing or not, each value held is the JSON of a record whose
leaves are inert at every depth, and what is downloaded as plain text has inert leaves. -/
theorem stored_values_inert {s : Site Storage} (hempty : ∀ b, ¬ Holds s.store.backend b)
    {run : List (Timed (Occurrence Storage))} (hrun : ∀ t ∈ run, t.call.PutsNothing) :
    (∀ b, Holds (stateAfter occur run s).store.backend b →
      ∃ r : Record, b = r.toBytes ∧ r.AllLeaves Html.Inert) ∧
    ∀ e ∈ exchanges run s, e.1.method = .get → e.2.status = 200 →
      ∀ key field, e.1.route? = some (.downloadPlain key field) →
        ∃ value : Value, e.2.body = Text.toUtf8 (value.toPlain ++ ['\n']) ∧
          value.AllLeaves Html.Inert ∧
          ∀ text, value = .leaf text → Html.Inert (value.toPlain ++ ['\n']) := by
  have hstart : Stores Html.Inert s.store := fun b hb => absurd hb (hempty b)
  refine ⟨stores_stateAfter hrun hstart, fun e he hmethod hstatus key field hroute => ?_⟩
  obtain ⟨before, t, rest, rfl, hmem⟩ := exists_of_mem_exchanges he
  have hbefore : Stores Html.Inert (stateAfter occur before s).store :=
    stores_stateAfter (fun i hi => hrun i (List.mem_append_left _ hi)) hstart
  obtain ⟨random, s', hanswer⟩ := exists_of_mem_occur hmem
  obtain ⟨value, hbody, hleaves⟩ :=
    inert_downloadPlain hbefore hmethod hroute hanswer hstatus
  refine ⟨value, hbody, hleaves, fun text htext => ?_⟩
  subst htext
  exact hleaves.text.append (by decide)

/-! ### A sample -/

/-- A site that keeps its records in memory. -/
def sampleStorageSite : Site Storage :=
  .started ⟨.memory .empty, 60000000000⟩ Limiter.sampleLimiter 10240 ⟨1700000000, 0⟩

/-- An upload of markup, a sweep, and the download of what has been stored. -/
def markupRun : List (Timed (Occurrence Storage)) :=
  let clock : Clock := ⟨sampleWall, 0⟩
  [⟨clock, .request [] (sampleGet ("/u/" ++ String.ofList Service.sampleUploadKey)
      "note=%3Cb%3E'x'%20%26%20%22y%22%3C/b%3E")⟩,
    ⟨clock, .store fun store => (RecordStore.purge clock store).2⟩,
    ⟨clock, .request [] (sampleGet
      ("/d/" ++ String.ofList Service.sampleDownloadKey ++ "/plain/note") "")⟩]

theorem stored_values_inert_sample :
    (∀ b, ¬ Holds sampleStorageSite.store.backend b) ∧
      (∀ t ∈ markupRun, t.call.PutsNothing) ∧
      ∀ b, Holds (stateAfter occur markupRun sampleStorageSite).store.backend b →
        ∃ r : Record, b = r.toBytes ∧ r.AllLeaves Html.Inert := by
  have hempty : ∀ b, ¬ Holds sampleStorageSite.store.backend b := fun b => Table.not_held_empty
  have hrun : ∀ t ∈ markupRun, t.call.PutsNothing := by
    intro t ht
    simp only [markupRun, List.mem_cons, List.not_mem_nil, or_false] at ht
    rcases ht with rfl | rfl | rfl
    · trivial
    · exact putsNothing_purge _
    · trivial
  exact ⟨hempty, hrun, (stored_values_inert hempty hrun).1⟩

example : (exchanges markupRun sampleStorageSite).map (fun e => Text.ofUtf8? e.2.body) = [
    some (writtenBody "localhost".toList Service.sampleDownloadKey [] (Table.empty.insert
      "note".toList "".toList)),
    some "&lt;b&gt;&#39;x&#39; &amp; &#34;y&#34;&lt;/b&gt;\n".toList] := by
  decide +kernel

end DeadDrop.Http
