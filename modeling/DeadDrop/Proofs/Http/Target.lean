import DeadDrop.Proofs.Credential
import DeadDrop.Proofs.Http.Exchange
import DeadDrop.Proofs.Record.Field
import DeadDrop.Proofs.Text.Trim
import DeadDrop.Proofs.Text.Utf8

/-!
# Following a URL to its field

The URL of a field is put together as text, and it is taken apart in four steps: the target is read
as a URI, its path is matched against the routes, the captures are decoded, and slashes at the ends
of the field are dropped. Each step gives back what was put in, if the text keeps clear of what has a
meaning there: the marks that end an authority or a path, the slashes between pieces, the percent
sign of an escape. So the URL of a field leads to the field (`route?_of_fieldUrl`).
-/

namespace DeadDrop.Http

/-! ### Targets -/

namespace Uri

/-- A path that is read at all is read as a whole, if no query and no fragment begins in it. -/
theorem eq_of_ofPathAndQuery? {t : Text} {uri : Uri} (h : ofPathAndQuery? t = some uri)
    (hne : t ≠ []) (hmarks : ∀ c ∈ t, c ≠ '?' ∧ c ≠ '#') : uri = ⟨t, none⟩ := by
  have hsplit := List.takeWhile_append_dropWhile (p := isPathChar) (l := t)
  unfold ofPathAndQuery? at h
  cases hdrop : t.dropWhile isPathChar with
  | nil =>
    rw [hdrop, List.append_nil] at hsplit
    have hshown : t.isEmpty = false := List.isEmpty_eq_false_iff.2 hne
    simp only [hdrop, hsplit, hshown] at h
    exact (Option.some.inj h).symm
  | cons c rest =>
    have hc : c ∈ t := by
      rw [← hsplit, hdrop]
      exact List.mem_append_right _ List.mem_cons_self
    obtain ⟨hquery, hfragment⟩ := hmarks c hc
    simp only [hdrop] at h
    split at h <;> simp_all

/-- Behind the host of a URL stand its path and its query. -/
theorem ofPathAndQuery?_of_ofText? {host rest : Text} {uri : Uri}
    (hhost : ∀ c ∈ host, endsAuthority c = false)
    (h : ofText? ("http://".toList ++ (host ++ '/' :: rest)) = some uri) :
    ofPathAndQuery? ('/' :: rest) = some uri := by
  have habsolute : ofAbsolute? (host ++ '/' :: rest) = some uri := by
    unfold ofText? at h
    split at h
    · cases h
    · exact h
  have hdrop : (host ++ '/' :: rest).dropWhile (fun c => !endsAuthority c) = '/' :: rest := by
    rw [List.dropWhile_append_of_pos fun c hc => by simp [hhost c hc]]
    rfl
  unfold ofAbsolute? at habsolute
  simp only [hdrop] at habsolute
  split at habsolute
  · exact habsolute
  · cases habsolute

end Uri

/-! ### Routes -/

namespace Route

theorem ofPath?_plain {key field : Text} (hkey : '/' ∉ key) (hfield : field ≠ []) :
    ofPath? ("/d/".toList ++ key ++ "/plain/".toList ++ field) = some (.downloadPlain key field) := by
  obtain ⟨piece, pieces, hpieces⟩ := Text.exists_splitOn_eq_cons '/' field
  have hjoin : Text.join ['/'] (piece :: pieces) = field := by rw [← hpieces, Text.join_splitOn]
  have hpath : "/d/".toList ++ key ++ "/plain/".toList ++ field =
      '/' :: ("d".toList ++ '/' :: (key ++ '/' :: ("plain".toList ++ '/' :: field))) := by
    simp
  have hsplit : Text.splitOn '/'
      ("d".toList ++ '/' :: (key ++ '/' :: ("plain".toList ++ '/' :: field))) =
        "d".toList :: key :: "plain".toList :: piece :: pieces := by
    rw [Text.splitOn_append (by decide), Text.splitOn_append hkey, Text.splitOn_append (by decide),
      hpieces]
  rw [hpath, ofPath?, hsplit]
  simp [patterns, matchPieces, word, hjoin, hfield]

/-! ### Captures -/

/-- Text without an escape in it is decoded to itself. -/
theorem decodeCapture_of_literal {t : Text} (h : Percent.decode (Text.toUtf8 t) = Text.toUtf8 t)
    (name : String) : decodeCapture name t = .ok t := by
  rw [decodeCapture, h, Text.ofUtf8?_toUtf8]

theorem trimSlashes_of_ends {t : Text} (hhead : t.head? ≠ some '/')
    (hlast : t.getLast? ≠ some '/') : trimSlashes t = t := by
  refine Text.trim_of_ends (fun c hc => ?_) fun c hc => ?_
  · exact decide_eq_false fun heq => hhead (heq ▸ hc)
  · exact decide_eq_false fun heq => hlast (heq ▸ hc)

theorem head?_trimSlashes (t : Text) : (trimSlashes t).head? ≠ some '/' := by
  intro hhead
  exact absurd ((Text.trimmed_trim _ t).head '/' hhead) (by decide)

/-- No slash stands in front of the path of a patch. -/
theorem head?_of_decode {route : Route} {key path : Text} (h : route.decode = .ok (.patch key path)) :
    path.head? ≠ some '/' := by
  cases route with
  | keyPair | health | stats => cases h
  | upload key' | downloadJson key' | delete key' =>
    obtain ⟨_, h⟩ := exists_of_bind_eq_ok h
    cases h
  | downloadPlain key' rest | downloadDecoded key' rest =>
    obtain ⟨_, h⟩ := exists_of_bind_eq_ok h
    obtain ⟨_, h⟩ := exists_of_bind_eq_ok h
    cases h
  | patch key' path' =>
    obtain ⟨_, h⟩ := exists_of_bind_eq_ok h
    obtain ⟨decoded, h⟩ := exists_of_bind_eq_ok h
    obtain ⟨-, rfl⟩ := Route.patch.inj (Except.ok.inj h)
    exact head?_trimSlashes decoded

end Route

/-! ### Fields -/

theorem head?_fieldPath {path name : Text} (hpath : path.head? ≠ some '/') (hname : '/' ∉ name) :
    (fieldPath path name).head? ≠ some '/' := by
  intro h
  cases path with
  | nil => exact hname (List.mem_of_mem_head? h)
  | cons c path => exact hpath h

theorem getLast?_fieldPath (path : Text) {name : Text} (hne : name ≠ []) (hname : '/' ∉ name) :
    (fieldPath path name).getLast? ≠ some '/' := by
  intro h
  obtain ⟨c, hlast⟩ := Option.ne_none_iff_exists'.1 (mt List.getLast?_eq_none_iff.1 hne)
  rw [fieldPath, List.getLast?_append, hlast, Option.some_or] at h
  obtain rfl := Option.some.inj h
  exact hname (List.mem_of_getLast? hlast)

/-- A field that can be asked for by its URL. Its name is one piece of a path, its path does not lead
through the reserved field and is no deeper than records are read, and neither the two nor the host
hold text that a URL gives another meaning to. -/
structure Addressable (host path name : Text) : Prop where
  named : name ≠ []
  whole : '/' ∉ name
  free : (mergeSegments path).head? ≠ some Record.timestampName
  shallow : (mergeSegments path).length < Record.nestingLimit
  unmarked : ∀ c ∈ fieldPath path name, c ≠ '?' ∧ c ≠ '#'
  literal : Percent.decode (Text.toUtf8 (fieldPath path name)) = Text.toUtf8 (fieldPath path name)
  host : ∀ c ∈ host, Uri.endsAuthority c = false

theorem fieldUrl_eq (host key path name : Text) :
    fieldUrl host key path name = "http://".toList ++ (host ++ '/' ::
      ("d/".toList ++ key ++ "/plain/".toList ++ fieldPath path name)) := by
  change "http://".toList ++ host ++ "/d/".toList ++ key ++ "/plain/".toList ++
    (if path.isEmpty then [] else path ++ ['/']) ++ name = _
  simp [fieldPath]

/-- The path of the URL of a field. -/
theorem path_of_fieldUrl {host path name key : Text} {uri : Uri}
    (h : Addressable host path name) (hkey : ∀ c ∈ key, c ≠ '?' ∧ c ≠ '#')
    (huri : Uri.ofText? (fieldUrl host key path name) = some uri) :
    uri.path = "/d/".toList ++ key ++ "/plain/".toList ++ fieldPath path name := by
  rw [fieldUrl_eq] at huri
  have hpath := Uri.ofPathAndQuery?_of_ofText? h.host huri
  have hmarks : ∀ c ∈ '/' :: ("d/".toList ++ key ++ "/plain/".toList ++ fieldPath path name),
      c ≠ '?' ∧ c ≠ '#' := by
    have hwords : ∀ c ∈ '/' :: "d/".toList ++ "/plain/".toList, c ≠ '?' ∧ c ≠ '#' := by simp
    intro c hc
    simp only [List.mem_cons, List.mem_append] at hc hwords
    rcases hc with rfl | ((hc | hc) | hc) | hc
    · exact hwords _ (.inl (.inl rfl))
    · exact hwords c (.inl (.inr hc))
    · exact hkey c hc
    · exact hwords c (.inr hc)
    · exact h.unmarked c hc
  rw [Uri.eq_of_ofPathAndQuery? hpath (List.cons_ne_nil _ _) hmarks]
  simp

/-- The URL of a field leads to the field. -/
theorem route?_of_fieldUrl {host path name : Text} {digest : Bytes} {uri : Uri} {read : Request}
    (h : Addressable host path name) (hpath : path.head? ≠ some '/')
    (huri : Uri.ofText? (fieldUrl host (Hex.encode digest) path name) = some uri)
    (hmethod : read.method = .get) (hread : read.uri.path = uri.path) :
    read.route? = some (.downloadPlain (Hex.encode digest) (fieldPath path name)) := by
  have hkey : ∀ c ∈ Hex.encode digest, c ≠ '?' ∧ c ≠ '#' := fun c hc =>
    ⟨fun heq => Hex.not_mem_encode (by decide) digest (heq ▸ hc),
      fun heq => Hex.not_mem_encode (by decide) digest (heq ▸ hc)⟩
  have hfield : fieldPath path name ≠ [] := by
    rw [fieldPath]
    exact List.append_ne_nil_of_right_ne_nil _ h.named
  have hroute : Route.ofPath? read.uri.path =
      some (.downloadPlain (Hex.encode digest) (fieldPath path name)) := by
    rw [hread, path_of_fieldUrl h hkey huri]
    exact Route.ofPath?_plain (Hex.not_mem_encode (by decide) digest) hfield
  have hdecode : (Route.downloadPlain (Hex.encode digest) (fieldPath path name)).decode =
      .ok (.downloadPlain (Hex.encode digest) (fieldPath path name)) := by
    rw [Route.decode, Route.decodeCapture_of_literal (Percent.decode_encode digest),
      Route.decodeCapture_of_literal h.literal]
    change Except.ok (Route.downloadPlain _ (Route.trimSlashes _)) = _
    rw [Route.trimSlashes_of_ends (head?_fieldPath hpath h.whole)
      (getLast?_fieldPath path h.named h.whole)]
  exact route?_of_decode (isRead_of_get hmethod) hroute hdecode

end DeadDrop.Http
