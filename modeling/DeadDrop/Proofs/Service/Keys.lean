import DeadDrop.Proofs.Service.Errors
import DeadDrop.Proofs.Store.Row
import Mathlib.Data.List.Forall2

/-!
# One address for all spellings of a key

An upload key is 64 hexadecimal digits in any case, with the tag in front of them or without it, and
this is what is accepted (`Credential.validate_iff`). The check and the derivation are written apart,
but both look at the lower-cased digits behind the tag and at nothing else. So they accept the same
texts, and all spellings of an upload key have one download key.

A download key is 64 lower-case digits. It is looked up under these digits however it is spelled, and
a text that is no spelling of it is never looked up under them.
-/

namespace DeadDrop

/-! ### Hexadecimal digits -/

namespace Hex

/-- The hexadecimal digits of either case. -/
def digits : Text := "0123456789abcdefABCDEF".toList

/-- The digits that bytes are written in. -/
def lowerDigits : Text := "0123456789abcdef".toList

theorem of_ascii {P : Char → Prop} (h : ∀ n < 128, P (Char.ofNat n)) {c : Char}
    (hc : c.toNat < 128) : P c := by
  rw [← Char.ofNat_toNat c]
  exact h c.toNat hc

theorem isSome_digit?_iff {c : Char} : (digit? c).isSome ↔ c ∈ digits := by
  have hdigits : ∀ c ∈ digits, (digit? c).isSome := List.forall_iff_forall_mem.1 (by decide)
  refine ⟨fun h => ?_, hdigits c⟩
  have hc : c.toNat < 128 := by
    unfold digit? at h
    split_ifs at h with hnumber hlower hupper
    · exact Nat.lt_of_le_of_lt hnumber.2 (by decide)
    · exact Nat.lt_of_le_of_lt hlower.2 (by decide)
    · exact Nat.lt_of_le_of_lt hupper.2 (by decide)
    · cases h
  exact of_ascii (P := fun c => (digit? c).isSome → c ∈ digits) (by decide) hc h

/-- Lower-casing is the identity but on some characters of ASCII. -/
theorem toLower_eq_or_lt (c : Char) : c.toLower = c ∨ c.toNat < 128 := by
  unfold Char.toLower
  split
  · rename_i hupper
    exact .inr (Nat.lt_of_le_of_lt hupper.2 (by decide))
  · exact .inl rfl

theorem toLower_mem_digits_iff {c : Char} : c.toLower ∈ digits ↔ c ∈ digits := by
  rcases toLower_eq_or_lt c with hsame | hc
  · rw [hsame]
  · exact of_ascii (P := fun c => c.toLower ∈ digits ↔ c ∈ digits) (by decide +kernel) hc

/-- What denotes `n` bytes is twice as many digits. -/
theorem exists_decode?_iff {t : Text} {n : Nat} :
    (∃ b, decode? t = some b ∧ b.length = n) ↔ t.length = 2 * n ∧ ∀ c ∈ t, c ∈ digits := by
  fun_induction decode? t generalizing n with
  | case1 => simp; omega
  | case2 c => simp; omega
  | case3 high low rest h l hhigh hlow ih =>
    have hdigits : high ∈ digits ∧ low ∈ digits := by
      rw [← isSome_digit?_iff, ← isSome_digit?_iff, hhigh, hlow]
      exact ⟨rfl, rfl⟩
    cases n with
    | zero => simp
    | succ n =>
      have hmap : (∃ b, (decode? rest).map (UInt8.ofNat (h * 16 + l) :: ·) = some b ∧
          b.length = n + 1) ↔ ∃ b, decode? rest = some b ∧ b.length = n := by
        cases decode? rest <;> simp
      have hlength : (high :: low :: rest).length = 2 * (n + 1) ↔ rest.length = 2 * n := by
        simp only [List.length_cons]
        omega
      rw [hmap, ih, hlength]
      simp [hdigits]
  | case4 high low rest hnone =>
    refine iff_of_false (by simp) fun hall => ?_
    obtain ⟨h, hhigh⟩ := Option.isSome_iff_exists.1 (isSome_digit?_iff.2 (hall.2 high (by simp)))
    obtain ⟨l, hlow⟩ := Option.isSome_iff_exists.1 (isSome_digit?_iff.2 (hall.2 low (by simp)))
    exact hnone h l hhigh hlow

theorem length_encode (b : Bytes) : (encode b).length = 2 * b.length := by
  induction b with
  | nil => rfl
  | cons octet rest ih =>
    rw [encode, List.flatMap_cons, List.length_append, List.length_cons, ← encode, ih]
    simp only [ofByte, List.length_cons, List.length_nil]
    omega

theorem mem_lowerDigits_of_mem_encode {b : Bytes} {c : Char} (h : c ∈ encode b) :
    c ∈ lowerDigits := by
  have hdigits : ∀ n < 16, Nat.digitChar n ∈ lowerDigits := by decide
  obtain ⟨n, hn, rfl⟩ := exists_of_mem_encode h
  exact hdigits n hn

end Hex

theorem Sha256.length_digest (message : Bytes) : (digest message).length = 32 := by
  simp [digest, State.toBytes]

/-! ### Spellings of a key -/

namespace Credential

variable {tag digits key other : Text}

/-- A text is these digits, with the tag in front of them or without it. -/
def Tagged (tag digits key : Text) : Prop :=
  (key = digits ∨ key = tag ++ digits) ∧ ∀ c ∈ digits, c ∈ Hex.digits

/-- An upload key: 64 digits in any case, with the tag or without it. -/
def IsUploadKey (key : Text) : Prop := ∃ digits, Tagged uploadTag digits key ∧ digits.length = 64

/-- The case of some digits is changed. -/
def Recased : Text → Text → Prop := List.Forall₂ fun c d => d ∈ [c, c.toLower, c.toUpper]

instance (t u : Text) : Decidable (Recased t u) :=
  inferInstanceAs (Decidable (List.Forall₂ _ t u))

/-- Two spellings of one key: the same digits in any case, with the tag or without it. -/
def Respelled (tag key other : Text) : Prop :=
  ∃ digits digits', Tagged tag digits key ∧ Tagged tag digits' other ∧ Recased digits digits'

theorem Tagged.withoutStart (htag : '_' ∈ tag) (h : Tagged tag digits key) :
    key.withoutStart tag = digits := by
  obtain ⟨rfl | rfl, hdigits⟩ := h
  · exact Text.withoutStart_of_not_mem htag fun hmark => absurd (hdigits _ hmark) (by decide)
  · have hprefix : tag.isPrefixOf? (tag ++ digits) = some digits :=
      List.isPrefixOf?_eq_some_iff_append_eq.2 rfl
    rw [Text.withoutStart, hprefix]
    rfl

theorem tagged_withoutStart (tag : Text)
    (hdigits : ∀ c ∈ key.withoutStart tag, c ∈ Hex.digits) :
    Tagged tag (key.withoutStart tag) key := by
  refine ⟨?_, hdigits⟩
  unfold Text.withoutStart
  cases hprefix : tag.isPrefixOf? key with
  | none => exact .inl rfl
  | some rest => exact .inr (List.isPrefixOf?_eq_some_iff_append_eq.1 hprefix).symm

theorem isUploadKey_iff :
    IsUploadKey key ↔
      (untagUpload key).length = 64 ∧ ∀ c ∈ untagUpload key, c ∈ Hex.digits := by
  constructor
  · rintro ⟨digits, htagged, hlength⟩
    rw [untagUpload, htagged.withoutStart (by decide)]
    exact ⟨hlength, htagged.2⟩
  · rintro ⟨hlength, hdigits⟩
    exact ⟨_, tagged_withoutStart uploadTag hdigits, hlength⟩

theorem forall_mem_lowerCase_iff {t : Text} :
    (∀ c ∈ t.lowerCase, c ∈ Hex.digits) ↔ ∀ c ∈ t, c ∈ Hex.digits := by
  simp [Text.lowerCase, Hex.toLower_mem_digits_iff]

/-- The check of a key accepts exactly the upload keys. -/
theorem validate_iff : validate key = .ok () ↔ IsUploadKey key := by
  have hdecode : validate key = .ok () ↔
      ∃ b, Hex.decode? (untagUpload key).lowerCase = some b ∧ b.length = keyBytes := by
    unfold validate
    cases Hex.decode? (untagUpload key).lowerCase with
    | none => simp
    | some b => by_cases hlength : b.length = keyBytes <;> simp [hlength]
  rw [hdecode, Hex.exists_decode?_iff, forall_mem_lowerCase_iff, isUploadKey_iff]
  simp [Text.lowerCase, keyBytes]

theorem derive_eq_ok_iff {d : Text} :
    derive key = .ok d ↔ validate key = .ok () ∧
      d = Hex.encode (Sha256.digest (Text.toUtf8 (untagUpload key).lowerCase)) := by
  cases hdecode : Hex.decode? (untagUpload key).lowerCase with
  | none => simp [derive, validate, hdecode]
  | some b =>
    by_cases hlength : b.length = keyBytes
    · simp [derive, validate, hdecode, hlength, eq_comm]
    · simp [derive, validate, hdecode, hlength]

theorem Recased.lowerCase_eq (hdigits : ∀ c ∈ digits, c ∈ Hex.digits)
    (h : Recased digits other) : other.lowerCase = digits.lowerCase := by
  have hcases : ∀ c ∈ Hex.digits,
      c.toLower.toLower = c.toLower ∧ c.toUpper.toLower = c.toLower :=
    List.forall_iff_forall_mem.1 (by decide)
  induction h with
  | nil => rfl
  | @cons c d rest rest' hcd _ ih =>
    obtain ⟨hlower, hupper⟩ := hcases c (hdigits c List.mem_cons_self)
    have hfirst : d.toLower = c.toLower := by
      simp only [List.mem_cons, List.not_mem_nil, or_false] at hcd
      rcases hcd with rfl | rfl | rfl
      · rfl
      · exact hlower
      · exact hupper
    have hrest := ih fun c hc => hdigits c (List.mem_cons_of_mem _ hc)
    simp only [Text.lowerCase, List.map_cons, hfirst] at hrest ⊢
    rw [hrest]

theorem recased_of_lowerCase (hdigits : ∀ c ∈ digits, c ∈ Hex.digits) :
    Recased digits.lowerCase digits := by
  have hcases : ∀ c ∈ Hex.digits, c ∈ [c.toLower, c.toLower.toLower, c.toLower.toUpper] :=
    List.forall_iff_forall_mem.1 (by decide)
  exact List.forall₂_map_left_iff.2 (List.forall₂_same.2 fun c hc => hcases c (hdigits c hc))

/-- Spellings of one key are the same digits when they are lower-cased. -/
theorem Respelled.lowerCase_eq (htag : '_' ∈ tag) (h : Respelled tag key other) :
    (other.withoutStart tag).lowerCase = (key.withoutStart tag).lowerCase := by
  obtain ⟨digits, digits', hkey, hother, hrecased⟩ := h
  rw [hkey.withoutStart htag, hother.withoutStart htag]
  exact hrecased.lowerCase_eq hkey.2

theorem derive_respelled (h : Respelled uploadTag key other) : derive other = derive key := by
  have hsame : (untagUpload other).lowerCase = (untagUpload key).lowerCase :=
    h.lowerCase_eq (by decide)
  rw [derive, derive, hsame]

/-- A download key is looked up for its spellings and for no other text. -/
theorem normalizeDownload_eq_encode_iff {b : Bytes} :
    normalizeDownload other = Hex.encode b ↔ Respelled downloadTag (Hex.encode b) other := by
  have hmark : '_' ∈ downloadTag := by decide
  have hdigits : ∀ c ∈ Hex.encode b, c ∈ Hex.digits := by
    have hlower : ∀ c ∈ Hex.lowerDigits, c ∈ Hex.digits :=
      List.forall_iff_forall_mem.1 (by decide)
    exact fun c hc => hlower c (Hex.mem_lowerDigits_of_mem_encode hc)
  have hkey : Tagged downloadTag (Hex.encode b) (Hex.encode b) := ⟨.inl rfl, hdigits⟩
  constructor
  · intro h
    have hother : ∀ c ∈ untagDownload other, c ∈ Hex.digits := by
      rw [← forall_mem_lowerCase_iff, ← normalizeDownload, h]
      exact hdigits
    refine ⟨_, _, hkey, tagged_withoutStart downloadTag hother, ?_⟩
    rw [← h]
    exact recased_of_lowerCase hother
  · intro h
    calc normalizeDownload other = normalizeDownload (Hex.encode b) := h.lowerCase_eq hmark
      _ = Hex.encode b := normalizeDownload_encode b

/-- A key that is derived is 64 lower-case digits. It is derived from all spellings of the upload key,
and looked up for its own spellings alone. -/
structure Addresses (key d : Text) : Prop where
  length : d.length = 64
  digits : ∀ c ∈ d, c ∈ Hex.lowerDigits
  derived : ∀ other, Respelled uploadTag key other → derive other = .ok d
  normalized : ∀ other, normalizeDownload other = d ↔ Respelled downloadTag d other

theorem addresses_of_derive {d : Text} (h : derive key = .ok d) : Addresses key d := by
  obtain ⟨-, rfl⟩ := derive_eq_ok_iff.1 h
  constructor
  · rw [Hex.length_encode, Sha256.length_digest]
  · exact fun c hc => Hex.mem_lowerDigits_of_mem_encode hc
  · exact fun other hother => (derive_respelled hother).trans h
  · exact fun other => normalizeDownload_eq_encode_iff

end Credential

/-! ### Keys in the service -/

theorem Error.OfWrite.ne_derivation {uploadKey : Text} {e : Error} (h : e.OfWrite uploadKey)
    (reason : Text) : e ≠ .derivation reason := by
  rintro rfl
  rcases h with h | h
  · exact h
  · obtain ⟨cause, -, heq⟩ := Service.downloadKeyOf_eq_error_iff.1 h
    cases heq

namespace Service

/-- The call never ends in the error that a key could not be derived. -/
def NeverUnderived {σ α : Type} (a : Action σ Error α) : Prop :=
  Action.FailsOnly (fun e => ∀ reason, e ≠ .derivation reason) a

/-- **All spellings of a key have one address.** The check of an upload key accepts 64 digits in any
case, with the tag or without it, and nothing else; the derivation accepts the same. So a write never
ends in the error that a key could not be derived, on any backend, and random bytes always make a pair
of keys. What is derived is the same for all spellings of the upload key, and what is looked up is the
same for all spellings of the download key. -/
theorem keys_have_one_address :
    (∀ key, Credential.validate key = .ok () ↔ Credential.IsUploadKey key) ∧
    (∀ key, (∃ d, Credential.derive key = .ok d) ↔ Credential.validate key = .ok ()) ∧
    (∀ (σ : Type) [Backend σ] (clock : Clock) (key path : Text) (params : Params),
      NeverUnderived (upload clock key params : Action (RecordStore σ) Error Written) ∧
      NeverUnderived (patch clock key path params : Action (RecordStore σ) Error Written) ∧
      NeverUnderived (delete clock key : Action (RecordStore σ) Error Text)) ∧
    (∀ random : Bytes, random.length = 32 → ∃ pair, keyPairOf random = .ok pair) ∧
    ∀ key d, Credential.derive key = .ok d → Credential.Addresses key d := by
  refine ⟨fun _ => Credential.validate_iff, fun key => ?_, fun σ _ clock key path params => ?_,
    fun random => exists_keyPair, fun _ _ => Credential.addresses_of_derive⟩
  · simp [Credential.derive_eq_ok_iff]
  · exact ⟨(failsOnly_upload clock key params).mono fun _ => Error.OfWrite.ne_derivation,
      (failsOnly_patch clock key path params).mono fun _ => Error.OfWrite.ne_derivation,
      (failsOnly_delete clock key).mono fun _ => Error.OfWrite.ne_derivation⟩

/-- A tagged key with some digits in upper case, its spelling in lower case, and its download key. -/
theorem keys_have_one_address_sample :
    let mixed := "8E88F1B62B946DD3fccfd8eaf54c9a2e5e27747c3662f2e20645073e4626d7c5".toList
    let lower := "8e88f1b62b946dd3fccfd8eaf54c9a2e5e27747c3662f2e20645073e4626d7c5".toList
    let download := "fcbbda7c04eba41d060b70d1bf7fde8c4a148a087729017d22fc54037c9eb11b".toList
    let shown := "FCBBDA7C04EBA41D060B70D1BF7FDE8C4A148A087729017D22FC54037C9EB11B".toList
    Credential.derive (Credential.tagUpload mixed) = .ok download ∧
      Credential.Respelled Credential.uploadTag (Credential.tagUpload mixed) lower ∧
      Credential.derive lower = .ok download ∧
      Credential.Respelled Credential.downloadTag download (Credential.tagDownload shown) ∧
      Credential.normalizeDownload (Credential.tagDownload shown) = download ∧
      ∃ pair, keyPairOf (List.replicate 32 7) = .ok pair := by
  intro mixed lower download shown
  have hderive : Credential.derive (Credential.tagUpload mixed) = .ok download := by decide +kernel
  have hlower : Credential.Respelled Credential.uploadTag (Credential.tagUpload mixed) lower :=
    ⟨mixed, lower, ⟨.inr rfl, List.forall_iff_forall_mem.1 (by decide +kernel)⟩,
      ⟨.inl rfl, List.forall_iff_forall_mem.1 (by decide +kernel)⟩, by decide +kernel⟩
  have hshown : Credential.Respelled Credential.downloadTag download (Credential.tagDownload shown) :=
    ⟨download, shown, ⟨.inl rfl, List.forall_iff_forall_mem.1 (by decide +kernel)⟩,
      ⟨.inr rfl, List.forall_iff_forall_mem.1 (by decide +kernel)⟩, by decide +kernel⟩
  obtain ⟨-, -, -, hpair, haddress⟩ := keys_have_one_address
  exact ⟨hderive, hlower, (haddress _ _ hderive).derived lower hlower, hshown,
    ((haddress _ _ hderive).normalized _).2 hshown, hpair _ rfl⟩

end Service

end DeadDrop
