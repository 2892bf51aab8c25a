import DeadDrop.Proofs.Text.Split
import DeadDrop.Service
import DeadDrop.Text.Percent

/-!
# Keys in hexadecimal digits

A key that the server makes is written in lower-case hexadecimal digits. None of them means anything
in a path or in a tag, so a download key can stand in a path as it is, and a key is read back as it
is written.
-/

namespace DeadDrop

/-! ### Hexadecimal digits -/

namespace Hex

theorem exists_of_mem_encode {b : Bytes} {c : Char} (h : c ∈ encode b) :
    ∃ n < 16, c = Nat.digitChar n := by
  obtain ⟨octet, -, hc⟩ := List.mem_flatMap.1 h
  have hoctet : octet.toNat < 256 := octet.toNat_lt
  rcases List.mem_cons.1 hc with rfl | hc
  · exact ⟨octet.toNat / 16, by omega, rfl⟩
  · exact ⟨octet.toNat % 16, by omega, List.mem_singleton.1 hc⟩

theorem not_mem_encode {c : Char} (h : ∀ n < 16, Nat.digitChar n ≠ c) (b : Bytes) :
    c ∉ encode b := by
  intro hmem
  obtain ⟨n, hn, rfl⟩ := exists_of_mem_encode hmem
  exact h n hn rfl

theorem lowerCase_encode (b : Bytes) : (encode b).lowerCase = encode b := by
  have hdigits : ∀ n < 16, (Nat.digitChar n).toLower = Nat.digitChar n := by decide
  refine (List.map_congr_left fun c hc => ?_).trans (List.map_id _)
  obtain ⟨n, hn, rfl⟩ := exists_of_mem_encode hc
  exact hdigits n hn

theorem decode?_encode (b : Bytes) : decode? (encode b) = some b := by
  have hdigits : ∀ n < 16, digit? (Nat.digitChar n) = some n := by decide
  induction b with
  | nil => rfl
  | cons octet rest ih =>
    have hoctet : octet.toNat < 256 := octet.toNat_lt
    have hwhole : octet.toNat / 16 * 16 + octet.toNat % 16 = octet.toNat := Nat.div_add_mod' _ _
    have hcons : encode (octet :: rest) =
        Nat.digitChar (octet.toNat / 16) :: Nat.digitChar (octet.toNat % 16) :: encode rest := rfl
    rw [hcons, decode?, hdigits _ (by omega), hdigits _ (by omega), ih]
    simp only [hwhole, UInt8.ofNat_toNat, Option.map_some]

end Hex

/-! ### Percent escapes -/

namespace Percent

/-- Where there is no percent sign there is no escape. -/
theorem decode_of_not_mem {b : Bytes} (h : sign ∉ b) : decode b = b := by
  fun_induction decode b with
  | case1 => rfl
  | case2 | case3 => simp at h
  | case4 octet high low rest hoctet ih | case5 octet rest hshort ih =>
    rw [ih fun hmem => h (List.mem_cons_of_mem _ hmem)]

theorem decode_encode (b : Bytes) :
    decode (Text.toUtf8 (Hex.encode b)) = Text.toUtf8 (Hex.encode b) := by
  have hdigits : ∀ n < 16, sign ∉ String.utf8EncodeChar (Nat.digitChar n) := by decide
  apply decode_of_not_mem
  intro hmem
  obtain ⟨c, hc, hoctet⟩ := List.mem_flatMap.1 hmem
  obtain ⟨n, hn, rfl⟩ := Hex.exists_of_mem_encode hc
  exact hdigits n hn hoctet

/-- An octet that begins no escape is kept. -/
theorem decode_cons {octet : UInt8} {rest : Bytes}
    (h : ∀ high low behind, octet = sign → rest = high :: low :: behind →
      digit? high = none ∨ digit? low = none) :
    decode (octet :: rest) = octet :: decode rest := by
  match rest with
  | [] | [_] => rfl
  | high :: low :: behind =>
    by_cases hsign : octet = sign
    · rcases h high low behind hsign rfl with hnone | hnone <;> simp [decode, hsign, hnone]
    · rw [decode, if_neg hsign]

/-- No escape reaches across an octet that stands in none. -/
theorem decode_append_cons {octet : UInt8} (hsign : octet ≠ sign) (hdigit : digit? octet = none)
    (b rest : Bytes) : decode (b ++ octet :: rest) = decode b ++ octet :: decode rest := by
  fun_induction decode b with
  | case1 => exact decode_cons fun _ _ _ heq => absurd heq hsign
  | case2 high low b h l hhigh hlow ih =>
    simp only [List.cons_append, decode, hhigh, hlow, if_true, ih]
  | case3 high low b hplain ih =>
    rw [List.cons_append, decode_cons, ih, List.cons_append]
    intro _ _ _ _ heq
    simp only [List.cons_append, List.cons.injEq] at heq
    obtain ⟨rfl, rfl, -⟩ := heq
    cases hhigh : digit? high with
    | none => exact .inl rfl
    | some h => exact .inr (Option.eq_none_iff_forall_ne_some.2 fun l hlow => hplain h l hhigh hlow)
  | case4 first high low b hfirst ih =>
    rw [List.cons_append, decode_cons fun _ _ _ heq => absurd heq hfirst, ih, List.cons_append]
  | case5 first b hshort ih =>
    rw [List.cons_append, decode_cons, ih, List.cons_append]
    intro _ _ _ _ heq
    -- what is left of the bytes in front is too short for an escape
    match b with
    | [] =>
      obtain ⟨rfl, -⟩ := List.cons.inj heq
      exact .inl hdigit
    | [_] =>
      obtain ⟨rfl, -⟩ := List.cons.inj (List.cons.inj heq).2
      exact .inr hdigit
    | second :: third :: b => exact (hshort second third b rfl).elim

end Percent

/-! ### Download keys -/

namespace Credential

theorem lowerCase_untag_encode {tag : Text} (htag : '_' ∈ tag) (b : Bytes) :
    ((Hex.encode b).withoutStart tag).lowerCase = Hex.encode b := by
  rw [Text.withoutStart_of_not_mem htag (Hex.not_mem_encode (by decide) b), Hex.lowerCase_encode]

theorem normalizeDownload_encode (b : Bytes) :
    normalizeDownload (Hex.encode b) = Hex.encode b :=
  lowerCase_untag_encode (by decide) b

end Credential

theorem Service.exists_of_downloadKeyOf {uploadKey key : Text}
    (h : downloadKeyOf uploadKey = .ok key) : ∃ b, key = Hex.encode b := by
  unfold downloadKeyOf Credential.derive at h
  cases hvalid : Credential.validate uploadKey with
  | error e => simp [hvalid] at h
  | ok _ =>
    simp only [hvalid] at h
    split at h
    · cases h
    · rename_i found hderive
      split at hderive
      · split at hderive
        · exact ⟨_, (Except.ok.inj h).symm.trans (Except.ok.inj hderive).symm⟩
        · cases hderive
      · cases hderive

end DeadDrop
