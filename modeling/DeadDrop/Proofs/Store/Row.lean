import DeadDrop.Store.Row
import Mathlib.Algebra.Group.Nat.Defs
import Mathlib.Data.List.Induction

/-!
# Reading back rows

A row reads back from its bytes (`Row.decode?_encode`), as long as its expiry is one that the header
can hold: below the limit of 64 bits, and not zero, which in the header means that there is none. Bytes
read back as a row that has them as its own again (`Row.encode_of_decode?`), so what the header says is
all there is to a row.

Of the rows that are built, those that expire do so in a millisecond after 1970 has begun, and fit. The
only exceptions are built in the first millisecond, to expire in it: their expiry is zero, and on disk they
are kept for good.
-/

namespace DeadDrop

namespace Bytes

@[simp]
theorem length_ofNatBE (width n : Nat) : (ofNatBE width n).length = width := by
  induction width generalizing n with
  | zero => rfl
  | succ width ih => rw [ofNatBE, List.length_append, ih, List.length_singleton]

theorem toNatBE_concat (b : Bytes) (byte : UInt8) :
    toNatBE (b ++ [byte]) = toNatBE b * 256 + byte.toNat := by
  rw [toNatBE, List.foldl_append]
  rfl

theorem toNatBE_ofNatBE (width n : Nat) : toNatBE (ofNatBE width n) = n % 256 ^ width := by
  induction width generalizing n with
  | zero => rw [Nat.pow_zero, Nat.mod_one]; rfl
  | succ width ih =>
    have hbyte : (UInt8.ofNat n).toNat = n % 256 := by simp
    rw [ofNatBE, toNatBE_concat, ih, hbyte, Nat.pow_succ', Nat.mod_mul]
    omega

theorem ofNatBE_toNatBE (b : Bytes) : ofNatBE b.length (toNatBE b) = b := by
  induction b using List.reverseRecOn with
  | nil => rfl
  | append_singleton b byte ih =>
    have hbyte := byte.toNat_lt
    have hfront : (toNatBE b * 256 + byte.toNat) / 256 = toNatBE b := by omega
    have hlast : UInt8.ofNat (toNatBE b * 256 + byte.toNat) = byte := by
      apply UInt8.toNat_inj.1
      rw [UInt8.toNat_ofNat']
      omega
    rw [List.length_append, List.length_singleton, toNatBE_concat, ofNatBE, hfront, ih, hlast]

end Bytes

namespace Row

theorem decode?_append (header value : Bytes) (h : header.length = headerLength) :
    decode? (header ++ value) = some
      { value
        expiry := if Bytes.toNatBE header = 0 then none else some (Bytes.toNatBE header) } := by
  have hlong : ¬ (header ++ value).length < headerLength := by
    rw [List.length_append]
    omega
  rw [decode?, if_neg hlong, ← h, List.take_left, List.drop_left]

theorem decode?_encode {row : Row}
    (h : ∀ expiry, row.expiry = some expiry → 0 < expiry ∧ expiry < millisLimit) :
    decode? row.encode = some row := by
  obtain ⟨value, expiry⟩ := row
  rw [encode, decode?_append _ _ (Bytes.length_ofNatBE _ _), Bytes.toNatBE_ofNatBE]
  cases expiry with
  | none => rfl
  | some expiry =>
    obtain ⟨hpositive, hbound⟩ := h expiry rfl
    have hmod : expiry % 256 ^ headerLength = expiry := Nat.mod_eq_of_lt hbound
    rw [Option.getD_some, hmod, if_neg (by omega)]

theorem decode?_eq_none_iff {b : Bytes} : decode? b = none ↔ b.length < headerLength := by
  rw [decode?]
  split <;> simp [*]

theorem decode?_of_long {b : Bytes} (h : headerLength ≤ b.length) :
    decode? b = some
      { value := b.drop headerLength
        expiry :=
          if Bytes.toNatBE (b.take headerLength) = 0 then none
          else some (Bytes.toNatBE (b.take headerLength)) } :=
  if_neg (Nat.not_lt.2 h)

theorem encode_of_decode? {b : Bytes} {row : Row} (h : decode? b = some row) : row.encode = b := by
  have hlong : headerLength ≤ b.length := by
    refine Nat.le_of_not_lt fun hshort => ?_
    rw [decode?_eq_none_iff.2 hshort] at h
    cases h
  rw [decode?_of_long hlong] at h
  obtain rfl := Option.some.inj h
  have hheader : (b.take headerLength).length = headerLength := by
    rw [List.length_take, Nat.min_eq_left hlong]
  have hback := Bytes.ofNatBE_toNatBE (b.take headerLength)
  rw [hheader] at hback
  -- no expiry is written as zero, and zero is read as none
  have hexpiry : ∀ n : Nat, (if n = 0 then none else some n).getD 0 = n := by
    intro n
    by_cases hzero : n = 0
    · rw [if_pos hzero, hzero, Option.getD_none]
    · rw [if_neg hzero, Option.getD_some]
  calc encode _
      = Bytes.ofNatBE headerLength (Bytes.toNatBE (b.take headerLength)) ++ b.drop headerLength := by
        rw [encode, hexpiry]
    _ = b.take headerLength ++ b.drop headerLength := by rw [hback]
    _ = b := List.take_append_drop headerLength b

/-! ### Milliseconds of the wall clock -/

theorem millisOf_eq_ok_iff {clock : Clock} {millis : Nat} :
    millisOf clock = .ok millis ↔
      0 ≤ clock.wall ∧ clock.wall / million = millis ∧ millis < millisLimit := by
  unfold millisOf
  by_cases hpast : clock.wall < 0
  · simp only [if_pos hpast, reduceCtorEq, false_iff]
    omega
  · have hmillis : clock.wall / million = (clock.wall.toNat / million : Nat) := by
      simp only [million]
      omega
    rw [if_neg hpast, hmillis, Int.ofNat_inj]
    by_cases hrange : clock.wall.toNat / million < millisLimit
    · simp only [if_pos hrange, Except.ok.injEq]
      omega
    · simp only [if_neg hrange, reduceCtorEq, false_iff]
      omega

/-! ### Rows as they are built -/

section Built

variable {clock : Clock} {value : Bytes} {ttl : Nat} {row : Row}

theorem withTtl_eq_ok_iff :
    withTtl clock value ttl = .ok row ↔
      ttl / million < millisLimit ∧ ∃ millis, millisOf clock = .ok millis ∧
        row = { value, expiry := some (min (millis + ttl / million) (millisLimit - 1)) } := by
  unfold withTtl
  by_cases httl : ttl / million < millisLimit
  · rw [if_pos httl]
    cases millisOf clock with
    | error fault => simp
    | ok millis => simp [httl, eq_comm]
  · simp [httl]

theorem exists_withTtl_iff (httl : ttl / million < millisLimit) :
    (∃ row, withTtl clock value ttl = .ok row) ↔
      0 ≤ clock.wall ∧ clock.wall / million < millisLimit := by
  simp only [withTtl_eq_ok_iff, millisOf_eq_ok_iff]
  constructor
  · rintro ⟨row, -, millis, ⟨hepoch, hwall, hfits⟩, -⟩
    exact ⟨hepoch, by omega⟩
  · rintro ⟨hepoch, hfits⟩
    have hmillis : clock.wall / million = (clock.wall / million).toNat := by
      simp only [million]
      omega
    exact ⟨_, httl, _, ⟨hepoch, hmillis, by omega⟩, rfl⟩

/-- The millisecond of the expiry is the first one of all: it is the present one, and the time to live is
shorter than one. -/
def ExpiresAtEpoch (clock : Clock) (ttl : Nat) : Prop := clock.wall < million ∧ ttl < million

theorem decode?_encode_of_withTtl (h : withTtl clock value ttl = .ok row)
    (hlater : ¬ ExpiresAtEpoch clock ttl) : decode? row.encode = some row := by
  obtain ⟨-, millis, hmillis, rfl⟩ := withTtl_eq_ok_iff.1 h
  obtain ⟨hepoch, hwall, -⟩ := millisOf_eq_ok_iff.1 hmillis
  refine decode?_encode fun expiry hexpiry => ?_
  have hmin := Option.some.inj hexpiry
  have hlimit : millisLimit = 18446744073709551616 := rfl
  simp only [ExpiresAtEpoch, million] at *
  omega

theorem decode?_encode_of_expiresAtEpoch (h : withTtl clock value ttl = .ok row)
    (hfirst : ExpiresAtEpoch clock ttl) :
    row.expiry = some 0 ∧ decode? row.encode = some (forGood value) := by
  obtain ⟨-, millis, hmillis, rfl⟩ := withTtl_eq_ok_iff.1 h
  obtain ⟨hepoch, hwall, -⟩ := millisOf_eq_ok_iff.1 hmillis
  obtain ⟨hclock, hshort⟩ := hfirst
  have hnow : millis = 0 := by
    simp only [million] at *
    omega
  have hspan : ttl / million = 0 := Nat.div_eq_of_lt hshort
  rw [hnow, hspan, Nat.add_zero, Nat.zero_min]
  refine ⟨rfl, ?_⟩
  have hencode : encode ⟨value, some 0⟩ = Bytes.ofNatBE headerLength 0 ++ value := rfl
  rw [hencode, decode?_append _ _ (Bytes.length_ofNatBE _ _), Bytes.toNatBE_ofNatBE, Nat.zero_mod,
    if_pos rfl, forGood]

end Built

/-- **Rows keep their expiry.** A row that is kept for good reads back as it is, and so does every row that
is built for a time to live, except for one whose expiry is the first millisecond of 1970: that one reads
back as kept for good. Bytes are no row exactly if they are shorter than a header, and all others are
those of the row that they read back as. -/
theorem rows_keep_expiry (clock : Clock) (value : Bytes) (ttl : Nat) (b : Bytes) :
    decode? (forGood value).encode = some (forGood value) ∧
    (0 ≤ clock.wall → ttl / million < millisLimit →
      ((∃ row, withTtl clock value ttl = .ok row) ↔ clock.wall / million < millisLimit) ∧
      ∀ row, withTtl clock value ttl = .ok row →
        row.value = value ∧ row.expiry.isSome = true ∧
          (decode? row.encode = some row ↔ ¬ ExpiresAtEpoch clock ttl) ∧
          (ExpiresAtEpoch clock ttl → decode? row.encode = some (forGood value))) ∧
    (decode? b = none ↔ b.length < headerLength) ∧
    ∀ row, decode? b = some row → row.encode = b := by
  refine ⟨decode?_encode (by simp [forGood]), ?_, decode?_eq_none_iff, fun _ => encode_of_decode?⟩
  intro hepoch httl
  refine ⟨(exists_withTtl_iff httl).trans (and_iff_right hepoch), fun row hrow => ?_⟩
  obtain ⟨-, millis, -, heq⟩ := withTtl_eq_ok_iff.1 hrow
  have hsome : row.expiry.isSome = true := by rw [heq]; rfl
  refine ⟨by rw [heq], hsome, ⟨fun hback hfirst => ?_, decode?_encode_of_withTtl hrow⟩, ?_⟩
  · rw [(decode?_encode_of_expiresAtEpoch hrow hfirst).2, Option.some.injEq] at hback
    rw [← hback] at hsome
    cases hsome
  · exact fun hfirst => (decode?_encode_of_expiresAtEpoch hrow hfirst).2

/-- The first millisecond is over, and the last time to live reaches past the last millisecond. -/
theorem rows_keep_expiry_sample :
    let clock : Clock := { wall := million, monotonic := 0 }
    let row : Row := { value := [0, 0], expiry := some (millisLimit - 1) }
    withTtl clock [0, 0] (millisLimit * million - 1) = .ok row ∧ decode? row.encode = some row ∧
      decode? [0, 0, 0, 0, 0, 0, 0] = none := by
  intro clock row
  have hrow : withTtl clock [0, 0] (millisLimit * million - 1) = .ok row :=
    withTtl_eq_ok_iff.2 ⟨by decide, 1, by decide, by decide +kernel⟩
  obtain ⟨-, hbuilt, hshort, -⟩ := rows_keep_expiry clock [0, 0] (millisLimit * million - 1)
    [0, 0, 0, 0, 0, 0, 0]
  have hback := (hbuilt (by decide) (by decide)).2 row hrow
  exact ⟨hrow, hback.2.2.1.2 (by unfold ExpiresAtEpoch; decide), hshort.2 (by decide)⟩

theorem not_rows_keep_expiry_at_epoch :
    ¬ ∀ (clock : Clock) (value : Bytes) (ttl : Nat) (row : Row), 0 ≤ clock.wall →
      ttl / million < millisLimit → withTtl clock value ttl = .ok row →
      decode? row.encode = some row := by
  intro hback
  have hrow : withTtl { wall := 0, monotonic := 0 } [120] 0 = .ok ⟨[120], some 0⟩ := rfl
  have hforGood : decode? (encode ⟨[120], some 0⟩) = some (forGood [120]) := by decide
  have hlost := hback _ _ _ _ (by decide) (by decide) hrow
  rw [hforGood] at hlost
  exact absurd hlost (by decide)

end Row

end DeadDrop
