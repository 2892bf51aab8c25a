import DeadDrop.Proofs.Text.Split
import DeadDrop.Text.Utf8
import Mathlib.Tactic.IntervalCases

/-!
# Reading back what was written in UTF-8

The reader of UTF-8 gives every text back from its bytes (`ofUtf8?_toUtf8`). One character at a
time: its first octet says how many follow and narrows the next one, and every octet behind it
appends six bits.

It gives no text back from other bytes (`ofUtf8?_eq_some_iff`). As long as a character is pending,
the octets in front are the ones that every character begins with that goes on as this one may
(`Utf8Pending.Follows`).

An octet below `80` is a character by itself and goes on with no other, so the bytes in front of it
and those behind it are read apart, ill-formed or not (`ofUtf8?_append_cons`).
-/

namespace DeadDrop.Text

/-- The value of a byte that was made from a number below 256. -/
theorem toNat_byte {n : Nat} (h : n < 256) : (UInt8.ofNat n).toNat = n := by
  simpa using Nat.mod_eq_of_lt h

/-! ### One octet -/

theorem utf8Units_none_cons (octet : UInt8) (rest : Bytes) :
    utf8Units none (octet :: rest) =
      match utf8Lead octet.toNat with
      | .whole c => some c :: utf8Units none rest
      | .begun next => utf8Units (some next) rest
      | .illFormed => none :: utf8Units none rest := rfl

theorem utf8Units_of_inside {p : Utf8Pending} {octet : UInt8}
    (h : p.low ≤ octet.toNat ∧ octet.toNat ≤ p.high) (rest : Bytes) :
    utf8Units (some p) (octet :: rest) =
      match p.owed with
      | 0 | 1 => some (Char.ofNat (p.bits * 64 + (octet.toNat - 0x80))) :: utf8Units none rest
      | owed + 2 =>
        utf8Units (some { bits := p.bits * 64 + (octet.toNat - 0x80), owed := owed + 1 }) rest :=
  if_pos h

/-- An octet that cannot go on with a character ends it and is read as a first one. -/
theorem utf8Units_of_outside {p : Utf8Pending} {octet : UInt8}
    (h : ¬ (p.low ≤ octet.toNat ∧ octet.toNat ≤ p.high)) (rest : Bytes) :
    utf8Units (some p) (octet :: rest) = none :: utf8Units none (octet :: rest) :=
  if_neg h

/-! ### The octets of a character -/

theorem toNat_ofNat {v : Nat} (h : v < 0xD800 ∨ 0xDFFF < v ∧ v < 0x110000) :
    (Char.ofNat v).toNat = v := by
  rw [Char.ofNat, dif_pos h]
  rfl

theorem encodeChar_one {v : Nat} (h : v ≤ 0x7f) :
    String.utf8EncodeChar (Char.ofNat v) = [UInt8.ofNat v] := by
  unfold String.utf8EncodeChar
  rw [Char.toNat_val, toNat_ofNat (by omega)]
  simp only [if_pos h]

theorem encodeChar_two {v : Nat} (h : 0x7f < v) (h' : v ≤ 0x7ff) :
    String.utf8EncodeChar (Char.ofNat v) =
      [UInt8.ofNat (v / 64 + 0xc0), UInt8.ofNat (v % 0x40 + 0x80)] := by
  have hlead : v / 64 % 0x20 = v / 64 := Nat.mod_eq_of_lt (by omega)
  unfold String.utf8EncodeChar
  rw [Char.toNat_val, toNat_ofNat (by omega)]
  simp only [if_neg (Nat.not_le.2 h), if_pos h', hlead]

theorem encodeChar_three {v : Nat} (h : 0x7ff < v) (h' : v ≤ 0xffff)
    (hscalar : v < 0xD800 ∨ 0xDFFF < v) :
    String.utf8EncodeChar (Char.ofNat v) =
      [UInt8.ofNat (v / 4096 + 0xe0), UInt8.ofNat (v / 64 % 0x40 + 0x80),
        UInt8.ofNat (v % 0x40 + 0x80)] := by
  have hlead : v / 4096 % 0x10 = v / 4096 := Nat.mod_eq_of_lt (by omega)
  have hone : ¬ v ≤ 0x7f := by omega
  unfold String.utf8EncodeChar
  rw [Char.toNat_val, toNat_ofNat (by omega)]
  simp only [if_neg hone, if_neg (Nat.not_le.2 h), if_pos h', hlead]

theorem encodeChar_four {v : Nat} (h : 0xffff < v) (h' : v < 0x110000) :
    String.utf8EncodeChar (Char.ofNat v) =
      [UInt8.ofNat (v / 262144 + 0xf0), UInt8.ofNat (v / 4096 % 0x40 + 0x80),
        UInt8.ofNat (v / 64 % 0x40 + 0x80), UInt8.ofNat (v % 0x40 + 0x80)] := by
  have hlead : v / 262144 % 0x08 = v / 262144 := Nat.mod_eq_of_lt (by omega)
  have hone : ¬ v ≤ 0x7f := by omega
  have htwo : ¬ v ≤ 0x7ff := by omega
  unfold String.utf8EncodeChar
  rw [Char.toNat_val, toNat_ofNat (by omega)]
  simp only [if_neg hone, if_neg htwo, if_neg (Nat.not_le.2 h), hlead]

/-! ### First octets -/

theorem utf8Lead_two {v : Nat} (hv : 0x7f < v) (hv' : v ≤ 0x7ff) :
    utf8Lead (v / 64 + 0xc0) = .begun { bits := v / 64, owed := 1 } := by
  have h1 : ¬ v / 64 + 0xc0 < 0x80 := by omega
  have h2 : ¬ v / 64 + 0xc0 < 0xC2 := by omega
  have h3 : v / 64 + 0xc0 < 0xE0 := by omega
  rw [utf8Lead, if_neg h1, if_neg h2, if_pos h3, Nat.add_sub_cancel]

theorem utf8Lead_three {v : Nat} (hv : v ≤ 0xffff) :
    utf8Lead (v / 4096 + 0xe0) = .begun
      { bits := v / 4096, owed := 2, low := if v / 4096 = 0 then 0xA0 else 0x80
        high := if v / 4096 = 0xD then 0x9F else 0xBF } := by
  have hbits : v / 4096 < 0x10 := by omega
  generalize v / 4096 = bits at hbits
  interval_cases bits <;> rfl

theorem utf8Lead_four {v : Nat} (hv : v < 0x110000) :
    utf8Lead (v / 262144 + 0xf0) = .begun
      { bits := v / 262144, owed := 3, low := if v / 262144 = 0 then 0x90 else 0x80
        high := if v / 262144 = 4 then 0x8F else 0xBF } := by
  have hbits : v / 262144 < 5 := by omega
  generalize v / 262144 = bits at hbits
  interval_cases bits <;> rfl

theorem utf8Units_of_whole {octet : Nat} {c : Char} (hoctet : octet < 256)
    (hlead : utf8Lead octet = .whole c) (rest : Bytes) :
    utf8Units none (UInt8.ofNat octet :: rest) = some c :: utf8Units none rest := by
  rw [utf8Units_none_cons]
  simp only [toNat_byte hoctet, hlead]

theorem utf8Units_of_begun {octet : Nat} {p : Utf8Pending} (hoctet : octet < 256)
    (hlead : utf8Lead octet = .begun p) (rest : Bytes) :
    utf8Units none (UInt8.ofNat octet :: rest) = utf8Units (some p) rest := by
  rw [utf8Units_none_cons]
  simp only [toNat_byte hoctet, hlead]

/-! ### Octets behind the first

Such an octet is `10xxxxxx` with six bits of the character, here those of a number `n`. -/

theorem utf8Units_last {p : Utf8Pending} (n : Nat) (howed : p.owed = 1)
    (hlow : p.low ≤ n % 0x40 + 0x80) (hhigh : n % 0x40 + 0x80 ≤ p.high) (rest : Bytes) :
    utf8Units (some p) (UInt8.ofNat (n % 0x40 + 0x80) :: rest) =
      some (Char.ofNat (p.bits * 64 + n % 0x40)) :: utf8Units none rest := by
  have hvalue : (UInt8.ofNat (n % 0x40 + 0x80)).toNat = n % 0x40 + 0x80 := toNat_byte (by omega)
  rw [utf8Units_of_inside (by rw [hvalue]; exact ⟨hlow, hhigh⟩), howed]
  simp only [hvalue, Nat.add_sub_cancel]

theorem utf8Units_more {p : Utf8Pending} (n : Nat) {owed : Nat} (howed : p.owed = owed + 2)
    (hlow : p.low ≤ n % 0x40 + 0x80) (hhigh : n % 0x40 + 0x80 ≤ p.high) (rest : Bytes) :
    utf8Units (some p) (UInt8.ofNat (n % 0x40 + 0x80) :: rest) =
      utf8Units (some { bits := p.bits * 64 + n % 0x40, owed := owed + 1 }) rest := by
  have hvalue : (UInt8.ofNat (n % 0x40 + 0x80)).toNat = n % 0x40 + 0x80 := toNat_byte (by omega)
  rw [utf8Units_of_inside (by rw [hvalue]; exact ⟨hlow, hhigh⟩), howed]
  simp only [hvalue, Nat.add_sub_cancel]

/-! ### Characters and texts -/

theorem utf8Units_encodeChar (c : Char) (rest : Bytes) :
    utf8Units none (String.utf8EncodeChar c ++ rest) = some c :: utf8Units none rest := by
  have hvalid : c.toNat < 0xD800 ∨ 0xDFFF < c.toNat ∧ c.toNat < 0x110000 := c.valid
  rw [← Char.ofNat_toNat c]
  generalize c.toNat = v at hvalid
  by_cases hone : v ≤ 0x7f
  · have hlead : utf8Lead v = .whole (Char.ofNat v) := by rw [utf8Lead, if_pos (by omega)]
    rw [encodeChar_one hone]
    exact utf8Units_of_whole (by omega) hlead rest
  by_cases htwo : v ≤ 0x7ff
  · have hbits : v / 64 * 64 + v % 0x40 = v := by omega
    rw [encodeChar_two (by omega) htwo]
    simp only [List.cons_append, List.nil_append]
    rw [utf8Units_of_begun (by omega) (utf8Lead_two (by omega) htwo),
      utf8Units_last v rfl (by dsimp only; omega) (by dsimp only; omega)]
    simp only [hbits]
  by_cases hthree : v ≤ 0xffff
  · have hbits : (v / 4096 * 64 + v / 64 % 0x40) * 64 + v % 0x40 = v := by omega
    rw [encodeChar_three (by omega) hthree (by omega)]
    simp only [List.cons_append, List.nil_append]
    -- the bounds of the second octet keep out overlong forms and surrogates
    rw [utf8Units_of_begun (by omega) (utf8Lead_three hthree),
      utf8Units_more (v / 64) rfl (by dsimp only; split <;> omega) (by dsimp only; split <;> omega),
      utf8Units_last v rfl (by dsimp only; omega) (by dsimp only; omega)]
    simp only [hbits]
  · have hbits :
        ((v / 262144 * 64 + v / 4096 % 0x40) * 64 + v / 64 % 0x40) * 64 + v % 0x40 = v := by
      omega
    rw [encodeChar_four (by omega) (by omega)]
    simp only [List.cons_append, List.nil_append]
    rw [utf8Units_of_begun (by omega) (utf8Lead_four (by omega)),
      utf8Units_more (v / 4096) rfl (by dsimp only; split <;> omega)
        (by dsimp only; split <;> omega),
      utf8Units_more (v / 64) rfl (by dsimp only; omega) (by dsimp only; omega),
      utf8Units_last v rfl (by dsimp only; omega) (by dsimp only; omega)]
    simp only [hbits]

theorem utf8Units_toUtf8 (t : Text) : utf8Units none (toUtf8 t) = t.map some := by
  induction t with
  | nil => rfl
  | cons c t ih =>
    rw [toUtf8, List.flatMap_cons, utf8Units_encodeChar, List.map_cons]
    exact congrArg _ ih

@[simp]
theorem ofUtf8?_toUtf8 (t : Text) : ofUtf8? (toUtf8 t) = some t := by
  rw [ofUtf8?, utf8Units_toUtf8]
  induction t with
  | nil => rfl
  | cons c t ih => rw [List.map_cons, List.mapM_cons, ih]; rfl

/-! ### Octets that are read as characters -/

/-- The octets in front begin every character that goes on as the pending one may, by six bits in
each octet. -/
structure Utf8Pending.Follows (p : Utf8Pending) (front : Bytes) : Prop where
  owed_pos : 0 < p.owed
  low_le : 0x80 ≤ p.low
  high_le : p.high ≤ 0xBF
  encode : ∀ first rest, rest.length + 1 = p.owed →
    p.low ≤ first + 0x80 → first + 0x80 ≤ p.high → (∀ bits ∈ rest, bits < 64) →
    String.utf8EncodeChar
        (Char.ofNat (rest.foldl (fun v bits => v * 64 + bits) (p.bits * 64 + first))) =
      front ++ (first :: rest).map fun bits => UInt8.ofNat (bits + 0x80)

theorem ofNat_octet {octet : UInt8} (h : 0x80 ≤ octet.toNat) :
    UInt8.ofNat (octet.toNat - 0x80 + 0x80) = octet := by
  rw [Nat.sub_add_cancel h, UInt8.ofNat_toNat]

theorem Utf8Pending.Follows.next {p : Utf8Pending} {front : Bytes} (h : p.Follows front)
    {owed : Nat} (howed : p.owed = owed + 2) {octet : UInt8}
    (hin : p.low ≤ octet.toNat ∧ octet.toNat ≤ p.high) :
    Utf8Pending.Follows { bits := p.bits * 64 + (octet.toNat - 0x80), owed := owed + 1 }
      (front ++ [octet]) where
  owed_pos := Nat.succ_pos _
  low_le := Nat.le_refl _
  high_le := Nat.le_refl _
  encode first rest hlength hlow hhigh hrest := by
    have hoctet := Nat.le_trans h.low_le hin.1
    have hfirst : first < 64 := by
      dsimp only at hhigh
      omega
    have hlength : (first :: rest).length + 1 = p.owed := by
      rw [howed, List.length_cons, hlength]
    have hencode := h.encode (octet.toNat - 0x80) (first :: rest) hlength (by omega) (by omega)
      (List.forall_mem_cons.2 ⟨hfirst, hrest⟩)
    rw [List.map_cons, ofNat_octet hoctet] at hencode
    simpa using hencode

theorem Utf8Pending.Follows.last {p : Utf8Pending} {front : Bytes} (h : p.Follows front)
    (howed : p.owed = 1) {octet : UInt8} (hin : p.low ≤ octet.toNat ∧ octet.toNat ≤ p.high) :
    String.utf8EncodeChar (Char.ofNat (p.bits * 64 + (octet.toNat - 0x80))) = front ++ [octet] := by
  have hoctet := Nat.le_trans h.low_le hin.1
  have hencode := h.encode (octet.toNat - 0x80) [] (by rw [howed]; rfl) (by omega) (by omega)
    (by simp)
  rwa [List.map_cons, ofNat_octet hoctet] at hencode

theorem follows_two {p : Utf8Pending} {octet : UInt8}
    (h : 0xC2 ≤ octet.toNat ∧ octet.toNat < 0xE0) (hbits : p.bits = octet.toNat - 0xC0)
    (howed : p.owed = 1) (hlow : 0x80 ≤ p.low) (hhigh : p.high ≤ 0xBF) : p.Follows [octet] where
  owed_pos := by omega
  low_le := hlow
  high_le := hhigh
  encode first rest hlength hfirst hfirst' hrest := by
    obtain rfl : rest = [] := List.length_eq_zero_iff.1 (by omega)
    rw [List.foldl_nil]
    generalize hv : p.bits * 64 + first = v
    have hlead : v / 64 + 0xC0 = octet.toNat := by omega
    have hlast : v % 64 = first := by omega
    rw [encodeChar_two (by omega) (by omega), hlead, hlast, UInt8.ofNat_toNat]
    rfl

theorem follows_three {p : Utf8Pending} {octet : UInt8}
    (h : 0xE0 ≤ octet.toNat ∧ octet.toNat < 0xF0) (hbits : p.bits = octet.toNat - 0xE0)
    (howed : p.owed = 2) (hlow : 0x80 ≤ p.low) (hhigh : p.high ≤ 0xBF)
    (hoverlong : octet.toNat = 0xE0 → 0xA0 ≤ p.low)
    (hsurrogate : octet.toNat = 0xED → p.high ≤ 0x9F) : p.Follows [octet] where
  owed_pos := by omega
  low_le := hlow
  high_le := hhigh
  encode first rest hlength hfirst hfirst' hrest := by
    obtain ⟨second, rfl⟩ : ∃ second, rest = [second] := List.length_eq_one_iff.1 (by omega)
    have hsecond : second < 64 := hrest second (by simp)
    simp only [List.foldl_cons, List.foldl_nil]
    generalize hv : (p.bits * 64 + first) * 64 + second = v
    have hlead : v / 4096 + 0xE0 = octet.toNat := by omega
    have hmiddle : v / 64 % 64 = first := by omega
    have hlast : v % 64 = second := by omega
    rw [encodeChar_three (by omega) (by omega) (by omega), hlead, hmiddle, hlast,
      UInt8.ofNat_toNat]
    rfl

theorem follows_four {p : Utf8Pending} {octet : UInt8}
    (h : 0xF0 ≤ octet.toNat ∧ octet.toNat < 0xF5) (hbits : p.bits = octet.toNat - 0xF0)
    (howed : p.owed = 3) (hlow : 0x80 ≤ p.low) (hhigh : p.high ≤ 0xBF)
    (hoverlong : octet.toNat = 0xF0 → 0x90 ≤ p.low)
    (hbeyond : octet.toNat = 0xF4 → p.high ≤ 0x8F) : p.Follows [octet] where
  owed_pos := by omega
  low_le := hlow
  high_le := hhigh
  encode first rest hlength hfirst hfirst' hrest := by
    obtain ⟨second, third, rfl⟩ : ∃ second third, rest = [second, third] :=
      List.length_eq_two.1 (by omega)
    obtain ⟨hsecond, hthird⟩ : second < 64 ∧ third < 64 := by simpa using hrest
    simp only [List.foldl_cons, List.foldl_nil]
    generalize hv : ((p.bits * 64 + first) * 64 + second) * 64 + third = v
    have hlead : v / 262144 + 0xF0 = octet.toNat := by omega
    have hfirst : v / 4096 % 64 = first := by omega
    have hmiddle : v / 64 % 64 = second := by omega
    have hlast : v % 64 = third := by omega
    rw [encodeChar_four (by omega) (by omega), hlead, hfirst, hmiddle, hlast, UInt8.ofNat_toNat]
    rfl

theorem follows_of_utf8Lead {octet : UInt8} {p : Utf8Pending}
    (h : utf8Lead octet.toNat = .begun p) : p.Follows [octet] := by
  unfold utf8Lead at h
  split_ifs at h
  all_goals obtain rfl := Utf8Lead.begun.inj h
  · exact follows_two (by omega) rfl rfl (by simp) (by simp)
  · exact follows_three (by omega) (by simp [*]) rfl (by simp) (by simp) (by simp) (by omega)
  · exact follows_three (by omega) (by simp [*]) rfl (by simp) (by simp) (by omega) (by simp)
  · exact follows_three (by omega) rfl rfl (by simp) (by simp) (by omega) (by omega)
  · exact follows_four (by omega) (by simp [*]) rfl (by simp) (by simp) (by simp) (by omega)
  · exact follows_four (by omega) rfl rfl (by simp) (by simp) (by omega) (by omega)
  · exact follows_four (by omega) (by simp [*]) rfl (by simp) (by simp) (by omega) (by simp)

theorem encodeChar_of_utf8Lead {octet : UInt8} {c : Char} (h : utf8Lead octet.toNat = .whole c) :
    String.utf8EncodeChar c = [octet] := by
  unfold utf8Lead at h
  split_ifs at h
  obtain rfl := Utf8Lead.whole.inj h
  rw [encodeChar_one (by omega), UInt8.ofNat_toNat]

theorem none_cons_ne_map_some (units : List (Option Char)) (t : Text) :
    none :: units ≠ t.map some := by
  cases t <;> simp

/-- One more character has been read, from the octets in front and this one. -/
theorem toUtf8_of_some_cons {b : Bytes} {t : Text} {c : Char} {front : Bytes} {octet : UInt8}
    (hrest : ∀ t : Text, utf8Units none b = t.map some → toUtf8 t = b)
    (hc : String.utf8EncodeChar c = front ++ [octet])
    (h : some c :: utf8Units none b = t.map some) : toUtf8 t = front ++ octet :: b := by
  cases t with
  | nil => cases h
  | cons first t =>
    obtain ⟨hfirst, hmore⟩ := List.cons.inj h
    obtain rfl := Option.some.inj hfirst
    have ht := hrest t hmore
    rw [toUtf8] at ht ⊢
    rw [List.flatMap_cons, hc, ht, List.append_assoc, List.singleton_append]

/-- The octets of the character that is under way. -/
def Utf8Begun : Option Utf8Pending → Bytes → Prop
  | none, front => front = []
  | some p, front => p.Follows front

/-- Octets that are read as characters and nothing else are those that the characters are written
with. -/
theorem toUtf8_of_utf8Units {b : Bytes} {pending : Option Utf8Pending} {front : Bytes} {t : Text}
    (hbegun : Utf8Begun pending front) (h : utf8Units pending b = t.map some) :
    toUtf8 t = front ++ b := by
  induction b generalizing pending front t with
  | nil =>
    cases pending with
    | none =>
      obtain rfl : t = [] := List.map_eq_nil_iff.1 h.symm
      rw [hbegun]
      rfl
    | some p => exact absurd h (none_cons_ne_map_some [] t)
  | cons octet b ih =>
    have hrest : ∀ t : Text, utf8Units none b = t.map some → toUtf8 t = b := fun t =>
      @ih none [] t rfl
    cases pending with
    | none =>
      obtain rfl : front = [] := hbegun
      rw [utf8Units_none_cons] at h
      cases hlead : utf8Lead octet.toNat with
      | whole c =>
        simp only [hlead] at h
        exact toUtf8_of_some_cons hrest (encodeChar_of_utf8Lead hlead) h
      | begun p =>
        simp only [hlead] at h
        exact @ih (some p) [octet] t (follows_of_utf8Lead hlead) h
      | illFormed =>
        simp only [hlead] at h
        exact absurd h (none_cons_ne_map_some _ t)
    | some p =>
      have hfollows : p.Follows front := hbegun
      by_cases hin : p.low ≤ octet.toNat ∧ octet.toNat ≤ p.high
      · rw [utf8Units_of_inside hin] at h
        match howed : p.owed, hfollows.owed_pos with
        | 1, _ =>
          simp only [howed] at h
          exact toUtf8_of_some_cons hrest (hfollows.last howed hin) h
        | owed + 2, _ =>
          simp only [howed] at h
          have hmore := @ih (some _) _ t (hfollows.next howed hin) h
          rwa [List.append_assoc] at hmore
      · rw [utf8Units_of_outside hin] at h
        exact absurd h (none_cons_ne_map_some _ t)

/-- **Text and its bytes.** Bytes read as a text exactly if they are the ones it is written with. -/
theorem ofUtf8?_eq_some_iff {b : Bytes} {t : Text} : ofUtf8? b = some t ↔ b = toUtf8 t := by
  constructor
  · intro h
    have hunits : utf8Units none b = t.map some := by
      have hall : List.Forall₂ (· = ·) (utf8Units none b) (t.map some) :=
        List.forall₂_map_right_iff.2 (mapM_eq_some_iff.1 h)
      rwa [List.forall₂_eq_eq_eq] at hall
    have hbegun : Utf8Begun none [] := rfl
    exact (toUtf8_of_utf8Units hbegun hunits).symm
  · rintro rfl
    exact ofUtf8?_toUtf8 t

/-! ### Pieces between octets that are characters -/

theorem low_of_utf8Lead {octet : Nat} {p : Utf8Pending} (h : utf8Lead octet = .begun p) :
    0x80 ≤ p.low := by
  unfold utf8Lead at h
  split_ifs at h <;> simp at h <;> simp [← h]

/-- An octet that is a character by itself ends what is in front of it. -/
theorem utf8Units_append_cons {octet : UInt8} (hoctet : octet.toNat < 0x80) (b rest : Bytes)
    {pending : Option Utf8Pending} (hpending : ∀ p ∈ pending, 0x80 ≤ p.low) :
    utf8Units pending (b ++ octet :: rest) =
      utf8Units pending b ++ utf8Units none (octet :: rest) := by
  induction b generalizing pending with
  | nil =>
    cases pending with
    | none => rfl
    | some p =>
      have hlow : 0x80 ≤ p.low := hpending p rfl
      exact utf8Units_of_outside (by omega) rest
  | cons first b ih =>
    have hclear : utf8Units none (b ++ octet :: rest) =
        utf8Units none b ++ utf8Units none (octet :: rest) := ih (by simp)
    have hfirst : utf8Units none (first :: b ++ octet :: rest) =
        utf8Units none (first :: b) ++ utf8Units none (octet :: rest) := by
      rw [List.cons_append, utf8Units_none_cons, utf8Units_none_cons]
      cases hlead : utf8Lead first.toNat with
      | whole c | illFormed => simp only [hclear, List.cons_append]
      | begun p => exact ih fun q hq => Option.some.inj hq ▸ low_of_utf8Lead hlead
    cases pending with
    | none => exact hfirst
    | some p =>
      by_cases hin : p.low ≤ first.toNat ∧ first.toNat ≤ p.high
      · rw [List.cons_append, utf8Units_of_inside hin, utf8Units_of_inside hin]
        split
        · simp only [hclear, List.cons_append]
        · simp only [hclear, List.cons_append]
        · exact ih fun q hq => Option.some.inj hq ▸ Nat.le_refl _
      · rw [utf8Units_of_outside hin, List.cons_append, utf8Units_of_outside hin,
          ← List.cons_append, hfirst, List.cons_append]

/-- Bytes are well-formed if they are on both sides of an octet that is a character by itself. -/
theorem ofUtf8?_append_cons {octet : UInt8} (hoctet : octet.toNat < 0x80) (b rest : Bytes) :
    ofUtf8? (b ++ octet :: rest) =
      (ofUtf8? b).bind fun t => (ofUtf8? rest).map fun u => t ++ Char.ofNat octet.toNat :: u := by
  have hwhole : utf8Units none (octet :: rest) =
      some (Char.ofNat octet.toNat) :: utf8Units none rest := by
    rw [utf8Units_none_cons]
    simp only [utf8Lead, if_pos hoctet]
  rw [ofUtf8?, utf8Units_append_cons hoctet b rest (by simp), hwhole]
  rw [List.mapM_append, List.mapM_cons, ofUtf8?, ofUtf8?]
  cases (utf8Units none b).mapM id <;> cases (utf8Units none rest).mapM id <;> rfl

end DeadDrop.Text
