import DeadDrop.Proofs.Text.Split
import DeadDrop.Text.Base64

/-!
# One text for all bytes in each encoding

A byte string has one text in each of the four encodings, and an encoding accepts these texts and no
others (`Encoding.decode?_eq_some_iff`): letters and their values correspond one to one, and so do byte
strings and the sequences of values whose spare bits are zero.

Some texts are accepted by several encodings. This does no harm, because a letter that both alphabets
have is worth the same in both (`Alphabet.digit?_unique`), and padding tells no more than where the
letters end. So a text stands for the same bytes in all encodings that accept it, and the order in which
they are tried does not matter (`findSome?_decode?_eq_some_iff`).
-/

namespace DeadDrop.Base64

/-! ### Letters -/

namespace Alphabet

variable {alphabet other : Alphabet} {c : Char} {value value' : Nat} {letters : Text}
  {values values' : List Nat}

theorem digit?_letter (alphabet : Alphabet) :
    ∀ value < 64, alphabet.digit? (alphabet.letter value) = some value := by
  cases alphabet <;> decide

theorem letter_ne_pad (alphabet : Alphabet) : ∀ value < 64, alphabet.letter value ≠ '=' := by
  cases alphabet <;> decide

theorem letter_of_digit? (h : alphabet.digit? c = some value) :
    value < 64 ∧ alphabet.letter value = c := by
  unfold digit? at h
  unfold letter
  split at h
  next hupper =>
    have hc : 'A'.toNat ≤ c.toNat ∧ c.toNat ≤ 'A'.toNat + 25 := hupper
    obtain rfl : c.toNat - 'A'.toNat = value := Option.some.inj h
    have hback : 'A'.toNat + (c.toNat - 'A'.toNat) = c.toNat := by omega
    exact ⟨by omega, by rw [if_pos (by omega), hback, Char.ofNat_toNat]⟩
  next =>
  split at h
  next hlower =>
    have hc : 'a'.toNat ≤ c.toNat ∧ c.toNat ≤ 'a'.toNat + 25 := hlower
    obtain rfl : c.toNat - 'a'.toNat + 26 = value := Option.some.inj h
    have hback : 'a'.toNat + (c.toNat - 'a'.toNat + 26 - 26) = c.toNat := by omega
    exact ⟨by omega, by rw [if_neg (by omega), if_pos (by omega), hback, Char.ofNat_toNat]⟩
  next =>
  split at h
  next hnumber =>
    have hc : '0'.toNat ≤ c.toNat ∧ c.toNat ≤ '0'.toNat + 9 := hnumber
    obtain rfl : c.toNat - '0'.toNat + 52 = value := Option.some.inj h
    have hback : '0'.toNat + (c.toNat - '0'.toNat + 52 - 52) = c.toNat := by omega
    exact ⟨by omega, by
      rw [if_neg (by omega), if_neg (by omega), if_pos (by omega), hback, Char.ofNat_toNat]⟩
  -- the two letters that the alphabets do not share
  next => cases alphabet <;> grind

/-- A letter of two alphabets has the same value in both. -/
theorem digit?_unique (h : alphabet.digit? c = some value) (h' : other.digit? c = some value') :
    value = value' := by
  unfold digit? at h h'
  cases alphabet <;> cases other <;> grind

theorem mapM_digit?_eq_some_iff :
    letters.mapM alphabet.digit? = some values ↔
      (∀ value ∈ values, value < 64) ∧ letters = values.map alphabet.letter := by
  rw [mapM_eq_some_iff]
  constructor
  · intro h
    induction h with
    | nil => simp
    | cons hletter _ ih =>
      obtain ⟨hvalue, rfl⟩ := letter_of_digit? hletter
      exact ⟨List.forall_mem_cons.2 ⟨hvalue, ih.1⟩, congrArg _ ih.2⟩
  · rintro ⟨hvalues, rfl⟩
    exact List.forall₂_map_left_iff.2 (List.forall₂_same.2 fun value hvalue =>
      alphabet.digit?_letter value (hvalues value hvalue))

theorem mapM_digit?_unique (h : letters.mapM alphabet.digit? = some values)
    (h' : letters.mapM other.digit? = some values') : values = values' := by
  rw [mapM_eq_some_iff] at h h'
  induction h generalizing values' with
  | nil =>
    cases h'
    rfl
  | cons hletter _ ih =>
    cases h' with
    | cons hletter' hrest => rw [digit?_unique hletter hletter', ih hrest]

end Alphabet

/-! ### Values -/

theorem byte_of_toNat {x : UInt8} {n : Nat} (h : x.toNat = n) : UInt8.ofNat n = x := by
  rw [← h, UInt8.ofNat_toNat]

theorem lt_of_mem_toDigits (b : Bytes) : ∀ value ∈ toDigits b, value < 64 := by
  fun_induction toDigits b with
  | case1 => simp
  | case2 x =>
    have hx := x.toNat_lt
    simp only [List.forall_mem_cons]
    exact ⟨by omega, by omega, by simp⟩
  | case3 x y =>
    have hx := x.toNat_lt
    have hy := y.toNat_lt
    simp only [List.forall_mem_cons]
    exact ⟨by omega, by omega, by omega, by simp⟩
  | case4 x y z rest ih =>
    have hx := x.toNat_lt
    have hy := y.toNat_lt
    have hz := z.toNat_lt
    simp only [List.forall_mem_cons]
    exact ⟨by omega, by omega, by omega, by omega, ih⟩

theorem ofDigits?_toDigits (b : Bytes) : ofDigits? (toDigits b) = some b := by
  fun_induction toDigits b with
  | case1 => rfl
  | case2 x =>
    have hx := x.toNat_lt
    rw [ofDigits?, if_pos (by omega), byte_of_toNat (x := x) (by omega)]
  | case3 x y =>
    have hx := x.toNat_lt
    have hy := y.toNat_lt
    rw [ofDigits?, if_pos (by omega), byte_of_toNat (x := x) (by omega),
      byte_of_toNat (x := y) (by omega)]
  | case4 x y z rest ih =>
    have hx := x.toNat_lt
    have hy := y.toNat_lt
    have hz := z.toNat_lt
    rw [ofDigits?, ih, byte_of_toNat (x := x) (by omega), byte_of_toNat (x := y) (by omega),
      byte_of_toNat (x := z) (by omega)]
    rfl

/-- Values below 64 are read only if they are those of the bytes that are read. -/
theorem toDigits_of_ofDigits? {values : List Nat} (hvalues : ∀ value ∈ values, value < 64)
    {b : Bytes} (h : ofDigits? values = some b) : toDigits b = values := by
  fun_induction ofDigits? values generalizing b with
  | case1 =>
    cases h
    rfl
  | case2 => cases h
  | case3 v w hspare =>
    cases h
    simp only [List.forall_mem_cons] at hvalues
    simp [toDigits]
    omega
  | case4 => cases h
  | case5 v w x hspare =>
    cases h
    simp only [List.forall_mem_cons] at hvalues
    simp [toDigits]
    omega
  | case6 => cases h
  | case7 v w x y rest ih =>
    simp only [List.forall_mem_cons] at hvalues
    obtain ⟨bytes, hbytes, rfl⟩ := Option.map_eq_some_iff.1 h
    rw [toDigits, ih hvalues.2.2.2.2 hbytes]
    simp
    omega

/-! ### Encodings -/

/-- What stands in front of the padding. -/
def unpadded (t : Text) : Text := t.takeWhile fun c => decide (c ≠ '=')

namespace Encoding

variable {encoding other : Encoding} {t : Text} {b b' : Bytes}

def pad (encoding : Encoding) (letters : Text) : Text :=
  letters ++ if encoding.padded then padding letters.length else []

theorem unpadded_pad (encoding : Encoding) {letters : Text} (h : ∀ c ∈ letters, c ≠ '=') :
    unpadded (encoding.pad letters) = letters := by
  have hletters : ∀ c ∈ letters, decide (c ≠ '=') = true := fun c hc => decide_eq_true (h c hc)
  have hpads : ∀ n, (List.replicate n '=').takeWhile (fun c => decide (c ≠ '=')) = [] := by
    intro n
    cases n <;> simp [List.replicate_succ]
  rw [unpadded, pad, List.takeWhile_append_of_pos hletters]
  split
  · rw [padding, hpads, List.append_nil]
  · exact List.append_nil _

theorem decode?_eq_some_iff_digits :
    encoding.decode? t = some b ↔ t = encoding.pad (unpadded t) ∧
      ∃ values, (unpadded t).mapM encoding.alphabet.digit? = some values ∧
        ofDigits? values = some b := by
  have hdecode : encoding.decode? t = if t = encoding.pad (unpadded t) then
      ((unpadded t).mapM encoding.alphabet.digit?).bind ofDigits? else none := rfl
  rw [hdecode]
  split
  next htext => rw [Option.bind_eq_some_iff, and_iff_right htext]
  next htext => exact iff_of_false (by simp) fun h => htext h.1

/-- An encoding accepts the texts of byte strings, and no others. -/
theorem decode?_eq_some_iff : encoding.decode? t = some b ↔ t = encoding.encode b := by
  have hencode : encoding.encode b = encoding.pad ((toDigits b).map encoding.alphabet.letter) := rfl
  rw [decode?_eq_some_iff_digits]
  constructor
  · rintro ⟨htext, values, hdigits, hbytes⟩
    obtain ⟨hvalues, hletters⟩ := Alphabet.mapM_digit?_eq_some_iff.1 hdigits
    rw [htext, hletters, ← toDigits_of_ofDigits? hvalues hbytes, hencode]
  · rintro rfl
    have hunpadded : unpadded (encoding.encode b) =
        (toDigits b).map encoding.alphabet.letter := by
      refine encoding.unpadded_pad fun c hc => ?_
      obtain ⟨value, hvalue, rfl⟩ := List.mem_map.1 hc
      exact encoding.alphabet.letter_ne_pad value (lt_of_mem_toDigits b value hvalue)
    rw [hunpadded]
    exact ⟨hencode, toDigits b, Alphabet.mapM_digit?_eq_some_iff.2 ⟨lt_of_mem_toDigits b, rfl⟩,
      ofDigits?_toDigits b⟩

theorem decode?_encode (encoding : Encoding) (b : Bytes) :
    encoding.decode? (encoding.encode b) = some b :=
  decode?_eq_some_iff.2 rfl

/-- A text stands for the same bytes in all encodings that accept it. -/
theorem decode?_unique (h : encoding.decode? t = some b) (h' : other.decode? t = some b') :
    b = b' := by
  obtain ⟨_, values, hdigits, hbytes⟩ := decode?_eq_some_iff_digits.1 h
  obtain ⟨_, values', hdigits', hbytes'⟩ := decode?_eq_some_iff_digits.1 h'
  rw [Alphabet.mapM_digit?_unique hdigits hdigits'] at hbytes
  exact Option.some.inj (hbytes.symm.trans hbytes')

end Encoding

/-! ### Trying one after the other -/

theorem mem_encodings (encoding : Encoding) : encoding ∈ encodings := by
  obtain ⟨alphabet, padded⟩ := encoding
  cases alphabet <;> cases padded <;> decide

/-- The first encoding that accepts a text need not be the one in which it was written, but it gives
the same bytes. -/
theorem findSome?_decode?_eq_some_iff {order : List Encoding}
    (hall : ∀ encoding, encoding ∈ order) {t : Text} {b : Bytes} :
    order.findSome? (fun encoding => encoding.decode? t) = some b ↔
      ∃ encoding : Encoding, t = encoding.encode b := by
  constructor
  · intro h
    obtain ⟨encoding, _, hdecode⟩ := List.exists_of_findSome?_eq_some h
    exact ⟨encoding, Encoding.decode?_eq_some_iff.1 hdecode⟩
  · rintro ⟨encoding, rfl⟩
    have hsome : (order.findSome? fun e => e.decode? (encoding.encode b)).isSome := by
      rw [List.findSome?_isSome_iff]
      exact ⟨encoding, hall encoding, by rw [Encoding.decode?_encode]; rfl⟩
    obtain ⟨found, hfound⟩ := Option.isSome_iff_exists.1 hsome
    obtain ⟨first, _, hfirst⟩ := List.exists_of_findSome?_eq_some hfound
    rw [hfound, Encoding.decode?_unique hfirst (encoding.decode?_encode b)]

theorem decodeAny?_eq_some_iff {t : Text} {b : Bytes} :
    decodeAny? t = some b ↔ ∃ encoding : Encoding, t = encoding.encode b :=
  findSome?_decode?_eq_some_iff mem_encodings

theorem findSome?_decode?_eq_decodeAny? {order : List Encoding}
    (hall : ∀ encoding, encoding ∈ order) (t : Text) :
    order.findSome? (fun encoding => encoding.decode? t) = decodeAny? t := by
  refine Option.ext fun b => ?_
  rw [findSome?_decode?_eq_some_iff hall, decodeAny?_eq_some_iff]

end DeadDrop.Base64
