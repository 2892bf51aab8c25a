import DeadDrop.Http.Handler
import DeadDrop.Proofs.Text.Base64

/-!
# Fields in decoded form

A field may hold bytes, written as text in any of the four encodings, and is then shown as the text that
these bytes spell. The field does not say which encoding it is in, and need not: what several encodings
accept stands for the same bytes in all of them.
-/

namespace DeadDrop.Http

open Base64

theorem decodedText?_eq_some_iff {value : Value} {text : Text} :
    decodedText? value = some text ↔ ∃ (encoding : Encoding) (b : Bytes),
      value = .leaf (encoding.encode b) ∧ text = Text.ofUtf8Lossy b := by
  cases value with
  | node fields => simp [decodedText?]
  | leaf stored =>
    simp only [decodedText?, Option.map_eq_some_iff, decodeAny?_eq_some_iff, Value.leaf.injEq]
    constructor
    · rintro ⟨b, ⟨encoding, hstored⟩, rfl⟩
      exact ⟨encoding, b, hstored, rfl⟩
    · rintro ⟨encoding, b, hstored, rfl⟩
      exact ⟨b, ⟨encoding, hstored⟩, rfl⟩

/-- **Each text of bytes is decoded, and nothing else.** In all four encodings the text of a byte string
is shown as the text that the bytes spell, and a field that is shown is a leaf with the text of some
bytes in one of the encodings. Two encodings have no text in common but for the same bytes, so whichever
is tried first, the bytes are the same. -/
theorem base64_decoded_uniquely :
    (∀ (encoding : Encoding) (b : Bytes),
      decodedText? (.leaf (encoding.encode b)) = some (Text.ofUtf8Lossy b)) ∧
    (∀ value text, decodedText? value = some text → ∃ (encoding : Encoding) (b : Bytes),
      value = .leaf (encoding.encode b) ∧ text = Text.ofUtf8Lossy b) ∧
    (∀ (encoding other : Encoding) (b b' : Bytes), encoding.encode b = other.encode b' → b = b') ∧
    ∀ (order : List Encoding) (t : Text), (∀ encoding, encoding ∈ order) →
      order.findSome? (fun encoding => encoding.decode? t) = decodeAny? t := by
  refine ⟨fun encoding b => decodedText?_eq_some_iff.2 ⟨encoding, b, rfl, rfl⟩,
    fun value text => decodedText?_eq_some_iff.1, fun encoding other b b' h => ?_,
    fun order t hall => findSome?_decode?_eq_decodeAny? hall t⟩
  have hother := other.decode?_encode b'
  rw [← h] at hother
  exact Encoding.decode?_unique (encoding.decode?_encode b) hother

/-- Two bytes that spell no text, written with both letters in which the alphabets differ; and a text of
letters that the alphabets share. -/
theorem base64_decoded_uniquely_sample :
    decodedText? (.leaf "-_8".toList) = some "\uFFFD\uFFFD".toList ∧
    (∃ (encoding : Encoding) (b : Bytes), Value.leaf "-_8".toList = .leaf (encoding.encode b) ∧
      "\uFFFD\uFFFD".toList = Text.ofUtf8Lossy b) ∧
    (∀ b, Encoding.encode ⟨.urlSafe, true⟩ b = "aGVsbG8=".toList →
      b = [0x68, 0x65, 0x6C, 0x6C, 0x6F]) ∧
    encodings.reverse.findSome? (fun encoding => encoding.decode? "aGVsbG8=".toList) =
      decodeAny? "aGVsbG8=".toList := by
  obtain ⟨_, hshown, hunique, horder⟩ := base64_decoded_uniquely
  have hread : decodedText? (.leaf "-_8".toList) = some "\uFFFD\uFFFD".toList := by decide
  have hstandard : "aGVsbG8=".toList =
      Encoding.encode ⟨.standard, true⟩ [0x68, 0x65, 0x6C, 0x6C, 0x6F] := by decide
  exact ⟨hread, hshown _ _ hread, fun b h => hunique _ _ _ _ (h.trans hstandard),
    horder _ _ fun encoding => List.mem_reverse.2 (mem_encodings encoding)⟩

end DeadDrop.Http
