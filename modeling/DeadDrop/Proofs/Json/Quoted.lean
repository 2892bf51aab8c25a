import DeadDrop.Json.Quoted
import DeadDrop.Proofs.Json.Grammar
import Mathlib.Tactic.SplitIfs

/-!
# Quoted texts are strings

A quoted text spells the text itself (`stringSpelled_quote`): inside of the quotation marks every
character is spelled, whether it is escaped or not.
-/

namespace DeadDrop.Json

/-- The code of a character below U+0100. -/
theorem codeSpelled_byte {n : Nat} (h : n < 256) :
    CodeSpelled n ['0', '0', Nat.digitChar (n / 16), Nat.digitChar (n % 16)] := by
  have hdigit : ∀ {digit : Nat}, digit < 16 → HexDigit digit.digitChar digit :=
    fun hdigit => ⟨hdigit, .inl rfl⟩
  have hzero : HexDigit '0' 0 := hdigit (by decide)
  have hhigh : HexDigit (Nat.digitChar (n / 16)) (n / 16) := hdigit (by omega)
  have hlow : HexDigit (Nat.digitChar (n % 16)) (n % 16) := hdigit (by omega)
  exact ⟨0, 0, n / 16, n % 16, .cons hzero (.cons hzero (.cons hhigh (.cons hlow .nil))), by omega⟩

theorem charSpelled_escapeChar (c : Char) : CharSpelled c (escapeChar c) := by
  unfold escapeChar
  split_ifs with hquote hsolidus hb hf hn hr ht hcontrol
  · subst hquote; exact .letter (by decide)
  · subst hsolidus; exact .letter (by decide)
  · subst hb; exact .letter (by decide)
  · subst hf; exact .letter (by decide)
  · subst hn; exact .letter (by decide)
  · subst hr; exact .letter (by decide)
  · subst ht; exact .letter (by decide)
  · have hbyte : (UInt8.ofNat c.toNat).toNat = c.toNat := by
      simpa using Nat.mod_eq_of_lt (by omega : c.toNat < 256)
    have hcode := CharSpelled.code (codeSpelled_byte (by omega : c.toNat < 256))
    simpa [Hex.ofByte, hbyte] using hcode
  · exact .plain (Nat.le_of_not_lt hcontrol) hquote hsolidus

theorem charsSpelled_flatMap (t : Text) : CharsSpelled t (t.flatMap escapeChar) := by
  induction t with
  | nil => rfl
  | cons c t ih => exact ⟨escapeChar c, t.flatMap escapeChar, charSpelled_escapeChar c, ih, by simp⟩

theorem stringSpelled_quote (t : Text) : StringSpelled t (quote t) :=
  ⟨t.flatMap escapeChar, charsSpelled_flatMap t, rfl⟩

end DeadDrop.Json
