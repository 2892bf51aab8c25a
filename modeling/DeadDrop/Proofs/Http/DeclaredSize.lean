import DeadDrop.Proofs.Http.Accounting
import DeadDrop.Proofs.Text.Numeral
import DeadDrop.Proofs.Text.Split

/-!
# Declared sizes

A request declares a size if the first of its headers for that is a numeral, of any length and with
any zeros in front. The size is read into 64 bits, and what does not fit into them is read as no
declaration at all. So a request is refused for its size exactly if it declares more than is allowed
and less than `2 ^ 64` (`refused_iff_declared_too_much`), and whatever else it declares, it goes on
to the limiter as if it had declared nothing.
-/

namespace DeadDrop.Http

open DeadDrop.Action

variable {σ : Type}

/-! ### Numerals in a header -/

/-- The number that octets denote as decimal digits. -/
def decimalOf (value : Bytes) : Nat :=
  value.foldl (fun n octet => 10 * n + (octet.toNat - 48)) 0

/-- A header value that is a numeral: octets `0` to `9`, at least one of them. -/
structure Denotes (value : Bytes) (n : Nat) : Prop where
  ne_nil : value ≠ []
  digits : ∀ octet ∈ value, 48 ≤ octet ∧ octet ≤ 57
  number : decimalOf value = n

/-- The request declares a size in the first header that is there for it. -/
def Request.Declares (request : Request) (n : Nat) : Prop :=
  ∃ header, request.headers.find? (fun header => decide (header.name = "content-length".toList)) =
    some header ∧ Denotes header.value n

theorem toNat_ofNat_octet (octet : UInt8) : (Char.ofNat octet.toNat).toNat = octet.toNat := by
  have hoctet := octet.toNat_lt
  exact Text.toNat_ofNat (by omega)

namespace Denotes

variable {value : Bytes} {n : Nat}

theorem isDigit (h : Denotes value n) :
    ∀ c ∈ value.map fun octet => Char.ofNat octet.toNat, c.isDigit = true := by
  intro c hc
  obtain ⟨octet, hmem, rfl⟩ := List.mem_map.1 hc
  obtain ⟨hlow, hhigh⟩ := h.digits octet hmem
  rw [Char.isDigit_iff_toNat, toNat_ofNat_octet]
  exact ⟨hlow, hhigh⟩

theorem text? {header : Header} (h : Denotes header.value n) :
    header.text? = some (header.value.map fun octet => Char.ofNat octet.toNat) := by
  have hvisible : header.value.all Header.isVisible = true := by
    refine List.all_eq_true.2 fun octet hmem => ?_
    obtain ⟨hlow, hhigh⟩ := h.digits octet hmem
    have hprintable : 32 ≤ octet ∧ octet < 127 := by grind
    simp [Header.isVisible, hprintable]
  exact if_pos hvisible

theorem toNat? (h : Denotes value n) :
    Text.toNat? (value.map fun octet => Char.ofNat octet.toNat) = some n := by
  rw [Text.toNat?_of_digits (by simpa using h.ne_nil) h.isDigit, ← h.number, Nat.ofDigitChars,
    List.foldl_map, decimalOf]
  simp only [toNat_ofNat_octet]
  rfl

/-- A numeral has no sign, and it is read if its number fits. -/
theorem declaredSize? (h : Denotes value n) :
    Http.declaredSize? (value.map fun octet => Char.ofNat octet.toNat) =
      if n < UInt64.size then some n else none := by
  have hunsigned : '+' ∉ value.map fun octet => Char.ofNat octet.toNat :=
    fun hmem => absurd (h.isDigit _ hmem) (by decide)
  rw [Http.declaredSize?, Text.withoutStart_of_not_mem (List.mem_singleton_self _) hunsigned,
    h.toNat?]

end Denotes

/-! ### Refusal -/

section Refusal

variable {request : Request} {n : Nat}

theorem Request.Declares.size? (h : request.Declares n) :
    request.size? = if n < UInt64.size then some n else none := by
  obtain ⟨header, hfirst, hdenotes⟩ := h
  rw [Request.size?, Request.headerText?, hfirst, Option.bind_some, hdenotes.text?,
    Option.bind_some, hdenotes.declaredSize?]

theorem Request.Declares.oversize?_of_tooMuch {max : Nat} (h : request.Declares n)
    (hlarge : max < n) (hfits : n < UInt64.size) : request.oversize? max = some n := by
  rw [Request.oversize?, h.size?, if_pos hfits]
  exact Option.filter_eq_some_iff.2 ⟨rfl, decide_eq_true hlarge⟩

theorem Request.Declares.oversize?_of_not {max : Nat} (h : request.Declares n)
    (hnot : ¬ (max < n ∧ n < UInt64.size)) : request.oversize? max = none := by
  rw [Request.oversize?, h.size?]
  by_cases hfits : n < UInt64.size
  · rw [if_pos hfits]
    have hwithin : ¬ max < n := fun hlarge => hnot ⟨hlarge, hfits⟩
    simp [Option.filter_some, hwithin]
  · rw [if_neg hfits]
    rfl

end Refusal

variable [Backend σ] {clock : Clock} {random : Bytes} {request : Request} {s : Site σ}

/-- No layer but the one that looks at the size, and no route, answers that the request is too
large. -/
theorem limited_tooLarge_iff (hmethod : request.method ≠ .options) :
    (∃ response, (limited clock random request s).1 = .ok response ∧ response.status = 413) ↔
      (request.oversize? s.maxRequestSize).isSome = true := by
  cases hoversize : request.oversize? s.maxRequestSize with
  | some size =>
    rw [limited, limitSize_of_oversize hoversize]
    exact iff_of_true ⟨_, rfl, rfl⟩ rfl
  | none =>
    refine iff_of_false ?_ (by simp)
    rintro ⟨response, hresponse, hstatus⟩
    have hends := limited_ends clock random hmethod s
    rcases hlimited : limited clock random request s with ⟨outcome, s'⟩
    rw [hlimited] at hends hresponse
    obtain rfl : outcome = .ok response := hresponse
    cases hends with
    | tooLarge oversize => simp [hoversize] at oversize
    | denied asker deny status => simp [hstatus] at status
    | admitted allow notTooLarge => exact notTooLarge hstatus

/-- An error is answered exactly if it comes from within and can be counted. -/
theorem answer_error_iff (hmethod : request.method ≠ .options) {status : Nat}
    (hstatus : 400 ≤ status) :
    (∃ response, (answer clock random request s).1 = .ok response ∧ response.status = status) ↔
      (∃ response, (limited clock random request s).1 = .ok response ∧
        response.status = status) ∧ clock.moment?.isSome = true := by
  rcases hlimited : limited clock random request s with ⟨outcome, s'⟩
  cases outcome with
  | ok reply =>
    obtain ⟨dressed, hdressed, hanswer⟩ := answer_of_limited hmethod hlimited
    rw [hanswer, settle_error_iff hstatus, hdressed]
    simp
  | error e => exact e.elim
  | abort =>
    rw [answer_of_limited_abort hmethod hlimited]
    simp

/-- **Which declared sizes are refused.** A request that declares a size is refused for it exactly
if the size is more than is allowed and fits into 64 bits, and it costs no token then. In every
other case it goes on to the limiter. -/
theorem refused_iff_declared_too_much (clock : Clock) (random : Bytes) {request : Request}
    {n : Nat} (hmethod : request.method ≠ .options) (hdeclares : request.Declares n)
    (s : Site σ) :
    let tooMuch := s.maxRequestSize < n ∧ n < UInt64.size
    ((∃ response, (limited clock random request s).1 = .ok response ∧ response.status = 413) ↔
      tooMuch) ∧
    ((∃ response, (answer clock random request s).1 = .ok response ∧ response.status = 413) ↔
      tooMuch ∧ clock.moment?.isSome = true) ∧
    (tooMuch → (answer clock random request s).2.limiter = s.limiter) ∧
    (¬ tooMuch →
      limited clock random request s = limitRate clock (dispatch clock random) request s) := by
  intro tooMuch
  have hrefused : (request.oversize? s.maxRequestSize).isSome = true ↔ tooMuch := by
    by_cases h : tooMuch
    · rw [hdeclares.oversize?_of_tooMuch h.1 h.2]
      exact iff_of_true rfl h
    · rw [hdeclares.oversize?_of_not h]
      exact iff_of_false (by simp) h
  have hlimited : (∃ response, (limited clock random request s).1 = .ok response ∧
      response.status = 413) ↔ tooMuch := (limited_tooLarge_iff hmethod).trans hrefused
  refine ⟨hlimited, ?_, ?_, ?_⟩
  · rw [answer_error_iff hmethod (by decide), hlimited]
  · rintro ⟨hlarge, hfits⟩
    have hasker : request.asker? s.maxRequestSize = none :=
      asker?_of_oversize (hdeclares.oversize?_of_tooMuch hlarge hfits)
    rw [(answered clock random request s).limiter, hasker, admission]
  · intro hnot
    rw [limited, limitSize_of_within (hdeclares.oversize?_of_not hnot)]

/-! ### Samples -/

/-- A check that declares a size. -/
def declaring (digits : String) : Request :=
  { healthCheck with headers := [⟨"content-length".toList, Text.toUtf8 digits.toList⟩] }

theorem refused_iff_declared_too_much_sample :
    let clock : Clock := ⟨sampleWall, 0⟩
    let request := declaring "00000000000000000000010241"
    (request.method ≠ .options ∧ request.Declares 10241) ∧
      (∃ response, (answer clock [] request sampleSite).1 = .ok response ∧
        response.status = 413) ∧
      (answer clock [] request sampleSite).2.limiter = sampleSite.limiter := by
  intro clock request
  have hmethod : request.method ≠ .options := by decide
  have hdeclares : request.Declares 10241 :=
    ⟨_, rfl, List.cons_ne_nil _ _, by decide +kernel, rfl⟩
  obtain ⟨-, hanswer, hlimiter, -⟩ :=
    refused_iff_declared_too_much clock [] hmethod hdeclares sampleSite
  exact ⟨⟨hmethod, hdeclares⟩, hanswer.2 ⟨by decide, by decide⟩, hlimiter ⟨by decide, by decide⟩⟩

/-- The least number that does not fit into 64 bits is allowed, however little may be sent. -/
theorem served_although_declared_too_much :
    let clock : Clock := ⟨sampleWall, 0⟩
    let request := declaring "18446744073709551616"
    (request.method ≠ .options ∧ request.Declares 18446744073709551616) ∧
      sampleSite.maxRequestSize < 18446744073709551616 ∧
      ¬ ∃ response, (answer clock [] request sampleSite).1 = .ok response ∧
        response.status = 413 := by
  intro clock request
  have hdeclares : request.Declares 18446744073709551616 :=
    ⟨_, rfl, List.cons_ne_nil _ _, by decide +kernel, rfl⟩
  refine ⟨⟨by decide, hdeclares⟩, by decide, ?_⟩
  rintro ⟨response, hanswer, hstatus⟩
  have hserved : (answer clock [] request sampleSite).1.map Response.status = .ok 200 := by
    decide +kernel
  rw [hanswer] at hserved
  exact absurd ((Outcome.ok.inj hserved).symm.trans hstatus) (by decide)

end DeadDrop.Http
