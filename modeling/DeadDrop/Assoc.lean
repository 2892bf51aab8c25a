import DeadDrop.Text

/-!
# Sorted association lists

A finite map is a list of pairs in strictly increasing order of their keys. Such a list is
determined by its look-ups (`Assoc.ext_of_get?`), so equality of maps is equality of lists, and the
order in which entries are shown is the order in which they are kept.

The functions on plain lists serve the nested mappings of records, whose type cannot carry a proof;
`Table` is a list together with the proof that it is sorted.
-/

namespace DeadDrop

/-! ### Keys -/

/-- Keys are strictly ordered, and of two different ones either comes first. -/
class KeyOrder (κ : Type) [LT κ] : Prop where
  irrefl : ∀ a : κ, ¬a < a
  trans : ∀ {a b c : κ}, a < b → b < c → a < c
  trichotomy : ∀ a b : κ, a < b ∨ a = b ∨ b < a

instance : KeyOrder Char where
  irrefl := Char.lt_irrefl
  trans := Char.lt_trans
  trichotomy _ _ := Std.lt_trichotomy ..

instance : KeyOrder Int where
  irrefl := Int.lt_irrefl
  trans := Int.lt_trans
  trichotomy := Int.lt_trichotomy

/-- Lists of keys are in the order of the first key in which they differ; what goes on comes after
what has ended. -/
instance {κ : Type} [LT κ] [KeyOrder κ] : KeyOrder (List κ) where
  irrefl l h := by
    induction l with
    | nil => exact List.not_lt_nil _ h
    | cons a l ih =>
      rcases List.cons_lt_cons_iff.1 h with h | ⟨_, h⟩
      · exact KeyOrder.irrefl a h
      · exact ih h
  trans {l m n} hlm hmn := by
    induction l generalizing m n with
    | nil =>
      cases n with
      | nil => exact absurd hmn (List.not_lt_nil _)
      | cons => exact List.nil_lt_cons _ _
    | cons a l ih =>
      cases m with
      | nil => exact absurd hlm (List.not_lt_nil _)
      | cons b m =>
        cases n with
        | nil => exact absurd hmn (List.not_lt_nil _)
        | cons c n =>
          rw [List.cons_lt_cons_iff] at hlm hmn ⊢
          rcases hlm with hab | ⟨rfl, hlm⟩
          · rcases hmn with hbc | ⟨rfl, _⟩
            · exact .inl (KeyOrder.trans hab hbc)
            · exact .inl hab
          · rcases hmn with hbc | ⟨rfl, hmn⟩
            · exact .inl hbc
            · exact .inr ⟨rfl, ih hlm hmn⟩
  trichotomy l m := by
    induction l generalizing m with
    | nil =>
      cases m with
      | nil => exact .inr (.inl rfl)
      | cons => exact .inl (List.nil_lt_cons _ _)
    | cons a l ih =>
      cases m with
      | nil => exact .inr (.inr (List.nil_lt_cons _ _))
      | cons b m =>
        simp only [List.cons_lt_cons_iff]
        rcases KeyOrder.trichotomy a b with h | rfl | h
        · exact .inl (.inl h)
        · rcases ih m with h | rfl | h
          · exact .inl (.inr ⟨rfl, h⟩)
          · exact .inr (.inl rfl)
          · exact .inr (.inr (.inr ⟨rfl, h⟩))
        · exact .inr (.inr (.inl h))

/-! ### Look-up and update of plain lists -/

namespace Assoc

variable {κ α : Type}

abbrev Sorted [LT κ] (entries : List (κ × α)) : Prop :=
  entries.Pairwise fun a b => a.1 < b.1

def get? [DecidableEq κ] (key : κ) : List (κ × α) → Option α
  | [] => none
  | (k, v) :: rest => if k = key then some v else get? key rest

/-- Keeps a value under a key, in place of any value kept there before. -/
def insert [LT κ] [DecidableLT κ] [DecidableEq κ] (key : κ) (value : α) :
    List (κ × α) → List (κ × α)
  | [] => [(key, value)]
  | (k, v) :: rest =>
    if key < k then (key, value) :: (k, v) :: rest
    else if key = k then (key, value) :: rest
    else (k, v) :: insert key value rest

section Lemmas

variable [DecidableEq κ]

theorem get?_eq_none_of_forall {key : κ} {entries : List (κ × α)}
    (h : ∀ entry ∈ entries, entry.1 ≠ key) : get? key entries = none := by
  induction entries with
  | nil => rfl
  | cons entry rest ih =>
    obtain ⟨k, v⟩ := entry
    have hk : k ≠ key := h (k, v) (by simp)
    simp only [get?, hk, if_false]
    exact ih fun e he => h e (by simp [he])

theorem mem_of_get?_eq_some {key : κ} {value : α} {entries : List (κ × α)}
    (h : get? key entries = some value) : (key, value) ∈ entries := by
  induction entries with
  | nil => simp [get?] at h
  | cons entry rest ih =>
    obtain ⟨k, v⟩ := entry
    by_cases hk : k = key
    · simp only [get?, hk, if_true, Option.some.injEq] at h
      simp [hk, h]
    · simp only [get?, hk, if_false] at h
      simp [ih h]

variable [LT κ] [DecidableLT κ]

@[simp]
theorem get?_insert_self (key : κ) (value : α) (entries : List (κ × α)) :
    get? key (insert key value entries) = some value := by
  induction entries with
  | nil => simp [insert, get?]
  | cons entry rest ih => grind [insert, get?]

theorem get?_insert_of_ne {key other : κ} (h : other ≠ key) (value : α) (entries : List (κ × α)) :
    get? other (insert key value entries) = get? other entries := by
  induction entries with
  | nil => grind [insert, get?]
  | cons entry rest ih => grind [insert, get?]

theorem get?_insert (key other : κ) (value : α) (entries : List (κ × α)) :
    get? other (insert key value entries) =
      if other = key then some value else get? other entries := by
  by_cases h : other = key
  · simp [h]
  · simp [h, get?_insert_of_ne h]

theorem mem_insert {key : κ} {value : α} {entry : κ × α} {entries : List (κ × α)}
    (h : entry ∈ insert key value entries) : entry = (key, value) ∨ entry ∈ entries := by
  induction entries with
  | nil => simpa [insert] using h
  | cons first rest ih => grind [insert]

end Lemmas

section Order

variable [LT κ] [KeyOrder κ]

theorem sorted_insert [DecidableLT κ] [DecidableEq κ] (key : κ) (value : α)
    {entries : List (κ × α)} (h : Sorted entries) : Sorted (insert key value entries) := by
  induction entries with
  | nil => simp [insert]
  | cons first rest ih =>
    obtain ⟨k, v⟩ := first
    have hrest : Sorted rest := h.of_cons
    have hfirst : ∀ e ∈ rest, k < e.1 := fun e he => List.rel_of_pairwise_cons h he
    by_cases hlt : key < k
    · simp only [insert, hlt, if_true]
      refine List.Pairwise.cons ?_ h
      intro e he
      rcases List.mem_cons.1 he with rfl | he
      · exact hlt
      · exact KeyOrder.trans hlt (hfirst e he)
    · by_cases heq : key = k
      · subst heq
        simp only [insert, hlt, if_false, if_true]
        exact List.Pairwise.cons (fun e he => hfirst e he) hrest
      · simp only [insert, hlt, if_false, heq]
        refine List.Pairwise.cons ?_ (ih hrest)
        intro e he
        rcases mem_insert he with rfl | he
        · rcases KeyOrder.trichotomy k key with hkk | hkk | hkk
          · exact hkk
          · exact absurd hkk.symm heq
          · exact absurd hkk hlt
        · exact hfirst e he

theorem get?_eq_some_iff [DecidableEq κ] {key : κ} {value : α} {entries : List (κ × α)}
    (h : Sorted entries) : get? key entries = some value ↔ (key, value) ∈ entries := by
  refine ⟨mem_of_get?_eq_some, fun hmem => ?_⟩
  induction entries with
  | nil => simp at hmem
  | cons first rest ih =>
    obtain ⟨k, v⟩ := first
    rcases List.mem_cons.1 hmem with heq | hmem
    · obtain ⟨rfl, rfl⟩ := Prod.mk.injEq .. |>.mp heq
      simp [get?]
    · have hlt : k < key := List.rel_of_pairwise_cons h hmem
      have hne : k ≠ key := fun e => KeyOrder.irrefl key (e ▸ hlt)
      simp only [get?, hne, if_false]
      exact ih h.of_cons hmem

theorem ext_of_get? [DecidableEq κ] {l m : List (κ × α)} (hl : Sorted l) (hm : Sorted m)
    (h : ∀ key, get? key l = get? key m) : l = m := by
  induction l generalizing m with
  | nil =>
    cases m with
    | nil => rfl
    | cons b _ => simpa [get?] using h b.1
  | cons a l ih =>
    cases m with
    | nil => simpa [get?] using h a.1
    | cons b m =>
      have key_eq : a.1 = b.1 := by
        have ha : (a.1, a.2) ∈ b :: m :=
          (get?_eq_some_iff hm).1 (by rw [← h a.1]; simp [get?])
        have hb : (b.1, b.2) ∈ a :: l :=
          (get?_eq_some_iff hl).1 (by rw [h b.1]; simp [get?])
        rcases List.mem_cons.1 ha with ha | ha
        · exact congrArg Prod.fst ha
        · rcases List.mem_cons.1 hb with hb | hb
          · exact (congrArg Prod.fst hb).symm
          · have h1 : b.1 < a.1 := List.rel_of_pairwise_cons hm ha
            have h2 : a.1 < b.1 := List.rel_of_pairwise_cons hl hb
            exact absurd (KeyOrder.trans h1 h2) (KeyOrder.irrefl _)
      have value_eq : a.2 = b.2 := by
        have := h a.1
        simpa [get?, key_eq] using this
      have first_eq : a = b := Prod.ext key_eq value_eq
      subst first_eq
      congr 1
      refine ih hl.of_cons hm.of_cons fun key => ?_
      by_cases hk : a.1 = key
      · subst hk
        have absent : ∀ {n : List (κ × α)}, Sorted (a :: n) → get? a.1 n = none := by
          intro n hn
          refine get?_eq_none_of_forall fun e he heq => ?_
          have hlt : a.1 < e.1 := List.rel_of_pairwise_cons hn he
          rw [heq] at hlt
          exact KeyOrder.irrefl _ hlt
        rw [absent hl, absent hm]
      · simpa [get?, hk] using h key

end Order

end Assoc

/-! ### Tables -/

/-- A finite map, as a list of entries in strictly increasing order of their keys. -/
@[ext]
structure Table (κ α : Type) [LT κ] where
  entries : List (κ × α)
  sorted : Assoc.Sorted entries

namespace Table

variable {κ α : Type} [LT κ]

def empty : Table κ α := ⟨[], List.Pairwise.nil⟩

def size (t : Table κ α) : Nat := t.entries.length

def filter (keep : κ → α → Bool) (t : Table κ α) : Table κ α :=
  ⟨t.entries.filter fun e => keep e.1 e.2, List.Pairwise.filter _ t.sorted⟩

def get? [DecidableEq κ] (t : Table κ α) (key : κ) : Option α := Assoc.get? key t.entries

def erase [DecidableEq κ] (t : Table κ α) (key : κ) : Table κ α :=
  t.filter fun k _ => !decide (k = key)

def contains [DecidableEq κ] (t : Table κ α) (key : κ) : Bool := (t.get? key).isSome

variable [DecidableLT κ] [DecidableEq κ] [KeyOrder κ]

/-- Keeps a value under a key, in place of any value kept there before. -/
def insert (t : Table κ α) (key : κ) (value : α) : Table κ α :=
  ⟨Assoc.insert key value t.entries, Assoc.sorted_insert key value t.sorted⟩

theorem get?_insert (t : Table κ α) (key other : κ) (value : α) :
    (t.insert key value).get? other = if other = key then some value else t.get? other :=
  Assoc.get?_insert key other value t.entries

omit [DecidableLT κ] in
theorem get?_eq_some_iff (t : Table κ α) {key : κ} {value : α} :
    t.get? key = some value ↔ (key, value) ∈ t.entries :=
  Assoc.get?_eq_some_iff t.sorted

omit [DecidableLT κ] in
theorem ext_of_get? {s t : Table κ α} (h : ∀ key, s.get? key = t.get? key) : s = t :=
  Table.ext (Assoc.ext_of_get? s.sorted t.sorted h)

omit [DecidableLT κ] in
theorem get?_filter (t : Table κ α) (keep : κ → α → Bool) (key : κ) :
    (t.filter keep).get? key = (t.get? key).filter (keep key) := by
  apply Option.ext
  intro value
  rw [Option.filter_eq_some_iff, get?_eq_some_iff, get?_eq_some_iff]
  simp [filter, List.mem_filter]

omit [DecidableLT κ] in
theorem get?_erase (t : Table κ α) (key other : κ) :
    (t.erase key).get? other = if other = key then none else t.get? other := by
  rw [erase, get?_filter]
  by_cases h : other = key
  · simp [h]
  · cases t.get? other <;> simp [h]

end Table

end DeadDrop
