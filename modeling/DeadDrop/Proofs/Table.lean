import DeadDrop.Assoc
import Mathlib.Data.List.Forall2
import Mathlib.Data.Set.Card

/-!
# Tables side by side

Two tables match if they have the same keys and related values under them. Every operation keeps
matching tables matching, so two stores that hold the same entries in different forms can be
followed side by side, and they also count the same entries.
-/

namespace DeadDrop

namespace Assoc

variable {κ α β : Type} {R : α → β → Prop}

/-- The same keys in the same order, and related values under them. -/
def Matches (R : α → β → Prop) : List (κ × α) → List (κ × β) → Prop :=
  List.Forall₂ fun a b => a.1 = b.1 ∧ R a.2 b.2

theorem Matches.filter {l : List (κ × α)} {m : List (κ × β)} (h : Matches R l m)
    {keep : κ × α → Bool} {keep' : κ × β → Bool}
    (hkeep : ∀ key a b, R a b → keep (key, a) = keep' (key, b)) :
    Matches R (l.filter keep) (m.filter keep') := by
  induction h with
  | nil => exact List.Forall₂.nil
  | @cons a b _ _ hab _ ih =>
    obtain ⟨key, x⟩ := a
    obtain ⟨key', y⟩ := b
    obtain ⟨rfl, hxy⟩ := hab
    rw [List.filter_cons, List.filter_cons, hkeep key x y hxy]
    split
    · exact List.Forall₂.cons ⟨rfl, hxy⟩ ih
    · exact ih

variable [DecidableEq κ]

theorem Matches.get?_cases {l : List (κ × α)} {m : List (κ × β)} (h : Matches R l m) (key : κ) :
    get? key l = none ∧ get? key m = none ∨
      ∃ a b, get? key l = some a ∧ get? key m = some b ∧ R a b := by
  induction h with
  | nil => exact .inl ⟨rfl, rfl⟩
  | @cons a b _ _ hab _ ih =>
    obtain ⟨k, x⟩ := a
    obtain ⟨k', y⟩ := b
    obtain ⟨rfl, hxy⟩ := hab
    by_cases hk : k = key
    · exact .inr ⟨x, y, by simp [Assoc.get?, hk], by simp [Assoc.get?, hk], hxy⟩
    · simpa [Assoc.get?, hk] using ih

/-- If a key has one entry at most, that is the one that is found. -/
theorem get?_eq_some_iff_of_nodup {entries : List (κ × α)} (h : (entries.map Prod.fst).Nodup)
    {key : κ} {value : α} : get? key entries = some value ↔ (key, value) ∈ entries := by
  refine ⟨mem_of_get?_eq_some, fun hmem => ?_⟩
  induction entries with
  | nil => simp at hmem
  | cons entry rest ih =>
    obtain ⟨k, v⟩ := entry
    rw [List.map_cons, List.nodup_cons] at h
    rcases List.mem_cons.1 hmem with heq | hrest
    · simp [get?, (Prod.mk.inj heq).1, (Prod.mk.inj heq).2]
    · have hk : k ≠ key := by
        rintro rfl
        exact h.1 (List.mem_map.2 ⟨(k, value), hrest, rfl⟩)
      simp only [get?, if_neg hk]
      exact ih h.2 hrest

variable [LT κ] [DecidableLT κ]

theorem Matches.insert {l : List (κ × α)} {m : List (κ × β)} (h : Matches R l m) (key : κ) {a : α}
    {b : β} (hab : R a b) : Matches R (insert key a l) (insert key b m) := by
  induction h with
  | nil => exact List.Forall₂.cons ⟨rfl, hab⟩ List.Forall₂.nil
  | @cons x y _ _ hxy hrest ih =>
    obtain ⟨k, v⟩ := x
    obtain ⟨k', w⟩ := y
    obtain ⟨rfl, hvw⟩ := hxy
    simp only [Assoc.insert]
    split
    · exact List.Forall₂.cons ⟨rfl, hab⟩ (List.Forall₂.cons ⟨rfl, hvw⟩ hrest)
    · split
      · exact List.Forall₂.cons ⟨rfl, hab⟩ hrest
      · exact List.Forall₂.cons ⟨rfl, hvw⟩ ih

theorem insert_map (f : α → β) (key : κ) (value : α) (entries : List (κ × α)) :
    insert key (f value) (entries.map fun entry => (entry.1, f entry.2)) =
      (insert key value entries).map fun entry => (entry.1, f entry.2) := by
  induction entries with
  | nil => rfl
  | cons first rest ih =>
    obtain ⟨k, v⟩ := first
    simp only [List.map_cons, Assoc.insert]
    by_cases hlt : key < k
    · simp only [if_pos hlt, List.map_cons]
    · by_cases heq : key = k
      · simp only [if_neg hlt, if_pos heq, List.map_cons]
      · simp only [if_neg hlt, if_neg heq, List.map_cons, ih]

theorem insert_insert_self [KeyOrder κ] (key : κ) (value old : α) (entries : List (κ × α)) :
    Assoc.insert key value (Assoc.insert key old entries) = Assoc.insert key value entries := by
  induction entries with
  | nil => simp only [Assoc.insert, if_neg (KeyOrder.irrefl key), if_true]
  | cons first rest ih =>
    obtain ⟨k, v⟩ := first
    by_cases hlt : key < k
    · simp only [Assoc.insert, if_pos hlt, if_neg (KeyOrder.irrefl key), if_true]
    · by_cases heq : key = k
      · simp only [Assoc.insert, heq, if_neg (KeyOrder.irrefl k), if_true]
      · simp only [Assoc.insert, if_neg hlt, if_neg heq, ih]

theorem insert_comm [KeyOrder κ] {key other : κ} (h : key ≠ other) (value second : α)
    {entries : List (κ × α)} (hsorted : Sorted entries) :
    Assoc.insert key value (Assoc.insert other second entries) =
      Assoc.insert other second (Assoc.insert key value entries) := by
  apply ext_of_get? (sorted_insert key value (sorted_insert other second hsorted))
    (sorted_insert other second (sorted_insert key value hsorted))
  intro name
  rw [get?_insert, get?_insert, get?_insert, get?_insert]
  by_cases hkey : name = key
  · have hother : name ≠ other := fun heq => h (hkey.symm.trans heq)
    rw [if_pos hkey, if_neg hother, if_pos hkey]
  · rw [if_neg hkey, if_neg hkey]

/-- Entries that are inserted one after the other are found under their keys, in front of what was
there. -/
theorem get?_foldl_insert [KeyOrder κ] (f : α → β) {entries : List (κ × α)}
    (hentries : Sorted entries) (key : κ) (old : List (κ × β)) :
    get? key (entries.foldl (fun new entry => Assoc.insert entry.1 (f entry.2) new) old) =
      ((get? key entries).map f).or (get? key old) := by
  induction entries generalizing old with
  | nil => rfl
  | cons entry rest ih =>
    rw [List.foldl_cons, ih hentries.of_cons, get?_insert, get?]
    by_cases hkey : key = entry.1
    · -- a key is set once, so what comes later leaves it
      have hrest : get? key rest = none := by
        refine get?_eq_none_of_forall fun later hlater heq => ?_
        have hlt : entry.1 < later.1 := List.rel_of_pairwise_cons hentries hlater
        rw [heq, hkey] at hlt
        exact KeyOrder.irrefl _ hlt
      rw [hrest, if_pos hkey, if_pos hkey.symm]
      rfl
    · rw [if_neg hkey, if_neg (Ne.symm hkey)]

theorem sorted_foldl_insert [KeyOrder κ] {old : List (κ × α)} (hold : Sorted old)
    (entries : List (κ × α)) :
    Sorted (entries.foldl (fun new entry => Assoc.insert entry.1 entry.2 new) old) := by
  induction entries generalizing old with
  | nil => exact hold
  | cons entry rest ih => exact ih (sorted_insert entry.1 entry.2 hold)

/-- A key beyond all others is inserted at the end. -/
theorem insert_eq_append [KeyOrder κ] {key : κ} {value : α} {entries : List (κ × α)}
    (h : ∀ entry ∈ entries, entry.1 < key) :
    Assoc.insert key value entries = entries ++ [(key, value)] := by
  induction entries with
  | nil => rfl
  | cons first rest ih =>
    obtain ⟨k, v⟩ := first
    have hk : k < key := h (k, v) List.mem_cons_self
    have hnot : ¬ key < k := fun hlt => KeyOrder.irrefl k (KeyOrder.trans hk hlt)
    have hne : key ≠ k := fun heq => KeyOrder.irrefl k (heq ▸ hk)
    rw [Assoc.insert, if_neg hnot, if_neg hne, ih fun e he => h e (List.mem_cons_of_mem _ he),
      List.cons_append]

end Assoc

namespace Table

variable {κ α β : Type} [LT κ] {R : α → β → Prop} {s : Table κ α} {t : Table κ β}

def Matches (R : α → β → Prop) (s : Table κ α) (t : Table κ β) : Prop :=
  Assoc.Matches R s.entries t.entries

theorem matches_empty : Matches R (empty : Table κ α) (empty : Table κ β) := List.Forall₂.nil

theorem Matches.size_eq (h : Matches R s t) : s.size = t.size := List.Forall₂.length_eq h

theorem Matches.filter (h : Matches R s t) {keep : κ → α → Bool} {keep' : κ → β → Bool}
    (hkeep : ∀ key a b, R a b → keep key a = keep' key b) :
    Matches R (s.filter keep) (t.filter keep') :=
  Assoc.Matches.filter h hkeep

theorem size_sub_size_filter (s : Table κ α) (keep : κ → α → Bool) :
    s.size - (s.filter keep).size = (s.filter fun key a => !keep key a).size := by
  have h := List.length_eq_length_filter_add (l := s.entries) fun e => keep e.1 e.2
  simp only [size, filter]
  omega

theorem nodup_keys [KeyOrder κ] (t : Table κ α) : (t.entries.map Prod.fst).Nodup := by
  refine List.pairwise_map.2 (t.sorted.imp fun {a b} hlt heq => ?_)
  rw [heq] at hlt
  exact KeyOrder.irrefl _ hlt

variable [DecidableEq κ]

theorem mem_keys_iff [KeyOrder κ] (t : Table κ α) (key : κ) :
    key ∈ t.entries.map Prod.fst ↔ ∃ a, t.get? key = some a := by
  simp [get?_eq_some_iff]

/-- A table has as many entries as keys. -/
theorem size_eq_ncard [KeyOrder κ] (t : Table κ α) :
    t.size = {key | ∃ a, t.get? key = some a}.ncard := by
  have hkeys : {key | ∃ a, t.get? key = some a} =
      ((t.entries.map Prod.fst).toFinset : Set κ) := by
    ext key
    rw [List.coe_toFinset, Set.mem_ofPred_eq, Set.mem_ofPred_eq, mem_keys_iff]
  rw [hkeys, Set.ncard_coe_finset, List.toFinset_card_of_nodup t.nodup_keys, List.length_map, size]

theorem erase_of_absent [KeyOrder κ] {key : κ} (h : s.get? key = none) : s.erase key = s := by
  refine ext_of_get? fun other => ?_
  rw [get?_erase]
  by_cases hkey : other = key
  · rw [if_pos hkey, hkey, h]
  · rw [if_neg hkey]

theorem Matches.get?_cases (h : Matches R s t) (key : κ) :
    s.get? key = none ∧ t.get? key = none ∨
      ∃ a b, s.get? key = some a ∧ t.get? key = some b ∧ R a b :=
  Assoc.Matches.get?_cases h key

theorem Matches.contains_eq (h : Matches R s t) (key : κ) : s.contains key = t.contains key := by
  unfold contains
  rcases h.get?_cases key with ⟨hs, ht⟩ | ⟨a, b, hs, ht, _⟩
  · rw [hs, ht]
    rfl
  · rw [hs, ht]
    rfl

theorem Matches.erase (h : Matches R s t) (key : κ) : Matches R (s.erase key) (t.erase key) :=
  h.filter fun _ _ _ _ => rfl

theorem Matches.insert [DecidableLT κ] [KeyOrder κ] (h : Matches R s t) (key : κ) {a : α} {b : β}
    (hab : R a b) : Matches R (s.insert key a) (t.insert key b) :=
  Assoc.Matches.insert h key hab

/-- The entries of both tables, and those of the second one where both have a key. -/
def union [DecidableLT κ] [KeyOrder κ] (s t : Table κ α) : Table κ α :=
  ⟨_, Assoc.sorted_foldl_insert s.sorted t.entries⟩

theorem get?_union [DecidableLT κ] [KeyOrder κ] (s t : Table κ α) (key : κ) :
    (s.union t).get? key = (t.get? key).or (s.get? key) := by
  have h := Assoc.get?_foldl_insert id t.sorted key s.entries
  rwa [Option.map_id_fun, id] at h

@[simp]
theorem union_self [DecidableLT κ] [KeyOrder κ] (s : Table κ α) : s.union s = s := by
  refine ext_of_get? fun key => ?_
  rw [get?_union, Option.or_self]

end Table

end DeadDrop
