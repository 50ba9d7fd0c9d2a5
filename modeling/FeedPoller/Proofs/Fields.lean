/-
Looking up what was inserted.

Values by name are kept sorted, each name once.  That order is what makes a list of named
values the only one with its contents, so a list that is written out and put together again
name by name comes back as it was.
-/
import FeedPoller.Fields
import Mathlib.Data.String.Basic

namespace FeedPoller.Fields

variable {α : Type} {fields : List (String × α)} {name other : String} {value : α}

theorem find?_cons (field : String × α) (rest : List (String × α)) :
    find? name (field :: rest) = if name = field.1 then some field.2 else find? name rest := by
  obtain ⟨other, old⟩ := field
  unfold find?
  rw [List.lookup_cons]
  by_cases h : name = other
  · simp [h]
  · simp [h, beq_false_of_ne h]

theorem mem_of_find? (h : find? name fields = some value) : (name, value) ∈ fields := by
  induction fields with
  | nil => exact absurd h (by simp [find?])
  | cons field rest ih =>
      rw [find?_cons] at h
      split at h
      · next hname => simp [hname, ← Option.some.inj h]
      · exact List.mem_cons_of_mem _ (ih h)

/-- What a new field does to a list, by the place of its name among the others. -/
theorem insert_cons (name : String) (value : α) (field : String × α) (rest : List (String × α)) :
    (name < field.1 ∧ insert name value (field :: rest) = (name, value) :: field :: rest) ∨
    (field.1 < name ∧ insert name value (field :: rest) = field :: insert name value rest) ∨
    (field.1 = name ∧ insert name value (field :: rest) = (name, value) :: rest) := by
  obtain ⟨other, old⟩ := field
  by_cases hlt : name < other
  · exact Or.inl ⟨hlt, by rw [insert, if_pos hlt]⟩
  · by_cases hgt : other < name
    · exact Or.inr (Or.inl ⟨hgt, by rw [insert, if_neg hlt, if_pos hgt]⟩)
    · refine Or.inr (Or.inr ⟨?_, by rw [insert, if_neg hlt, if_neg hgt]⟩)
      exact le_antisymm (not_lt.mp hlt) (not_lt.mp hgt)

theorem find?_insert_self : find? name (insert name value fields) = some value := by
  induction fields with
  | nil => simp [insert, find?_cons]
  | cons field rest ih =>
      obtain ⟨-, e⟩ | ⟨hlt, e⟩ | ⟨-, e⟩ := insert_cons name value field rest
      · rw [e, find?_cons, if_pos rfl]
      · rw [e, find?_cons, if_neg (ne_of_gt hlt), ih]
      · rw [e, find?_cons, if_pos rfl]

theorem find?_insert_of_ne (h : other ≠ name) :
    find? other (insert name value fields) = find? other fields := by
  induction fields with
  | nil => simp [insert, find?_cons, h]
  | cons field rest ih =>
      obtain ⟨-, e⟩ | ⟨-, e⟩ | ⟨heq, e⟩ := insert_cons name value field rest
      · rw [e, find?_cons, if_neg h]
      · rw [e, find?_cons, find?_cons, ih]
      · rw [e, find?_cons, find?_cons, if_neg h, if_neg (heq ▸ h)]

theorem mem_insert {field : String × α} (h : field ∈ insert name value fields) :
    field = (name, value) ∨ field ∈ fields := by
  induction fields with
  | nil => exact Or.inl (by simpa [insert] using h)
  | cons first rest ih =>
      obtain ⟨-, e⟩ | ⟨-, e⟩ | ⟨-, e⟩ := insert_cons name value first rest <;>
        rw [e] at h
      · simpa using h
      · rcases List.mem_cons.mp h with h | h
        · exact Or.inr (by simp [h])
        · rcases ih h with h | h
          · exact Or.inl h
          · exact Or.inr (by simp [h])
      · rcases List.mem_cons.mp h with h | h
        · exact Or.inl h
        · exact Or.inr (by simp [h])

theorem find?_erase_self : find? name (erase name fields) = none := by
  induction fields with
  | nil => rfl
  | cons field rest ih =>
      by_cases h : field.1 = name
      · simpa [erase, h] using ih
      · rw [erase, List.filter_cons_of_pos (by simpa using h), find?_cons, if_neg (Ne.symm h)]
        exact ih

theorem find?_erase_of_ne (h : other ≠ name) :
    find? other (erase name fields) = find? other fields := by
  induction fields with
  | nil => rfl
  | cons field rest ih =>
      by_cases hfield : field.1 = name
      · rw [find?_cons, if_neg (hfield ▸ h), ← ih, erase,
          List.filter_cons_of_neg (by simpa using hfield)]
        rfl
      · rw [erase, List.filter_cons_of_pos (by simpa using hfield), find?_cons, find?_cons]
        exact if_congr Iff.rfl rfl ih

/-! ### The order -/

/-- Sorted by name, with each name once. -/
def Sorted (fields : List (String × α)) : Prop := fields.Pairwise fun a b => a.1 < b.1

instance (fields : List (String × α)) : Decidable (Sorted fields) :=
  inferInstanceAs (Decidable (fields.Pairwise fun a b => a.1 < b.1))

theorem Sorted.insert (h : Sorted fields) : Sorted (insert name value fields) := by
  induction fields with
  | nil => exact List.pairwise_singleton _ _
  | cons field rest ih =>
      obtain ⟨hfirst, hrest⟩ := List.pairwise_cons.mp h
      obtain ⟨hlt, e⟩ | ⟨hlt, e⟩ | ⟨heq, e⟩ :=
        insert_cons name value field rest <;> rw [e]
      · refine List.pairwise_cons.mpr ⟨fun other hother => ?_, h⟩
        rcases List.mem_cons.mp hother with rfl | hother
        · exact hlt
        · exact lt_trans hlt (hfirst other hother)
      · refine List.pairwise_cons.mpr ⟨fun other hother => ?_, ih hrest⟩
        rcases mem_insert hother with rfl | hother
        · exact hlt
        · exact hfirst other hother
      · exact List.pairwise_cons.mpr ⟨fun other hother => heq ▸ hfirst other hother, hrest⟩

theorem Sorted.erase (h : Sorted fields) : Sorted (erase name fields) :=
  h.sublist List.filter_sublist

/-- Whether fields are sorted is a question of their names alone. -/
theorem sorted_iff_names : Sorted fields ↔ (fields.map Prod.fst).Pairwise (· < ·) :=
  List.pairwise_map.symm

/-- Fields that are put together are sorted. -/
theorem sorted_ofList (fields : List (String × α)) : Sorted (ofList fields) := by
  have hfold : ∀ (rest sorted : List (String × α)), Sorted sorted →
      Sorted (rest.foldl (fun sorted field => Fields.insert field.1 field.2 sorted) sorted) := by
    intro rest
    induction rest with
    | nil => exact fun _ h => h
    | cons field rest ih => exact fun sorted h => ih _ h.insert
  exact hfold fields [] List.Pairwise.nil

/-- A name behind all others goes to the end. -/
theorem insert_of_last (h : ∀ field ∈ fields, field.1 < name) :
    insert name value fields = fields ++ [(name, value)] := by
  induction fields with
  | nil => rfl
  | cons field rest ih =>
      have hlt := h field (by simp)
      obtain ⟨hgt, -⟩ | ⟨-, e⟩ | ⟨heq, -⟩ := insert_cons name value field rest
      · exact absurd hgt (lt_asymm hlt)
      · rw [e, ih fun f hf => h f (by simp [hf])]
        rfl
      · exact absurd hlt (heq ▸ lt_irrefl _)

/-- Fields that are sorted already are put together as they are. -/
theorem ofList_of_sorted (h : Sorted fields) : ofList fields = fields := by
  have hfold : ∀ (rest sorted : List (String × α)), Sorted (sorted ++ rest) →
      rest.foldl (fun sorted field => Fields.insert field.1 field.2 sorted) sorted
        = sorted ++ rest := by
    intro rest
    induction rest with
    | nil => intro sorted _; simp
    | cons field rest ih =>
        intro sorted hs
        have hlast : ∀ f ∈ sorted, f.1 < field.1 := fun f hf =>
          (List.pairwise_append.mp hs).2.2 f hf field (by simp)
        rw [List.foldl_cons, insert_of_last hlast, ih _ (by simpa using hs)]
        simp
  exact hfold fields [] h

end FeedPoller.Fields
