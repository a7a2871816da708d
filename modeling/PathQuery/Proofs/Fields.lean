/-
Ordered maps with distinct names.

* **`Fields.lookup_insert`, `Fields.lookup_insertAll`** — what is found after insertions;
* **`Fields.nodup_names_insertAll`** — names stay distinct;
* **`Fields.names_insertAll`** — and keep the order in which they came up first;
* **`Fields.insertAll_eq_append`** — insertions of new names only.
-/
import PathQuery.Fields

namespace PathQuery

variable {α : Type}

theorem lookup_cons_eq_ite (name other : String) (v : α) (rest : List (String × α)) :
    ((name, v) :: rest).lookup other = if other = name then some v else rest.lookup other := by
  by_cases h : other = name
  · rw [if_pos h, h, List.lookup_cons_self]
  · rw [if_neg h, List.lookup_cons, beq_eq_false_iff_ne.2 h]

theorem Fields.lookup_insert (name other : String) (v : α) (fields : List (String × α)) :
    (Fields.insert name v fields).lookup other =
      if other = name then some v else fields.lookup other := by
  induction fields with
  | nil => exact lookup_cons_eq_ite name other v []
  | cons entry rest ih =>
    obtain ⟨first, old⟩ := entry
    rw [Fields.insert]
    split
    case isTrue h =>
      rw [eq_of_beq h, lookup_cons_eq_ite, lookup_cons_eq_ite]
      split <;> rfl
    case isFalse h =>
      rw [lookup_cons_eq_ite, lookup_cons_eq_ite, ih]
      -- The names differ, so at most one of them is the one that is looked up.
      by_cases hother : other = name
      · rw [if_neg (by rintro rfl; simp [hother] at h), if_pos hother, if_pos hother]
      · rw [if_neg hother, if_neg hother]

namespace Fields

/-- The names of a map in order. -/
def names (fields : List (String × α)) : List String := fields.map Prod.fst

theorem lookup_eq_none {name : String} {fields : List (String × α)} (h : name ∉ names fields) :
    fields.lookup name = none :=
  List.lookup_eq_none_iff.2 fun _ he =>
    bne_iff_ne.2 fun heq => h (heq ▸ List.mem_map_of_mem he)

theorem isSome_lookup_iff (name : String) (fields : List (String × α)) :
    (fields.lookup name).isSome = true ↔ name ∈ names fields := by
  induction fields with
  | nil => exact iff_of_false Bool.false_ne_true List.not_mem_nil
  | cons first rest ih =>
    obtain ⟨other, v⟩ := first
    rw [lookup_cons_eq_ite]
    change _ ↔ name ∈ other :: names rest
    rw [List.mem_cons]
    by_cases h : name = other
    · rw [if_pos h]
      exact iff_of_true rfl (.inl h)
    · rw [if_neg h, ih, or_iff_right h]

/-- Where names are distinct each pair is found under its name. -/
theorem lookup_of_mem {fields : List (String × α)} (h : (names fields).Nodup)
    {field : String × α} (hmem : field ∈ fields) : fields.lookup field.1 = some field.2 := by
  induction fields with
  | nil => exact absurd hmem List.not_mem_nil
  | cons first rest ih =>
    obtain ⟨name, v⟩ := first
    obtain ⟨hfirst, hrest⟩ := List.nodup_cons.1 h
    rw [lookup_cons_eq_ite]
    obtain rfl | hlater := List.mem_cons.1 hmem
    · exact if_pos rfl
    · have hlater' : field.1 ∈ names rest := List.mem_map_of_mem hlater
      have hne : field.1 ≠ name := fun heq => hfirst (heq ▸ hlater')
      rw [if_neg hne, ih hrest hlater]

/-- An inserted name hides the old one; no name is inserted twice. -/
theorem lookup_insertAll {added : List (String × α)} (h : (names added).Nodup)
    (fields : List (String × α)) (name : String) :
    (insertAll fields added).lookup name = (added.lookup name).or (fields.lookup name) := by
  induction added generalizing fields with
  | nil => rfl
  | cons entry rest ih =>
    obtain ⟨first, v⟩ := entry
    obtain ⟨hfirst, hrest⟩ := List.nodup_cons.1 h
    change (insertAll (insert first v fields) rest).lookup name = _
    rw [ih hrest, lookup_insert, lookup_cons_eq_ite]
    by_cases hname : name = first
    · rw [if_pos hname, if_pos hname, hname, lookup_eq_none hfirst]
      rfl
    · rw [if_neg hname, if_neg hname]

theorem names_insert (name : String) (v : α) (fields : List (String × α)) :
    names (insert name v fields) =
      if name ∈ names fields then names fields else names fields ++ [name] := by
  induction fields with
  | nil => rfl
  | cons entry rest ih =>
    obtain ⟨first, old⟩ := entry
    rw [insert]
    by_cases h : name = first
    · rw [if_pos (by simp [h]), if_pos (by simp [names, h])]
      rfl
    · rw [if_neg (by simpa using h)]
      change first :: names (insert name v rest) = _
      rw [ih]
      change _ = if name ∈ first :: names rest then _ else _
      by_cases hrest : name ∈ names rest
      · rw [if_pos hrest, if_pos (List.mem_cons_of_mem _ hrest)]
        rfl
      · rw [if_neg hrest, if_neg (by simp [h, hrest])]
        rfl

theorem nodup_names_insert {fields : List (String × α)} (h : (names fields).Nodup)
    (name : String) (v : α) : (names (insert name v fields)).Nodup := by
  rw [names_insert]
  split
  · exact h
  · rename_i hname
    exact List.nodup_append.2 ⟨h, List.pairwise_singleton _ _, fun a ha b hb heq =>
      hname (List.mem_singleton.1 hb ▸ heq ▸ ha)⟩

theorem nodup_names_insertAll {fields : List (String × α)} (h : (names fields).Nodup)
    (added : List (String × α)) : (names (insertAll fields added)).Nodup := by
  induction added generalizing fields with
  | nil => exact h
  | cons entry rest ih => exact ih (nodup_names_insert h _ _)

/-! ### The order of names -/

theorem eraseDups_eq_self {names : List String} (h : names.Nodup) : names.eraseDups = names := by
  induction names with
  | nil => rfl
  | cons name rest ih =>
    obtain ⟨hname, hrest⟩ := List.nodup_cons.1 h
    have hkept : rest.filter (fun other => !other == name) = rest := by
      refine List.filter_eq_self.2 fun other hother => ?_
      have hne : other ≠ name := fun heq => hname (heq ▸ hother)
      simpa using hne
    rw [List.eraseDups_cons, hkept, ih hrest]

/-- Of the names in front it matters only where they come up first. -/
theorem eraseDups_append_congr {front front' : List String} (h : front.eraseDups = front'.eraseDups)
    (behind : List String) : (front ++ behind).eraseDups = (front' ++ behind).eraseDups := by
  have hmem (name : String) : name ∈ front ↔ name ∈ front' := by
    rw [← List.mem_eraseDups, h, List.mem_eraseDups]
  rw [List.eraseDups_append, List.eraseDups_append, h]
  simp only [List.removeAll, List.elem_eq_mem, hmem]

/-- Names stay where they came up first. -/
theorem names_insertAll {fields : List (String × α)} (h : (names fields).Nodup)
    (added : List (String × α)) :
    names (insertAll fields added) = (names fields ++ names added).eraseDups := by
  induction added generalizing fields with
  | nil =>
    rw [show names ([] : List (String × α)) = [] from rfl, List.append_nil, eraseDups_eq_self h]
    rfl
  | cons entry rest ih =>
    obtain ⟨name, v⟩ := entry
    change names (insertAll (insert name v fields) rest) =
      (names fields ++ name :: names rest).eraseDups
    rw [ih (nodup_names_insert h name v), names_insert]
    split
    case isTrue hname =>
      rw [List.eraseDups_append, List.eraseDups_append]
      simp [List.removeAll, hname]
    case isFalse =>
      rw [List.append_assoc]
      rfl

/-! ### Maps with and without entries -/

theorem insertAll_eq_nil_iff {fields added : List (String × α)} :
    insertAll fields added = [] ↔ fields = [] ∧ added = [] := by
  induction added generalizing fields with
  | nil => exact (and_iff_left rfl).symm
  | cons entry rest ih =>
    have hinsert : insert entry.1 entry.2 fields ≠ [] := by
      cases fields with
      | nil => exact List.cons_ne_nil _ _
      | cons first fields =>
        rw [insert]
        split <;> exact List.cons_ne_nil _ _
    refine iff_of_false (fun h => hinsert (ih.1 h).1) fun h => List.cons_ne_nil _ _ h.2

theorem insert_eq_append {name : String} {fields : List (String × α)} (h : name ∉ names fields)
    (v : α) : insert name v fields = fields ++ [(name, v)] := by
  induction fields with
  | nil => rfl
  | cons entry rest ih =>
    rw [names, List.map_cons, List.mem_cons, not_or] at h
    rw [insert, if_neg (by simpa using h.1), ih h.2]
    rfl

/-- New names are put behind the old ones in their order. -/
theorem insertAll_eq_append {fields added : List (String × α)}
    (h : (names (fields ++ added)).Nodup) : insertAll fields added = fields ++ added := by
  induction added generalizing fields with
  | nil => exact (List.append_nil fields).symm
  | cons entry rest ih =>
    obtain ⟨first, v⟩ := entry
    have hfirst : first ∉ names fields := by
      rw [names, List.map_append, List.map_cons] at h
      exact fun hmem => (List.nodup_append.1 h).2.2 _ hmem _ List.mem_cons_self rfl
    change insertAll (insert first v fields) rest = _
    rw [insert_eq_append hfirst, ih, List.append_assoc]
    · rfl
    · rw [List.append_assoc]
      exact h

end Fields

end PathQuery
