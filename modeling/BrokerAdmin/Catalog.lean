/-!
# Catalogs of named entries

A catalog holds at most one entry under each name, in ascending order of the names, so that two
catalogs with the same entries are equal. Names are ordered by their code points.
-/

namespace BrokerAdmin

/-- Entries by name, in ascending order of the names. -/
structure Catalog (α : Type) where
  entries : List (String × α)
  ascending : (entries.map Prod.fst).Pairwise (· < ·)

namespace Catalog

variable {α β : Type}

/-- The catalog without entries. -/
def empty : Catalog α := ⟨[], List.Pairwise.nil⟩

instance : EmptyCollection (Catalog α) := ⟨empty⟩

instance : Inhabited (Catalog α) := ⟨empty⟩

instance [DecidableEq α] : DecidableEq (Catalog α) := fun c d =>
  if h : c.entries = d.entries then
    isTrue (by cases c; cases d; cases h; rfl)
  else isFalse (fun e => h (e ▸ rfl))

/-- The names, in ascending order. -/
def names (c : Catalog α) : List String :=
  c.entries.map Prod.fst

/-- The entry under a name. -/
def get? (c : Catalog α) (name : String) : Option α :=
  (c.entries.find? fun entry => entry.1 == name).map Prod.snd

/-- Whether there is an entry under a name. -/
def contains (c : Catalog α) (name : String) : Bool :=
  (c.get? name).isSome

/-- Put an entry where its name belongs, in place of an entry of that name. -/
def place (name : String) (value : α) : List (String × α) → List (String × α)
  | [] => [(name, value)]
  | entry :: rest =>
    if name = entry.1 then (name, value) :: rest
    else if name < entry.1 then (name, value) :: entry :: rest
    else entry :: place name value rest

/-- Placing an entry brings no name but its own. -/
theorem mem_place {name other : String} {value : α} {entries : List (String × α)}
    (h : other ∈ (place name value entries).map Prod.fst) :
    other = name ∨ other ∈ entries.map Prod.fst := by
  induction entries with
  | nil => simpa [place] using h
  | cons entry rest ih =>
    simp only [place] at h
    split at h
    · simp only [List.map_cons, List.mem_cons] at h ⊢
      rcases h with h | h
      · exact Or.inl h
      · exact Or.inr (Or.inr h)
    · split at h
      · simpa using h
      · simp only [List.map_cons, List.mem_cons] at h ⊢
        rcases h with h | h
        · exact Or.inr (Or.inl h)
        · rcases ih h with h | h
          · exact Or.inl h
          · exact Or.inr (Or.inr h)

/-- Names stay in ascending order when an entry is placed. -/
theorem pairwise_place {name : String} {value : α} {entries : List (String × α)}
    (h : (entries.map Prod.fst).Pairwise (· < ·)) :
    ((place name value entries).map Prod.fst).Pairwise (· < ·) := by
  induction entries with
  | nil => simp [place]
  | cons entry rest ih =>
    simp only [List.map_cons, List.pairwise_cons] at h
    simp only [place]
    split
    · rename_i heq
      simpa [heq] using h
    · rename_i hne
      split
      · rename_i hlt
        simp only [List.map_cons, List.pairwise_cons, List.mem_cons]
        refine ⟨?_, h⟩
        rintro other (rfl | hmem)
        · exact hlt
        · exact String.lt_trans hlt (h.1 other hmem)
      · rename_i hnlt
        simp only [List.map_cons, List.pairwise_cons]
        refine ⟨fun other hmem => ?_, ih h.2⟩
        rcases mem_place hmem with rfl | hmem
        · rcases Std.lt_trichotomy other entry.1 with hlt | heq | hgt
          · exact absurd hlt hnlt
          · exact absurd heq hne
          · exact hgt
        · exact h.1 other hmem

/-- The catalog with an entry under a name, which takes the place of the one before. -/
def insert (c : Catalog α) (name : String) (value : α) : Catalog α :=
  ⟨place name value c.entries, pairwise_place c.ascending⟩

/-- The catalog without the entry under a name. -/
def erase (c : Catalog α) (name : String) : Catalog α :=
  ⟨c.entries.filter fun entry => !(entry.1 == name), c.ascending.sublist (List.filter_sublist.map _)⟩

/-- The catalog with every entry replaced, each under its name. -/
def mapEntries (f : String → α → β) (c : Catalog α) : Catalog β :=
  ⟨c.entries.map fun entry => (entry.1, f entry.1 entry.2), by
    simpa [List.map_map, Function.comp_def] using c.ascending⟩

/-- The catalog with the entry under a name changed, if there is one. -/
def modify (c : Catalog α) (name : String) (f : α → α) : Catalog α :=
  c.mapEntries fun other value => if other = name then f value else value

/-- The catalog of a list of entries; of two entries under one name the later stays. -/
def ofList (entries : List (String × α)) : Catalog α :=
  entries.foldl (fun c entry => c.insert entry.1 entry.2) empty

/-- Nothing stands under a name where there are no entries. -/
@[simp] theorem get?_empty (name : String) : (empty : Catalog α).get? name = none := rfl

/-- An entry that was placed is found under its name, and all others are found as before. -/
theorem find?_place (name other : String) (value : α) (entries : List (String × α)) :
    ((place name value entries).find? fun entry => entry.1 == other).map Prod.snd =
      if other = name then some value
      else (entries.find? fun entry => entry.1 == other).map Prod.snd := by
  induction entries with
  | nil =>
    by_cases h : other = name
    · simp [place, h]
    · simp [place, h, Ne.symm h]
  | cons entry rest ih =>
    simp only [place]
    split
    · rename_i heq
      by_cases h : other = name
      · simp [h]
      · simp [h, Ne.symm h, ← heq]
    · split
      · by_cases h : other = name
        · simp [h]
        · simp [h, Ne.symm h]
      · rename_i hne _
        by_cases hentry : entry.1 = other
        · have h : ¬ other = name := fun h => hne (by rw [← h, hentry])
          simp [hentry, h]
        · simpa [List.find?_cons, hentry] using ih

/-- After an insertion the new entry stands under its name and all others are as before. -/
@[simp] theorem get?_insert (c : Catalog α) (name other : String) (value : α) :
    (c.insert name value).get? other = if other = name then some value else c.get? other :=
  find?_place name other value c.entries

/-- An entry that was filtered out is not found any more, and all others are found as before. -/
theorem find?_filter_ne (name other : String) (entries : List (String × α)) :
    ((entries.filter fun entry => !(entry.1 == name)).find? fun entry => entry.1 == other).map Prod.snd =
      if other = name then none
      else (entries.find? fun entry => entry.1 == other).map Prod.snd := by
  induction entries with
  | nil => simp
  | cons entry rest ih =>
    by_cases hname : entry.1 = name
    · by_cases h : other = name
      · simp [h]
      · simpa [List.filter_cons, List.find?_cons, hname, h, Ne.symm h] using ih
    · by_cases hother : entry.1 = other
      · have h : ¬ other = name := fun h => hname (by rw [hother, h])
        simp [hother, h]
      · simpa [List.filter_cons, List.find?_cons, hname, hother] using ih

/-- After a removal nothing stands under the name and all others are as before. -/
@[simp] theorem get?_erase (c : Catalog α) (name other : String) :
    (c.erase name).get? other = if other = name then none else c.get? other :=
  find?_filter_ne name other c.entries

/-- A replaced entry is found where the entry was. -/
theorem find?_map_entries (f : String → α → β) (name : String) (entries : List (String × α)) :
    ((entries.map fun entry => (entry.1, f entry.1 entry.2)).find? fun entry => entry.1 == name).map
        Prod.snd =
      ((entries.find? fun entry => entry.1 == name).map Prod.snd).map (f name) := by
  induction entries with
  | nil => rfl
  | cons entry rest ih =>
    by_cases h : entry.1 = name
    · simp [h]
    · simpa [List.find?_cons, h] using ih

/-- Every entry is replaced under its name. -/
@[simp] theorem get?_mapEntries (f : String → α → β) (c : Catalog α) (name : String) :
    (c.mapEntries f).get? name = (c.get? name).map (f name) :=
  find?_map_entries f name c.entries

/-- A change touches the entry under its name only. -/
@[simp] theorem get?_modify (c : Catalog α) (name other : String) (f : α → α) :
    (c.modify name f).get? other = if other = name then (c.get? other).map f else c.get? other := by
  unfold modify
  rw [get?_mapEntries]
  by_cases h : other = name
  · simp [h]
  · simp [h]

end Catalog

end BrokerAdmin
