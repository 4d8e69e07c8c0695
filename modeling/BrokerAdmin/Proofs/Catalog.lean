import BrokerAdmin.Catalog
import Mathlib.Data.List.Nodup

/-!
# Catalogs as finite functions

A catalog is known by what stands under each name: look-up finds just the entries of the catalog, and
two catalogs in which look-up finds the same are equal, since the order of the entries is fixed.
-/

namespace BrokerAdmin.Catalog

variable {α β : Type}

/-- No name stands twice in a catalog. -/
theorem nodup_names (c : Catalog α) : c.names.Nodup :=
  c.ascending.imp fun hlt => Std.ne_of_lt hlt

/-- No entry stands twice in a catalog. -/
theorem nodup_entries (c : Catalog α) : c.entries.Nodup :=
  List.Nodup.of_map Prod.fst c.nodup_names

/-- Among entries of different names, each is the one that is found under its name. -/
theorem find?_eq_some_of_mem {name : String} {value : α} {entries : List (String × α)}
    (hnodup : (entries.map Prod.fst).Nodup) (hmem : (name, value) ∈ entries) :
    entries.find? (fun entry => entry.1 == name) = some (name, value) := by
  induction entries with
  | nil => contradiction
  | cons entry rest ih =>
    obtain ⟨hfresh, hrest⟩ := List.nodup_cons.mp hnodup
    rcases List.mem_cons.mp hmem with rfl | hmem
    · simp
    · have hother : entry.1 ≠ name := by
        rintro rfl
        exact hfresh (List.mem_map.mpr ⟨(entry.1, value), hmem, rfl⟩)
      rw [List.find?_cons_of_neg (by simpa using hother)]
      exact ih hrest hmem

/-- Look-up finds just the entries of a catalog. -/
theorem get?_eq_some_iff (c : Catalog α) (name : String) (value : α) :
    c.get? name = some value ↔ (name, value) ∈ c.entries := by
  constructor
  · intro h
    obtain ⟨⟨found, _⟩, hfind, rfl⟩ := Option.map_eq_some_iff.mp h
    obtain rfl : found = name := by simpa using List.find?_some hfind
    exact List.mem_of_find?_eq_some hfind
  · intro h
    have hfind := find?_eq_some_of_mem c.nodup_names h
    rw [get?, hfind]
    rfl

/-- The names of a catalog are those under which look-up finds something. -/
theorem mem_names_iff (c : Catalog α) (name : String) :
    name ∈ c.names ↔ ∃ value, c.get? name = some value := by
  simp [names, get?_eq_some_iff]

/-- Catalogs are equal when the same stands under each name. -/
theorem ext_get? {c d : Catalog α} (h : ∀ name, c.get? name = d.get? name) : c = d := by
  have hmem : ∀ entry, entry ∈ c.entries ↔ entry ∈ d.entries := by
    rintro ⟨name, value⟩
    rw [← get?_eq_some_iff, ← get?_eq_some_iff, h]
  have hperm : c.entries.Perm d.entries :=
    (List.perm_ext_iff_of_nodup c.nodup_entries d.nodup_entries).mpr hmem
  -- no two names can each come before the other
  have hasymm : ∀ entry other : String × α, entry ∈ c.entries → other ∈ d.entries →
      entry.1 < other.1 → other.1 < entry.1 → entry = other := by
    intro entry other _ _ hlt hgt
    exact absurd (String.lt_trans hlt hgt) (String.lt_irrefl _)
  have hentries : c.entries = d.entries :=
    hperm.eq_of_pairwise hasymm (List.pairwise_map.mp c.ascending) (List.pairwise_map.mp d.ascending)
  cases c
  cases d
  simpa using hentries

/-- An entry is changed by putting the changed one in its place. -/
theorem insert_eq_modify {c : Catalog α} {name : String} {value : α} (h : c.get? name = some value)
    (f : α → α) : c.insert name (f value) = c.modify name f := by
  refine ext_get? fun other => ?_
  rw [get?_insert, get?_modify]
  by_cases hother : other = name
  · rw [if_pos hother, if_pos hother, hother, h, Option.map_some]
  · rw [if_neg hother, if_neg hother]

/-- Nothing is changed by a change that leaves the entry as it is, if there is one. -/
theorem modify_eq_self {c : Catalog α} {name : String} {f : α → α}
    (h : ∀ value, c.get? name = some value → f value = value) : c.modify name f = c := by
  refine ext_get? fun other => ?_
  rw [get?_modify]
  split
  next hother =>
    subst hother
    cases hvalue : c.get? other with
    | none => rfl
    | some value => rw [Option.map_some, h value hvalue]
  next => rfl

/-- Nothing is removed where nothing stands. -/
theorem erase_eq_self {c : Catalog α} {name : String} (h : c.get? name = none) : c.erase name = c := by
  refine ext_get? fun other => ?_
  rw [get?_erase]
  split
  next hother => rw [hother, h]
  next => rfl

/-- An entry that is removed first is replaced all the same. -/
theorem insert_erase (c : Catalog α) (name : String) (value : α) :
    (c.erase name).insert name value = c.insert name value := by
  refine ext_get? fun other => ?_
  simp only [get?_insert, get?_erase]
  split <;> rfl

/-- The same names are taken when every entry is replaced. -/
theorem contains_mapEntries (f : String → α → β) (c : Catalog α) (name : String) :
    (c.mapEntries f).contains name = c.contains name := by
  rw [contains, get?_mapEntries, Option.isSome_map, contains]

/-- What is put among replaced entries has to be replaced itself. -/
theorem mapEntries_insert (f : String → α → β) (c : Catalog α) (name : String) (value : α) :
    (c.insert name value).mapEntries f = (c.mapEntries f).insert name (f name value) := by
  refine ext_get? fun other => ?_
  rw [get?_mapEntries, get?_insert, get?_insert, get?_mapEntries]
  by_cases hother : other = name
  · rw [if_pos hother, if_pos hother, hother, Option.map_some]
  · rw [if_neg hother, if_neg hother]

/-- It does not matter whether an entry is removed before the others are replaced or after. -/
theorem mapEntries_erase (f : String → α → β) (c : Catalog α) (name : String) :
    (c.erase name).mapEntries f = (c.mapEntries f).erase name := by
  refine ext_get? fun other => ?_
  rw [get?_mapEntries, get?_erase, get?_erase, get?_mapEntries]
  split <;> rfl

/-- Two changes of an entry are one. -/
theorem modify_modify (c : Catalog α) (name : String) (f g : α → α) :
    (c.modify name f).modify name g = c.modify name (g ∘ f) := by
  refine ext_get? fun other => ?_
  simp only [get?_modify]
  split
  next => rw [Option.map_map]
  next => rfl

/-- Entries of different names are put into a catalog that has none of them and are found there. -/
theorem get?_foldl_insert (entries : List (String × α)) (c : Catalog α)
    (hnodup : (entries.map Prod.fst).Nodup) (name : String) :
    (entries.foldl (fun c entry => c.insert entry.1 entry.2) c).get? name =
      ((entries.find? fun entry => entry.1 == name).map Prod.snd).or (c.get? name) := by
  induction entries generalizing c with
  | nil => rfl
  | cons entry rest ih =>
    obtain ⟨hfresh, hrest⟩ := List.nodup_cons.mp hnodup
    rw [List.foldl_cons, ih _ hrest, get?_insert]
    by_cases hname : name = entry.1
    · have hnone : rest.find? (fun other => other.1 == name) = none := by
        refine List.find?_eq_none.mpr fun other hother heq => hfresh ?_
        rw [← hname, ← beq_iff_eq.mp heq]
        exact List.mem_map_of_mem hother
      rw [hnone, List.find?_cons_of_pos (by simp [hname]), if_pos hname]
      rfl
    · rw [List.find?_cons_of_neg (by simpa using Ne.symm hname), if_neg hname]

/-- A catalog is made again of its entries. -/
theorem ofList_entries (c : Catalog α) : ofList c.entries = c := by
  refine ext_get? fun name => ?_
  rw [ofList, get?_foldl_insert c.entries empty c.nodup_names, get?_empty, Option.or_none]
  rfl

end BrokerAdmin.Catalog
