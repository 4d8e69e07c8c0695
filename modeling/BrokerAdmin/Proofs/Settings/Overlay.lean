import BrokerAdmin.Proofs.Document.Converting
import BrokerAdmin.Proofs.Toml.Tables
import BrokerAdmin.Settings.Source
import Mathlib.Data.List.TakeDrop
import Mathlib.Data.List.TakeWhile

/-!
# Settings over the defaults

What a document in which no key stands twice says is not changed by the defaults below it. Under each key
the document comes before the defaults, and where it says nothing it is the defaults that a reader of
settings would have put in. The one default is the log level, which lies two tables deep, so the tables of
the document are merged with it and not put in its place.
-/

namespace BrokerAdmin

namespace Value

variable {base fields : List (String × Value)} {name : String}

/-! ### Fields -/

/-- A value that is put under a name is found there, and all others are found as before. -/
theorem lookup_put (name other : String) (value : Value) (fields : List (String × Value)) :
    (put name value fields).lookup other = if other = name then some value else fields.lookup other := by
  induction fields with
  | nil =>
    by_cases hother : other = name
    · simp [put, hother]
    · simp [put, List.lookup_cons, hother, beq_false_of_ne hother]
  | cons field rest ih =>
    obtain ⟨key, old⟩ := field
    rw [put]
    by_cases hkey : key = name
    · rw [if_pos hkey, ← hkey]
      by_cases hother : other = key
      · simp [hother]
      · simp [List.lookup_cons, hother, beq_false_of_ne hother]
    · rw [if_neg hkey]
      by_cases hother : other = key
      · simp [hother, hkey]
      · simp [List.lookup_cons, beq_false_of_ne hother, ih]

/-- A value that is put under a new name comes last. -/
theorem put_of_not_mem (hname : name ∉ fields.map Prod.fst) (value : Value) :
    put name value fields = fields ++ [(name, value)] := by
  induction fields with
  | nil => rfl
  | cons field rest ih =>
    rw [List.map_cons, List.mem_cons, not_or] at hname
    rw [put, if_neg (Ne.symm hname.1), ih hname.2, List.cons_append]

/-- A value that is put under a name that is there takes its place. -/
theorem names_put_of_mem (hname : name ∈ fields.map Prod.fst) (value : Value) :
    (put name value fields).map Prod.fst = fields.map Prod.fst := by
  induction fields with
  | nil => contradiction
  | cons field rest ih =>
    rw [put]
    split
    next hfield => rw [List.map_cons, List.map_cons, hfield]
    next hfield =>
      have hrest : name ∈ rest.map Prod.fst :=
        (List.mem_cons.mp hname).resolve_left (Ne.symm hfield)
      rw [List.map_cons, List.map_cons, ih hrest]

/-- No name comes to stand twice when a value is put under one. -/
theorem nodup_put (hnodup : (fields.map Prod.fst).Nodup) (name : String) (value : Value) :
    ((put name value fields).map Prod.fst).Nodup := by
  by_cases hname : name ∈ fields.map Prod.fst
  · rw [names_put_of_mem hname]
    exact hnodup
  · rw [put_of_not_mem hname]
    exact Toml.nodup_concat hnodup hname value

/-- Where no name stands twice, what is found under a name is no malformed field. -/
theorem field?_of_nodup (hnodup : (fields.map Prod.fst).Nodup) (name : String) :
    field? fields name = some (fields.lookup name) := by
  have hfilter : fields.filter (fun field => field.1 == name) =
      ((fields.lookup name).map fun value => (name, value)).toList := by
    induction fields with
    | nil => rfl
    | cons field rest ih =>
      obtain ⟨key, value⟩ := field
      obtain ⟨hkey, hrest⟩ := List.nodup_cons.mp hnodup
      by_cases hname : key = name
      · subst hname
        have hnone : rest.filter (fun field => field.1 == key) = [] := by
          refine List.filter_eq_nil_iff.mpr fun field hfield heq => hkey ?_
          exact List.mem_map.mpr ⟨field, hfield, beq_iff_eq.mp heq⟩
        simp [hnone]
      · rw [List.filter_cons_of_neg (by simpa using hname), ih hrest, List.lookup_cons,
          beq_false_of_ne (Ne.symm hname)]
  rw [field?, hfilter]
  cases fields.lookup name <;> rfl

/-- A field that may be missing is found or has its default, where no name stands twice. -/
theorem defaulted_of_nodup {α : Type} (hnodup : (fields.map Prod.fst).Nodup) (name : String)
    (read : Value → Option α) (default : α) :
    defaulted fields name read default = (fields.lookup name).elim (some default) read := by
  rw [defaulted, field?_of_nodup hnodup]
  rfl

/-! ### Tables over tables -/

/-- No name comes to stand twice when a table is laid over another. -/
theorem nodup_fieldsOver (hbase : (base.map Prod.fst).Nodup) (fields : List (String × Value)) :
    ((fieldsOver base fields).map Prod.fst).Nodup := by
  induction fields generalizing base with
  | nil => rwa [fieldsOver]
  | cons field rest ih =>
    rw [fieldsOver]
    exact ih (nodup_put hbase _ _)

/-- Under each name of a table that is laid over another, its value is found over the one from below; the
other names are found as in the table below. -/
theorem lookup_fieldsOver (hnodup : (fields.map Prod.fst).Nodup) (base : List (String × Value))
    (name : String) :
    (fieldsOver base fields).lookup name =
      ((fields.lookup name).elim (base.lookup name) fun value => some ((under base name).laidOver value)) := by
  induction fields generalizing base with
  | nil => rfl
  | cons field rest ih =>
    obtain ⟨key, value⟩ := field
    obtain ⟨hkey, hrest⟩ := List.nodup_cons.mp hnodup
    rw [fieldsOver, ih hrest]
    by_cases hname : name = key
    · subst hname
      have hnone : rest.lookup name = none := Toml.lookup_eq_none_iff.mpr hkey
      simp [hnone, under, lookup_put]
    · simp [List.lookup_cons, beq_false_of_ne hname, hname, under, lookup_put]

/-- A table of new names is laid over another by adding it, if its values are what they are over nothing. -/
theorem fieldsOver_eq_append (hnodup : ((base ++ fields).map Prod.fst).Nodup)
    (hlaid : ∀ field ∈ fields, null.laidOver field.2 = field.2) :
    fieldsOver base fields = base ++ fields := by
  induction fields generalizing base with
  | nil => rw [fieldsOver, List.append_nil]
  | cons field rest ih =>
    obtain ⟨key, value⟩ := field
    obtain ⟨hvalue, hrest⟩ := List.forall_mem_cons.mp hlaid
    have hkey : key ∉ base.map Prod.fst := by
      rw [List.map_append, List.nodup_append] at hnodup
      exact fun hmem => hnodup.2.2 key hmem key (by simp) rfl
    have hunder : under base key = null := by
      rw [under, Toml.lookup_eq_none_iff.mpr hkey, Option.getD_none]
    have hassoc : base ++ (key, value) :: rest = base ++ [(key, value)] ++ rest := by simp
    rw [fieldsOver, hunder, hvalue, put_of_not_mem hkey, hassoc]
    exact ih (hassoc ▸ hnodup) hrest

/-- A value in which no name stands twice is what it is over nothing. -/
theorem Tidy.laidOver_null {value : Value} (h : value.Tidy) : null.laidOver value = value := by
  induction h with
  | @flat value hflat =>
    cases value with
    | table fields => exact absurd rfl (hflat fields)
    | _ => rfl
  | table hnodup _ ih =>
    rw [laidOver, fieldsOver_eq_append (by simpa [fieldsOf] using hnodup) ih]
    rfl

/-- A tidy table has no name twice, and the values in it are tidy. -/
theorem tidy_table_iff :
    (table fields).Tidy ↔ (fields.map Prod.fst).Nodup ∧ ∀ field ∈ fields, field.2.Tidy := by
  constructor
  · intro h
    cases h with
    | flat hflat => exact absurd rfl (hflat fields)
    | table hnodup hfields => exact ⟨hnodup, hfields⟩
  · rintro ⟨hnodup, hfields⟩
    exact .table hnodup hfields

/-- A field of which the table below says nothing is read as in the table above. -/
theorem defaulted_fieldsOver {α : Type} (hbase : (base.map Prod.fst).Nodup) (hfields : (table fields).Tidy)
    (hnone : base.lookup name = none) (read : Value → Option α) (default : α) :
    defaulted (fieldsOver base fields) name read default = defaulted fields name read default := by
  obtain ⟨hnodup, hvalues⟩ := tidy_table_iff.mp hfields
  rw [defaulted_of_nodup (nodup_fieldsOver hbase fields), defaulted_of_nodup hnodup,
    lookup_fieldsOver hnodup, under, hnone]
  cases hvalue : fields.lookup name with
  | none => rfl
  | some value =>
    have htidy := hvalues (name, value) (Toml.mem_of_lookup hvalue)
    exact congrArg read htidy.laidOver_null

end Value

namespace Settings

open Value (fieldsOver)

/-! ### The default below a document -/

/-- The fields of the table that has the default log level. -/
def defaultLog : List (String × Value) :=
  [("level", .text ({} : Settings).logLevel)]

/-- The only default is that of the log level. -/
theorem defaults_eq : defaults = .table [("log", .table defaultLog)] := by
  have hsteps : stepsOf "log.level" = [.field "log", .field "level"] := by decide +kernel
  rw [defaults, set, hsteps]
  rfl

/-- A log level is read over the default as it is read on its own. -/
theorem logLevel_extends {value : Value} (hvalue : value.Tidy) :
    Extends (logLevelOfValue? .converting value)
      (logLevelOfValue? .converting ((Value.table defaultLog).laidOver value)) := by
  cases value with
  | table fields =>
    obtain ⟨hnodup, -⟩ := Value.tidy_table_iff.mp hvalue
    change Extends (Value.defaulted fields "level" Reading.converting.text? ({} : Settings).logLevel)
      (Value.defaulted (fieldsOver defaultLog fields) "level" Reading.converting.text?
        ({} : Settings).logLevel)
    rw [Value.defaulted_of_nodup hnodup,
      Value.defaulted_of_nodup (Value.nodup_fieldsOver (by decide) fields), Value.lookup_fieldsOver hnodup]
    cases fields.lookup "level" with
    | none => exact .refl _
    | some level =>
      -- a table is no log level, and nothing else is merged
      cases level with
      | table => exact nofun
      | _ => exact .refl _
  | _ => exact .refl _

/-- Settings are read over the defaults as they are read on their own. -/
theorem ofValue?_extends_overlaid {fields : List (String × Value)} (hfields : (Value.table fields).Tidy) :
    Extends (ofValue? .converting (.table fields))
      (ofValue? .converting (.table (fieldsOver [("log", .table defaultLog)] fields))) := by
  obtain ⟨hnodup, hvalues⟩ := Value.tidy_table_iff.mp hfields
  have hbase : ([("log", Value.table defaultLog)].map Prod.fst).Nodup := by decide
  have hlog : Extends (Value.defaulted fields "log" (logLevelOfValue? .converting) ({} : Settings).logLevel)
      (Value.defaulted (fieldsOver [("log", .table defaultLog)] fields) "log"
        (logLevelOfValue? .converting) ({} : Settings).logLevel) := by
    rw [Value.defaulted_of_nodup hnodup, Value.defaulted_of_nodup (Value.nodup_fieldsOver hbase fields),
      Value.lookup_fieldsOver hnodup]
    cases hlevel : fields.lookup "log" with
    | none => exact .refl _
    | some value => exact logLevel_extends (hvalues ("log", value) (Toml.mem_of_lookup hlevel))
  have hsame : ∀ {α : Type} (name : String) (read : Value → Option α) (default : α), name ≠ "log" →
      Extends (Value.defaulted fields name read default)
        (Value.defaulted (fieldsOver [("log", .table defaultLog)] fields) name read default) := by
    intro α name read default hname
    have hnone : [("log", Value.table defaultLog)].lookup name = none := by
      rw [List.lookup_cons, beq_false_of_ne hname]
      rfl
    rw [Value.defaulted_fieldsOver hbase hfields hnone]
    exact .refl _
  refine hlog.bind fun _ => ?_
  refine (hsame "bridge" _ _ (by decide)).bind fun _ => ?_
  exact (hsame "bridge_overrides" _ _ (by decide)).bind fun _ => .refl _

/-! ### A document below the environment -/

/-- A key of characters that stand in no need of quotes names a field of the outermost table. -/
theorem stepsOf_of_isBare {key : String} (hbare : ∀ c ∈ key.toList, Toml.isBare c = true) :
    stepsOf key = [.field key] := by
  have hpath : ∀ c ∈ key.toList, isPathChar c = true := hbare
  have hspan : key.toList.span isPathChar = (key.toList, []) := by
    rw [List.span_eq_takeWhile_dropWhile, List.takeWhile_eq_self_iff.mpr hpath,
      List.dropWhile_eq_nil_iff.mpr hpath]
  rw [stepsOf, hspan]
  dsimp only
  cases key.toList.isEmpty with
  | true => rfl
  | false =>
    rw [if_neg Bool.false_ne_true]
    change [Step.field (String.ofList key.toList)] = _
    rw [String.ofList_toList]

/-- The fields of a document are laid over others one by one. -/
theorem foldl_set_eq {fields : List (String × Value)}
    (hbare : ∀ field ∈ fields, ∀ c ∈ field.1.toList, Toml.isBare c = true)
    (base : List (String × Value)) :
    fields.foldl (fun value (key, part) => set value key part) (.table base) =
      .table (fieldsOver base fields) := by
  induction fields generalizing base with
  | nil => rfl
  | cons field rest ih =>
    obtain ⟨key, part⟩ := field
    obtain ⟨hkey, hrest⟩ := List.forall_mem_cons.mp hbare
    have hset : set (.table base) key part =
        .table (Value.put key ((Value.under base key).laidOver part) base) := by
      rw [set, stepsOf_of_isBare hkey]
      rfl
    rw [List.foldl_cons]
    dsimp only
    rw [hset, ih hrest, fieldsOver]

end Settings

end BrokerAdmin
