import BrokerAdmin.Toml.Reader
import Mathlib.Data.List.Nodup

/-!
# No key twice

In a table that has been read from TOML no key stands twice, nor in the tables inside it. Each way to build
up a table looks a key up before it adds it, and otherwise replaces what stands under the key. The tables
inside lists are not spoken of: what stands in a list is never laid over anything.
-/

namespace BrokerAdmin

/-- No key stands twice in a value if it is a table, nor in the tables that stand under its keys. -/
inductive Value.Tidy : Value → Prop
  | flat {value : Value} : (∀ fields, value ≠ .table fields) → Tidy value
  | table {fields : List (String × Value)} : (fields.map Prod.fst).Nodup →
      (∀ field ∈ fields, Tidy field.2) → Tidy (.table fields)

namespace Toml

/-- No key stands twice in a value of TOML if it is a table, nor in the tables that stand under its keys. -/
inductive Datum.Tidy : Datum → Prop
  | flat {value : Datum} : (∀ fields, value ≠ .table fields) → Tidy value
  | table {fields : List (String × Datum)} : (fields.map Prod.fst).Nodup →
      (∀ field ∈ fields, Tidy field.2) → Tidy (.table fields)

/-- No key stands twice in a node if it is a table, nor in the tables that stand under its keys. -/
inductive Node.Tidy : Node → Prop
  | value {value : Datum} : value.Tidy → Tidy (.value value)
  | table {origin : Origin} {fields : List (String × Node)} : (fields.map Prod.fst).Nodup →
      (∀ field ∈ fields, Tidy field.2) → Tidy (.table origin fields)
  | tables {earlier : List (List (String × Node))} {last : List (String × Node)} :
      Tidy (.tables earlier last)

/-- No key stands twice in a table that is being built up, nor in the tables that stand under its keys. -/
structure Fields.Tidy (fields : Fields) : Prop where
  nodup : (fields.map Prod.fst).Nodup
  nodes : ∀ field ∈ fields, field.2.Tidy

/-! ### Tables that are built up -/

/-- What is found under a key stands in the table. -/
theorem mem_of_lookup {α : Type} {fields : List (String × α)} {key : String} {a : α}
    (h : fields.lookup key = some a) : (key, a) ∈ fields := by
  obtain ⟨before, after, rfl, -⟩ := List.lookup_eq_some_iff.mp h
  simp

/-- A key is not found just where it is not among the keys. -/
theorem lookup_eq_none_iff {α : Type} {fields : List (String × α)} {key : String} :
    fields.lookup key = none ↔ key ∉ fields.map Prod.fst := by
  rw [List.lookup_eq_none_iff, List.mem_map]
  constructor
  · rintro h ⟨field, hfield, rfl⟩
    simpa using h field hfield
  · intro h field hfield
    exact bne_iff_ne.mpr fun heq => h ⟨field, hfield, heq.symm⟩

/-- No key comes to stand twice when one is added that is not there. -/
theorem nodup_concat {α : Type} {fields : List (String × α)} {key : String}
    (hnodup : (fields.map Prod.fst).Nodup) (hkey : key ∉ fields.map Prod.fst) (a : α) :
    ((fields ++ [(key, a)]).map Prod.fst).Nodup := by
  rw [List.map_append]
  exact hnodup.append (List.nodup_singleton key) (List.disjoint_singleton.mpr hkey)

namespace Fields

variable {fields fields' : Fields} {key : String} {node : Node} {rules : Rules}

/-- A table without keys is tidy. -/
theorem tidy_nil : Tidy [] :=
  ⟨List.nodup_nil, nofun⟩

/-- What is found in a tidy table is tidy. -/
theorem Tidy.lookup (h : fields.Tidy) (hnode : fields.lookup key = some node) : node.Tidy :=
  h.nodes (key, node) (mem_of_lookup hnode)

/-- A table stays tidy when a key is added that is not there. -/
theorem Tidy.append (h : fields.Tidy) (hkey : fields.lookup key = none) (hnode : node.Tidy) :
    Tidy (fields ++ [(key, node)]) where
  nodup := nodup_concat h.nodup (lookup_eq_none_iff.mp hkey) node
  nodes := by
    rw [List.forall_mem_append]
    exact ⟨h.nodes, List.forall_mem_singleton.mpr hnode⟩

/-- A table stays tidy when what stands under a key is replaced. -/
theorem Tidy.replace (h : fields.Tidy) (hnode : node.Tidy) : (fields.replace key node).Tidy where
  nodup := by
    have hkeys : (fields.replace key node).map Prod.fst = fields.map Prod.fst := by
      rw [Fields.replace, List.map_map]
      refine List.map_congr_left fun field _ => ?_
      by_cases hfield : field.1 = key <;> simp [hfield]
    rw [hkeys]
    exact h.nodup
  nodes := by
    refine List.forall_mem_map.mpr fun field hfield => ?_
    split
    next => exact hnode
    next => exact h.nodes field hfield

/-- A tidy table is a tidy node. -/
theorem Tidy.asNode (h : fields.Tidy) (origin : Origin) : (Node.table origin fields).Tidy :=
  .table h.nodup h.nodes

/-- The table of a tidy node is tidy. -/
theorem tidy_of_node {origin : Origin} (h : (Node.table origin fields).Tidy) : fields.Tidy := by
  cases h with
  | table hnodup hnodes => exact ⟨hnodup, hnodes⟩

/-- A table stays tidy when a tidy value is put under a key with dots. -/
theorem Tidy.assign (h : fields.Tidy) {path : List String} {value : Datum} (hvalue : value.Tidy)
    (hassign : Fields.assign rules path key value fields = some fields') : fields'.Tidy := by
  induction path generalizing fields fields' with
  | nil =>
    rw [Fields.assign, Option.ite_none_right_eq_some] at hassign
    obtain ⟨hnone, heq⟩ := hassign
    obtain rfl := Option.some.inj heq
    exact h.append (Option.isNone_iff_eq_none.mp hnone) (.value hvalue)
  | cons part path ih =>
    rw [Fields.assign] at hassign
    split at hassign
    next hnone =>
      obtain ⟨inner, hinner, rfl⟩ := Option.map_eq_some_iff.mp hassign
      exact h.append hnone ((ih tidy_nil hinner).asNode _)
    next inner hfound =>
      obtain ⟨inner', hinner, rfl⟩ := Option.map_eq_some_iff.mp hassign
      exact h.replace ((ih (tidy_of_node (h.lookup hfound)) hinner).asNode _)
    next inner hfound =>
      have hinner := tidy_of_node (h.lookup hfound)
      split at hassign
      next =>
        rw [Option.ite_none_right_eq_some] at hassign
        obtain ⟨inner', hinner', rfl⟩ := Option.map_eq_some_iff.mp hassign.2
        exact h.replace ((ih hinner hinner').asNode _)
      next =>
        obtain ⟨inner', hinner', rfl⟩ := Option.map_eq_some_iff.mp hassign
        exact h.replace ((ih hinner hinner').asNode _)
    next =>
      rw [Option.ite_none_left_eq_some] at hassign
      obtain ⟨last', -, rfl⟩ := Option.map_eq_some_iff.mp hassign.2
      exact h.replace .tables
    next => contradiction
    next => contradiction

/-- A table stays tidy when a table inside is changed in a way that keeps tables tidy. -/
theorem Tidy.within (h : fields.Tidy) {path : List String} {change : Fields → Option Fields}
    (hchange : ∀ fields fields', fields.Tidy → change fields = some fields' → fields'.Tidy)
    (hwithin : Fields.within path change fields = some fields') : fields'.Tidy := by
  induction path generalizing fields fields' with
  | nil => exact hchange fields fields' h hwithin
  | cons part path ih =>
    rw [Fields.within] at hwithin
    split at hwithin
    next hnone =>
      obtain ⟨inner, hinner, rfl⟩ := Option.map_eq_some_iff.mp hwithin
      exact h.append hnone ((ih tidy_nil hinner).asNode _)
    next origin inner hfound =>
      obtain ⟨inner', hinner, rfl⟩ := Option.map_eq_some_iff.mp hwithin
      exact h.replace ((ih (tidy_of_node (h.lookup hfound)) hinner).asNode _)
    next =>
      obtain ⟨last', -, rfl⟩ := Option.map_eq_some_iff.mp hwithin
      exact h.replace .tables
    next => contradiction

/-- A table stays tidy when a table is defined in it. -/
theorem Tidy.define (h : fields.Tidy) (hdefine : Fields.define key fields = some fields') :
    fields'.Tidy := by
  unfold Fields.define at hdefine
  split at hdefine
  next hnone =>
    obtain rfl := Option.some.inj hdefine
    exact h.append hnone (tidy_nil.asNode _)
  next inner hfound =>
    obtain rfl := Option.some.inj hdefine
    exact h.replace ((tidy_of_node (h.lookup hfound)).asNode _)
  next => contradiction

/-- A table stays tidy when a list of tables in it grows. -/
theorem Tidy.appendTable (h : fields.Tidy) (happend : Fields.append key fields = some fields') :
    fields'.Tidy := by
  unfold Fields.append at happend
  split at happend
  next hnone =>
    obtain rfl := Option.some.inj happend
    exact h.append hnone .tables
  next =>
    obtain rfl := Option.some.inj happend
    exact h.replace .tables
  next => contradiction

/-- The values under the keys of a table stand there one by one. -/
theorem data_eq_map (fields : Fields) :
    Fields.data fields = fields.map fun field => (field.1, field.2.toDatum) := by
  induction fields with
  | nil => rfl
  | cons field rest ih =>
    rw [Fields.data, ih]
    rfl

end Fields

/-- A tidy node is a tidy value. -/
theorem Node.Tidy.toDatum {node : Node} (h : node.Tidy) : node.toDatum.Tidy := by
  induction h with
  | value hvalue => exact hvalue
  | @table origin fields hnodup _ ih =>
    rw [Node.toDatum, Fields.data_eq_map]
    refine .table ?_ (List.forall_mem_map.mpr ih)
    rw [List.map_map]
    exact hnodup
  | tables => exact .flat nofun

/-- A tidy table is a tidy value. -/
theorem Fields.Tidy.data {fields : Fields} (h : fields.Tidy) :
    (Datum.table (Fields.data fields)).Tidy :=
  (h.asNode .header).toDatum

/-- The values under the keys of a table stand for them one by one. -/
theorem Datum.fieldValues_eq_map (shown : Moment → Value) (fields : List (String × Datum)) :
    fieldValues shown fields = fields.map fun field => (field.1, field.2.toValue shown) := by
  induction fields with
  | nil => rfl
  | cons field rest ih =>
    rw [fieldValues, ih]
    rfl

/-- A date or time that is shown as a text is no table. -/
theorem Moment.tidy_asText (moment : Moment) : moment.asText.Tidy := by
  rw [asText]
  exact .flat nofun

/-- A tidy value of TOML stands for a tidy value, if dates and times are shown as such. -/
theorem Datum.Tidy.toValue {shown : Moment → Value} (hshown : ∀ moment, (shown moment).Tidy) {value : Datum}
    (h : value.Tidy) : (value.toValue shown).Tidy := by
  induction h with
  | @flat value hflat =>
    cases value with
    | moment m => exact hshown m
    | table fields => exact absurd rfl (hflat fields)
    | _ => exact .flat nofun
  | @table fields hnodup _ ih =>
    rw [Datum.toValue, fieldValues_eq_map]
    refine .table ?_ (List.forall_mem_map.mpr ih)
    rw [List.map_map]
    exact hnodup

/-! ### Tables that are read -/

variable {rules : Rules} {chars rest : List Char} {value : Datum}

/-- A whole number is no table. -/
theorem int64?_tidy {n : Int} (h : int64? n = some value) : value.Tidy := by
  rw [int64?, Option.ite_none_right_eq_some] at h
  obtain rfl := Option.some.inj h.2
  exact .flat nofun

/-- A number in binary floating point is no table. -/
theorem float?_tidy {negative : Bool} {whole fraction : List Char} {exponent : Int}
    (h : float? rules negative whole fraction exponent = some value) : value.Tidy := by
  rw [float?, Option.ite_none_left_eq_some] at h
  obtain rfl := Option.some.inj h.2
  exact .flat nofun

/-- A decimal number is no table. -/
theorem decimal?_tidy {negative : Bool} (h : decimal? rules negative chars = some (value, rest)) :
    value.Tidy := by
  unfold decimal? at h
  obtain ⟨_, -, h⟩ := Option.bind_eq_some_iff.mp h
  obtain ⟨_, -, h⟩ := Option.bind_eq_some_iff.mp h
  obtain ⟨_, -, h⟩ := Option.bind_eq_some_iff.mp h
  dsimp only at h
  split at h
  next =>
    obtain ⟨number, hnumber, heq⟩ := Option.map_eq_some_iff.mp h
    exact (Prod.mk.inj heq).1 ▸ int64?_tidy hnumber
  next =>
    obtain ⟨number, hnumber, heq⟩ := Option.map_eq_some_iff.mp h
    exact (Prod.mk.inj heq).1 ▸ float?_tidy hnumber

/-- A whole number in another base is no table. -/
theorem inBase?_tidy {base : Nat} (h : inBase? base chars = some (value, rest)) : value.Tidy := by
  unfold inBase? at h
  obtain ⟨_, -, h⟩ := Option.bind_eq_some_iff.mp h
  obtain ⟨number, hnumber, heq⟩ := Option.map_eq_some_iff.mp h
  exact (Prod.mk.inj heq).1 ▸ int64?_tidy hnumber

/-- A number after a sign is no table. -/
theorem unsigned?_tidy {negative : Bool} (h : unsigned? rules negative chars = some (value, rest)) :
    value.Tidy := by
  unfold unsigned? at h
  split at h
  next => exact (Prod.mk.inj (Option.some.inj h)).1 ▸ .flat nofun
  next => exact (Prod.mk.inj (Option.some.inj h)).1 ▸ .flat nofun
  next => exact decimal?_tidy h

/-- A number is no table. -/
theorem number?_tidy (h : number? rules chars = some (value, rest)) : value.Tidy := by
  unfold number? at h
  split at h
  next => exact unsigned?_tidy h
  next => exact unsigned?_tidy h
  next => exact inBase?_tidy h
  next => exact inBase?_tidy h
  next => exact inBase?_tidy h
  next => exact unsigned?_tidy h

/-- A value that is made of something else in a way that makes no tables is none. -/
theorem tidy_of_map {α : Type} {answer : Option α} {f : α → Datum × List Char}
    (hf : ∀ a, (f a).1.Tidy) (h : answer.map f = some (value, rest)) : value.Tidy := by
  obtain ⟨a, -, heq⟩ := Option.map_eq_some_iff.mp h
  have hvalue := hf a
  rwa [heq] at hvalue

/-- A word stands for a value that is no table. -/
theorem word?_tidy {word : String} {truth : Bool}
    (h : word? word (.bool truth) chars = some (value, rest)) : value.Tidy := by
  rw [word?, Option.ite_none_right_eq_some] at h
  exact (Prod.mk.inj (Option.some.inj h.2)).1 ▸ .flat nofun

/-- A scalar is no table. -/
theorem scalar?_tidy (h : scalar? rules chars = some (value, rest)) : value.Tidy := by
  unfold scalar? at h
  split at h
  next => exact tidy_of_map (by rintro ⟨_, _⟩; exact .flat nofun) h
  next => exact tidy_of_map (by rintro ⟨_, _⟩; exact .flat nofun) h
  next => exact word?_tidy h
  next => exact word?_tidy h
  next =>
    split at h
    next => exact (Prod.mk.inj (Option.some.inj h)).1 ▸ .flat nofun
    next => exact number?_tidy h

/-- A reader of values reads tidy ones. -/
def ReadsTidy (value? : ValueReader) : Prop :=
  ∀ chars value rest, value? chars = some (value, rest) → value.Tidy

/-- The value of an assignment is tidy. -/
theorem assignment?_tidy {value? : ValueReader} (hvalue : ReadsTidy value?) {key : Key}
    (h : assignment? rules value? chars = some ((key, value), rest)) : value.Tidy := by
  unfold assignment? at h
  obtain ⟨⟨key', after⟩, -, h⟩ := Option.bind_eq_some_iff.mp h
  dsimp only at h
  split at h
  next =>
    obtain ⟨⟨value', after'⟩, hread, heq⟩ := Option.bind_eq_some_iff.mp h
    obtain ⟨heq, -⟩ := Prod.mk.inj (Option.some.inj heq)
    exact (Prod.mk.inj heq).2 ▸ hvalue _ _ _ hread
  next => contradiction

/-- The values of the assignments of an inline table are tidy. -/
theorem assignments?_tidy {value? : ValueReader} (hvalue : ReadsTidy value?) {limit : Nat} {closes : Bool}
    {assignments : List (Key × Datum)}
    (h : assignments? rules value? limit closes chars = some (assignments, rest)) :
    ∀ assignment ∈ assignments, assignment.2.Tidy := by
  induction limit generalizing closes chars assignments rest with
  | zero => contradiction
  | succ limit ih =>
    unfold assignments? at h
    split at h
    next =>
      obtain ⟨rfl, -⟩ := Prod.mk.inj (Option.some.inj h)
      exact nofun
    next =>
      obtain ⟨⟨assignment, after⟩, hfirst, h⟩ := Option.bind_eq_some_iff.mp h
      have hassignment := assignment?_tidy hvalue hfirst
      dsimp only at h
      split at h
      next =>
        obtain ⟨rfl, -⟩ := Prod.mk.inj (Option.some.inj h)
        exact List.forall_mem_singleton.mpr hassignment
      next =>
        obtain ⟨⟨more, after'⟩, hmore, h⟩ := Option.bind_eq_some_iff.mp h
        obtain ⟨rfl, -⟩ := Prod.mk.inj (Option.some.inj h)
        exact List.forall_mem_cons.mpr ⟨hassignment, ih hmore⟩
      next => contradiction

/-- What a fold preserves that may fail at each step is preserved by the whole. -/
theorem foldlM_induction {α β : Type} {motive : β → Prop} {step : β → α → Option β} {items : List α}
    (hstep : ∀ item ∈ items, ∀ b b', motive b → step b item = some b' → motive b') {b b' : β}
    (hb : motive b) (h : items.foldlM step b = some b') : motive b' := by
  induction items generalizing b with
  | nil => exact Option.some.inj h ▸ hb
  | cons item items ih =>
    obtain ⟨hitem, hitems⟩ := List.forall_mem_cons.mp hstep
    rw [List.foldlM_cons] at h
    obtain ⟨next, hnext, h⟩ := Option.bind_eq_some_iff.mp h
    exact ih hitems (hitem b next hb hnext) h

/-- An inline table is tidy. -/
theorem inlineTable?_tidy {assignments : List (Key × Datum)}
    (hvalues : ∀ assignment ∈ assignments, assignment.2.Tidy)
    (h : inlineTable? rules assignments = some value) : value.Tidy := by
  obtain ⟨fields, hfields, heq⟩ := Option.bind_eq_some_iff.mp h
  obtain rfl := Option.some.inj heq
  have htidy : Fields.Tidy fields :=
    foldlM_induction (motive := Fields.Tidy)
      (fun assignment hassignment fields fields' hfields hassign =>
        hfields.assign (hvalues assignment hassignment) hassign) Fields.tidy_nil hfields
  exact htidy.data

/-- A value is tidy, at whatever depth it is read. -/
theorem value?_tidy (allowance : Nat) : ReadsTidy (value? rules allowance) := by
  induction allowance with
  | zero =>
    intro chars value rest h
    unfold value? at h
    split at h <;> first | contradiction | exact scalar?_tidy h
  | succ allowance ih =>
    intro chars value rest h
    unfold value? at h
    split at h
    next => exact tidy_of_map (by rintro ⟨_, _⟩; exact .flat nofun) h
    next =>
      obtain ⟨⟨assignments, after⟩, hassignments, h⟩ := Option.bind_eq_some_iff.mp h
      obtain ⟨table, htable, heq⟩ := Option.bind_eq_some_iff.mp h
      exact (Prod.mk.inj (Option.some.inj heq)).1 ▸
        inlineTable?_tidy (assignments?_tidy ih hassignments) htable
    next => exact scalar?_tidy h

/-! ### Documents -/

/-- A statement that assigns something assigns a tidy value. -/
def Statement.Tidy : Statement → Prop
  | .table _ | .item _ => True
  | .assignment _ value => value.Tidy

/-- A statement is read with a tidy value. -/
theorem statement?_tidy {statement : Statement} (h : statement? rules chars = some (statement, rest)) :
    statement.Tidy := by
  unfold statement? at h
  split at h
  next =>
    obtain ⟨_, -, h⟩ := Option.bind_eq_some_iff.mp h
    dsimp only at h
    split at h <;> first | contradiction | exact (Prod.mk.inj (Option.some.inj h)).1 ▸ trivial
  next =>
    obtain ⟨_, -, h⟩ := Option.bind_eq_some_iff.mp h
    dsimp only at h
    split at h <;> first | contradiction | exact (Prod.mk.inj (Option.some.inj h)).1 ▸ trivial
  next =>
    obtain ⟨⟨⟨key, value⟩, after⟩, hassignment, h⟩ := Option.bind_eq_some_iff.mp h
    obtain ⟨rfl, -⟩ := Prod.mk.inj (Option.some.inj h)
    exact assignment?_tidy (value?_tidy _) hassignment

/-- The statements of a document are read with tidy values. -/
theorem statements?_tidy {limit : Nat} {statements : List Statement}
    (h : statements? rules limit chars = some statements) : ∀ statement ∈ statements, statement.Tidy := by
  induction limit generalizing chars statements with
  | zero => contradiction
  | succ limit ih =>
    rw [statements?] at h
    split at h
    next =>
      obtain rfl := Option.some.inj h
      exact nofun
    next =>
      obtain ⟨⟨first, after⟩, hfirst, h⟩ := Option.bind_eq_some_iff.mp h
      obtain ⟨after', -, h⟩ := Option.bind_eq_some_iff.mp h
      obtain ⟨more, hmore, h⟩ := Option.bind_eq_some_iff.mp h
      obtain rfl := Option.some.inj h
      exact List.forall_mem_cons.mpr ⟨statement?_tidy hfirst, ih hmore⟩

/-- The tables of a document stay tidy with each statement. -/
theorem Assembly.add_tidy {a a' : Assembly} {statement : Statement} (hstatement : statement.Tidy)
    (ha : a.fields.Tidy) (h : a.add rules statement = some a') : a'.fields.Tidy := by
  cases statement with
  | table key =>
    obtain ⟨fields, hfields, rfl⟩ := Option.map_eq_some_iff.mp h
    exact ha.within (fun _ _ => Fields.Tidy.define) hfields
  | item key =>
    obtain ⟨fields, hfields, rfl⟩ := Option.map_eq_some_iff.mp h
    exact ha.within (fun _ _ => Fields.Tidy.appendTable) hfields
  | assignment key value =>
    obtain ⟨fields, hfields, rfl⟩ := Option.map_eq_some_iff.mp h
    exact ha.within (fun _ _ htidy => htidy.assign hstatement) hfields

/-- A document denotes the fields that its statements make up, carried out one after the other. -/
theorem parse?_eq_some_iff {text : String} {fields : List (String × Datum)} :
    parse? rules text = some fields ↔
      ∃ statements assembly,
        statements? rules ((skipMark text.toList).length + 1) (skipMark text.toList) = some statements ∧
        statements.foldlM (Assembly.add rules) ⟨[], []⟩ = some assembly ∧
        Fields.data assembly.fields = fields := by
  unfold parse?
  constructor
  · intro h
    obtain ⟨statements, hstatements, h⟩ := Option.bind_eq_some_iff.mp h
    obtain ⟨assembly, hassembly, h⟩ := Option.bind_eq_some_iff.mp h
    exact ⟨statements, assembly, hstatements, hassembly, Option.some.inj h⟩
  · rintro ⟨statements, assembly, hstatements, hassembly, rfl⟩
    dsimp only
    rw [hstatements, Option.bind_eq_bind, Option.bind_some, hassembly]
    rfl

/-- The table that a document denotes is tidy. -/
theorem parse?_tidy {text : String} {fields : List (String × Datum)}
    (h : parse? rules text = some fields) : (Datum.table fields).Tidy := by
  obtain ⟨statements, assembly, hstatements, hassembly, rfl⟩ := parse?_eq_some_iff.mp h
  have htidy : assembly.fields.Tidy :=
    foldlM_induction (motive := fun a : Assembly => a.fields.Tidy)
      (fun statement hstatement _ _ => Assembly.add_tidy (statements?_tidy hstatements statement hstatement))
      Fields.tidy_nil hassembly
  exact htidy.data

end Toml

end BrokerAdmin
