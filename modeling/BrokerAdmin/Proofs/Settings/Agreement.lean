import BrokerAdmin.Proofs.Settings.Overlay
import BrokerAdmin.Proofs.Settings.Validation

/-!
# Both ways to settings

A text that holds settings on its own gives the same settings as a file, if nothing else has a say: it has no
placeholders, no variable of the environment gives a setting, and both readers take it for the same table.
The scalars of the text have the types that are wanted, so conversion leaves them alone; and the defaults
that lie below a file are those that the text has anyway. Only the keys of the outermost table must be
such as need no quotes, since a file's are taken for paths.

Dates and times are of no type that is wanted, and may stand wherever nothing is looked for. The reader of files
makes texts of them, while a text on its own shows them as tables; so it is assumed that strictly by type, which
is without a date or time in the place of a record, the text holds the same settings.
-/

namespace BrokerAdmin

namespace Settings

/-! ### What has no say -/

/-- A text without placeholders stays as it is. -/
theorem substitute_eq_self (environment : String → Option String) {chars : List Char}
    (h : ¬ ['$', '\x7b'] <:+: chars) : substitute environment chars = chars := by
  fun_induction substitute environment chars with
  | case1 => rfl
  | case2 rest p more hplaceholder hlength ih => exact absurd ⟨[], rest, rfl⟩ h
  | case3 rest hplaceholder ih => exact absurd ⟨[], rest, rfl⟩ h
  | case4 c rest hother ih => rw [ih fun hrest => h (hrest.trans (List.suffix_cons c rest).isInfix)]

/-- A variable whose name does not begin with the mark, in either case, gives no setting. -/
theorem variableKey?_eq_none {name : String} (h : ¬ variableMark <+: name.toList.map Char.toLower) :
    variableKey? name = none := by
  refine if_neg fun hmark => h ?_
  rw [List.isPrefixOf_iff_prefix, List.prefix_iff_eq_take, ← List.map_take] at hmark
  have hlower : (name.toList.take variableMark.length).map lowerChar =
      (name.toList.take variableMark.length).map Char.toLower := by
    refine List.map_congr_left fun c hc => ?_
    -- the one character that becomes a letter by a rule of its own becomes none of the mark
    have hmem : lowerChar c ∈ variableMark := hmark ▸ List.mem_map_of_mem hc
    unfold lowerChar at hmem ⊢
    split
    next hkelvin =>
      rw [if_pos hkelvin] at hmem
      exact absurd hmem (by decide)
    next => rfl
  rw [List.prefix_iff_eq_take, ← List.map_take, ← hlower]
  exact hmark

/-- Variables that give no settings leave those of the other sources as they are. -/
theorem overlayVariables_eq_self {environment : List (String × String)}
    (h : ∀ entry ∈ environment, variableKey? entry.1 = none) (base : Value) :
    overlayVariables environment base = base := by
  unfold overlayVariables
  induction environment with
  | nil => rfl
  | cons entry rest ih =>
    obtain ⟨hentry, hrest⟩ := List.forall_mem_cons.mp h
    rw [List.foldl_cons]
    dsimp only
    rw [hentry]
    exact ih hrest

/-- The text of a file that was written in UTF-8. -/
theorem textOf_toUTF8 (text : String) : textOf (.ok text.toUTF8) = .ok text := by
  have htext : String.fromUTF8? text.toUTF8 = some text := dif_pos text.isValidUTF8
  simp only [textOf, htext]

end Settings

/-! ### Dates and times -/

namespace Toml.Datum

mutual

/-- A value of TOML is shown in two ways, with its dates and times as tables and restated as texts. -/
theorem restated : ∀ value : Datum, (value.toValue Moment.asTable).Restated (value.toValue Moment.asText)
  | bool value => .bool value
  | int value => .int value
  | float value => .float value
  | text value => .text value
  | moment value => .moment value.written
  | list items => .list (items_restated items)
  | table fields => .table (fields_restated fields)

/-- The items of a list are restated one by one. -/
theorem items_restated : ∀ items : List Datum,
    List.Forall₂ Value.Restated (itemValues Moment.asTable items) (itemValues Moment.asText items)
  | [] => .nil
  | item :: rest => .cons item.restated (items_restated rest)

/-- The values of fields are restated under their names. -/
theorem fields_restated : ∀ fields : List (String × Datum),
    Value.RestatedFields (fieldValues Moment.asTable fields) (fieldValues Moment.asText fields)
  | [] => .nil
  | (_, value) :: rest => .cons (.mk value.restated) (fields_restated rest)

end

end Toml.Datum

namespace Settings

/-! ### The settings of a file -/

/-- Settings that are found consistent are given as they were found. -/
theorem consistent_eq_ok_iff {s s' : Settings} :
    consistent s = .ok s' ↔ s.validate = .ok () ∧ s = s' := by
  unfold consistent
  cases s.validate <;> simp

/-- A text holds settings when there are some in it and they are consistent. -/
theorem parse_eq_ok_iff {text : String} {s : Settings} :
    parse text = .ok s ↔ ofText? .typed text = some s ∧ s.validate = .ok () := by
  unfold parse
  cases ofText? .typed text with
  | none => exact iff_of_false nofun fun h => nomatch h.1
  | some found =>
    dsimp only
    rw [consistent_eq_ok_iff, Option.some.injEq]
    constructor
    · rintro ⟨hvalid, rfl⟩
      exact ⟨rfl, hvalid⟩
    · rintro ⟨rfl, hvalid⟩
      exact ⟨hvalid, rfl⟩

set_option maxRecDepth 4000 in
/-- Both readers take a text with a date, a log level and a bridge for the same table. -/
theorem parse?_bridge {rules : Toml.Rules} (hrules : rules = textRules ∨ rules = fileRules) :
    Toml.parse? rules
        ("built = 2024-05-01\nlog.level = \"warn\"\n[[bridge]]\nname = \"a\"\nqueue_name = \"q\"\n" ++
          "static_connectors = [\"c\"]") =
      some [("built", .moment (.date ⟨2024, 5, 1⟩)), ("log", .table [("level", .text "warn")]),
        ("bridge", .list [.table [("name", .text "a"), ("queue_name", .text "q"),
          ("static_connectors", .list [.text "c"])]])] := by
  -- the statements of the text, and the tables as they are built up from them
  refine Toml.parse?_eq_some_iff.mpr
    ⟨[.assignment ⟨[], "built"⟩ (.moment (.date ⟨2024, 5, 1⟩)),
        .assignment ⟨["log"], "level"⟩ (.text "warn"), .item ⟨[], "bridge"⟩,
        .assignment ⟨[], "name"⟩ (.text "a"), .assignment ⟨[], "queue_name"⟩ (.text "q"),
        .assignment ⟨[], "static_connectors"⟩ (.list [.text "c"])],
      ⟨["bridge"], [("built", .value (.moment (.date ⟨2024, 5, 1⟩))),
        ("log", .table .dottedKey [("level", .value (.text "warn"))]),
        ("bridge", .tables [] [("name", .value (.text "a")), ("queue_name", .value (.text "q")),
          ("static_connectors", .value (.list [.text "c"]))])]⟩, ?_, ?_, rfl⟩
  · rcases hrules with rfl | rfl <;> with_unfolding_all rfl
  · rcases hrules with rfl | rfl <;> rfl

/-- A text that holds settings on its own holds the same settings as a file, and all its bridges resolve. It
must have no placeholders, be taken for the same table by the reader of files and hold these settings strictly
by type, the keys of this table must need no quotes, and no variable of the environment may begin with the
mark of settings, in either case. -/
theorem load_eq_of_parse {text : String} {environment : List (String × String)} {s : Settings}
    (hreaders : Toml.parse? fileRules text = Toml.parse? textRules text)
    (hstrict : ofText? .strict text = ofText? .typed text)
    (hkeys : ∀ fields, Toml.parse? textRules text = some fields →
      ∀ field ∈ fields, ∀ c ∈ field.1.toList, Toml.isBare c = true)
    (hplaceholders : ¬ ['$', '\x7b'] <:+: text.toList)
    (henvironment : ∀ entry ∈ environment, ¬ variableMark <+: entry.1.toList.map Char.toLower)
    (hparse : parse text = .ok s) :
    load environment (.ok text.toUTF8) = .ok s ∧ ∃ specs, s.resolvedBridges = .ok specs := by
  obtain ⟨hfound, hvalid⟩ := parse_eq_ok_iff.mp hparse
  rw [← hstrict] at hfound
  obtain ⟨fields, hfields, hvalue⟩ := Option.bind_eq_some_iff.mp hfound
  have hbare : ∀ field ∈ Toml.Datum.fieldValues Toml.Moment.asText fields, ∀ c ∈ field.1.toList,
      Toml.isBare c = true := by
    rw [Toml.Datum.fieldValues_eq_map]
    exact List.forall_mem_map.mpr (hkeys fields hfields)
  have hoverlay : overlayFile? environment text defaults =
      some (.table (Value.fieldsOver [("log", .table defaultLog)]
        (Toml.Datum.fieldValues Toml.Moment.asText fields))) := by
    rw [overlayFile?, substitute_eq_self _ hplaceholders, String.ofList_toList, hreaders, hfields,
      Option.map_some, defaults_eq, foldl_set_eq hbare]
  have hvariables := overlayVariables_eq_self fun entry hentry =>
    variableKey?_eq_none (henvironment entry hentry)
  have htidy : (Value.table (Toml.Datum.fieldValues Toml.Moment.asText fields)).Tidy :=
    (Toml.parse?_tidy hfields).toValue Toml.Moment.tidy_asText
  have hrestated : ofValue? .converting (.table (Toml.Datum.fieldValues Toml.Moment.asText fields)) = some s :=
    Reading.strict_extended.settings _ _ (.table (Toml.Datum.fields_restated fields)) s hvalue
  have hmerged := ofValue?_extends_overlaid htidy s hrestated
  have hgather : gather environment (some text) = .ok s := by
    simp only [gather, Option.elim_some, hoverlay, Option.bind_some, hvariables, hmerged]
    exact consistent_eq_ok_iff.mpr ⟨hvalid, rfl⟩
  refine ⟨?_, exists_mapM_eq_ok ((validate_eq_ok_iff s).mp hvalid).2.2.1⟩
  change loadFile environment (.ok text.toUTF8) = _
  rw [loadFile, textOf_toUTF8]
  exact hgather

/-- A file with a date under a key that no setting has, a log level and a bridge, in an environment with a
variable of another program. -/
theorem load_eq_of_parse_bridge :
    let text :=
      "built = 2024-05-01\nlog.level = \"warn\"\n[[bridge]]\nname = \"a\"\nqueue_name = \"q\"\n" ++
        "static_connectors = [\"c\"]"
    let s : Settings := { logLevel := "warn", bridges := [.withConnectors "a" "q" ["c"]] }
    Toml.parse? fileRules text = Toml.parse? textRules text ∧
      ofText? .strict text = ofText? .typed text ∧ parse text = .ok s ∧
        load [("HOME", "/root")] (.ok text.toUTF8) = .ok s := by
  intro text s
  let fields : List (String × Toml.Datum) := [("built", .moment (.date ⟨2024, 5, 1⟩)),
    ("log", .table [("level", .text "warn")]),
    ("bridge", .list [.table [("name", .text "a"), ("queue_name", .text "q"),
      ("static_connectors", .list [.text "c"])]])]
  have htext : Toml.parse? textRules text = some fields := parse?_bridge (.inl rfl)
  have hfile : Toml.parse? fileRules text = some fields := parse?_bridge (.inr rfl)
  have hfound (reading : Reading) : ofText? reading text =
      ofValue? reading (.table (Toml.Datum.fieldValues Toml.Moment.asTable fields)) := by
    rw [ofText?, htext, Option.bind_some]
  have htyped : ofText? .typed text = some s := (hfound .typed).trans rfl
  have hstrict : ofText? .strict text = ofText? .typed text := (hfound .strict).trans htyped.symm
  have hparse : parse text = .ok s := parse_eq_ok_iff.mpr ⟨htyped, by unfold s; decide +kernel⟩
  have hkeys : ∀ fields', Toml.parse? textRules text = some fields' →
      ∀ field ∈ fields', ∀ c ∈ field.1.toList, Toml.isBare c = true := by
    intro fields' hfields'
    obtain rfl := Option.some.inj (htext.symm.trans hfields')
    have hbuilt : "built".toList.all Toml.isBare = true := by decide
    have hlog : "log".toList.all Toml.isBare = true := by decide
    have hbridge : "bridge".toList.all Toml.isBare = true := by decide
    exact List.forall_mem_cons.mpr ⟨List.all_eq_true.mp hbuilt, List.forall_mem_cons.mpr
      ⟨List.all_eq_true.mp hlog, List.forall_mem_singleton.mpr (List.all_eq_true.mp hbridge)⟩⟩
  have hdollar : '$' ∉ text.toList := by
    unfold text
    decide
  have hplaceholders : ¬ ['$', '\x7b'] <:+: text.toList :=
    fun h => hdollar (h.subset List.mem_cons_self)
  exact ⟨hfile.trans htext.symm, hstrict, hparse,
    (load_eq_of_parse (hfile.trans htext.symm) hstrict hkeys hplaceholders (by decide) hparse).1⟩

end Settings

end BrokerAdmin
