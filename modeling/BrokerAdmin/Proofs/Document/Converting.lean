import BrokerAdmin.Settings.Basic
import Mathlib.Data.List.Forall2
import Mathlib.Data.Option.Basic

/-!
# Conversion where the type differs

Scalars that have the type which is wanted are not converted, and a date or time, which a document may show as
a table or as a text, is of no such type. So whatever a document gives when everything is taken by its type, it
also gives when scalars are converted and dates and times are restated as texts. This passes from the scalars to
the fields of a record, to lists and tables of records, and to settings as a whole, since every reader is
put together from the readers of its parts in a way that keeps what they give.
-/

namespace BrokerAdmin

variable {α α' β : Type}

/-- Where an answer gives something, another gives something that goes with it. -/
def ExtendsBy (goesWith : α → α' → Prop) (answer : Option α) (answer' : Option α') : Prop :=
  ∀ a, answer = some a → ∃ a', answer' = some a' ∧ goesWith a a'

/-- An answer gives whatever another one gives. -/
def Extends (answer answer' : Option α) : Prop :=
  ∀ a, answer = some a → answer' = some a

/-- What goes on after answers that go with each other gives more if it does for what they give. -/
theorem ExtendsBy.bind {goesWith : α → α' → Prop} {answer : Option α} {answer' : Option α'}
    {next : α → Option β} {next' : α' → Option β} (h : ExtendsBy goesWith answer answer')
    (hnext : ∀ a a', goesWith a a' → Extends (next a) (next' a')) :
    Extends (answer.bind next) (answer'.bind next') := by
  intro b hb
  obtain ⟨a, ha, hb⟩ := Option.bind_eq_some_iff.mp hb
  obtain ⟨a', ha', hgoes⟩ := h a ha
  exact Option.bind_eq_some_iff.mpr ⟨a', ha', hnext a a' hgoes b hb⟩

namespace Extends

/-- An answer gives what it gives. -/
theorem refl (answer : Option α) : Extends answer answer :=
  fun _ h => h

/-- An answer that gives nothing gives no more than any other. -/
theorem none (answer : Option α) : Extends .none answer :=
  nofun

/-- What goes on after an answer goes on in the same way after one that gives more. -/
theorem bind {answer answer' : Option α} {next next' : α → Option β} (h : Extends answer answer')
    (hnext : ∀ a, Extends (next a) (next' a)) : Extends (answer.bind next) (answer'.bind next') := by
  have hsame : ExtendsBy Eq answer answer' := fun a ha => ⟨a, h a ha, rfl⟩
  refine hsame.bind ?_
  rintro a _ rfl
  exact hnext a

/-- A changed answer gives more when the answer does. -/
theorem map {answer answer' : Option α} (h : Extends answer answer') (f : α → β) :
    Extends (answer.map f) (answer'.map f) := by
  intro b hb
  obtain ⟨a, ha, hb⟩ := Option.map_eq_some_iff.mp hb
  exact Option.map_eq_some_iff.mpr ⟨a, h a ha, hb⟩

/-- An answer that is checked gives more when the answer does. -/
theorem filter {answer answer' : Option α} (h : Extends answer answer') (p : α → Bool) :
    Extends (answer.filter p) (answer'.filter p) := by
  intro a ha
  obtain ⟨ha, hp⟩ := Option.filter_eq_some_iff.mp ha
  exact Option.filter_eq_some_iff.mpr ⟨h a ha, hp⟩

/-- Items that go with each other give more together when each of them does. -/
theorem mapM {goesWith : α → α' → Prop} {read : α → Option β} {read' : α' → Option β}
    (h : ∀ a a', goesWith a a' → Extends (read a) (read' a')) {items : List α} {items' : List α'}
    (hitems : List.Forall₂ goesWith items items') : Extends (items.mapM read) (items'.mapM read') := by
  induction hitems with
  | nil => exact refl _
  | cons hitem _ ih =>
    rw [List.mapM_cons, List.mapM_cons]
    exact (h _ _ hitem).bind fun _ => ih.bind fun _ => refl _

end Extends

/-! ### Dates and times as texts -/

namespace Value

/-- Two fields of the same name whose values go with each other. -/
inductive PairedField (goesWith : Value → Value → Prop) : String × Value → String × Value → Prop
  | mk {name : String} {value value' : Value} : goesWith value value' →
      PairedField goesWith (name, value) (name, value')

/-- The second value is the first one, with dates and times that are shown as tables restated as texts. -/
inductive Restated : Value → Value → Prop
  | null : Restated null null
  | bool (b : Bool) : Restated (bool b) (bool b)
  | int (n : Int) : Restated (int n) (int n)
  | float (x : Binary64) : Restated (float x) (float x)
  | text (s : String) : Restated (text s) (text s)
  | moment (written : String) : Restated (moment written) (text written)
  | list {items items' : List Value} : List.Forall₂ Restated items items' →
      Restated (list items) (list items')
  | table {fields fields' : List (String × Value)} : List.Forall₂ (PairedField Restated) fields fields' →
      Restated (table fields) (table fields')

/-- Fields of the same names with restated values. -/
abbrev RestatedFields : List (String × Value) → List (String × Value) → Prop :=
  List.Forall₂ (PairedField Restated)

/-- Restated items under the same names are restated fields. -/
theorem restatedFields_zip (names : List String) {items items' : List Value}
    (h : List.Forall₂ Restated items items') : RestatedFields (names.zip items) (names.zip items') := by
  induction names generalizing items items' with
  | nil => exact .nil
  | cons name names ih =>
    cases h with
    | nil => exact .nil
    | cons hitem hitems => exact .cons (.mk hitem) (ih hitems)

end Value

/-! ### Fields, lists and tables -/

namespace Value

variable {read read' : Value → Option α} {fields fields' : List (String × Value)}

/-- What is found under a name is restated where the fields are. -/
theorem field?_restated (hfields : RestatedFields fields fields') (name : String) :
    ExtendsBy (Option.Rel Restated) (field? fields name) (field? fields' name) := by
  have hfilter : RestatedFields (fields.filter fun field => field.1 == name)
      (fields'.filter fun field => field.1 == name) :=
    List.rel_filter (by rintro _ _ ⟨_⟩; rfl) hfields
  intro found hfound
  unfold field? at hfound ⊢
  generalize fields.filter (fun field => field.1 == name) = here at hfilter hfound
  generalize fields'.filter (fun field => field.1 == name) = here' at hfilter
  cases hfilter with
  | nil =>
    obtain rfl := Option.some.inj hfound
    exact ⟨none, rfl, .none⟩
  | cons hfirst hrest =>
    cases hrest with
    | nil =>
      obtain rfl := Option.some.inj hfound
      cases hfirst with
      | mk hvalue => exact ⟨_, rfl, .some hvalue⟩
    | cons => contradiction

/-- A field that must be there gives more when its reader does. -/
theorem required_extends (h : ∀ value value', Restated value value' → Extends (read value) (read' value'))
    (hfields : RestatedFields fields fields') (name : String) :
    Extends (required fields name read) (required fields' name read') := by
  refine (field?_restated hfields name).bind fun found found' hfound => ?_
  cases hfound with
  | none => exact .none _
  | some hvalue => exact h _ _ hvalue

/-- A field that may be missing gives more when its reader does. -/
theorem defaulted_extends (h : ∀ value value', Restated value value' → Extends (read value) (read' value'))
    (hfields : RestatedFields fields fields') (name : String) (default : α) :
    Extends (defaulted fields name read default) (defaulted fields' name read' default) := by
  refine (field?_restated hfields name).bind fun found found' hfound => ?_
  cases hfound with
  | none => exact .refl _
  | some hvalue => exact h _ _ hvalue

/-- A value that may be null gives more when its reader does. -/
theorem nullable_extends (h : ∀ value value', Restated value value' → Extends (read value) (read' value'))
    (value value' : Value) (hvalue : Restated value value') :
    Extends (nullable read value) (nullable read' value') := by
  cases hvalue with
  | null => exact .refl _
  | bool b => exact (h _ _ (.bool b)).map some
  | int n => exact (h _ _ (.int n)).map some
  | float x => exact (h _ _ (.float x)).map some
  | text s => exact (h _ _ (.text s)).map some
  | moment written => exact (h _ _ (.moment written)).map some
  | list hitems => exact (h _ _ (.list hitems)).map some
  | table hfields => exact (h _ _ (.table hfields)).map some

/-- A field that may be missing or null gives more when its reader does. -/
theorem optional_extends (h : ∀ value value', Restated value value' → Extends (read value) (read' value'))
    (hfields : RestatedFields fields fields') (name : String) :
    Extends (optional fields name read) (optional fields' name read') :=
  defaulted_extends (nullable_extends h) hfields name none

/-- A list gives more when the reader of its items does. -/
theorem listOf_extends (h : ∀ value value', Restated value value' → Extends (read value) (read' value'))
    (value value' : Value) (hvalue : Restated value value') :
    Extends (listOf read value) (listOf read' value') := by
  cases hvalue with
  | list hitems => exact .mapM h hitems
  | _ => exact .none _

/-- A table of entries gives more when their reader does, if no text is an entry: a date or time would be a
table with one. -/
theorem catalogOf_extends (h : ∀ value value', Restated value value' → Extends (read value) (read' value'))
    (htext : ∀ s, read (.text s) = none) (value value' : Value) (hvalue : Restated value value') :
    Extends (catalogOf read value) (catalogOf read' value') := by
  cases hvalue with
  | table hfields =>
    refine (Extends.mapM (fun field field' hfield => ?_) hfields).map Catalog.ofList
    cases hfield with
    | mk hentry => exact (h _ _ hentry).map _
  | moment written =>
    have hentry : catalogOf read (moment written) = none := by
      rw [moment, catalogOf, List.mapM_cons, htext]
      rfl
    rw [hentry]
    exact .none _
  | _ => exact .none _

end Value

/-! ### Scalars -/

/-- A way to take records from documents in which no date or time is of a type that is wanted, and another one by
which every record is taken that is taken by the first, and as the same. -/
structure Reading.Extended (reading reading' : Reading) : Prop where
  text : ∀ value value', value.Restated value' → Extends (reading.text? value) (reading'.text? value')
  bool : ∀ value value', value.Restated value' → Extends (reading.bool? value) (reading'.bool? value')
  int : ∀ value value', value.Restated value' → Extends (reading.int? value) (reading'.int? value')
  number : ∀ value value', value.Restated value' → Extends (reading.number? value) (reading'.number? value')
  surplus : reading.surplus = true → reading'.surplus = true
  moments : reading.moments = false ∧ reading'.moments = true

/-- A scalar of the type that is wanted is not converted. -/
theorem Reading.strict_extended : Reading.strict.Extended Reading.converting where
  text _ _ h := by cases h <;> first | exact .refl _ | exact .none _
  bool _ _ h := by cases h <;> first | exact .refl _ | exact .none _
  int _ _ h := by cases h <;> first | exact .refl _ | exact .none _
  number _ _ h := by cases h <;> first | exact .refl _ | exact .none _
  surplus h := h
  moments := ⟨rfl, rfl⟩

namespace Reading.Extended

variable {reading reading' : Reading} (h : reading.Extended reading')
include h

/-- A record is taken from no fewer tables and lists, with restated fields. -/
theorem record (names : List String) (least : Nat) {value value' : Value} (hvalue : value.Restated value') :
    ExtendsBy Value.RestatedFields (reading.record? names least value)
      (reading'.record? names least value') := by
  intro fields hfields
  cases hvalue with
  | list hitems =>
    simp only [record?, Option.ite_none_right_eq_some] at hfields ⊢
    obtain ⟨⟨hleast, hlength⟩, heq⟩ := hfields
    obtain rfl := Option.some.inj heq
    have hsame := hitems.length_eq
    exact ⟨_, ⟨⟨hsame ▸ hleast, hsame ▸ hlength.imp_left h.surplus⟩, rfl⟩, Value.restatedFields_zip names hitems⟩
  | table hrelated =>
    simp only [record?, Option.ite_none_right_eq_some] at hfields
    obtain rfl := Option.some.inj hfields.2
    refine ⟨_, ?_, hrelated⟩
    rw [record?, h.moments.2]
    rfl
  | moment written =>
    rw [Value.moment, record?, h.moments.1] at hfields
    contradiction
  | _ => contradiction

/-- Whole numbers of 64 bits are taken from no fewer scalars. -/
theorem int64 (value value' : Value) (hvalue : value.Restated value') :
    Extends (Bridge.int64? reading value) (Bridge.int64? reading' value') :=
  ((h.int value value' hvalue).filter _).map _

/-- So are entries of a credential store. -/
theorem credentialReference (value value' : Value) (hvalue : value.Restated value') :
    Extends (Bridge.CredentialReference.ofValue? reading value)
      (Bridge.CredentialReference.ofValue? reading' value') := by
  refine (h.record _ _ hvalue).bind fun fields fields' hfields => ?_
  refine (Value.required_extends h.text hfields _).bind fun _ => ?_
  exact (Value.required_extends h.text hfields _).bind fun _ => .refl _

/-- So are declared bridges. -/
theorem declared (value value' : Value) (hvalue : value.Restated value') :
    Extends (Bridge.Declared.ofValue? reading value) (Bridge.Declared.ofValue? reading' value') := by
  refine (h.record _ _ hvalue).bind fun fields fields' hfields => ?_
  -- the fields are read one after the other
  repeat refine Extends.bind (by first
    | exact Value.required_extends h.text hfields _
    | exact Value.optional_extends h.text hfields _
    | exact Value.optional_extends (Value.listOf_extends h.text) hfields _
    | exact Value.optional_extends h.credentialReference hfields _
    | exact Value.defaulted_extends h.int64 hfields _ _
    | exact Value.defaulted_extends h.number hfields _ _
    | exact Value.defaulted_extends h.bool hfields _ _
    | exact Value.defaulted_extends h.text hfields _ _) fun _ => ?_
  exact .refl _

/-- So are the overridden attributes of a bridge. -/
theorem override (value value' : Value) (hvalue : value.Restated value') :
    Extends (Bridge.Override.ofValue? reading value) (Bridge.Override.ofValue? reading' value') := by
  refine (h.record _ _ hvalue).bind fun fields fields' hfields => ?_
  refine (Value.optional_extends h.int64 hfields _).bind fun _ => ?_
  exact (Value.optional_extends h.text hfields _).bind fun _ => .refl _

/-- So are the overrides for all bridges. -/
theorem overrides (value value' : Value) (hvalue : value.Restated value') :
    Extends (Bridge.Overrides.ofValue? reading value) (Bridge.Overrides.ofValue? reading' value') := by
  refine (h.record _ _ hvalue).bind fun fields fields' hfields => ?_
  refine (Value.optional_extends h.int64 hfields _).bind fun _ => ?_
  have hbridges := Value.catalogOf_extends h.override fun _ => rfl
  exact (Value.defaulted_extends hbridges hfields _ _).bind fun _ => .refl _

/-- So are log levels. -/
theorem logLevel (value value' : Value) (hvalue : value.Restated value') :
    Extends (Settings.logLevelOfValue? reading value) (Settings.logLevelOfValue? reading' value') := by
  refine (h.record _ _ hvalue).bind fun fields fields' hfields => ?_
  exact Value.defaulted_extends h.text hfields _ _

/-- So are settings. -/
theorem settings (value value' : Value) (hvalue : value.Restated value') :
    Extends (Settings.ofValue? reading value) (Settings.ofValue? reading' value') := by
  refine (h.record _ _ hvalue).bind fun fields fields' hfields => ?_
  refine (Value.defaulted_extends h.logLevel hfields _ _).bind fun _ => ?_
  refine (Value.defaulted_extends (Value.listOf_extends h.declared) hfields _ _).bind fun _ => ?_
  exact (Value.defaulted_extends h.overrides hfields _ _).bind fun _ => .refl _

end Reading.Extended

end BrokerAdmin
