import BrokerAdmin.Proofs.Json.Numbers

/-!
# Reading what was written as JSON

The reader gives back every value that was written as compact text, so long as its whole numbers fit 64 bits,
each of its numbers in binary floating point is read back where it stands alone, and no field is passed over.
Strings may hold any characters: those that the writer escapes are told from their escapes again.

A value is read off the front of a longer text, since that is how the items of lists and the fields of tables
are read. Only a number could go on with what stands behind it, and neither a comma nor a closing bracket
goes on with a number. The reader's bound on its depth is never reached: it spends one step where the text
has at least one character.
-/

namespace BrokerAdmin.Json

/-! ### Strings -/

/-- The digits of a code below 256, behind two zeros, are read as the code. -/
theorem hexDigits?_hexPair {code : Nat} (hcode : code < 256) (rest : List Char) :
    Text.hexDigits? 4 ('0' :: '0' :: hexPair code ++ rest) = some (code, rest) := by
  have hdigit : ∀ digit < 16, Text.hexDigit? (Nat.digitChar digit) = some digit := by decide
  have hhigh := hdigit (code / 16) (by omega)
  have hlow := hdigit (code % 16) (by omega)
  have hzero : Text.hexDigit? '0' = some 0 := by decide
  simp [Text.hexDigits?, hexPair, hzero, hhigh, hlow]
  omega

/-- A code that an escape gives in four digits is read as its character. -/
theorem unescape?_hexPair (passing : Bool) {code : Nat} (hcode : code < 256) (rest : List Char) :
    unescape? passing ('u' :: '0' :: '0' :: hexPair code ++ rest) = some (Char.ofNat code, rest) := by
  have hdigits := hexDigits?_hexPair hcode rest
  simp only [List.cons_append] at hdigits ⊢
  cases passing with
  | true => simp [unescape?, hdigits]
  | false =>
    have hleading : ¬ (0xD800 ≤ code ∧ code < 0xDC00) := by omega
    have htrailing : ¬ (0xDC00 ≤ code ∧ code < 0xE000) := by omega
    simp [unescape?, codePoint?, hdigits, hleading, htrailing]

/-- An escape is read as the character that it stands for, and every other character as itself. -/
theorem stringBody_escaped (passing : Bool) (fuel : Nat) (sofar : List Char) (c : Char)
    (rest : List Char) :
    stringBody passing (fuel + 1) sofar (escaped c ++ rest) = stringBody passing fuel (c :: sofar) rest := by
  unfold escaped
  split
  case h_8 hquote hbackslash _ _ _ _ _ =>
    split
    next hcontrol =>
      have hread := unescape?_hexPair passing (by omega : c.toNat < 256) rest
      rw [Char.ofNat_toNat] at hread
      change stringBody passing (fuel + 1) sofar ('\\' :: ('u' :: '0' :: '0' :: hexPair c.toNat ++ rest)) = _
      rw [stringBody, hread]
      rfl
    next hplain =>
      rw [List.singleton_append, stringBody]
      · exact if_neg hplain
      · exact hquote
      · exact hbackslash
  all_goals simp [stringBody, unescape?]

/-- An escaped text is read up to the closing quote. -/
theorem stringBody_flatMap_escaped (passing : Bool) (text : List Char) (rest : List Char) {fuel : Nat}
    (hfuel : (text.flatMap escaped).length < fuel) (sofar : List Char) :
    stringBody passing fuel sofar (text.flatMap escaped ++ '"' :: rest) =
      some (String.ofList (sofar.reverse ++ text), rest) := by
  induction text generalizing fuel sofar with
  | nil =>
    obtain ⟨fuel, rfl⟩ := Nat.exists_eq_add_of_lt hfuel
    simp [stringBody]
  | cons c text ih =>
    rw [List.flatMap_cons, List.length_append] at hfuel
    obtain ⟨fuel, rfl⟩ : ∃ more, fuel = more + 1 := ⟨fuel - 1, by omega⟩
    have hescaped : 0 < (escaped c).length := by
      unfold escaped
      split <;> simp
      split <;> simp
    rw [List.flatMap_cons, List.append_assoc, stringBody_escaped, ih (by omega)]
    simp

/-- A string is read as the text that was written. -/
theorem string?_string (passing : Bool) (s : String) (rest : List Char) :
    ∃ chars, string s ++ rest = '"' :: chars ∧ string? passing chars = some (s, rest) := by
  refine ⟨s.toList.flatMap escaped ++ '"' :: rest, by simp [string], ?_⟩
  rw [string?, stringBody_flatMap_escaped]
  · simp
  · rw [List.length_append]
    omega

/-! ### Values -/

/-- A value that reading gives back: its whole numbers have 64 bits, each of its numbers in binary floating
point is read back where it stands alone, and no field is passed over. -/
inductive Kept (ignored : String → Bool) : Value → Prop
  | null : Kept ignored .null
  | bool (b : Bool) : Kept ignored (.bool b)
  | int {n : Int} : FitsBits n → Kept ignored (.int n)
  | float {x : Binary64} : parse? (render (.float x)) = some (.float x) → Kept ignored (.float x)
  | text (s : String) : Kept ignored (.text s)
  | list {items : List Value} : (∀ item ∈ items, Kept ignored item) → Kept ignored (.list items)
  | table {fields : List (String × Value)} : (∀ field ∈ fields, ignored field.1 = false) →
      (∀ field ∈ fields, Kept ignored field.2) → Kept ignored (.table fields)

/-- Items that are written are kept when each of them is. -/
theorem Kept.map {α : Type} {ignored : String → Bool} {write : α → Value} {items : List α}
    (h : ∀ a ∈ items, Kept ignored (write a)) : Kept ignored (.list (items.map write)) := by
  refine .list fun value hvalue => ?_
  obtain ⟨a, ha, rfl⟩ := List.mem_map.mp hvalue
  exact h a ha

/-- What is kept where some fields are passed over is kept where none is. -/
theorem Kept.everywhere {ignored : String → Bool} {value : Value} (h : Kept ignored value) :
    Kept (fun _ => false) value := by
  induction h with
  | null => exact .null
  | bool b => exact .bool b
  | int hn => exact .int hn
  | float hx => exact .float hx
  | text s => exact .text s
  | list _ ih => exact .list ih
  | table _ _ ih => exact .table (fun _ _ => rfl) ih

/-- A value is read off the front of a text that cannot go on with a number. -/
def ReadBack (ignored : String → Bool) (value : Value) : Prop :=
  ∀ {rest : List Char} {fuel : Nat}, rest.head?.any continuesNumber = false →
    (compact value).length ≤ fuel → value? ignored false fuel (compact value ++ rest) = some (value, rest)

/-- What a value may begin with. -/
def beginsValue (c : Char) : Bool :=
  c.isDigit || ['\x7b', '[', '"', '-', 't', 'f', 'n'].contains c

/-- A value does not begin with white space. -/
theorem skipSpace_of_beginsValue {c : Char} (hc : beginsValue c = true) (rest : List Char) :
    skipSpace (c :: rest) = c :: rest := by
  unfold skipSpace
  split
  case h_5 => rfl
  all_goals
    next heq =>
      obtain ⟨rfl, -⟩ := List.cons.inj heq
      exact absurd hc (by decide)

/-- A digit begins a number. -/
theorem value?_of_isDigit {c : Char} (hc : c.isDigit = true) (ignored : String → Bool) (passing : Bool)
    (fuel : Nat) (rest : List Char) :
    value? ignored passing (fuel + 1) (c :: rest) = number? passing false (c :: rest) := by
  have hbegins : beginsValue c = true := by simp [beginsValue, hc]
  rw [value?, skipSpace_of_beginsValue hbegins]
  split
  case h_8 => rfl
  all_goals
    next heq =>
      obtain ⟨rfl, -⟩ := List.cons.inj heq
      exact absurd hc (by decide)

/-- A number in binary floating point begins with a sign or a digit, and one that JSON cannot write begins
like `null`. -/
theorem exists_number_eq_cons (x : Binary64) :
    ∃ first rest, number x = first :: rest ∧ beginsValue first = true := by
  cases x with
  | nan => exact ⟨_, _, rfl, by decide⟩
  | infinite negative => exact ⟨_, _, rfl, by decide⟩
  | finite negative m q =>
    obtain ⟨size, hnumber, hsize⟩ := exists_number_eq negative m q
    rw [hnumber]
    cases negative with
    | true => exact ⟨_, _, rfl, by decide⟩
    | false =>
      obtain ⟨hbegins, -⟩ := hsize
      cases size with
      | nil => contradiction
      | cons first rest => exact ⟨first, rest, rfl, by simpa [beginsValue] using .inl hbegins⟩

/-- A value is written with at least one character, and does not begin with white space or a closing
bracket. -/
theorem exists_compact_eq_cons {ignored : String → Bool} {value : Value} (h : Kept ignored value) :
    ∃ first rest, compact value = first :: rest ∧ beginsValue first = true := by
  cases h with
  | null => exact ⟨_, _, rfl, by decide⟩
  | bool b => cases b <;> exact ⟨_, _, rfl, by decide⟩
  | @int n hn =>
    change ∃ first rest, Text.numeral n = first :: rest ∧ _
    unfold Text.numeral
    split
    next => exact ⟨_, _, rfl, by decide⟩
    next =>
      obtain ⟨first, rest, hdigits, hfirst⟩ := exists_toDigits_eq_cons n.natAbs
      exact ⟨first, rest, hdigits, by simp [beginsValue, hfirst]⟩
  | @float x hx => exact exists_number_eq_cons x
  | text s => exact ⟨_, _, rfl, by decide⟩
  | list => exact ⟨_, _, rfl, by decide⟩
  | table => exact ⟨_, _, rfl, by decide⟩

/-- A sign or a digit begins a number. -/
theorem value?_signed (ignored : String → Bool) (passing negative : Bool) {size : List Char}
    (hsize : IsUnsigned size) (fuel : Nat) (rest : List Char) :
    value? ignored passing (fuel + 1) ((if negative then '-' :: size else size) ++ rest) =
      number? passing negative (size ++ rest) := by
  cases negative with
  | true =>
    rw [if_pos rfl, List.cons_append, value?, skipSpace_of_beginsValue (by decide)]
    rfl
  | false =>
    obtain ⟨hbegins, -⟩ := hsize
    cases size with
    | nil => contradiction
    | cons first size => exact value?_of_isDigit hbegins ignored passing fuel (size ++ rest)

/-- A number leaves no white space that it could be written with. -/
theorem eq_nil_of_skipSpace {chars : List Char} (hwrites : ∀ c ∈ chars, writesNumber c = true)
    (hskip : (skipSpace chars).isEmpty = true) : chars = [] := by
  cases chars with
  | nil => rfl
  | cons c rest =>
    have hc := hwrites c List.mem_cons_self
    have hnone : skipSpace (c :: rest) = c :: rest := by
      unfold skipSpace
      split
      case h_5 => rfl
      all_goals
        next heq =>
          obtain ⟨rfl, -⟩ := List.cons.inj heq
          exact absurd hc (by decide)
    rw [hnone] at hskip
    contradiction

/-- Where a text denotes a value, the value is read off its front and only white space is left. -/
theorem exists_left_of_parse {ignored : String → Bool} {text : String} {value : Value}
    (h : parseIgnoring? ignored text = some value) :
    ∃ left, value? ignored false (2 * text.toList.length + 2) text.toList = some (value, left) ∧
      (skipSpace left).isEmpty = true := by
  unfold parseIgnoring? at h
  dsimp only at h
  split at h
  next found left hread =>
    split at h
    next hskip =>
      cases h
      exact ⟨left, hread, hskip⟩
    next => contradiction
  next => contradiction

/-- A number in binary floating point is read back in front of others if it is where it stands alone. -/
theorem readBack_float (ignored : String → Bool) {x : Binary64}
    (hx : parse? (render (.float x)) = some (.float x)) : ReadBack ignored (.float x) := by
  obtain ⟨left, halone, hskip⟩ := exists_left_of_parse hx
  have hrender : (render (.float x)).toList = number x := String.toList_ofList
  rw [hrender] at halone
  have hnull : value? (fun _ => false) false 10 "null".toList = some (.null, []) := rfl
  cases x with
  | nan => cases hnull.symm.trans halone
  | infinite negative => cases hnull.symm.trans halone
  | finite negative m q =>
    obtain ⟨size, hnumber, hsize⟩ := exists_number_eq negative m q
    have hread : number? false negative size = some (.float (.finite negative m q), left) := by
      have hvalue := value?_signed (fun _ => false) false negative hsize
        (2 * (number (.finite negative m q)).length + 1) []
      rw [List.append_nil, List.append_nil, ← hnumber] at hvalue
      exact hvalue.symm.trans halone
    obtain ⟨⟨front, hfront⟩, hmore⟩ := takesFront_number? negative _ _ _ hread
    have hleft : left = [] :=
      eq_nil_of_skipSpace (fun c hc => hsize.writes c (hfront ▸ List.mem_append_right front hc)) hskip
    intro rest fuel hrest hfuel
    change (number (.finite negative m q)).length ≤ fuel at hfuel
    change value? ignored false fuel (number (.finite negative m q) ++ rest) = _
    obtain ⟨first, digits, hcons, -⟩ := exists_number_eq_cons (.finite negative m q)
    obtain ⟨fuel, rfl⟩ : ∃ more, fuel = more + 1 := by
      rw [hcons, List.length_cons] at hfuel
      exact ⟨fuel - 1, by omega⟩
    rw [hnumber, value?_signed ignored false negative hsize, hmore rest hrest, hleft, List.nil_append]

/-- A whole number is read back. -/
theorem readBack_int (ignored : String → Bool) {n : Int} (hn : FitsBits n) :
    ReadBack ignored (.int n) := by
  intro rest fuel hrest hfuel
  change (Text.numeral n).length ≤ fuel at hfuel
  change value? ignored false fuel (Text.numeral n ++ rest) = _
  have hsize : IsUnsigned (Nat.toDigits 10 n.natAbs) :=
    isUnsigned_of_isDigit Nat.toDigits_ne_nil (isDigit_of_mem_toDigits n.natAbs)
  have hnumeral : Text.numeral n = if decide (n < 0) = true then '-' :: Nat.toDigits 10 n.natAbs
      else Nat.toDigits 10 n.natAbs := by
    simp only [Text.numeral, decide_eq_true_eq]
  obtain ⟨first, digits, hcons, -⟩ := exists_compact_eq_cons (.int hn : Kept ignored (.int n))
  obtain ⟨fuel, rfl⟩ : ∃ more, fuel = more + 1 := by
    change Text.numeral n = first :: digits at hcons
    rw [hcons, List.length_cons] at hfuel
    exact ⟨fuel - 1, by omega⟩
  rw [hnumeral, value?_signed ignored false _ hsize, number?_toDigits hn hrest]

/-- A word is read back. -/
theorem word?_toList (word : String) (value : Value) (rest : List Char) :
    word? word value (word.toList ++ rest) = some (value, rest) := by
  simp [word?, ← String.length_toList]

/-- A text is read back. -/
theorem readBack_text (ignored : String → Bool) (s : String) : ReadBack ignored (.text s) := by
  intro rest fuel _ hfuel
  change (string s).length ≤ fuel at hfuel
  change value? ignored false fuel (string s ++ rest) = _
  obtain ⟨fuel, rfl⟩ : ∃ more, fuel = more + 1 := ⟨fuel - 1, by simp [string] at hfuel; omega⟩
  obtain ⟨chars, hchars, hread⟩ := string?_string false s rest
  rw [hchars, value?, skipSpace_of_beginsValue (by decide)]
  simp only [hread, Option.map_some]

/-- The items of a list are read back, up to the closing bracket. -/
theorem items?_compactItems {ignored : String → Bool} {items : List Value} (hne : items ≠ [])
    (hread : ∀ item ∈ items, ReadBack ignored item) {fuel : Nat}
    (hfuel : (compactItems items).length < fuel) (rest : List Char) :
    items? ignored false fuel (compactItems items ++ ']' :: rest) = some (items, rest) := by
  induction items generalizing fuel with
  | nil => contradiction
  | cons item items ih =>
    obtain ⟨hitem, hitems⟩ := List.forall_mem_cons.mp hread
    obtain ⟨fuel, rfl⟩ : ∃ more, fuel = more + 1 := ⟨fuel - 1, by omega⟩
    cases items with
    | nil =>
      rw [compactItems] at hfuel ⊢
      rw [items?, hitem rfl (by omega)]
      rfl
    | cons next items =>
      have hcomma : compactItems (item :: next :: items) =
          compact item ++ ',' :: compactItems (next :: items) := by
        rw [compactItems]
        nofun
      rw [hcomma] at hfuel ⊢
      rw [List.length_append, List.length_cons] at hfuel
      rw [items?, List.append_assoc, List.cons_append, hitem rfl (by omega)]
      change (items? ignored false fuel (compactItems (next :: items) ++ ']' :: rest)).map _ = _
      rw [ih (List.cons_ne_nil next items) hitems (by omega)]
      rfl

/-- The fields of a table from one on that has been read: a closing brace or a comma tells how it goes on. -/
def fieldsFrom (ignored : String → Bool) (fuel : Nat) (field : String × Value) (more : List Char) :
    Option (List (String × Value) × List Char) :=
  match skipSpace more with
  | '\x7d' :: rest => some ([field], rest)
  | ',' :: rest => (fields? ignored false fuel rest).map fun (fields, rest) => (field :: fields, rest)
  | _ => none

/-- A field is read back. -/
theorem fields?_field {ignored : String → Bool} {name : String} {value : Value}
    (hname : ignored name = false) (hvalue : ReadBack ignored value) {fuel : Nat}
    (hfuel : (compact value).length ≤ fuel) {more : List Char}
    (hmore : more.head?.any continuesNumber = false) :
    fields? ignored false (fuel + 1) (string name ++ ':' :: (compact value ++ more)) =
      fieldsFrom ignored fuel (name, value) more := by
  obtain ⟨chars, hchars, hstring⟩ := string?_string false name (':' :: (compact value ++ more))
  rw [hchars, fields?, skipSpace_of_beginsValue (by decide)]
  simp only [hstring, Option.bind_eq_bind, Option.bind_some]
  have hskip : skipSpace (':' :: (compact value ++ more)) = ':' :: (compact value ++ more) := rfl
  simp only [hskip, hname, Bool.or_false, hvalue hmore hfuel, Option.bind_some]
  rfl

/-- The fields of a table are read back, up to the closing brace. -/
theorem fields?_compactFields {ignored : String → Bool} {fields : List (String × Value)}
    (hne : fields ≠ []) (hignored : ∀ field ∈ fields, ignored field.1 = false)
    (hread : ∀ field ∈ fields, ReadBack ignored field.2) {fuel : Nat}
    (hfuel : (compactFields fields).length < fuel) (rest : List Char) :
    fields? ignored false fuel (compactFields fields ++ '\x7d' :: rest) = some (fields, rest) := by
  induction fields generalizing fuel with
  | nil => contradiction
  | cons field fields ih =>
    obtain ⟨name, value⟩ := field
    obtain ⟨hname, hignored⟩ := List.forall_mem_cons.mp hignored
    obtain ⟨(hvalue : ReadBack ignored value), hfields⟩ := List.forall_mem_cons.mp hread
    obtain ⟨fuel, rfl⟩ : ∃ more, fuel = more + 1 := ⟨fuel - 1, by omega⟩
    cases fields with
    | nil =>
      rw [compactFields] at hfuel ⊢
      rw [List.length_append, List.length_cons] at hfuel
      rw [List.append_assoc, List.cons_append, fields?_field hname hvalue (by omega) rfl]
      rfl
    | cons next fields =>
      have hcomma : compactFields ((name, value) :: next :: fields) =
          string name ++ ':' :: (compact value ++ ',' :: compactFields (next :: fields)) := by
        rw [compactFields]
        · simp
        · nofun
      rw [hcomma] at hfuel ⊢
      simp only [List.length_append, List.length_cons] at hfuel
      rw [List.append_assoc, List.cons_append, List.append_assoc, List.cons_append,
        fields?_field hname hvalue (by omega) rfl]
      change (fields? ignored false fuel (compactFields (next :: fields) ++ '\x7d' :: rest)).map _ = _
      rw [ih (List.cons_ne_nil next fields) hignored hfields (by omega)]
      rfl

/-- The items of a list are written as the first of them begins. -/
theorem exists_compactItems_eq_cons {ignored : String → Bool} {item : Value} (h : Kept ignored item)
    (items : List Value) :
    ∃ first rest, compactItems (item :: items) = first :: rest ∧ beginsValue first = true := by
  obtain ⟨first, rest, hfirst, hbegins⟩ := exists_compact_eq_cons h
  cases items with
  | nil => exact ⟨first, rest, by rw [compactItems, hfirst], hbegins⟩
  | cons next items =>
    refine ⟨first, rest ++ ',' :: compactItems (next :: items), ?_, hbegins⟩
    rw [compactItems, hfirst]
    · rfl
    · nofun

/-- The fields of a table are written with a quote in front. -/
theorem exists_compactFields_eq_cons (field : String × Value) (fields : List (String × Value)) :
    ∃ rest, compactFields (field :: fields) = '"' :: rest := by
  obtain ⟨name, value⟩ := field
  cases fields <;> simp [compactFields, string]

/-- A list is read back if its items are. -/
theorem readBack_list {ignored : String → Bool} {items : List Value}
    (hkept : ∀ item ∈ items, Kept ignored item) (hread : ∀ item ∈ items, ReadBack ignored item) :
    ReadBack ignored (.list items) := by
  intro rest fuel _ hfuel
  rw [compact, List.length_append, List.length_cons, List.length_singleton] at hfuel
  obtain ⟨fuel, rfl⟩ : ∃ more, fuel = more + 1 := ⟨fuel - 1, by omega⟩
  cases items with
  | nil => rfl
  | cons item items =>
    have hitems := items?_compactItems (List.cons_ne_nil item items) hread
      (by omega : (compactItems (item :: items)).length < fuel) rest
    obtain ⟨first, more, hfirst, hbegins⟩ :=
      exists_compactItems_eq_cons (hkept item List.mem_cons_self) items
    rw [compact, List.cons_append, List.cons_append, List.append_assoc]
    rw [hfirst] at hitems ⊢
    rw [value?, skipSpace_of_beginsValue (by decide)]
    simp only [List.cons_append, List.nil_append] at hitems ⊢
    rw [skipSpace_of_beginsValue hbegins]
    split
    next heq =>
      obtain ⟨rfl, -⟩ := List.cons.inj heq
      exact absurd hbegins (by decide)
    next =>
      rw [hitems]
      rfl

/-- A table is read back if its fields are. -/
theorem readBack_table {ignored : String → Bool} {fields : List (String × Value)}
    (hignored : ∀ field ∈ fields, ignored field.1 = false)
    (hread : ∀ field ∈ fields, ReadBack ignored field.2) : ReadBack ignored (.table fields) := by
  intro rest fuel _ hfuel
  rw [compact, List.length_append, List.length_cons, List.length_singleton] at hfuel
  obtain ⟨fuel, rfl⟩ : ∃ more, fuel = more + 1 := ⟨fuel - 1, by omega⟩
  cases fields with
  | nil => rfl
  | cons field fields =>
    have hfields := fields?_compactFields (List.cons_ne_nil field fields) hignored hread
      (by omega : (compactFields (field :: fields)).length < fuel) rest
    obtain ⟨more, hmore⟩ := exists_compactFields_eq_cons field fields
    rw [compact, List.cons_append, List.cons_append, List.append_assoc]
    rw [hmore] at hfields ⊢
    change (fields? ignored false fuel ('"' :: more ++ '\x7d' :: rest)).map _ = _
    rw [hfields]
    rfl

/-- Every value that is kept is read back. -/
theorem readBack_of_kept {ignored : String → Bool} {value : Value} (h : Kept ignored value) :
    ReadBack ignored value := by
  have hword : ∀ {fuel : Nat} {chars : List Char}, chars.length + 1 ≤ fuel → ∃ more, fuel = more + 1 :=
    fun {fuel _} hfuel => ⟨fuel - 1, by omega⟩
  induction h with
  | null =>
    intro rest fuel _ hfuel
    obtain ⟨fuel, rfl⟩ := hword hfuel
    exact word?_toList "null" .null rest
  | bool b =>
    intro rest fuel _ hfuel
    cases b with
    | true =>
      obtain ⟨fuel, rfl⟩ := hword hfuel
      exact word?_toList "true" (.bool true) rest
    | false =>
      obtain ⟨fuel, rfl⟩ := hword hfuel
      exact word?_toList "false" (.bool false) rest
  | int hn => exact readBack_int ignored hn
  | float hx => exact readBack_float ignored hx
  | text s => exact readBack_text ignored s
  | list hitems ih => exact readBack_list hitems ih
  | table hignored _ ih => exact readBack_table hignored ih

/-- A value is read back from its compact text. -/
theorem parseIgnoring?_render {ignored : String → Bool} {value : Value} (h : Kept ignored value) :
    parseIgnoring? ignored (render value) = some value := by
  have hread : value? ignored false (2 * (compact value).length + 2) (compact value ++ []) =
      some (value, []) := readBack_of_kept h rfl (by omega)
  rw [List.append_nil] at hread
  simp [parseIgnoring?, render, hread, skipSpace]

end BrokerAdmin.Json
