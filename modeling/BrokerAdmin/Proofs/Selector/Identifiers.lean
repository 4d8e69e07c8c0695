import BrokerAdmin.Proofs.Selector.Meaning

/-!
# Which identifiers are translated

Translation ends a word at a dot, where an identifier of a filter goes on. So it renames the segments of
an identifier one by one, not the identifier as a whole. The two agree on the identifiers of a selector
exactly when none of the client's names for headers is a segment of a longer identifier.
-/

namespace BrokerAdmin.Filter

/-- The identifiers of an expression, from left to right. -/
def Expr.names (e : Expr) : List String :=
  e.predicates.map Predicate.name

/-- The identifiers of a renamed expression stand where those before stood. -/
theorem Expr.names_rename (name text : String → String) (e : Expr) :
    (e.rename name text).names = e.names.map name := by
  unfold names
  induction e using Expr.induction with
  | compare | isNull => rfl
  | not term ih => exact ih
  | all terms ih | any terms ih =>
    simp only [rename, predicates]
    induction terms with
    | nil => rfl
    | cons term terms ihterms =>
      obtain ⟨hterm, hterms⟩ := List.forall_mem_cons.mp ih
      simp only [renameTerms, predicatesOfTerms, List.map_append, hterm, ihterms hterms]

end BrokerAdmin.Filter

namespace BrokerAdmin.Selector

/-- The broker's name for an identifier that is one of the client's names for headers; others stay. -/
def wholeName (name : String) : String :=
  (headers.lookup name).getD name

/-- A word is replaced as an identifier of its own is. -/
theorem replaced_headers_eq (word : List Char) :
    replaced headers word = (wholeName (String.ofList word)).toList := by
  unfold replaced wholeName
  cases headers.lookup (String.ofList word) with
  | none => exact String.toList_ofList.symm
  | some image => rfl

/-- An identifier that is no name for a header stays. -/
theorem wholeName_of_not_mem {name : String} (h : name ∉ clientHeaders) : wholeName name = name := by
  have hword := replaced_headers_eq name.toList
  rw [replaced_of_not_mem (by rwa [String.ofList_toList]), String.ofList_toList] at hword
  exact (String.toList_inj.mp hword).symm

/-- None of the client's names for headers stays. -/
theorem wholeName_ne_of_mem {name : String} (h : name ∈ clientHeaders) : wholeName name ≠ name := by
  have hall : ∀ name ∈ clientHeaders, wholeName name ≠ name := by decide
  exact hall name h

/-- None of the client's names for headers has a dot, and none of the broker's. -/
theorem not_mem_of_mem_headers :
    ∀ entry ∈ headers, '.' ∉ entry.1.toList ∧ '.' ∉ entry.2.toList := by
  decide

/-- The segments of the broker's name are those of the identifier, renamed one by one. -/
theorem segments_brokerName (name : String) :
    segments (brokerName name) = (segments name).map wholeName := by
  have hrenamed : renameSegments false (name.toList.splitOn '.') =
      (name.toList.splitOn '.').map (replaced headers) := by
    cases hsplit : name.toList.splitOn '.' with
    | nil => exact absurd hsplit (List.splitOn_ne_nil '.' name.toList)
    | cons first more => rfl
  have hdots : ∀ segment ∈ (name.toList.splitOn '.').map (replaced headers), '.' ∉ segment := by
    intro segment hsegment
    obtain ⟨before, hbefore, rfl⟩ := List.mem_map.mp hsegment
    rcases replaced_cases headers before with h | ⟨entry, hentry, -, h⟩
    · rw [h]
      exact fun hdot => (mem_of_mem_splitOn hbefore '.' hdot).2 rfl
    · rw [h]
      exact (not_mem_of_mem_headers entry hentry).2
  have hsplit := List.splitOn_intercalate '.' hdots (by simp [List.splitOn_ne_nil])
  rw [segments, brokerName, String.toList_ofList, renameChars, hrenamed, hsplit, segments,
    List.map_map, List.map_map]
  apply List.map_congr_left
  intro segment _
  simp only [Function.comp_apply, replaced_headers_eq, String.ofList_toList]

/-- Segment by segment an identifier is renamed as it is as a whole, unless it has a dot and one of the
client's names for headers among its segments. -/
theorem brokerName_eq_wholeName_iff (name : String) :
    brokerName name = wholeName name ↔
      ('.' ∈ name.toList → ∀ segment ∈ segments name, segment ∉ clientHeaders) := by
  by_cases hdot : '.' ∈ name.toList
  · have hwhole : wholeName name = name := by
      apply wholeName_of_not_mem
      intro hmem
      obtain ⟨entry, hentry, rfl⟩ := List.mem_map.mp hmem
      exact (not_mem_of_mem_headers entry hentry).1 hdot
    rw [hwhole]
    constructor
    · intro hstays _ segment hsegment hclient
      have hsegments := segments_brokerName name
      rw [hstays] at hsegments
      have hfixed : (segments name).map wholeName = (segments name).map id := by
        rw [← hsegments, List.map_id]
      exact wholeName_ne_of_mem hclient (List.map_inj_left.mp hfixed segment hsegment)
    · intro hsegments
      exact brokerName_of_segments (hsegments hdot)
  · have hword : brokerName name = wholeName name := by
      rw [brokerName, renameChars_of_not_mem false hdot, if_neg (by simp), replaced_headers_eq,
        String.ofList_toList, String.ofList_toList]
    exact iff_of_true hword fun h => absurd h hdot

/-- A selector that can be read is translated into a filter that can be read, of the same shape and with
every identifier renamed segment by segment. They are renamed as whole identifiers exactly when no
identifier with a dot has one of the client's names for headers among its segments. -/
theorem toFilter_renames_whole_identifiers_iff (selector : String) (e : Filter.Expr)
    (hparse : Filter.parse selector = .ok e) :
    ∃ filter translated, toFilter (some selector) = .ok (some filter) ∧
      Filter.parse filter = .ok translated ∧ translated = e.rename brokerName brokerText ∧
        (translated.names = e.names.map wholeName ↔
          ∀ name ∈ e.names, '.' ∈ name.toList → ∀ segment ∈ segments name, segment ∉ clientHeaders) := by
  obtain ⟨filter, htranslate, hfilter⟩ := parse_toFilter hparse
  refine ⟨filter, _, htranslate, hfilter, rfl, ?_⟩
  rw [Filter.Expr.names_rename, List.map_inj_left]
  exact forall₂_congr fun name _ => brokerName_eq_wholeName_iff name

/-- A name for a header is renamed, and an identifier stays whose segments only hold or resemble one. -/
theorem toFilter_renames_priority :
    ∃ filter translated,
      toFilter (some "JMSPriority > 4 AND a.MyJMSPriority IS NULL") = .ok (some filter) ∧
      Filter.parse filter = .ok translated ∧
        translated.names = ["AMQPriority", "a.MyJMSPriority"] := by
  obtain ⟨filter, translated, htranslate, hfilter, -, hnames⟩ :=
    toFilter_renames_whole_identifiers_iff "JMSPriority > 4 AND a.MyJMSPriority IS NULL"
      (.all [.compare "JMSPriority" .gt (.number (.ofInt 4)), .isNull "a.MyJMSPriority" true]) (by with_unfolding_all rfl)
  refine ⟨filter, translated, htranslate, hfilter, (hnames.mpr (by decide)).trans ?_⟩
  decide +kernel

/-- A segment of a longer identifier is renamed, although the identifier is no name for a header. -/
theorem toFilter_renames_segment :
    ∃ e filter translated, Filter.parse "a.JMSPriority = 1" = .ok e ∧
      toFilter (some "a.JMSPriority = 1") = .ok (some filter) ∧
      Filter.parse filter = .ok translated ∧
        e.names.map wholeName = ["a.JMSPriority"] ∧ translated.names = ["a.AMQPriority"] := by
  have hparse : Filter.parse "a.JMSPriority = 1" =
      .ok (.compare "a.JMSPriority" .eq (.number (.ofInt 1))) := by with_unfolding_all rfl
  obtain ⟨filter, htranslate, hfilter⟩ := parse_toFilter hparse
  refine ⟨_, filter, _, hparse, htranslate, hfilter, ?_, ?_⟩ <;> decide +kernel

end BrokerAdmin.Selector
