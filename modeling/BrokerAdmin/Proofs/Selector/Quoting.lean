import BrokerAdmin.Proofs.Filter.Comparing
import BrokerAdmin.Proofs.Selector.Faithful

/-!
# Values between quotes

A value from outside can be put between quotes, the quotes inside it written twice, and nothing in it is
taken for a part of the selector. Translation and the reading of filters cut a text by different rules, but
find the same end of the literal: each passes over the doubled quotes. So a selector that compares a
property with a quoted value selects exactly the messages with that value, whatever stands in it. The two
words for the ways of delivery are the exception, since translation replaces them everywhere.
-/

namespace BrokerAdmin.Selector

/-- A comparison with a quoted value is translated into itself when neither the name nor the value is
replaced. -/
theorem translateChars_comparisonText {name : String} {value : List Char}
    (hname : ∀ c ∈ name.toList, Filter.continuesWord c = true) (hbroker : brokerName name = name)
    (hvalue : replaced deliveryModes value = value) :
    translateChars (Filter.comparisonText name .eq (Text.enclosed value)).toList =
      some (Filter.comparisonText name .eq (Text.enclosed value)).toList := by
  have hchars : (Filter.comparisonText name .eq (Text.enclosed value)).toList =
      name.toList ++ ([' ', '=', ' '] ++ (Text.enclosed value ++ [])) := by
    simp [Filter.comparisonText, Filter.Comparison.sign]
  have hrenamed : renameChars false name.toList = name.toList := by
    rw [brokerName] at hbroker
    rw [← String.toList_ofList (l := renameChars false name.toList), hbroker]
  have hspace : isWordChar ' ' = false := by decide
  have hsigns : ∀ c ∈ [' ', '=', ' '], c ≠ '\'' ∧ isWordChar c = false := by
    intro c hc
    simp only [List.mem_cons, List.not_mem_nil, or_false] at hc
    rcases hc with rfl | rfl | rfl <;> decide
  have hstop : ([' ', '=', ' '] ++ (Text.enclosed value ++ [])).head?.any isWordChar = false := hspace
  change translateFrom false _ = _
  rw [hchars, translateFrom_name false hname hstop, translateFrom_others hsigns,
    translateFrom_enclosed false value (by simp), translateFrom_nil, hrenamed, hvalue]
  rfl

/-- A selector that compares a property with a quoted value is its own translation and a filter, and selects
the messages whose property is that value. The name is an identifier that stands for no header, neither to
the broker nor, in any of its segments, to the client; the value is any text but the client's two words for
the ways of delivery. -/
theorem toFilter_quoted_value (name : Filter.Identifier) (hheader : name.name ∉ Filter.headerNames)
    (hsegments : ∀ segment ∈ segments name.name, segment ∉ clientHeaders) (value : String)
    (hvalue : value ∉ deliveryModes.map Prod.fst) :
    let selector := Filter.comparisonText name.name .eq (Text.enclosed value.toList)
    toFilter (some selector) = .ok (some selector) ∧
      ∃ e, Filter.parse selector = .ok e ∧
        ∀ m : Message, e.accepts m = true ↔ m.properties.get? name.name = some (.text value) := by
  intro selector
  have hparse : Filter.parse selector = .ok (.compare name.name .eq (.text value)) :=
    Filter.parse_comparisonText name .eq (.text value)
  have hstays : replaced deliveryModes value.toList = value.toList :=
    replaced_of_not_mem (by rwa [String.ofList_toList])
  refine ⟨?_, _, hparse, Filter.accepts_compare_text_iff hheader value⟩
  rw [toFilter_eq_ok_iff (Filter.isBlankText_of_parse hparse)]
  exact translateChars_comparisonText name.continuesWord_of_mem (brokerName_of_segments hsegments) hstays

/-- A value that would close the literal and go on with a condition of its own if it were not quoted. -/
theorem toFilter_quoted_value_condition :
    toFilter (some "note = ''' OR JMSPriority > 0 OR note = '''") =
        .ok (some "note = ''' OR JMSPriority > 0 OR note = '''") ∧
      ∃ e, Filter.parse "note = ''' OR JMSPriority > 0 OR note = '''" = .ok e ∧
        ∀ m : Message, e.accepts m = true ↔
          m.properties.get? "note" = some (.text "' OR JMSPriority > 0 OR note = '") := by
  let name : Filter.Identifier := ⟨"note", by decide, List.all_eq_true.mp (by decide), by decide⟩
  have htext : Filter.comparisonText name.name .eq
      (Text.enclosed "' OR JMSPriority > 0 OR note = '".toList) =
        "note = ''' OR JMSPriority > 0 OR note = '''" := by decide +kernel
  have hquoted := toFilter_quoted_value name (by decide) (by decide) "' OR JMSPriority > 0 OR note = '"
    (by decide)
  rw [htext] at hquoted
  exact hquoted

end BrokerAdmin.Selector
