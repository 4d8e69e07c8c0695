import BrokerAdmin.Proofs.Selector.Tokens
import Mathlib.Data.List.Chain

/-!
# The meaning of a translated selector

A selector that can be read as a filter is translated into a filter that can be read too, and the
broker selects with it the messages that the client means. The tokens are those of the selector in the
words of the broker, since no identifier of a filter stands right after a number; so the expression is
the client's with its names and words replaced, and its predicates agree one by one.

Names with dots are left alone only where no segment is one of the client's names for headers, and
the words for the ways of delivery are told apart only by the header that they are compared with: the
theorem is about selectors without such names and comparisons.
-/

namespace BrokerAdmin.Filter

/-! ### Numbers and identifiers in a filter -/

/-- Whether one token may stand right after another in a filter: an identifier stands after no
number. -/
def Token.Precedes (before after : Token) : Prop :=
  ∀ x name, before = .number x → after ≠ .ident name

/-- The tokens of a chain follow each other as those of its members do. -/
theorem Connective.isChain_interleave (c : Connective) (members : List (List Token))
    (h : ∀ tokens ∈ members, tokens.IsChain Token.Precedes) :
    (c.interleave members).IsChain Token.Precedes := by
  induction members with
  | nil => exact .nil
  | cons first more ih =>
    obtain ⟨hfirst, hmore⟩ := List.forall_mem_cons.mp h
    cases more with
    | nil => simpa [interleave] using hfirst
    | cons second more =>
      have hseparator : (c.separator :: c.interleave (second :: more)).IsChain Token.Precedes := by
        refine List.isChain_cons.mpr ⟨fun token _ x name hnumber => ?_, ih hmore⟩
        cases c <;> contradiction
      unfold interleave at hseparator ⊢
      rw [List.intercalate_cons_cons, List.append_assoc, List.singleton_append]
      refine .append hfirst hseparator fun token _ later hlater x name _ => ?_
      obtain rfl : c.separator = later := by simpa using hlater
      cases c <;> simp [separator]

/-- In a phrase no identifier stands right after a number. -/
theorem Derives.isChain {p : Phrase} {tokens : List Token} {e : Expr} {depth : Nat}
    (h : Derives p tokens e depth) : tokens.IsChain Token.Precedes := by
  induction h with
  | compare name op literal => cases literal <;> simp [Token.Precedes, Literal.token]
  | isNull name => simp [Token.Precedes]
  | isNotNull name => simp [Token.Precedes]
  | negation _ ih => exact List.isChain_cons.mpr ⟨by simp [Token.Precedes], ih⟩
  | group _ ih =>
    refine .append (List.isChain_cons.mpr ⟨by simp [Token.Precedes], ih⟩) (.singleton _) ?_
    intro token _ last hlast
    obtain rfl : Token.rightParen = last := by simpa using hlast
    simp [Token.Precedes]
  | single _ ih => exact ih
  | several _ _ ih =>
    refine Connective.isChain_interleave _ _ fun tokens htokens => ?_
    obtain ⟨part, hpart, rfl⟩ := List.mem_map.mp htokens
    exact ih part hpart

end BrokerAdmin.Filter

namespace BrokerAdmin.Selector

open BrokerAdmin.Filter (Token scan)

/-- Where no identifier stands right after a number, every token is renamed. -/
theorem Renamed.eq_map {inWord : Bool} {tokens tokens' : List Token}
    (h : Renamed inWord tokens tokens') (htokens : tokens.IsChain Token.Precedes)
    (hhead : inWord = true → ∀ name, tokens.head? ≠ some (.ident name)) :
    tokens' = tokens.map brokerToken := by
  induction h with
  | nil => rfl
  | @token inWord next token tokens tokens' hnext _ ih =>
    obtain ⟨hprecedes, htokens⟩ := List.isChain_cons.mp htokens
    have hlater : next = true → ∀ name, tokens.head? ≠ some (.ident name) := by
      intro hinside name hident
      obtain ⟨x, hnumber⟩ := hnext hinside
      exact hprecedes _ hident x name hnumber rfl
    rw [List.map_cons, ← ih htokens hlater]
  | inside => exact absurd rfl (hhead rfl _)

/-! ### The expression of a translated selector -/

/-- A selector that can be read as a filter is translated into a filter, of the same expression in the
words of the broker. -/
theorem parse_toFilter {selector : String} {e : Filter.Expr} (h : Filter.parse selector = .ok e) :
    ∃ filter, toFilter (some selector) = .ok (some filter) ∧
      Filter.parse filter = .ok (e.rename brokerName brokerText) := by
  obtain ⟨tokens, hscan, depth, hdepth, hderives⟩ := (Filter.parse_eq_ok_iff selector e).mp h
  have hfollows := followsAll selector.toList false
  rw [hscan] at hfollows
  obtain ⟨tokens', hafter, hrenamed⟩ := hfollows.exists_of_ok
  obtain ⟨chars, htranslate, hscan'⟩ := Option.map_eq_some_iff.mp hafter
  have htokens' : tokens' = tokens.map brokerToken := hrenamed.eq_map hderives.isChain (by simp)
  have hblank := Filter.isBlankText_of_scan hscan hderives.ne_nil
  refine ⟨String.ofList chars, ?_, ?_⟩
  · have hsome : translateChars selector.toList = some chars := htranslate
    simp [toFilter, hblank, hsome]
  · refine (Filter.parse_eq_ok_iff _ _).mpr ⟨tokens', ?_, depth, hdepth, ?_⟩
    · rwa [String.toList_ofList]
    · rw [htokens']
      exact hderives.rename brokerName brokerText

/-! ### The client's reading of names -/

/-- What a name stands for in a message to the client: a header under the name that clients know it by,
or else what the broker reads under that name. -/
def readAsClient (m : Message) (name : String) : Option Filter.Literal :=
  match name with
  | "JMSPriority" => some (.number (.ofInt m.priority))
  | "JMSTimestamp" => some (.number (.ofInt m.timestamp))
  | "JMSExpiration" => some (.number (.ofInt m.expiration))
  | "JMSMessageID" => m.userId.map .text
  | "JMSXGroupID" => m.groupId.map .text
  | "JMSDeliveryMode" => some (.text (if m.durable then "PERSISTENT" else "NON_PERSISTENT"))
  | _ => Filter.read m name

/-- The text that a predicate compares its name with. -/
def comparedText? (p : Filter.Predicate) : Option String :=
  match p.comparison with
  | some (_, .text text) => some text
  | _ => none

/-- A predicate that keeps its meaning: a name with dots has none of the client's names for headers among
its segments, the client's words for the ways of delivery are compared with the header that holds them
and the broker's words are not. -/
structure Translatable (p : Filter.Predicate) : Prop where
  dotted : '.' ∈ p.name.toList → ∀ segment ∈ segments p.name, segment ∉ clientHeaders
  clientMode : ∀ text ∈ comparedText? p, text ∈ deliveryModes.map Prod.fst → p.name = "JMSDeliveryMode"
  brokerMode : ∀ text ∈ comparedText? p, text ∈ deliveryModes.map Prod.snd → p.name ≠ "JMSDeliveryMode"

/-- A text that the table does not hold stays. -/
theorem replaced_of_not_mem {table : List (String × String)} {chars : List Char}
    (h : String.ofList chars ∉ table.map Prod.fst) : replaced table chars = chars := by
  rcases replaced_cases table chars with hstays | ⟨entry, hentry, hchars, -⟩
  · exact hstays
  · rw [hchars, String.ofList_toList] at h
    exact absurd (List.mem_map_of_mem hentry) h

/-- A name stays when no segment of it is one of the client's names for headers. -/
theorem brokerName_of_segments {name : String} (h : ∀ segment ∈ segments name, segment ∉ clientHeaders) :
    brokerName name = name := by
  have hsegments : renameSegments false (name.toList.splitOn '.') = name.toList.splitOn '.' := by
    have hall : ∀ segment ∈ name.toList.splitOn '.', replaced headers segment = segment :=
      fun segment hsegment => replaced_of_not_mem (h _ (List.mem_map_of_mem hsegment))
    cases hsplit : name.toList.splitOn '.' with
    | nil => rfl
    | cons first more =>
      rw [hsplit] at hall
      obtain ⟨hfirst, hmore⟩ := List.forall_mem_cons.mp hall
      have hmap : more.map (replaced headers) = more := by
        rw [List.map_congr_left hmore, List.map_id']
      rw [renameSegments, if_neg (by simp), hfirst, hmap]
  rw [brokerName, renameChars, hsegments, List.intercalate_splitOn, String.ofList_toList]

/-- The client's names for headers, with the broker's. -/
theorem brokerName_of_mem_headers : ∀ entry ∈ headers, brokerName entry.1 = entry.2 := by
  decide

/-- The name of a predicate is one of the client's names for headers, or it stays. -/
theorem Translatable.name_cases {p : Filter.Predicate} (hp : Translatable p) :
    p.name ∈ clientHeaders ∨ (p.name ∉ clientHeaders ∧ brokerName p.name = p.name) := by
  by_cases hclient : p.name ∈ clientHeaders
  · exact Or.inl hclient
  · refine Or.inr ⟨hclient, brokerName_of_segments ?_⟩
    by_cases hdot : '.' ∈ p.name.toList
    · exact hp.dotted hdot
    · intro segment hsegment
      rw [segments, List.splitOn_eq_singleton hdot, List.map_singleton, List.mem_singleton,
        String.ofList_toList] at hsegment
      rwa [hsegment]

/-- Apart from the header for the way of delivery, the broker reads under its own name what the client
reads. -/
theorem Translatable.read_eq {p : Filter.Predicate} (hp : Translatable p)
    (hmode : p.name ≠ "JMSDeliveryMode") (m : Message) :
    Filter.read m (brokerName p.name) = readAsClient m p.name := by
  obtain ⟨name, comparison⟩ := p
  rcases hp.name_cases with hclient | ⟨hclient, hstays⟩
  · obtain ⟨entry, hentry, hname⟩ := List.mem_map.mp hclient
    dsimp only at hname hmode ⊢
    subst hname
    rw [brokerName_of_mem_headers entry hentry]
    simp only [headers, List.mem_cons, List.not_mem_nil, or_false] at hentry
    rcases hentry with rfl | rfl | rfl | rfl | rfl | rfl
    · contradiction
    all_goals rfl
  · rw [hstays]
    simp only [clientHeaders, headers, List.map_cons, List.map_nil, List.mem_cons, List.not_mem_nil,
      or_false, not_or] at hclient
    unfold readAsClient
    split <;> simp_all

/-- A text that is none of the client's words for the ways of delivery stays. -/
theorem brokerText_of_not_mem {text : String} (h : text ∉ deliveryModes.map Prod.fst) :
    brokerText text = text := by
  rw [brokerText, replaced_of_not_mem, String.ofList_toList]
  rwa [String.ofList_toList]

/-- Apart from the header for the way of delivery, a predicate compares with the same literal after
translation. -/
theorem Translatable.literal_eq {name : String} {op : Filter.Comparison} {literal : Filter.Literal}
    (hp : Translatable ⟨name, some (op, literal)⟩) (hmode : name ≠ "JMSDeliveryMode") :
    literal.rename brokerText = literal := by
  cases literal with
  | number | truth => rfl
  | text text =>
    have htext : text ∉ deliveryModes.map Prod.fst := fun hmem => hmode (hp.clientMode text rfl hmem)
    rw [Filter.Literal.rename, brokerText_of_not_mem htext]

/-- The broker's word for a way of delivery is the word for a text just when the client's word is the
text itself, unless the text was the broker's from the start. -/
theorem mode_eq_brokerText_iff {entry : String × String} (hentry : entry ∈ deliveryModes)
    {text : String} (htext : text ∉ deliveryModes.map Prod.snd) :
    entry.2 = brokerText text ↔ entry.1 = text := by
  by_cases hmem : text ∈ deliveryModes.map Prod.fst
  · have hall : ∀ entry ∈ deliveryModes, ∀ text ∈ deliveryModes.map Prod.fst,
        (entry.2 = brokerText text ↔ entry.1 = text) := by decide
    exact hall entry hentry text hmem
  · rw [brokerText_of_not_mem hmem]
    refine iff_of_false ?_ ?_
    · rintro rfl
      exact htext (List.mem_map_of_mem hentry)
    · rintro rfl
      exact hmem (List.mem_map_of_mem hentry)

/-- The way of delivery compares with the broker's literal as it does with the client's. -/
theorem Translatable.satisfies_mode {op : Filter.Comparison} {literal : Filter.Literal}
    (hp : Translatable ⟨"JMSDeliveryMode", some (op, literal)⟩) (m : Message) :
    Filter.Literal.satisfies (Filter.read m (brokerName "JMSDeliveryMode")) op
        (literal.rename brokerText) =
      Filter.Literal.satisfies (readAsClient m "JMSDeliveryMode") op literal := by
  have hname : brokerName "JMSDeliveryMode" = "AMQDurable" :=
    brokerName_of_mem_headers ("JMSDeliveryMode", "AMQDurable") List.mem_cons_self
  obtain ⟨entry, hentry, hbroker, hclient⟩ : ∃ entry ∈ deliveryModes,
      Filter.read m "AMQDurable" = some (.text entry.2) ∧
        readAsClient m "JMSDeliveryMode" = some (.text entry.1) := by
    cases hdurable : m.durable with
    | true => exact ⟨("PERSISTENT", "DURABLE"), by decide, by simp [Filter.read, hdurable],
        by simp [readAsClient, hdurable]⟩
    | false => exact ⟨("NON_PERSISTENT", "NON_DURABLE"), by decide, by simp [Filter.read, hdurable],
        by simp [readAsClient, hdurable]⟩
  rw [hname, hbroker, hclient]
  cases literal with
  | number | truth => rfl
  | text text =>
    have htext : text ∉ deliveryModes.map Prod.snd := fun hmem => hp.brokerMode text rfl hmem rfl
    have heq : (entry.2 == brokerText text) = (entry.1 == text) := by
      rw [Bool.eq_iff_iff, beq_iff_eq, beq_iff_eq]
      exact mode_eq_brokerText_iff hentry htext
    simp only [Filter.Literal.rename, Filter.Literal.satisfies, heq]

/-- A predicate that keeps its meaning holds for the broker when it holds for the client. -/
theorem Translatable.agrees {p : Filter.Predicate} (hp : Translatable p) (m : Message) :
    p.Agrees brokerName brokerText (Filter.read m) (readAsClient m) := by
  obtain ⟨name, comparison⟩ := p
  by_cases hmode : name = "JMSDeliveryMode"
  · subst hmode
    cases comparison with
    | none => exact rfl
    | some comparison => exact hp.satisfies_mode m
  · have hread : Filter.read m (brokerName name) = readAsClient m name := hp.read_eq hmode m
    cases comparison with
    | none => exact congrArg Option.isNone hread
    | some comparison =>
      obtain ⟨op, literal⟩ := comparison
      have hliteral : literal.rename brokerText = literal := hp.literal_eq hmode
      simp only [Filter.Predicate.Agrees, hread, hliteral]

/-- A selector whose predicates keep their meaning is translated into a filter that the broker can read,
and the broker selects with it exactly the messages that the selector means to the client. -/
theorem toFilter_preserves_meaning (selector : String) (e : Filter.Expr)
    (hparse : Filter.parse selector = .ok e) (he : ∀ p ∈ e.predicates, Translatable p) :
    ∃ filter translated, toFilter (some selector) = .ok (some filter) ∧
      Filter.parse filter = .ok translated ∧
        ∀ m : Message, translated.accepts m = true ↔ e.holds (readAsClient m) = true := by
  obtain ⟨filter, htranslate, hfilter⟩ := parse_toFilter hparse
  refine ⟨filter, _, htranslate, hfilter, fun m => ?_⟩
  have hholds := e.holds_rename fun p hp => (he p hp).agrees m
  rw [Filter.Expr.accepts, hholds]

/-- A selector of persistent messages that are urgent or carry no property of a dotted name. -/
theorem toFilter_preserves_persistent :
    ∃ filter translated,
      toFilter (some "JMSDeliveryMode = 'PERSISTENT' AND (JMSPriority > 4 OR a.b IS NULL)") =
        .ok (some filter) ∧
      Filter.parse filter = .ok translated ∧
        ∀ m : Message, translated.accepts m = true ↔
          Filter.Expr.holds (readAsClient m)
            (.all [.compare "JMSDeliveryMode" .eq (.text "PERSISTENT"),
              .any [.compare "JMSPriority" .gt (.number (.ofInt 4)), .isNull "a.b" true]]) = true := by
  refine toFilter_preserves_meaning _ _ (by with_unfolding_all rfl) fun p hp => ?_
  simp only [Filter.Expr.predicates, Filter.Expr.predicatesOfTerms, List.append_nil, List.cons_append,
    List.nil_append, List.mem_cons, List.not_mem_nil, or_false] at hp
  rcases hp with rfl | rfl | rfl
  all_goals
    constructor <;> decide

end BrokerAdmin.Selector
