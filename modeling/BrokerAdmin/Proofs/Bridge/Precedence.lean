import BrokerAdmin.Bridge.Error
import BrokerAdmin.Proofs.Catalog

/-!
# Precedence among overrides

Attributes of bridges can be overridden again and again. What is set last for an attribute of a bridge
counts, and hides what the overrides had for it at first; an entry that is made for one attribute hides
nothing of the other. Settings for different bridges or attributes may therefore change places, and the
resolution of a bridge sees no more of the overrides than the two values that count for it.
-/

namespace BrokerAdmin.Bridge

/-- The attributes of a bridge that can be overridden. -/
inductive Attribute where
  | callTimeout
  | routingType
  deriving DecidableEq

/-- An attribute of one bridge and what it is set to. -/
inductive Setting where
  | callTimeout (bridge : String) (timeout : Int64)
  | routingType (bridge : String) (routingType : String)
  deriving DecidableEq

namespace Setting

/-- The bridge that a setting is for. -/
def bridge : Setting → String
  | callTimeout bridge _ => bridge
  | routingType bridge _ => bridge

/-- The attribute that a setting is for. -/
def subject : Setting → Attribute
  | callTimeout .. => .callTimeout
  | routingType .. => .routingType

/-- What is overridden for the bridge of a setting once it is made. -/
def change : Setting → Override → Override
  | callTimeout _ timeout, own => { own with callTimeout := some timeout }
  | routingType _ text, own => { own with routingType := some text }

/-- Changes of different attributes may be made in either order. -/
theorem change_comm {first second : Setting} (h : first.subject ≠ second.subject) (own : Override) :
    second.change (first.change own) = first.change (second.change own) := by
  cases first <;> cases second
  · exact absurd rfl h
  · rfl
  · rfl
  · exact absurd rfl h

/-- The call timeout that a setting brings, if it is for call timeouts. -/
def callTimeout? : Setting → Option Int64
  | callTimeout _ timeout => some timeout
  | routingType .. => none

/-- The routing type that a setting brings, if it is for routing types. -/
def routingType? : Setting → Option String
  | callTimeout .. => none
  | routingType _ text => some text

/-- A setting that brings no call timeout leaves the one before. -/
theorem callTimeout_change (s : Setting) (own : Override) :
    (s.change own).callTimeout = s.callTimeout?.or own.callTimeout := by
  cases s <;> rfl

/-- A setting that brings no routing type leaves the one before. -/
theorem routingType_change (s : Setting) (own : Override) :
    (s.change own).routingType = s.routingType?.or own.routingType := by
  cases s <;> rfl

/-- What a setting brings to a bridge: nothing where it is for another. -/
def brings {α : Type} (value : Setting → Option α) (bridge : String) (s : Setting) : Option α :=
  if bridge = s.bridge then value s else none

end Setting

/-- The last value of a kind that several settings bring to a bridge, if one of them does. -/
def lastFor {α : Type} (value : Setting → Option α) (bridge : String) (settings : List Setting) : Option α :=
  (settings.filterMap (Setting.brings value bridge)).getLast?

namespace Overrides

/-- The overrides once a setting is made. -/
def set (o : Overrides) : Setting → Overrides
  | .callTimeout bridge timeout => o.withCallTimeout bridge timeout
  | .routingType bridge text => o.withRoutingType bridge text

/-- The overrides once several settings are made, one after the other. -/
def setAll (o : Overrides) (settings : List Setting) : Overrides :=
  settings.foldl set o

/-! ### One setting -/

/-- A setting changes the entry of its bridge and nothing else. -/
theorem set_eq (o : Overrides) (s : Setting) :
    o.set s = { o with bridges := o.bridges.insert s.bridge (s.change (o.entry s.bridge)) } := by
  cases s <;> rfl

/-- No setting changes the timeout for all bridges. -/
@[simp] theorem callTimeout_set (o : Overrides) (s : Setting) : (o.set s).callTimeout = o.callTimeout := by
  rw [set_eq]

/-- A bridge without an entry has nothing of its own overridden. -/
theorem callTimeout_entry (o : Overrides) (bridge : String) :
    (o.entry bridge).callTimeout = (o.bridges.get? bridge).bind Override.callTimeout := by
  rw [entry]
  cases o.bridges.get? bridge <;> rfl

/-- The same holds for its routing type. -/
theorem routingType_entry (o : Overrides) (bridge : String) :
    (o.entry bridge).routingType = (o.bridges.get? bridge).bind Override.routingType := by
  rw [entry]
  cases o.bridges.get? bridge <;> rfl

/-- After a setting its bridge has the changed entry, and all others have theirs. -/
theorem get?_bridges_set (o : Overrides) (s : Setting) (bridge : String) :
    (o.set s).bridges.get? bridge =
      if bridge = s.bridge then some (s.change (o.entry bridge)) else o.bridges.get? bridge := by
  rw [set_eq, Catalog.get?_insert]
  split
  next hbridge => rw [hbridge]
  next => rfl

/-- The entry of a bridge is changed by the settings for this bridge only. -/
theorem entry_set (o : Overrides) (s : Setting) (bridge : String) :
    (o.set s).entry bridge = if bridge = s.bridge then s.change (o.entry bridge) else o.entry bridge := by
  rw [entry, get?_bridges_set]
  split <;> rfl

/-- The entry of a bridge has what a setting brings to it, and else what it had. -/
theorem value_entry_set {α : Type} {value : Setting → Option α} {own : Override → Option α}
    (hchange : ∀ s entry, own (s.change entry) = (value s).or (own entry)) (o : Overrides) (s : Setting)
    (bridge : String) :
    own ((o.set s).entry bridge) = (s.brings value bridge).or (own (o.entry bridge)) := by
  rw [entry_set, Setting.brings]
  split
  next => exact hchange s _
  next => exact Option.none_or.symm

/-- Two settings for different bridges or attributes may be made in either order. -/
theorem set_comm {first second : Setting}
    (h : first.bridge ≠ second.bridge ∨ first.subject ≠ second.subject) (o : Overrides) :
    (o.set first).set second = (o.set second).set first := by
  have hbridges : ((o.set first).set second).bridges = ((o.set second).set first).bridges := by
    refine Catalog.ext_get? fun bridge => ?_
    simp only [get?_bridges_set, entry_set]
    by_cases hfirst : bridge = first.bridge
    · by_cases hsecond : bridge = second.bridge
      · have hsubject := h.resolve_left (not_not.mpr (hfirst.symm.trans hsecond))
        rw [if_pos hsecond, if_pos hfirst, if_pos hfirst, if_pos hsecond, Setting.change_comm hsubject]
      · rw [if_neg hsecond, if_pos hfirst, if_pos hfirst, if_neg hsecond]
    · simp only [if_neg hfirst]
  have htable : ∀ s s' : Setting, (o.set s).set s' = ⟨o.callTimeout, ((o.set s).set s').bridges⟩ := by
    intro s s'
    rw [set_eq (o.set s), callTimeout_set]
  rw [htable first second, htable second first, hbridges]

/-! ### Several settings -/

/-- The entry of a bridge has what is brought to it last, and else what it had. -/
theorem value_entry_setAll {α : Type} {value : Setting → Option α} {own : Override → Option α}
    (hchange : ∀ s entry, own (s.change entry) = (value s).or (own entry)) (o : Overrides)
    (settings : List Setting) (bridge : String) :
    own ((o.setAll settings).entry bridge) =
      (lastFor value bridge settings).or (own (o.entry bridge)) := by
  induction settings generalizing o with
  | nil => rfl
  | cons s rest ih =>
    change own (((o.set s).setAll rest).entry bridge) = _
    rw [ih, value_entry_set hchange, lastFor, lastFor, List.filterMap_cons]
    cases s.brings value bridge with
    | none => rw [Option.none_or]
    | some brought =>
      rw [List.getLast?_cons, Option.some_or]
      cases (rest.filterMap (Setting.brings value bridge)).getLast? <;> rfl

/-- Several settings do not change the timeout for all bridges either. -/
@[simp] theorem callTimeout_setAll (o : Overrides) (settings : List Setting) :
    (o.setAll settings).callTimeout = o.callTimeout := by
  induction settings generalizing o with
  | nil => rfl
  | cons s rest ih =>
    change ((o.set s).setAll rest).callTimeout = o.callTimeout
    rw [ih, callTimeout_set]

/-- The timeout of a bridge is what was set last for it, else what it had, else that for all bridges. -/
theorem callTimeoutFor_setAll (o : Overrides) (settings : List Setting) (bridge : String) :
    (o.setAll settings).callTimeoutFor bridge =
      ((lastFor Setting.callTimeout? bridge settings).or (o.entry bridge).callTimeout).or o.callTimeout := by
  rw [callTimeoutFor, Option.orElse_eq_orElse, Option.orElse_eq_or, callTimeout_setAll,
    value_entry_setAll Setting.callTimeout_change]

/-- The routing type of a bridge is what was set last for it, and else what it had. -/
theorem routingTypeFor_setAll (o : Overrides) (settings : List Setting) (bridge : String) :
    (o.setAll settings).routingTypeFor bridge =
      (lastFor Setting.routingType? bridge settings).or (o.entry bridge).routingType :=
  value_entry_setAll Setting.routingType_change o settings bridge

/-- Neighbours in a sequence of settings may change places when they are for different bridges or
attributes. -/
theorem setAll_swap {first second : Setting}
    (h : first.bridge ≠ second.bridge ∨ first.subject ≠ second.subject) (o : Overrides)
    (before after : List Setting) :
    o.setAll (before ++ first :: second :: after) = o.setAll (before ++ second :: first :: after) := by
  unfold setAll
  rw [List.foldl_append, List.foldl_append, List.foldl_cons, List.foldl_cons, set_comm h]
  rfl

end Overrides

/-! ### What counts -/

/-- Resolution asks the overrides for two values of the bridge. -/
theorem resolve_congr {d : Declared} {o o' : Overrides}
    (htimeout : o.callTimeoutFor d.name = o'.callTimeoutFor d.name)
    (hrouting : o.routingTypeFor d.name = o'.routingTypeFor d.name) : resolve o d = resolve o' d := by
  unfold resolve Declared.resolve Declared.routing
  rw [htimeout, hrouting]

/-- After any settings the call timeout that counts for a bridge is the one that was set for it last, or
else the one of its entry at first, or else the one for all bridges at first; the routing type that counts
is the one that was set for it last, or else the one of its entry at first. Settings for different bridges
or attributes may change places. Two tables of overrides in which the same two values count for a
bridge resolve it alike. -/
theorem last_setting_counts :
    (∀ (o : Overrides) (settings : List Setting) (bridge : String),
      (o.setAll settings).callTimeoutFor bridge =
          ((lastFor Setting.callTimeout? bridge settings).or
            ((o.bridges.get? bridge).bind Override.callTimeout)).or o.callTimeout ∧
        (o.setAll settings).routingTypeFor bridge =
          (lastFor Setting.routingType? bridge settings).or
            ((o.bridges.get? bridge).bind Override.routingType)) ∧
    (∀ (o : Overrides) (before after : List Setting) (first second : Setting),
      first.bridge ≠ second.bridge ∨ first.subject ≠ second.subject →
        o.setAll (before ++ first :: second :: after) = o.setAll (before ++ second :: first :: after)) ∧
    ∀ (d : Declared) (o o' : Overrides), o.callTimeoutFor d.name = o'.callTimeoutFor d.name →
      o.routingTypeFor d.name = o'.routingTypeFor d.name → resolve o d = resolve o' d := by
  refine ⟨fun o settings bridge => ⟨?_, ?_⟩, fun o before after first second h => ?_,
    fun d o o' htimeout hrouting => resolve_congr htimeout hrouting⟩
  · rw [Overrides.callTimeoutFor_setAll, Overrides.callTimeout_entry]
  · rw [Overrides.routingTypeFor_setAll, Overrides.routingType_entry]
  · exact Overrides.setAll_swap h o before after

/-- Two attributes of one bridge are set between other settings, over a value for all bridges. -/
theorem last_setting_counts_one_bridge :
    let o : Overrides := { callTimeout := some 500 }
    let timeout : Setting := .callTimeout "a" 100
    let routing : Setting := .routingType "a" "STRIP"
    let mixed := o.setAll [.routingType "a" "PASS", timeout, routing, .routingType "b" "ANYCAST"]
    let plain := Overrides.setAll {} [timeout, routing]
    let d := Declared.withConnectors "a" "orders" ["remote"]
    (timeout.bridge ≠ routing.bridge ∨ timeout.subject ≠ routing.subject) ∧
      mixed = o.setAll [.routingType "a" "PASS", routing, timeout, .routingType "b" "ANYCAST"] ∧
      mixed.callTimeoutFor "a" = some 100 ∧ mixed.callTimeoutFor "b" = some 500 ∧
      mixed.routingTypeFor "a" = some "STRIP" ∧ mixed.routingTypeFor "c" = none ∧
      mixed.callTimeoutFor "a" = plain.callTimeoutFor "a" ∧
      mixed.routingTypeFor "a" = plain.routingTypeFor "a" ∧ resolve mixed d = resolve plain d := by
  intro o timeout routing mixed plain d
  obtain ⟨hvalues, hswap, hresolve⟩ := last_setting_counts
  have hdifferent : timeout.bridge ≠ routing.bridge ∨ timeout.subject ≠ routing.subject :=
    Or.inr (by decide)
  have htimeout : mixed.callTimeoutFor "a" = some 100 := (hvalues o _ "a").1
  have hrouting : mixed.routingTypeFor "a" = some "STRIP" := (hvalues o _ "a").2
  have htimeouts : mixed.callTimeoutFor "a" = plain.callTimeoutFor "a" :=
    htimeout.trans (hvalues {} [timeout, routing] "a").1.symm
  have hroutings : mixed.routingTypeFor "a" = plain.routingTypeFor "a" :=
    hrouting.trans (hvalues {} [timeout, routing] "a").2.symm
  exact ⟨hdifferent, hswap o [.routingType "a" "PASS"] [.routingType "b" "ANYCAST"] timeout routing hdifferent,
    htimeout, (hvalues o _ "b").1, hrouting, (hvalues o _ "c").2, htimeouts, hroutings,
    hresolve d mixed plain htimeouts hroutings⟩

end BrokerAdmin.Bridge
