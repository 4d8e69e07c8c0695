import BrokerAdmin.Proofs.Settings.Validation

/-!
# The fault that is reported

Settings that are not consistent may have many faults, and validation reports one of them. After the log
level it is the fault of the first bridge that has one, in the order of the bridges: that it repeats the name
of an earlier one, or else that it does not resolve. Where no bridge has a fault it is the least name that is
overridden without being declared. Overrides have no order of their own, and the least name is the same in
whatever order they are gone through. Whether there is any fault does not depend on the order of the bridges.
-/

namespace BrokerAdmin.Settings

open Bridge (Declared Overrides resolve)

/-! ### Bridges -/

/-- The fault of a bridge after others of the given names. -/
inductive BridgeFault (o : Overrides) (names : List String) (d : Declared) : Fault → Prop where
  /-- Its name is repeated. It does not matter then whether it resolves. -/
  | repeated (hname : d.name ∈ names) : BridgeFault o names d (.duplicateBridge d.name)
  /-- It breaks a rule. -/
  | unresolved {e : Bridge.Error} (hfresh : d.name ∉ names) (hspec : resolve o d = .error e) :
    BridgeFault o names d (.bridge e)

/-- Bridges without a fault: their names differ, and all of them resolve. -/
structure Faultless (o : Overrides) (ds : List Declared) : Prop where
  nodup : (ds.map Declared.name).Nodup
  resolves : ∀ d ∈ ds, ∃ spec, resolve o d = .ok spec

variable {o : Overrides} {names names' : List String} {d : Declared} {ds : List Declared} {fault : Fault}

/-- Only the names themselves matter, not their order. -/
theorem BridgeFault.congr (h : BridgeFault o names d fault) (hnames : ∀ name, name ∈ names ↔ name ∈ names') :
    BridgeFault o names' d fault := by
  cases h with
  | repeated hname => exact .repeated ((hnames _).mp hname)
  | unresolved hfresh hspec => exact .unresolved (fun hname => hfresh ((hnames _).mpr hname)) hspec

/-- A bridge whose name is repeated has that fault and no other. -/
theorem bridgeFault_iff_of_mem (hname : d.name ∈ names) :
    BridgeFault o names d fault ↔ .duplicateBridge d.name = fault := by
  constructor
  · intro hfault
    cases hfault with
    | repeated => rfl
    | unresolved hfresh => exact absurd hname hfresh
  · rintro rfl
    exact .repeated hname

/-- A bridge with a new name has the fault that its resolution has, if any. -/
theorem bridgeFault_iff_of_not_mem (hfresh : d.name ∉ names) :
    BridgeFault o names d fault ↔ ∃ e, resolve o d = .error e ∧ .bridge e = fault := by
  constructor
  · intro hfault
    cases hfault with
    | repeated hname => exact absurd hname hfresh
    | unresolved _ hspec => exact ⟨_, hspec, rfl⟩
  · rintro ⟨e, hspec, rfl⟩
    exact .unresolved hfresh hspec

/-- A bridge has a fault, or it has a new name and resolves and the check goes on behind it. -/
theorem checkBridges_cons_eq_error_iff (seen : List String) :
    checkBridges o seen (d :: ds) = .error fault ↔
      BridgeFault o seen d fault ∨
        (d.name ∉ seen ∧ (∃ spec, resolve o d = .ok spec) ∧
          checkBridges o (d.name :: seen) ds = .error fault) := by
  rw [checkBridges]
  by_cases hseen : d.name ∈ seen
  · rw [bridgeFault_iff_of_mem hseen]
    simp [hseen]
  · rw [bridgeFault_iff_of_not_mem hseen]
    cases hspec : resolve o d with
    | error e => simp [hseen]
    | ok spec => simp [hseen]

/-- The check of bridges fails with the fault of the first one that has a fault. -/
theorem checkBridges_eq_error_iff (seen : List String) :
    checkBridges o seen ds = .error fault ↔
      ∃ before d after, ds = before ++ d :: after ∧ checkBridges o seen before = .ok () ∧
        BridgeFault o (before.map Declared.name ++ seen) d fault := by
  induction ds generalizing seen with
  | nil => exact iff_of_false nofun (by simp)
  | cons first ds ih =>
    rw [checkBridges_cons_eq_error_iff, ih]
    -- the names of earlier bridges and those seen before them change places
    have hnames (before : List Declared) : ∀ name, name ∈ before.map Declared.name ++ first.name :: seen ↔
        name ∈ (first :: before).map Declared.name ++ seen := by
      intro name
      simp only [List.mem_append, List.mem_cons, List.map_cons]
      tauto
    constructor
    · rintro (hfault | ⟨hfresh, hspec, before, d, after, rfl, hbefore, hfault⟩)
      · exact ⟨[], first, ds, rfl, rfl, hfault⟩
      · have hpassed := checkBridges_cons_eq_ok_iff.mpr ⟨hfresh, hspec, hbefore⟩
        exact ⟨first :: before, d, after, rfl, hpassed, hfault.congr (hnames before)⟩
    · rintro ⟨before, d, after, hds, hbefore, hfault⟩
      cases before with
      | nil =>
        cases hds
        exact .inl hfault
      | cons earlier before =>
        cases hds
        obtain ⟨hfresh, hspec, hbefore⟩ := checkBridges_cons_eq_ok_iff.mp hbefore
        have hfault' := hfault.congr fun name => (hnames before name).symm
        exact .inr ⟨hfresh, hspec, before, d, after, rfl, hbefore, hfault'⟩

/-! ### Overrides -/

/-- The least name that is overridden without being one of the given names. -/
structure LeastUnknown (o : Overrides) (names : List String) (name : String) : Prop where
  overridden : name ∈ o.bridges.names
  unknown : name ∉ names
  least : ∀ other ∈ o.bridges.names, other ∉ names → name ≤ other

variable {name : String}

/-- There is one least name. -/
theorem LeastUnknown.unique (h : LeastUnknown o names name) {name' : String}
    (h' : LeastUnknown o names name') : name = name' :=
  String.le_antisymm (h.least name' h'.overridden h'.unknown) (h'.least name h.overridden h.unknown)

/-- The first unknown name in ascending order is the least one. -/
theorem leastUnknown_of_find? (h : (o.bridges.names.find? fun name => !names.contains name) = some name) :
    LeastUnknown o names name := by
  obtain ⟨hname, before, after, hsplit, hbefore⟩ := List.find?_eq_some_iff_append.mp h
  have hascending : o.bridges.names.Pairwise (· < ·) := o.bridges.ascending
  rw [hsplit] at hascending
  refine ⟨hsplit ▸ List.mem_append_right before List.mem_cons_self, by simpa using hname, ?_⟩
  intro other hother hunknown
  rw [hsplit] at hother
  rcases List.mem_append.mp hother with hmem | hmem
  · exact absurd (by simpa using hbefore other hmem) hunknown
  · rcases List.mem_cons.mp hmem with rfl | hmem
    · exact String.le_refl other
    · have hlt := (List.pairwise_cons.mp (List.pairwise_append.mp hascending).2.1).1 other hmem
      exact Std.le_of_lt hlt

/-- The check of overrides fails with the least unknown name. -/
theorem checkOverrides_eq_error_iff :
    checkOverrides o names = .error fault ↔
      ∃ name, LeastUnknown o names name ∧ .unknownBridge name = fault := by
  unfold checkOverrides
  split
  next name hfound =>
    have hleast := leastUnknown_of_find? hfound
    rw [Except.error.injEq]
    constructor
    · rintro rfl
      exact ⟨name, hleast, rfl⟩
    · rintro ⟨other, hother, rfl⟩
      rw [hleast.unique hother]
  next hnone =>
    refine iff_of_false nofun ?_
    rintro ⟨name, hleast, -⟩
    have hknown := List.find?_eq_none.mp hnone name hleast.overridden
    exact hleast.unknown (by simpa using hknown)

/-- The names that are unknown, out of names in any order, in ascending order. -/
def sortedUnknown (names order : List String) : List String :=
  (order.filter fun other => !names.contains other).mergeSort fun a b => decide (a ≤ b)

/-- The sorted names are those of the order that are unknown. -/
theorem mem_sortedUnknown {order : List String} :
    name ∈ sortedUnknown names order ↔ name ∈ order ∧ name ∉ names := by
  simp [sortedUnknown]

/-- The sorted names are in ascending order. -/
theorem pairwise_sortedUnknown (names order : List String) :
    (sortedUnknown names order).Pairwise (· ≤ ·) := by
  have htrans : ∀ a b c : String, decide (a ≤ b) = true → decide (b ≤ c) = true → decide (a ≤ c) = true := by
    simp only [decide_eq_true_eq]
    exact fun _ _ _ => String.le_trans
  have htotal : ∀ a b : String, (decide (a ≤ b) || decide (b ≤ a)) = true := by
    simpa using String.le_total
  simpa [sortedUnknown] using
    List.pairwise_mergeSort htrans htotal (order.filter fun other => !names.contains other)

/-- The least of ascending names comes first. -/
theorem head?_eq_of_least {sorted : List String} (hsorted : sorted.Pairwise (· ≤ ·)) (hname : name ∈ sorted)
    (hleast : ∀ other ∈ sorted, name ≤ other) : sorted.head? = some name := by
  cases sorted with
  | nil => contradiction
  | cons first rest =>
    have hfirst : first ≤ name := by
      rcases List.mem_cons.mp hname with rfl | hrest
      · exact String.le_refl name
      · exact (List.pairwise_cons.mp hsorted).1 name hrest
    rw [List.head?_cons, String.le_antisymm hfirst (hleast first List.mem_cons_self)]

/-- In whatever order the overridden names are gone through, the least unknown one comes first when those that
are unknown are sorted. -/
theorem LeastUnknown.head?_sortedUnknown (h : LeastUnknown o names name) {order : List String}
    (horder : order.Perm o.bridges.names) : (sortedUnknown names order).head? = some name := by
  have hmem : ∀ other, other ∈ sortedUnknown names order ↔ other ∈ o.bridges.names ∧ other ∉ names := by
    intro other
    rw [mem_sortedUnknown, horder.mem_iff]
  refine head?_eq_of_least (pairwise_sortedUnknown names order) ((hmem name).mpr ⟨h.overridden, h.unknown⟩) ?_
  intro other hother
  obtain ⟨hoverridden, hunknown⟩ := (hmem other).mp hother
  exact h.least other hoverridden hunknown

/-! ### Settings -/

/-- A text is the name of a log level up to the case of ASCII letters. -/
def KnownLevel (text : String) : Prop :=
  ∃ level ∈ logLevels, Text.lower text = Text.lower level

/-- Settings without a fault. -/
structure Consistent (s : Settings) : Prop where
  logLevel : KnownLevel s.logLevel
  bridges : Faultless s.overrides s.bridges
  declared : ∀ name ∈ s.overrides.bridges.names, name ∈ s.bridges.map Declared.name

/-- The fault that is reported of settings. -/
inductive Reported (s : Settings) : Fault → Prop where
  /-- The log level is not known. -/
  | logLevel (hlevel : ¬ KnownLevel s.logLevel) : Reported s (.logLevel s.logLevel)
  /-- A bridge has a fault, and none before it has one. -/
  | bridge {before after : List Declared} {d : Declared} {fault : Fault}
    (hlevel : KnownLevel s.logLevel) (hbridges : s.bridges = before ++ d :: after)
    (hbefore : Faultless s.overrides before)
    (hfault : BridgeFault s.overrides (before.map Declared.name) d fault) : Reported s fault
  /-- No bridge has a fault, but one is overridden that is not declared. -/
  | unknownBridge {name : String} (hlevel : KnownLevel s.logLevel)
    (hbridges : Faultless s.overrides s.bridges)
    (hname : LeastUnknown s.overrides (s.bridges.map Declared.name) name) : Reported s (.unknownBridge name)

/-- The names of the log levels are in lower case. -/
theorem knownLevel_iff {text : String} : KnownLevel text ↔ Text.lower text ∈ logLevels := by
  have hlower : ∀ level ∈ logLevels, Text.lower level = level := by decide
  constructor
  · rintro ⟨level, hlevel, heq⟩
    rwa [heq, hlower level hlevel]
  · intro hlevel
    exact ⟨_, hlevel, (hlower _ hlevel).symm⟩

/-- Bridges pass on their own just when they have no fault. -/
theorem checkBridges_nil_eq_ok_iff : checkBridges o [] ds = .ok () ↔ Faultless o ds := by
  rw [checkBridges_eq_ok_iff]
  constructor
  · rintro ⟨hnodup, -, hresolves⟩
    exact ⟨hnodup, hresolves⟩
  · rintro ⟨hnodup, hresolves⟩
    exact ⟨hnodup, by simp, hresolves⟩

/-- Settings pass just when they have no fault. -/
theorem validate_eq_ok_iff_consistent (s : Settings) : s.validate = .ok () ↔ s.Consistent := by
  rw [validate_eq_ok_iff, ← knownLevel_iff]
  constructor
  · rintro ⟨hlevel, hnodup, hresolves, hdeclared⟩
    exact ⟨hlevel, ⟨hnodup, hresolves⟩, hdeclared⟩
  · rintro ⟨hlevel, ⟨hnodup, hresolves⟩, hdeclared⟩
    exact ⟨hlevel, hnodup, hresolves, hdeclared⟩

/-- In another order of the bridges, settings without a fault have none. -/
theorem Consistent.perm {s : Settings} (h : s.Consistent) {bridges : List Declared}
    (hperm : bridges.Perm s.bridges) : ({ s with bridges := bridges } : Settings).Consistent where
  logLevel := h.logLevel
  bridges.nodup := (hperm.map Declared.name).nodup_iff.mpr h.bridges.nodup
  bridges.resolves := fun d hd => h.bridges.resolves d (hperm.mem_iff.mp hd)
  declared := fun name hname => (hperm.map Declared.name).mem_iff.mpr (h.declared name hname)

/-- Validation fails with the fault that is reported. -/
theorem validate_eq_error_iff (s : Settings) : s.validate = .error fault ↔ Reported s fault := by
  by_cases hlevel : KnownLevel s.logLevel
  · rw [validate_of_mem (knownLevel_iff.mp hlevel), bind_eq_error_iff]
    constructor
    · rintro (hbridges | ⟨_, hbridges, hoverrides⟩)
      · obtain ⟨before, d, after, hsplit, hbefore, hfault⟩ := (checkBridges_eq_error_iff []).mp hbridges
        rw [List.append_nil] at hfault
        exact .bridge hlevel hsplit (checkBridges_nil_eq_ok_iff.mp hbefore) hfault
      · obtain ⟨name, hname, rfl⟩ := checkOverrides_eq_error_iff.mp hoverrides
        exact .unknownBridge hlevel (checkBridges_nil_eq_ok_iff.mp hbridges) hname
    · intro hreported
      cases hreported with
      | logLevel hunknown => exact absurd hlevel hunknown
      | @bridge before after d _ _ hsplit hbefore hfault =>
        refine .inl ((checkBridges_eq_error_iff []).mpr ⟨before, d, after, hsplit, ?_, ?_⟩)
        · exact checkBridges_nil_eq_ok_iff.mpr hbefore
        · rwa [List.append_nil]
      | unknownBridge _ hbridges hname =>
        have hpass := checkBridges_nil_eq_ok_iff.mpr hbridges
        exact .inr ⟨(), hpass, checkOverrides_eq_error_iff.mpr ⟨_, hname, rfl⟩⟩
  · rw [validate_of_not_mem (mt knownLevel_iff.mpr hlevel), Except.error.injEq]
    constructor
    · rintro rfl
      exact .logLevel hlevel
    · intro hreported
      cases hreported with
      | logLevel => rfl
      | bridge hknown => exact absurd hknown hlevel
      | unknownBridge hknown => exact absurd hknown hlevel

/-- Settings pass just when they have no fault, in whatever order their bridges are; otherwise the fault that
is reported is the error. A name that is reported as unknown is the first one when the overridden names, in
whatever order they come, are kept where they are not declared and then sorted. -/
theorem validate_reports_first (s : Settings) :
    (s.validate = .ok () ↔ s.Consistent) ∧
      (∀ bridges : List Declared, bridges.Perm s.bridges →
        (({ s with bridges := bridges } : Settings).validate = .ok () ↔ s.validate = .ok ())) ∧
      (∀ fault, s.validate = .error fault ↔ Reported s fault) ∧
      ∀ name, s.validate = .error (.unknownBridge name) →
        ∀ order : List String, order.Perm s.overrides.bridges.names →
          (sortedUnknown (s.bridges.map Declared.name) order).head? = some name := by
  refine ⟨validate_eq_ok_iff_consistent s, fun bridges hperm => ?_, fun _ => validate_eq_error_iff s, ?_⟩
  · rw [validate_eq_ok_iff_consistent, validate_eq_ok_iff_consistent]
    exact ⟨fun h => h.perm hperm.symm, fun h => h.perm hperm⟩
  · intro name hfault order horder
    cases (validate_eq_error_iff s).mp hfault with
    | bridge _ _ _ hbridge => nomatch hbridge
    | unknownBridge _ _ hname => exact hname.head?_sortedUnknown horder

/-- A name is repeated before any override is looked at, and before the bridge with it is resolved. -/
example :
    ({ bridges := [.withConnectors "a" "q" ["c"], { Declared.unnamed with name := "a" }]
       overrides := { bridges := Catalog.empty.insert "ghost" {} } } : Settings).validate =
      .error (.duplicateBridge "a") := by decide +kernel

end BrokerAdmin.Settings
