import BrokerAdmin.Proofs.Bridge.Rules

/-!
# The resolution of declared bridges

A declared bridge resolves just when it keeps the rules of its table, which stand there in the order in which
they are reported. The table and the meaning of what is resolved speak of what is configured: of the declared
attributes, and of the overrides where these come first.
-/

namespace BrokerAdmin

/-- A number is finite and not below zero; the negative zero is not. -/
def Binary64.Nonnegative (x : Binary64) : Prop :=
  ∃ negative mantissa exponent, x = .finite negative mantissa exponent ∧ (negative = true → mantissa = 0)

namespace Bridge

/-! ### What is configured -/

namespace Declared

variable (d : Declared) (o : Overrides)

/-- The call timeout that is configured for a bridge: for the bridge by itself, or else for all bridges, or
else where the bridge is declared. -/
def configuredCallTimeout : Int64 :=
  match (o.bridges.get? d.name).bind Override.callTimeout, o.callTimeout with
  | some own, _ => own
  | none, some common => common
  | none, none => d.callTimeout

/-- The routing type that is configured for a bridge: for the bridge by itself, or else where the bridge is
declared. -/
def configuredRoutingType : String :=
  match (o.bridges.get? d.name).bind Override.routingType with
  | some own => own
  | none => d.routingType

/-- A discovery group is given. -/
def HasGroup : Prop :=
  ∃ group, d.discoveryGroup = some group ∧ ¬ Text.Blank group

/-- Connectors are given. -/
def HasConnectors : Prop :=
  ∃ names, d.staticConnectors = some names ∧ names ≠ []

/-- The rules of a declared bridge, in the order in which they are reported. -/
def rules : List Rule :=
  [⟨¬ Text.Blank d.name, .blankName⟩,
   ⟨¬ Text.Blank d.queueName, .blankQueueName⟩,
   ⟨¬ (d.HasGroup ∧ d.HasConnectors), .groupAndConnectors⟩,
   ⟨d.HasGroup ∨ d.HasConnectors, .neitherGroupNorConnectors⟩,
   ⟨∀ names, d.staticConnectors = some names → ∀ name ∈ names, ¬ Text.Blank name, .blankConnector⟩,
   ⟨∃ routing : RoutingType, routing.NamedBy (d.configuredRoutingType o),
    .unknownRoutingType (d.configuredRoutingType o)⟩,
   .duration "call_timeout" (d.configuredCallTimeout o),
   ⟨d.retryIntervalMultiplier.Nonnegative, .multiplier d.retryIntervalMultiplier⟩,
   .duration "retry_interval" d.retryInterval,
   .duration "max_retry_interval" d.maxRetryInterval,
   .attempts "initial_connect_attempts" d.initialConnectAttempts,
   .attempts "reconnect_attempts" d.reconnectAttempts,
   .attempts "reconnect_attempts_on_same_node" d.reconnectAttemptsOnSameNode,
   .size "min_large_message_size" d.minLargeMessageSize,
   .optionalDuration "check_period" d.checkPeriod,
   .optionalDuration "connection_ttl" d.connectionTtl,
   .optionalSize "confirmation_window_size" d.confirmationWindowSize,
   .optionalSize "producer_window_size" d.producerWindowSize,
   ⟨¬ (d.password.isSome ∧ d.credentialReference.isSome), .passwordAndReference⟩]

end Declared

/-- A retry policy has the numbers that are configured for a declared bridge. -/
structure RetryPolicy.Carries (p : RetryPolicy) (d : Declared) : Prop where
  interval : (p.interval : Int) = d.retryInterval.toInt
  multiplier : p.multiplier = d.retryIntervalMultiplier
  maxInterval : (p.maxInterval : Int) = d.maxRetryInterval.toInt
  initialConnectAttempts : p.initialConnectAttempts.toConfig = d.initialConnectAttempts.toInt
  reconnectAttempts : p.reconnectAttempts.toConfig = d.reconnectAttempts.toInt
  reconnectAttemptsOnSameNode :
    p.reconnectAttemptsOnSameNode.toConfig = d.reconnectAttemptsOnSameNode.toInt

/-- A resolved bridge has the numbers and the routing type that are configured for a declared one. -/
structure Spec.Carries (spec : Spec) (d : Declared) (o : Overrides) : Prop where
  routingType : spec.routingType.NamedBy (d.configuredRoutingType o)
  callTimeout : (spec.callTimeout : Int) = (d.configuredCallTimeout o).toInt
  retry : spec.retry.Carries d
  minLargeMessageSize : (spec.minLargeMessageSize : Int) = d.minLargeMessageSize.toInt
  checkPeriod : configured spec.checkPeriod = d.checkPeriod.toInt
  connectionTtl : configured spec.connectionTtl = d.connectionTtl.toInt
  confirmationWindowSize : configured spec.confirmationWindowSize = d.confirmationWindowSize.toInt
  producerWindowSize : configured spec.producerWindowSize = d.producerWindowSize.toInt

/-! ### The checks -/

variable (d : Declared) (o : Overrides)

/-- The timeout that overrides give a declared bridge, or else its own, is the configured one. -/
theorem configuredCallTimeout_eq :
    (o.callTimeoutFor d.name).getD d.callTimeout = d.configuredCallTimeout o := by
  unfold Overrides.callTimeoutFor Overrides.entry Declared.configuredCallTimeout
  cases o.bridges.get? d.name with
  | none => cases o.callTimeout <;> rfl
  | some own =>
    dsimp only [Option.getD_some, Option.bind_some]
    cases own.callTimeout <;> cases o.callTimeout <;> rfl

/-- The same holds for its routing type. -/
theorem configuredRoutingType_eq :
    (o.routingTypeFor d.name).getD d.routingType = d.configuredRoutingType o := by
  unfold Overrides.routingTypeFor Overrides.entry Declared.configuredRoutingType
  cases o.bridges.get? d.name with
  | none => rfl
  | some own =>
    dsimp only [Option.getD_some, Option.bind_some]
    cases own.routingType <;> rfl

/-- A text that must be there is refused when it is blank. -/
theorem notBlank_goesBy (violation : Violation) (text : String) :
    GoesBy [⟨¬ Text.Blank text, violation⟩] (fun _ => True) (notBlank violation text) := by
  unfold notBlank
  split
  next hblank => exact .refuses (.here (not_not.mpr (Text.isBlankText_iff.mp hblank)))
  next hblank =>
    rw [Text.isBlankText_iff] at hblank
    exact .accepts (List.forall_mem_singleton.mpr hblank) trivial

/-- The configured routing type must be the name of one, which is then the result. -/
theorem routing_goesBy :
    GoesBy [⟨∃ routing : RoutingType, routing.NamedBy (d.configuredRoutingType o),
        .unknownRoutingType (d.configuredRoutingType o)⟩]
      (fun routing => routing.NamedBy (d.configuredRoutingType o)) (d.routing o) := by
  unfold Declared.routing
  rw [configuredRoutingType_eq]
  dsimp only
  split
  next routing hread =>
    have hnamed := RoutingType.ofText?_eq_some_iff.mp hread
    exact .accepts (List.forall_mem_singleton.mpr ⟨routing, hnamed⟩) hnamed
  next hnone =>
    refine .refuses (.here ?_)
    rintro ⟨routing, hnamed⟩
    cases hnone.symm.trans (RoutingType.ofText?_eq_some_iff.mpr hnamed)

/-- A finite number is below zero when it has a sign and a mantissa. -/
theorem compare?_zero_eq_lt_iff (negative : Bool) (mantissa : Nat) (exponent : Int) :
    (Binary64.finite negative mantissa exponent).compare? (Binary64.ofInt 0) = some .lt ↔
      negative = true ∧ mantissa ≠ 0 := by
  have hzero : Binary64.ofInt 0 = .finite false 0 Binary64.leastExponent := rfl
  have hunits : Binary64.units false 0 Binary64.leastExponent = 0 := rfl
  have hpower : (0 : Int) < 2 ^ (exponent - Binary64.leastExponent).toNat := Int.pow_pos (by decide)
  rw [hzero, Binary64.compare?, hunits, Option.some.injEq, compare_lt_iff_lt, Binary64.units]
  cases negative with
  | false =>
    have hsize : (0 : Int) ≤ mantissa * 2 ^ (exponent - Binary64.leastExponent).toNat :=
      Int.mul_nonneg (by omega) hpower.le
    exact iff_of_false hsize.not_gt nofun
  | true =>
    rw [if_pos rfl, neg_lt_zero, mul_pos_iff_of_pos_right hpower, Int.natCast_pos, Nat.pos_iff_ne_zero]
    simp

/-- What is refused as a multiplier is not finite or below zero. -/
theorem refused_iff_not_nonnegative (x : Binary64) :
    (!x.isFinite || x.compare? (Binary64.ofInt 0) == some .lt) = true ↔ ¬ x.Nonnegative := by
  cases x with
  | finite negative mantissa exponent =>
    rw [Binary64.isFinite, Bool.not_true, Bool.false_or, beq_iff_eq, compare?_zero_eq_lt_iff]
    constructor
    · rintro ⟨hnegative, hmantissa⟩ ⟨_, _, _, heq, hzero⟩
      cases heq
      exact hmantissa (hzero hnegative)
    · intro hbelow
      by_contra hneither
      exact hbelow ⟨negative, mantissa, exponent, rfl, by tauto⟩
  | infinite negative => exact iff_of_true rfl nofun
  | nan => exact iff_of_true rfl nofun

/-- A multiplier is taken as it is if it is finite and not below zero. -/
theorem multiplier_goesBy :
    GoesBy [⟨d.retryIntervalMultiplier.Nonnegative, .multiplier d.retryIntervalMultiplier⟩]
      (fun x => x = d.retryIntervalMultiplier) d.multiplier := by
  unfold Declared.multiplier
  dsimp only
  split
  next hrefused => exact .refuses (.here ((refused_iff_not_nonnegative _).mp hrefused))
  next hpassed =>
    rw [refused_iff_not_nonnegative, not_not] at hpassed
    exact .accepts (List.forall_mem_singleton.mpr hpassed) rfl

/-- A discovery group is given when something is left of its name. -/
theorem hasGroup_iff : d.HasGroup ↔ ∃ group, d.discoveryGroup.bind Text.trimmed? = some group := by
  unfold Declared.HasGroup Text.trimmed?
  cases d.discoveryGroup with
  | none => simp
  | some text =>
    by_cases hblank : Text.Blank text
    · simp [Text.isBlankText_iff, hblank]
    · simp [Text.isBlankText_iff, hblank]

/-- Where connectors are given, their list is not empty. -/
theorem hasConnectors_iff : d.HasConnectors ↔ d.staticConnectors.getD [] ≠ [] := by
  unfold Declared.HasConnectors
  cases d.staticConnectors <;> simp

/-- There must be a discovery group or connectors, not both, and no connector may be blank. -/
theorem connectors_goesBy :
    GoesBy [⟨¬ (d.HasGroup ∧ d.HasConnectors), .groupAndConnectors⟩,
        ⟨d.HasGroup ∨ d.HasConnectors, .neitherGroupNorConnectors⟩,
        ⟨∀ names, d.staticConnectors = some names → ∀ name ∈ names, ¬ Text.Blank name, .blankConnector⟩]
      (fun _ => True) d.connectors := by
  have hgroup := hasGroup_iff d
  have hconnectors := hasConnectors_iff d
  have hnames : (∀ names, d.staticConnectors = some names → ∀ name ∈ names, ¬ Text.Blank name) ↔
      ∀ name ∈ d.staticConnectors.getD [], ¬ Text.Blank name := by
    cases d.staticConnectors <;> simp
  unfold Declared.connectors
  simp only [hgroup, hconnectors, hnames]
  -- each rule is now told by what the check looks at
  cases d.discoveryGroup.bind Text.trimmed? with
  | some group =>
    cases d.staticConnectors.getD [] with
    | nil => exact .accepts (by simp) trivial
    | cons name names => exact .refuses (.here (by simp))
  | none =>
    cases d.staticConnectors.getD [] with
    | nil => exact .refuses (.later (by simp) (.here (by simp)))
    | cons name names =>
      dsimp only
      split
      next hblank =>
        obtain ⟨other, hother, hblank⟩ := List.any_eq_true.mp hblank
        refine .refuses (.later (by simp) (.later (by simp) (.here fun hall => ?_)))
        exact hall other hother (Text.isBlankText_iff.mp hblank)
      next hfilled =>
        have hall : ∀ other ∈ name :: names, ¬ Text.Blank other := by
          intro other hother hblank
          exact hfilled (List.any_eq_true.mpr ⟨other, hother, Text.isBlankText_iff.mpr hblank⟩)
        refine .accepts ?_ trivial
        simpa using hall

/-- A password comes from one source at most. -/
theorem credentials_goesBy :
    GoesBy [⟨¬ (d.password.isSome ∧ d.credentialReference.isSome), .passwordAndReference⟩] (fun _ => True)
      d.credentials := by
  have hsource : GoesBy [⟨¬ (d.password.isSome ∧ d.credentialReference.isSome), .passwordAndReference⟩]
      (fun _ => True) d.passwordSource := by
    unfold Declared.passwordSource
    cases d.password <;> cases d.credentialReference
    · exact .accepts (by simp) trivial
    · exact .accepts (by simp) trivial
    · exact .accepts (by simp) trivial
    · exact .refuses (.here (by simp))
  exact hsource.map fun _ _ => trivial

/-- The numbers of a retry policy are checked one after the other, the multiplier first. -/
theorem retryPolicy_goesBy :
    GoesBy [⟨d.retryIntervalMultiplier.Nonnegative, .multiplier d.retryIntervalMultiplier⟩,
        .duration "retry_interval" d.retryInterval,
        .duration "max_retry_interval" d.maxRetryInterval,
        .attempts "initial_connect_attempts" d.initialConnectAttempts,
        .attempts "reconnect_attempts" d.reconnectAttempts,
        .attempts "reconnect_attempts_on_same_node" d.reconnectAttemptsOnSameNode]
      (fun p => p.Carries d) d.retryPolicy := by
  unfold Declared.retryPolicy
  refine GoesBy.bind (multiplier_goesBy d) fun multiplier hmultiplier => ?_
  refine GoesBy.bind (duration_goesBy _ _) fun interval hinterval => ?_
  refine GoesBy.bind (duration_goesBy _ _) fun maxInterval hmaxInterval => ?_
  refine GoesBy.bind (attemptLimit_goesBy _ _) fun initial hinitial => ?_
  refine GoesBy.bind (attemptLimit_goesBy _ _) fun again hagain => ?_
  refine GoesBy.bind (attemptLimit_goesBy _ _) fun sameNode hsameNode => ?_
  exact .accepts nofun ⟨hinterval, hmultiplier, hmaxInterval, hinitial, hagain, hsameNode⟩

/-- The resolution of a declared bridge goes by its rules. -/
theorem resolve_goesBy : GoesBy (d.rules o) (fun spec => spec.Carries d o) (d.resolve o) := by
  unfold Declared.resolve
  refine GoesBy.bind (notBlank_goesBy _ _) fun _ _ => ?_
  refine GoesBy.bind (notBlank_goesBy _ _) fun _ _ => ?_
  refine GoesBy.bind (connectors_goesBy d) fun _ _ => ?_
  refine GoesBy.bind (routing_goesBy d o) fun routing hrouting => ?_
  rw [configuredCallTimeout_eq]
  refine GoesBy.bind (duration_goesBy _ _) fun callTimeout hcallTimeout => ?_
  refine GoesBy.bind (retryPolicy_goesBy d) fun retry hretry => ?_
  refine GoesBy.bind (requiredSize_goesBy _ _) fun minLargeMessageSize hminLargeMessageSize => ?_
  refine GoesBy.bind (optionalDuration_goesBy _ _) fun checkPeriod hcheckPeriod => ?_
  refine GoesBy.bind (optionalDuration_goesBy _ _) fun connectionTtl hconnectionTtl => ?_
  refine GoesBy.bind (optionalSize_goesBy _ _) fun confirmation hconfirmation => ?_
  refine GoesBy.bind (optionalSize_goesBy _ _) fun producer hproducer => ?_
  refine GoesBy.bind (credentials_goesBy d) fun _ _ => ?_
  exact .accepts nofun ⟨hrouting, hcallTimeout, hretry, hminLargeMessageSize, hcheckPeriod, hconnectionTtl,
    hconfirmation, hproducer⟩

/-! ### Resolution -/

/-- A declared bridge resolves just when it keeps its rules. What it resolves to has the numbers that are
configured: those of the overrides where they come first, with `-1` for what is disabled or unlimited. A
bridge that does not resolve is reported by its name, with the first rule that it breaks. -/
theorem resolve_by_rules (o : Overrides) (d : Declared) :
    ((∃ spec, resolve o d = .ok spec) ↔ ∀ rule ∈ d.rules o, rule.holds) ∧
      (∀ spec, resolve o d = .ok spec → spec.Carries d o) ∧
      ∀ e, resolve o d = .error e ↔
        ∃ violation, FirstBroken (d.rules o) violation ∧ e = .configuration d.name violation := by
  have hrules := resolve_goesBy d o
  refine ⟨?_, fun spec hspec => ?_, fun e => ?_⟩
  · simp only [resolve, mapError_eq_ok_iff]
    exact hrules.exists_eq_ok_iff
  · exact hrules.good_of_eq_ok (mapError_eq_ok_iff.mp hspec)
  · rw [resolve, mapError_eq_error_iff]
    exact exists_congr fun violation => and_congr hrules.eq_error_iff eq_comm

/-- Without a queue and without connectors, the queue is what is reported. -/
example : resolve {} .unnamed = .error (.configuration "default" .blankQueueName) := rfl

end Bridge

end BrokerAdmin
