import BrokerAdmin.CommandLine
import BrokerAdmin.Proofs.Bridge.Masking

/-!
# Passwords are not shown

Settings that differ in nothing but what the clear passwords of their bridges are look alike when they are
masked. Nothing tells them apart: they are both consistent or have the same fault, resolve to definitions
that are written and shown alike or fail with the same error, make the command line print the same and exit
alike, and lead to the same deployments but for the passwords inside the definitions. All of this follows
from what masking commutes with, since each of the two can be masked first.
-/

namespace BrokerAdmin.Settings

open Bridge (Declared Overrides Spec resolve resolve_masked)

/-- Settings without the passwords of their bridges; which of these have a password can still be seen. -/
def masked (s : Settings) : Settings :=
  { s with bridges := s.bridges.map Declared.masked }

/-- Bridges pass or fail the check without a look at their passwords. -/
theorem checkBridges_masked (o : Overrides) (seen : List String) (ds : List Declared) :
    checkBridges o seen (ds.map Declared.masked) = checkBridges o seen ds := by
  induction ds generalizing seen with
  | nil => rfl
  | cons d ds ih =>
    have hname : d.masked.name = d.name := rfl
    rw [List.map_cons, checkBridges, checkBridges, resolve_masked, hname, ih]
    cases resolve o d <;> rfl

/-- Settings are consistent, or have a fault, whatever the passwords are. -/
theorem validate_masked (s : Settings) : s.masked.validate = s.validate := by
  have hlevel : s.masked.logLevel = s.logLevel := rfl
  have hbridges : checkBridges s.masked.overrides [] s.masked.bridges =
      checkBridges s.overrides [] s.bridges := checkBridges_masked s.overrides [] s.bridges
  have hnames : s.masked.bridges.map Declared.name = s.bridges.map Declared.name := List.map_map
  unfold validate
  rw [hlevel, hbridges, hnames]
  rfl

/-- Masked settings resolve to the masked definitions. -/
theorem resolvedBridges_masked (s : Settings) :
    s.masked.resolvedBridges = s.resolvedBridges.map (List.map Spec.masked) := by
  change (s.bridges.map Declared.masked).mapM (resolve s.overrides) =
    (s.bridges.mapM (resolve s.overrides)).map (List.map Spec.masked)
  induction s.bridges with
  | nil => rfl
  | cons d ds ih =>
    rw [List.map_cons, List.mapM_cons, List.mapM_cons, resolve_masked, ih]
    cases resolve s.overrides d with
    | error e => rfl
    | ok spec => cases ds.mapM (resolve s.overrides) <;> rfl

end BrokerAdmin.Settings

namespace BrokerAdmin.CommandLine

open Bridge (Declared Spec)

/-- The lines about checked bridges are those about the masked ones. -/
theorem bridgeLines_masked (ds : List Declared) (specs : List Spec) :
    List.zipWith bridgeLine (ds.map Declared.masked) (specs.map Spec.masked) =
      List.zipWith bridgeLine ds specs := by
  rw [List.zipWith_map]
  rfl

/-- The report on checked settings does not show passwords. -/
theorem check_masked (s : Settings) : check s.masked = check s := by
  unfold check
  rw [s.resolvedBridges_masked]
  cases s.resolvedBridges with
  | error e => rfl
  | ok specs =>
    have hlines := bridgeLines_masked s.bridges specs
    change Outcome.printed (List.zipWith bridgeLine (s.bridges.map Declared.masked) _ ++ _) = _
    rw [hlines]

/-- Resolved bridges are printed without their passwords, all of them or the one of a name. -/
theorem render_masked (s : Settings) (bridge : Option String) : render s.masked bridge = render s bridge := by
  unfold render
  rw [s.resolvedBridges_masked]
  cases s.resolvedBridges with
  | error e => rfl
  | ok specs =>
    have hchosen : (specs.map Spec.masked).filter (fun spec => bridge.all (· == spec.name)) =
        (specs.filter fun spec => bridge.all (· == spec.name)).map Spec.masked := List.filter_map
    dsimp only [Except.map]
    rw [hchosen]
    generalize specs.filter (fun spec => bridge.all (· == spec.name)) = chosen
    have hvalues : (chosen.map Spec.masked).map Spec.toValue = chosen.map Spec.toValue := by
      rw [List.map_map]
      exact List.map_congr_left fun spec _ => spec.toValue_masked
    have hprinted : Outcome.printed [Json.renderIndented (.list ((chosen.map Spec.masked).map Spec.toValue))] =
        .printed [Json.renderIndented (.list (chosen.map Spec.toValue))] := by rw [hvalues]
    cases bridge with
    | none => exact hprinted
    | some name =>
      cases chosen with
      | nil => rfl
      | cons spec rest => exact hprinted

end BrokerAdmin.CommandLine

namespace BrokerAdmin.Settings

open Bridge (Blind Declared Spec deploy redeploy deployAll maskedOutcome maskedBatch)

variable {σ : Type}

/-- Two settings lead to the same deployments but for passwords, on states of a broker that look alike when
they are masked: each bridge of the one is deployed or replaced like that of the other in its place, and so
are all of them in a batch. -/
structure DeployAlike (h : Handle σ) (mask : σ → σ) (s s' : Settings) : Prop where
  each : List.Forall₂ (fun d d' => ∀ t t', mask t = mask t' →
    maskedOutcome mask (deploy h s.overrides d t) = maskedOutcome mask (deploy h s'.overrides d' t') ∧
      maskedOutcome mask (redeploy h s.overrides d t) = maskedOutcome mask (redeploy h s'.overrides d' t'))
    s.bridges s'.bridges
  batch (t t' : σ) (hstate : mask t = mask t') :
    maskedBatch mask (deployAll h s.overrides s.bridges t) =
      maskedBatch mask (deployAll h s'.overrides s'.bridges t')

/-- Two settings that nothing tells apart: they are consistent or have the same fault, and resolve or fail
with the same error; the definitions are the same but for passwords and are written alike, and the sources
of passwords are shown alike; the command line prints the same and exits alike; and the bridges are deployed
alike, also behind faults. -/
structure Indistinguishable (s s' : Settings) : Prop where
  validated : s.validate = s'.validate
  resolved : s.resolvedBridges.map (List.map Spec.masked) = s'.resolvedBridges.map (List.map Spec.masked)
  written : s.resolvedBridges.map (List.map Spec.toValue) = s'.resolvedBridges.map (List.map Spec.toValue)
  shown : s.resolvedBridges.map (List.map Spec.shownPassword?) =
    s'.resolvedBridges.map (List.map Spec.shownPassword?)
  checked : CommandLine.check s = CommandLine.check s'
  rendered (bridge : Option String) : CommandLine.render s bridge = CommandLine.render s' bridge
  deployed : DeployAlike Broker.handle Broker.masked s s'
  deployedBehindFaults : DeployAlike Faulty.handle Faulty.masked s s'

variable {s s' : Settings}

/-- What does not change when definitions are masked is the same for settings that are masked alike. -/
theorem resolved_alike {α : Type} {view : Spec → α} (hview : ∀ spec : Spec, view spec.masked = view spec)
    (hmasked : s.masked = s'.masked) :
    s.resolvedBridges.map (List.map view) = s'.resolvedBridges.map (List.map view) := by
  have hviews (s : Settings) :
      s.resolvedBridges.map (List.map view) = s.masked.resolvedBridges.map (List.map view) := by
    rw [resolvedBridges_masked]
    cases s.resolvedBridges with
    | error e => rfl
    | ok specs =>
      have hspecs : (specs.map Spec.masked).map view = specs.map view := by
        rw [List.map_map]
        exact List.map_congr_left fun spec _ => hview spec
      exact congrArg Except.ok hspecs.symm
  rw [hviews s, hviews s', hmasked]

/-- Settings that are masked alike lead to the same deployments where passwords are not looked at. -/
theorem deployAlike {h : Handle σ} {mask : σ → σ} (hblind : Blind h mask) (hmasked : s.masked = s'.masked) :
    DeployAlike h mask s s' := by
  have hoverrides : s.overrides = s'.overrides := (congrArg overrides hmasked :)
  have hbridges : s.bridges.map Declared.masked = s'.bridges.map Declared.masked :=
    (congrArg bridges hmasked :)
  constructor
  case each =>
    have hequal : List.Forall₂ Eq (s.bridges.map Declared.masked) (s'.bridges.map Declared.masked) := by
      rw [hbridges]
      exact List.forall₂_refl _
    have hpairs : List.Forall₂ (fun d d' : Declared => d.masked = d'.masked) s.bridges s'.bridges :=
      List.forall₂_map_right_iff.mp (List.forall₂_map_left_iff.mp hequal)
    apply hpairs.imp
    intro d d' hd t t' hstate
    rw [← hblind.deploy, ← hblind.deploy, ← hblind.redeploy, ← hblind.redeploy, hd, hstate, hoverrides]
    exact ⟨rfl, rfl⟩
  case batch =>
    intro t t' hstate
    rw [← hblind.deployAll, ← hblind.deployAll, hbridges, hstate, hoverrides]

/-- Clear passwords are never shown. Settings that differ in nothing but what the passwords of their bridges
are, each bridge of the one having a clear password just when that of the other has, are not told apart by
any fault, error, document, message or printed line, and by no deployment. -/
theorem passwords_not_shown (hmasked : s.masked = s'.masked) : Indistinguishable s s' where
  validated := by rw [← s.validate_masked, hmasked, s'.validate_masked]
  resolved := by rw [← s.resolvedBridges_masked, hmasked, s'.resolvedBridges_masked]
  written := resolved_alike Spec.toValue_masked hmasked
  shown := resolved_alike Spec.shownPassword?_masked hmasked
  checked := by rw [← CommandLine.check_masked s, hmasked, CommandLine.check_masked s']
  rendered bridge := by
    rw [← CommandLine.render_masked s, hmasked, CommandLine.render_masked s']
  deployed := deployAlike Broker.blind hmasked
  deployedBehindFaults := deployAlike Faulty.blind hmasked

/-- Settings with one bridge and its password. -/
def guarded (password : String) : Settings :=
  { bridges := [{ Declared.withConnectors "a" "q" ["c"] with
      user := some "u", password := some password }] }

/-- Two passwords lead to definitions that differ but are not told apart. -/
theorem passwords_not_shown_guarded :
    (guarded "x").resolvedBridges ≠ (guarded "y").resolvedBridges ∧
      Indistinguishable (guarded "x") (guarded "y") :=
  ⟨by decide +kernel, passwords_not_shown rfl⟩

end BrokerAdmin.Settings
