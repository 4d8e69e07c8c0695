import BrokerAdmin.Proofs.Bridge.Deployment
import BrokerAdmin.Proofs.Broker.Run
import BrokerAdmin.Settings.Basic

/-!
# What validation promises

Validation passes just when the log level is known, no two bridges share a name, every bridge resolves, and
only declared bridges are overridden. Resolution and deployment look at the bridges again, each on its own,
and no bridge that has passed is refused there: with different names, a bridge that is deployed never takes
the room of one that is still to come.
-/

namespace BrokerAdmin.Settings

open Bridge (Declared Overrides Spec resolve enabledPairs deployAll)

/-- Bridges pass when the first of them has a new name and resolves and the check passes behind it. -/
theorem checkBridges_cons_eq_ok_iff {o : Overrides} {seen : List String} {d : Declared}
    {ds : List Declared} :
    checkBridges o seen (d :: ds) = .ok () ↔
      d.name ∉ seen ∧ (∃ spec, resolve o d = .ok spec) ∧ checkBridges o (d.name :: seen) ds = .ok () := by
  rw [checkBridges]
  by_cases hseen : d.name ∈ seen
  · simp [hseen]
  · cases hspec : resolve o d with
    | error e => simp [hseen]
    | ok spec => simp [hseen]

/-- Bridges pass just when their names differ from each other and from those seen before, and all of them
resolve. -/
theorem checkBridges_eq_ok_iff (o : Overrides) (seen : List String) (ds : List Declared) :
    checkBridges o seen ds = .ok () ↔
      (ds.map Declared.name).Nodup ∧ (∀ d ∈ ds, d.name ∉ seen) ∧
        ∀ d ∈ ds, ∃ spec, resolve o d = .ok spec := by
  induction ds generalizing seen with
  | nil => simp [checkBridges]
  | cons d ds ih =>
    rw [checkBridges_cons_eq_ok_iff, ih, List.map_cons, List.nodup_cons, List.forall_mem_cons,
      List.forall_mem_cons]
    constructor
    · rintro ⟨hseen, hspec, hnodup, hfresh, hresolves⟩
      have hfirst : d.name ∉ ds.map Declared.name := by
        intro hmem
        obtain ⟨other, hother, hname⟩ := List.mem_map.mp hmem
        exact hfresh other hother (hname ▸ List.mem_cons_self)
      have hunseen : ∀ other ∈ ds, other.name ∉ seen :=
        fun other hother hmem => hfresh other hother (List.mem_cons_of_mem _ hmem)
      exact ⟨⟨hfirst, hnodup⟩, ⟨hseen, hunseen⟩, hspec, hresolves⟩
    · rintro ⟨⟨hfirst, hnodup⟩, ⟨hseen, hunseen⟩, hspec, hresolves⟩
      refine ⟨hseen, hspec, hnodup, fun other hother hmem => ?_, hresolves⟩
      rcases List.mem_cons.mp hmem with hname | hmem
      · exact hfirst (hname ▸ List.mem_map_of_mem hother)
      · exact hunseen other hother hmem

/-- Overrides pass just when they are for bridges of the given names. -/
theorem checkOverrides_eq_ok_iff (o : Overrides) (names : List String) :
    checkOverrides o names = .ok () ↔ ∀ name ∈ o.bridges.names, name ∈ names := by
  unfold checkOverrides
  split
  next name hfound =>
    have hmem := List.mem_of_find?_eq_some hfound
    have hunknown : name ∉ names := by simpa using List.find?_some hfound
    exact iff_of_false nofun fun hall => hunknown (hall name hmem)
  next hnone =>
    refine iff_of_true rfl fun name hname => ?_
    simpa using List.find?_eq_none.mp hnone name hname

/-- With a known log level, settings are checked by their bridges and then by their overrides. -/
theorem validate_of_mem {s : Settings} (hlevel : Text.lower s.logLevel ∈ logLevels) :
    s.validate = (checkBridges s.overrides [] s.bridges >>= fun _ =>
      checkOverrides s.overrides (s.bridges.map Declared.name)) := by
  have hpassed : (!logLevels.contains (Text.lower s.logLevel)) = false := by simpa using hlevel
  rw [validate, hpassed]
  rfl

/-- A log level that is not known is reported before anything else is looked at. -/
theorem validate_of_not_mem {s : Settings} (hlevel : Text.lower s.logLevel ∉ logLevels) :
    s.validate = .error (.logLevel s.logLevel) := by
  have hrefused : (!logLevels.contains (Text.lower s.logLevel)) = true := by simpa using hlevel
  rw [validate, hrefused]
  rfl

/-- Settings are valid just when the log level is known, the names of the bridges differ, all bridges
resolve, and only declared bridges are overridden. -/
theorem validate_eq_ok_iff (s : Settings) :
    s.validate = .ok () ↔
      Text.lower s.logLevel ∈ logLevels ∧ (s.bridges.map Declared.name).Nodup ∧
        (∀ d ∈ s.bridges, ∃ spec, resolve s.overrides d = .ok spec) ∧
        ∀ name ∈ s.overrides.bridges.names, name ∈ s.bridges.map Declared.name := by
  by_cases hlevel : Text.lower s.logLevel ∈ logLevels
  · rw [validate_of_mem hlevel, bind_eq_ok_iff]
    constructor
    · rintro ⟨_, hbridges, hoverrides⟩
      obtain ⟨hnodup, -, hresolves⟩ := (checkBridges_eq_ok_iff _ _ _).mp hbridges
      exact ⟨hlevel, hnodup, hresolves, (checkOverrides_eq_ok_iff _ _).mp hoverrides⟩
    · rintro ⟨-, hnodup, hresolves, hoverrides⟩
      have hbridges := (checkBridges_eq_ok_iff s.overrides [] s.bridges).mpr ⟨hnodup, by simp, hresolves⟩
      exact ⟨(), hbridges, (checkOverrides_eq_ok_iff _ _).mpr hoverrides⟩
  · rw [validate_of_not_mem hlevel]
    exact iff_of_false nofun fun hvalid => hlevel hvalid.1

/-- Valid settings resolve to one definition for each bridge, in their order. On a broker that has started,
refuses no bridges, completes storage operations and has room for the enabled ones, deploying them all
succeeds with these definitions. Then they are deployed besides the bridges from before, and nothing else
has changed but the journal. -/
theorem validated_settings_deploy {s : Settings} (hvalid : s.validate = .ok ()) :
    ∃ specs, s.resolvedBridges = .ok specs ∧
      List.Forall₂ (fun d spec => resolve s.overrides d = .ok spec) s.bridges specs ∧
      ∀ b : Broker, b.Serves →
        (∀ d ∈ s.bridges, d.enabled = true → b.HasRoom d.name d.queueName) →
        ∃ bridges journal,
          deployAll Broker.handle s.overrides s.bridges b =
            (some ((enabledPairs s.bridges specs).map fun (d, spec) => (d.name, .ok spec)),
              { b with bridges := bridges, journal := journal }) ∧
          ∀ name spec, bridges.get? name = some spec ↔
            b.bridges.get? name = some spec ∨
              ∃ d, (d, spec) ∈ enabledPairs s.bridges specs ∧ d.name = name := by
  obtain ⟨-, hnodup, hresolves, -⟩ := (validate_eq_ok_iff s).mp hvalid
  obtain ⟨specs, hresolved⟩ := exists_mapM_eq_ok hresolves
  have hspecs := mapM_eq_ok_iff.mp hresolved
  refine ⟨specs, hresolved, hspecs, fun b hb hroom => ?_⟩
  obtain ⟨bridges, journal, heq⟩ := b.withBridges_eq ((enabledPairs s.bridges specs).map Prod.snd)
  have hdeploy := Bridge.deployAll_of_hasRoom hspecs hnodup hb hroom
  have hbridges : bridges = (b.withBridges ((enabledPairs s.bridges specs).map Prod.snd)).bridges := by
    rw [heq]
  rw [heq] at hdeploy
  refine ⟨bridges, journal, hdeploy, fun name spec => ?_⟩
  have hfree : ∀ spec ∈ (enabledPairs s.bridges specs).map Prod.snd, b.bridges.get? spec.name = none := by
    rintro _ hmem
    obtain ⟨⟨d, spec⟩, hpair, rfl⟩ := List.mem_map.mp hmem
    obtain ⟨hd, henabled, hspec⟩ := Bridge.of_mem_enabledPairs hspecs hpair
    rw [(Bridge.resolve_eq_ok hspec).1]
    exact (hroom d hd henabled).free
  rw [hbridges, Broker.get?_withBridges (Bridge.enabledPairs_nodup hspecs hnodup) hfree]
  refine or_congr_right ⟨?_, ?_⟩
  · rintro ⟨hmem, hname⟩
    obtain ⟨⟨d, spec⟩, hpair, rfl⟩ := List.mem_map.mp hmem
    obtain ⟨-, -, hspec⟩ := Bridge.of_mem_enabledPairs hspecs hpair
    exact ⟨d, hpair, (Bridge.resolve_eq_ok hspec).1 ▸ hname⟩
  · rintro ⟨d, hpair, hname⟩
    obtain ⟨-, -, hspec⟩ := Bridge.of_mem_enabledPairs hspecs hpair
    exact ⟨List.mem_map_of_mem hpair, (Bridge.resolve_eq_ok hspec).1.trans hname⟩

/-- Of two valid bridges, one of which is disabled and has no queue, the other is deployed. -/
theorem validated_settings_deploy_enabled_only :
    let s : Settings :=
      { bridges := [.withConnectors "a" "q" ["c"],
          { Declared.withConnectors "b" "r" ["c"] with enabled := false }] }
    let b := Broker.run [.createQueue "t" "q" {}]
    s.validate = .ok () ∧ b.Serves ∧ ∃ spec bridges journal,
      deployAll Broker.handle s.overrides s.bridges b =
        (some [("a", .ok spec)], { b with bridges := bridges, journal := journal }) ∧
      bridges.get? "a" = some spec := by
  intro s b
  have hvalid : s.validate = .ok () := by decide +kernel
  have hserves : b.Serves := ⟨rfl, rfl, rfl⟩
  have hroom : ∀ d ∈ s.bridges, d.enabled = true → b.HasRoom d.name d.queueName := by
    rintro _ (_ | ⟨_, _ | ⟨_, ⟨⟩⟩⟩)
    · exact fun _ => ⟨rfl, rfl⟩
    · exact nofun
  obtain ⟨specs, -, hspecs, hdeploys⟩ := validated_settings_deploy hvalid
  obtain ⟨bridges, journal, hdeploy, hbridges⟩ := hdeploys b hserves hroom
  obtain - | @⟨_, spec, _, _, -, - | @⟨_, other, _, _, -, ⟨⟩⟩⟩ := hspecs
  have hpairs : enabledPairs s.bridges [spec, other] = [(.withConnectors "a" "q" ["c"], spec)] := rfl
  rw [hpairs] at hdeploy hbridges
  have hspec : bridges.get? "a" = some spec :=
    (hbridges "a" spec).mpr (Or.inr ⟨_, List.mem_singleton_self _, rfl⟩)
  exact ⟨hvalid, hserves, spec, bridges, journal, hdeploy, hspec⟩

end BrokerAdmin.Settings
