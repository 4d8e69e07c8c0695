import BrokerAdmin.Proofs.Bridge.Replacement

/-!
# What an answer says of the bridges

When a bridge is deployed or removed, two things can go wrong: the change itself, and the wait for storage
after it. Both are told in one answer. A deployment that was refused is reported as refused whatever becomes
of storage, and so an error of storage means that the change was made. From the answer alone it is therefore
known which bridges a broker has afterwards: those from before, or those with the one that was deployed, or
those without the one that was removed.
-/

namespace BrokerAdmin

namespace Broker

/-- A broker takes a bridge when it has started, refuses no bridges, and has room for this one. -/
theorem takesBridge_iff (b : Broker) (spec : Bridge.Spec) :
    b.takesBridge spec = true ↔
      b.started = true ∧ b.refusesBridges = false ∧ b.HasRoom spec.name spec.queueName := by
  have hroom : b.HasRoom spec.name spec.queueName ↔
      b.bridges.contains spec.name = false ∧ b.queues.contains spec.queueName = true := by
    constructor
    · rintro ⟨hfree, hqueue⟩
      exact ⟨by simp [Catalog.contains, hfree], hqueue⟩
    · rintro ⟨hfree, hqueue⟩
      exact ⟨by simpa [Catalog.contains] using hfree, hqueue⟩
  rw [hroom]
  simp [takesBridge, and_assoc]

end Broker

namespace Bridge

/-! ### Deployment -/

/-- Whether an answer says that the broker has done what it was asked for. Storage may have failed after it. -/
def saysDone {α : Type} : Except Error α → Bool
  | .ok _ | .error (.broker (.storage _)) => true
  | .error _ => false

/-- Whether an error says that a bridge was not deployed. -/
def Error.precedesDeployment : Error → Bool
  | configuration _ _ | brokerNotStarted | deploymentFailed _ => true
  | broker _ => false

/-- How the deployment of a declared bridge ends: with which answer and with which bridges. -/
inductive Deployment (b : Broker) (o : Overrides) (d : Declared) :
    Except Error Spec → Catalog Spec → Prop where
  /-- The declared bridge breaks a rule. -/
  | unresolved {violation : Violation} (hspec : d.resolve o = .error violation) :
    Deployment b o d (.error (.configuration d.name violation)) b.bridges
  /-- The broker has not started. -/
  | notStarted {spec : Spec} (hspec : resolve o d = .ok spec) (hstarted : b.started = false) :
    Deployment b o d (.error .brokerNotStarted) b.bridges
  /-- The bridge is refused, whether storage fails or not. -/
  | refused {spec : Spec} (hspec : resolve o d = .ok spec) (hstarted : b.started = true)
    (hrefused : b.refusesBridges = true ∨ ¬ b.HasRoom d.name d.queueName) :
    Deployment b o d (.error (.deploymentFailed d.name)) b.bridges
  /-- Storage fails after the deployment. -/
  | notStored {spec : Spec} {reason : String} (hspec : resolve o d = .ok spec) (hstarted : b.started = true)
    (hrefuses : b.refusesBridges = false) (hroom : b.HasRoom d.name d.queueName)
    (hstorage : b.storageFailure = some reason) :
    Deployment b o d (.error (.broker (.storage reason))) (b.bridges.insert d.name spec)
  /-- The bridge is deployed. -/
  | deployed {spec : Spec} (hspec : resolve o d = .ok spec) (hserves : b.Serves)
    (hroom : b.HasRoom d.name d.queueName) :
    Deployment b o d (.ok spec) (b.bridges.insert d.name spec)

variable {b : Broker} {o : Overrides} {d : Declared} {bridges : Catalog Spec}

/-- The deployment of a resolved bridge ends as the broker takes or refuses it and as storage follows. -/
theorem deployment_of_resolve {spec : Spec} (hspec : resolve o d = .ok spec) :
    Deployment b o d ((b.verdict spec).map fun _ => spec) (b.bridgesAfter spec) := by
  obtain ⟨hname, hqueue⟩ := resolve_eq_ok hspec
  have htakes := b.takesBridge_iff spec
  rw [hname, hqueue] at htakes
  unfold Broker.verdict Broker.bridgesAfter
  rw [hname]
  by_cases htaken : b.takesBridge spec = true
  · obtain ⟨hstarted, hrefuses, hroom⟩ := htakes.mp htaken
    rw [if_pos htaken, if_pos htaken]
    cases hstorage : b.storageFailure with
    | none => exact .deployed hspec ⟨hstarted, hrefuses, hstorage⟩ hroom
    | some reason => exact .notStored hspec hstarted hrefuses hroom hstorage
  · rw [if_neg htaken, if_neg htaken]
    cases hstarted : b.started with
    | false => exact .notStarted hspec hstarted
    | true =>
      have hrefused : b.refusesBridges = true ∨ ¬ b.HasRoom d.name d.queueName := by
        by_contra hneither
        push Not at hneither
        exact htaken (htakes.mpr ⟨hstarted, Bool.eq_false_iff.mpr hneither.1, hneither.2⟩)
      exact .refused hspec hstarted hrefused

/-- A deployment comes to one of these ends, and changes nothing but the bridges and the journal. -/
theorem deploy_cases (b : Broker) (o : Overrides) (d : Declared) :
    ∃ result bridges journal, deploy Broker.handle o d b =
        (.finished result, { b with bridges := bridges, journal := journal }) ∧
      Deployment b o d result bridges := by
  unfold deploy
  cases hspec : resolve o d with
  | error e =>
    obtain ⟨violation, hviolation, rfl⟩ := mapError_eq_error_iff.mp hspec
    exact ⟨_, b.bridges, b.journal, rfl, .unresolved hviolation⟩
  | ok spec =>
    obtain ⟨journal, hdeploy⟩ := deploySpec_eq b spec
    refine ⟨(b.verdict spec).map fun _ => spec, b.bridgesAfter spec, journal, ?_,
      deployment_of_resolve hspec⟩
    dsimp only
    rw [hdeploy]
    cases b.verdict spec <;> rfl

/-- Where the error says that the bridge was not deployed, the bridges are as they were. -/
theorem Deployment.bridges_eq {e : Error} (h : Deployment b o d (.error e) bridges)
    (he : e.precedesDeployment = true) : bridges = b.bridges := by
  cases h with
  | unresolved | notStarted | refused => rfl
  | notStored => contradiction

/-- A bridge that is said to be deployed is: there was room for it, and what it resolves to stands under its
name now, beside the other bridges. A success answers with just that. -/
theorem Deployment.exists_of_saysDone {result : Except Error Spec} (h : Deployment b o d result bridges)
    (hdone : saysDone result = true) :
    ∃ spec, resolve o d = .ok spec ∧ b.HasRoom d.name d.queueName ∧
      (∀ answered, result = .ok answered → answered = spec) ∧
      ∀ name, bridges.get? name = if name = d.name then some spec else b.bridges.get? name := by
  cases h with
  | unresolved | notStarted | refused => contradiction
  | @notStored spec _ hspec _ _ hroom =>
    refine ⟨spec, hspec, hroom, ?_, fun name => b.bridges.get?_insert d.name name spec⟩
    intro answered hanswered
    contradiction
  | @deployed spec hspec _ hroom =>
    refine ⟨spec, hspec, hroom, ?_, fun name => b.bridges.get?_insert d.name name spec⟩
    intro answered hanswered
    exact (Except.ok.inj hanswered).symm

/-- A bridge that is refused is reported as refused. -/
theorem Deployment.eq_of_refused {result : Except Error Spec} (h : Deployment b o d result bridges)
    {spec : Spec} (hspec : resolve o d = .ok spec) (hstarted : b.started = true)
    (hrefused : b.refusesBridges = true ∨ ¬ b.HasRoom d.name d.queueName) :
    result = .error (.deploymentFailed d.name) := by
  cases h with
  | @unresolved violation hviolation =>
    have herror : resolve o d = .error (.configuration d.name violation) :=
      mapError_eq_error_iff.mpr ⟨violation, hviolation, rfl⟩
    cases hspec.symm.trans herror
  | notStarted _ hnot => cases hstarted.symm.trans hnot
  | refused => rfl
  | notStored _ _ hrefuses hroom =>
    rcases hrefused with hrefused | hfull
    · cases hrefused.symm.trans hrefuses
    · exact absurd hroom hfull
  | deployed _ hserves hroom =>
    rcases hrefused with hrefused | hfull
    · cases hrefused.symm.trans hserves.refusesBridges
    · exact absurd hroom hfull

/-! ### Removal -/

/-- How the removal of a bridge ends: with which answer and with which bridges. -/
inductive Removal (b : Broker) (name : String) : Except Error Bool → Catalog Spec → Prop where
  /-- The broker has not started. -/
  | notStarted (hstarted : b.started = false) : Removal b name (.error .brokerNotStarted) b.bridges
  /-- Storage fails after the removal, also where there was nothing to remove. -/
  | notStored {reason : String} (hstarted : b.started = true) (hstorage : b.storageFailure = some reason) :
    Removal b name (.error (.broker (.storage reason))) (b.bridges.erase name)
  /-- There is no bridge of the name. -/
  | absent (hstarted : b.started = true) (hstorage : b.storageFailure = none)
    (habsent : b.bridges.get? name = none) : Removal b name (.ok false) b.bridges
  /-- The bridge is removed. -/
  | removed {spec : Spec} (hstarted : b.started = true) (hstorage : b.storageFailure = none)
    (hthere : b.bridges.get? name = some spec) : Removal b name (.ok true) (b.bridges.erase name)

variable {name : String} {result : Except Error Bool}

/-- A removal comes to one of these ends, and changes nothing but the bridges and the journal. -/
theorem remove_cases (b : Broker) (name : String) :
    ∃ result bridges journal, remove Broker.handle name b =
        (.finished result, { b with bridges := bridges, journal := journal }) ∧
      Removal b name result bridges := by
  obtain ⟨journal, hremove⟩ := remove_eq b name
  refine ⟨b.removed name, b.bridgesWithout name, journal, hremove, ?_⟩
  unfold Broker.removed Broker.bridgesWithout Broker.stored
  cases hstarted : b.started with
  | false => exact .notStarted hstarted
  | true =>
    rw [if_pos rfl, if_pos rfl]
    cases hstorage : b.storageFailure with
    | some reason => exact .notStored hstarted hstorage
    | none =>
      cases hthere : b.bridges.get? name with
      | none =>
        rw [Catalog.erase_eq_self hthere, Catalog.contains, hthere]
        exact .absent hstarted hstorage hthere
      | some spec =>
        rw [Catalog.contains, hthere]
        exact .removed hstarted hstorage hthere

/-- A removal that is answered with yes has removed the bridge and no other. -/
theorem Removal.of_ok_true (h : Removal b name (.ok true) bridges) :
    (∃ spec, b.bridges.get? name = some spec) ∧
      ∀ other, bridges.get? other = if other = name then none else b.bridges.get? other := by
  cases h with
  | @removed spec _ _ hthere => exact ⟨⟨spec, hthere⟩, b.bridges.get?_erase name⟩

/-- A removal that is answered with no has found nothing and changed nothing. -/
theorem Removal.of_ok_false (h : Removal b name (.ok false) bridges) :
    b.bridges.get? name = none ∧ bridges = b.bridges := by
  cases h with
  | absent _ _ habsent => exact ⟨habsent, rfl⟩

/-- After a removal that is said to be done there is no bridge of the name, whether there was one before or
not, and the others are as they were. -/
theorem Removal.get?_of_saysDone (h : Removal b name result bridges) (hdone : saysDone result = true)
    (other : String) :
    bridges.get? other = if other = name then none else b.bridges.get? other := by
  cases h with
  | notStarted => contradiction
  | notStored | removed => exact b.bridges.get?_erase name other
  | absent _ _ habsent =>
    split
    next hother => rw [hother, habsent]
    next => rfl

/-! ### Both -/

/-- Whatever broker a bridge is deployed on or removed from, and whatever goes wrong there, the answer tells
which bridges it has afterwards.

A deployment that is answered with a broken rule, a broker that has not started or a refusal has changed no
bridge. One that is answered with a definition or with an error of storage found room for the bridge, and
what the bridge resolves to stands under its name now, beside the others. A refusal is reported also where
storage fails.

A removal that is answered with yes has removed that bridge and no other. One that is answered with no found
nothing and changed nothing. After an error of storage there is no bridge of that name. -/
theorem answer_tells_bridges (b : Broker) (o : Overrides) (d : Declared) (name : String) :
    (∃ result bridges journal, deploy Broker.handle o d b =
        (.finished result, { b with bridges := bridges, journal := journal }) ∧
      Deployment b o d result bridges ∧
      (∀ e, result = .error e → e.precedesDeployment = true → bridges = b.bridges) ∧
      (saysDone result = true → ∃ spec, resolve o d = .ok spec ∧ b.HasRoom d.name d.queueName ∧
        (∀ answered, result = .ok answered → answered = spec) ∧
        ∀ other, bridges.get? other = if other = d.name then some spec else b.bridges.get? other) ∧
      ∀ spec, resolve o d = .ok spec → b.started = true →
        b.refusesBridges = true ∨ ¬ b.HasRoom d.name d.queueName →
        result = .error (.deploymentFailed d.name)) ∧
    ∃ result bridges journal, remove Broker.handle name b =
        (.finished result, { b with bridges := bridges, journal := journal }) ∧
      Removal b name result bridges ∧
      (result = .ok true → (∃ spec, b.bridges.get? name = some spec) ∧
        ∀ other, bridges.get? other = if other = name then none else b.bridges.get? other) ∧
      (result = .ok false → b.bridges.get? name = none ∧ bridges = b.bridges) ∧
      ∀ reason, result = .error (.broker (.storage reason)) →
        ∀ other, bridges.get? other = if other = name then none else b.bridges.get? other := by
  constructor
  · obtain ⟨result, bridges, journal, hdeploy, hends⟩ := deploy_cases b o d
    refine ⟨result, bridges, journal, hdeploy, hends, ?_, hends.exists_of_saysDone, ?_⟩
    · rintro e rfl
      exact hends.bridges_eq
    · intro spec hspec
      exact hends.eq_of_refused hspec
  · obtain ⟨result, bridges, journal, hremove, hends⟩ := remove_cases b name
    refine ⟨result, bridges, journal, hremove, hends, ?_, ?_, ?_⟩
    · rintro rfl
      exact hends.of_ok_true
    · rintro rfl
      exact hends.of_ok_false
    · rintro reason rfl
      exact hends.get?_of_saysDone rfl

/-- An error of storage does not say that there was a bridge to remove. -/
example : (remove Broker.handle "a" { Broker.start with storageFailure := some "disk full" }).1 =
    .finished (.error (.broker (.storage "disk full"))) := rfl

end Bridge

end BrokerAdmin
