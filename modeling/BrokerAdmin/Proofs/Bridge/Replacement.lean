import BrokerAdmin.Proofs.Bridge.Batch

/-!
# Replacing a bridge

A bridge is replaced in three steps: the declared one is resolved, the running one is removed, and the new
one is deployed. What can be found out before the removal leaves the running bridge alone: that the declared
one breaks a rule, or that the broker has not started. The removal itself is never undone. Where storage
fails after it, or the broker does not take the new bridge, the replacement fails and no bridge of that name
is left. In every case the bridges of other names stay, and everything else but the journal.
-/

namespace BrokerAdmin

namespace Broker

/-- What the removal of a bridge is answered with: whether there was one. A bridge that is removed stays
removed if storage fails after that. -/
def removed (b : Broker) (name : String) : Except Bridge.Error Bool :=
  if b.started then b.stored (.ok (b.bridges.contains name)) else .error .brokerNotStarted

/-- The bridges of a broker after the removal of one. -/
def bridgesWithout (b : Broker) (name : String) : Catalog Bridge.Spec :=
  if b.started then b.bridges.erase name else b.bridges

/-- A broker is asked to destroy a bridge. -/
theorem handle_destroyBridge (b : Broker) (name : String) :
    handle.destroyBridge name false b =
      (.finished (if b.bridges.contains name then .ok () else .error (.notFound name)),
        { b.record (.destroyBridge name false) with bridges := b.bridges.erase name }) := by
  change (Answer.finished (b.destroyBridge name false).1, (b.destroyBridge name false).2) = _
  unfold destroyBridge
  dsimp only [record]
  cases hthere : b.bridges.contains name with
  | true => rfl
  | false =>
    have hnone : b.bridges.get? name = none := by simpa [Catalog.contains] using hthere
    rw [Catalog.erase_eq_self hnone]
    rfl

end Broker

namespace Bridge

/-! ### Removal -/

/-- The removal of a bridge takes it from the others, and only the bridges and the journal are not as they
were. -/
theorem remove_eq (b : Broker) (name : String) :
    ∃ journal, remove Broker.handle name b =
      (.finished (b.removed name), { b with bridges := b.bridgesWithout name, journal := journal }) := by
  have hask : Broker.handle.isStarted b = (b.started, b.record .isStarted) := rfl
  unfold remove onceStarted
  rw [hask]
  dsimp only
  cases hstarted : b.started with
  | false =>
    refine ⟨b.journal ++ [.isStarted], ?_⟩
    simp [Broker.removed, Broker.bridgesWithout, hstarted, decided, Broker.record]
  | true =>
    have hchange := Broker.handle_destroyBridge ((b.record .isStarted).record .clearPending) name
    refine ⟨b.journal ++ [.isStarted, .clearPending, .destroyBridge name false, .awaitPending,
      .clearPending], ?_⟩
    rw [if_pos rfl, inScope_eq hchange]
    refine Prod.ext ?_ ?_
    · cases hthere : b.bridges.contains name <;>
        simp [Broker.stored, Broker.record, Broker.removed, settleRemoval, hthere, hstarted]
    · simp [Broker.record, Broker.bridgesWithout, hstarted]

/-! ### Replacement -/

/-- Whether a replacement that fails with an error has failed before the removal. -/
def Error.precedesRemoval : Error → Bool
  | configuration _ _ | brokerNotStarted => true
  | deploymentFailed _ | broker _ => false

/-- How the replacement of a bridge ends: with which answer and with which bridges. -/
inductive Replacement (b : Broker) (o : Overrides) (d : Declared) :
    Except Error Spec → Catalog Spec → Prop where
  /-- The declared bridge breaks a rule. -/
  | unresolved {e : Error} (hspec : resolve o d = .error e) : Replacement b o d (.error e) b.bridges
  /-- The broker has not started. -/
  | notStarted {spec : Spec} (hspec : resolve o d = .ok spec) (hstarted : b.started = false) :
    Replacement b o d (.error .brokerNotStarted) b.bridges
  /-- Storage fails after the removal. -/
  | notStored {spec : Spec} {reason : String} (hspec : resolve o d = .ok spec) (hstarted : b.started = true)
    (hstorage : b.storageFailure = some reason) :
    Replacement b o d (.error (.broker (.storage reason))) (b.bridges.erase d.name)
  /-- The new bridge is refused after the removal. -/
  | refused {spec : Spec} (hspec : resolve o d = .ok spec) (hstarted : b.started = true)
    (hstorage : b.storageFailure = none)
    (hrefused : b.refusesBridges = true ∨ b.queues.contains d.queueName = false) :
    Replacement b o d (.error (.deploymentFailed d.name)) (b.bridges.erase d.name)
  /-- The new bridge has taken the place of the one before. -/
  | replaced {spec : Spec} (hspec : resolve o d = .ok spec) (hserves : b.Serves)
    (hqueue : b.queues.contains d.queueName = true) :
    Replacement b o d (.ok spec) (b.bridges.insert d.name spec)

variable {b : Broker} {o : Overrides} {d : Declared} {result : Except Error Spec} {bridges : Catalog Spec}

/-- A bridge is refused by a broker that refuses all of them, and by one that lacks the queue. -/
theorem deploySpec_of_refused {spec : Spec} (hstarted : b.started = true)
    (hrefused : b.refusesBridges = true ∨ b.queues.contains spec.queueName = false) :
    ∃ journal, deploySpec Broker.handle spec b =
      (.finished (.error (.deploymentFailed spec.name)), { b with journal := journal }) := by
  obtain ⟨journal, hdeploy⟩ := deploySpec_eq b spec
  have htakes : b.takesBridge spec = false := by
    rcases hrefused with hrefuses | hqueue
    · simp [Broker.takesBridge, hrefuses]
    · simp [Broker.takesBridge, hqueue]
  refine ⟨journal, ?_⟩
  rw [hdeploy]
  simp [Broker.verdict, Broker.bridgesAfter, htakes, hstarted]

/-- A bridge takes the place of the one that was removed before. -/
theorem deploySpec_erase {spec : Spec} (hserves : b.Serves)
    (hqueue : b.queues.contains spec.queueName = true) (journal : List Broker.Call) :
    ∃ journal', deploySpec Broker.handle spec
        { b with bridges := b.bridges.erase spec.name, journal := journal } =
      (.finished (.ok ()), { b with bridges := b.bridges.insert spec.name spec, journal := journal' }) := by
  have hroom : ({ b with bridges := b.bridges.erase spec.name, journal := journal } :
      Broker).HasRoom spec.name spec.queueName :=
    ⟨by simp, hqueue⟩
  have hdeploy := deploySpec_of_hasRoom
    (b := { b with bridges := b.bridges.erase spec.name, journal := journal })
    ⟨hserves.started, hserves.refusesBridges, hserves.storageFailure⟩ hroom
  simp only [Broker.withBridge, Catalog.insert_erase] at hdeploy
  exact ⟨_, hdeploy⟩

/-- Once the running bridge is removed, the new one takes its place or is refused. -/
theorem deploySpec_replaces {spec : Spec} (hspec : resolve o d = .ok spec) (hstarted : b.started = true)
    (hstorage : b.storageFailure = none) (journal : List Broker.Call) :
    ∃ result bridges journal', andThen
          (deploySpec Broker.handle spec { b with bridges := b.bridges.erase spec.name, journal := journal })
          (fun _ => decided (.ok spec)) =
        (.finished result, { b with bridges := bridges, journal := journal' }) ∧
      Replacement b o d result bridges := by
  obtain ⟨hname, hqueue⟩ := resolve_eq_ok hspec
  by_cases hrefused : b.refusesBridges = true ∨ b.queues.contains spec.queueName = false
  · obtain ⟨journal', hdeploy⟩ := deploySpec_of_refused
      (b := { b with bridges := b.bridges.erase spec.name, journal := journal }) hstarted hrefused
    rw [hdeploy, hname]
    exact ⟨_, _, journal', rfl, .refused hspec hstarted hstorage (hqueue ▸ hrefused)⟩
  · obtain ⟨hrefuses, hthere⟩ : b.refusesBridges = false ∧ b.queues.contains spec.queueName = true := by
      simpa using hrefused
    obtain ⟨journal', hdeploy⟩ := deploySpec_erase ⟨hstarted, hrefuses, hstorage⟩ hthere journal
    rw [hdeploy, hname]
    exact ⟨_, _, journal', rfl, .replaced hspec ⟨hstarted, hrefuses, hstorage⟩ (hqueue ▸ hthere)⟩

/-- A replacement comes to one of these ends, and changes nothing but the bridges and the journal. -/
theorem redeploy_cases (b : Broker) (o : Overrides) (d : Declared) :
    ∃ result bridges journal, redeploy Broker.handle o d b =
        (.finished result, { b with bridges := bridges, journal := journal }) ∧
      Replacement b o d result bridges := by
  unfold redeploy
  cases hspec : resolve o d with
  | error e => exact ⟨.error e, b.bridges, b.journal, rfl, .unresolved hspec⟩
  | ok spec =>
    obtain ⟨journal, hremove⟩ := remove_eq b spec.name
    dsimp only
    rw [hremove, Broker.bridgesWithout]
    by_cases hstarted : b.started = true
    · rw [if_pos hstarted]
      rcases Option.eq_none_or_eq_some b.storageFailure with hstorage | ⟨reason, hstorage⟩
      · have hremoved : b.removed spec.name = .ok (b.bridges.contains spec.name) := by
          simp [Broker.removed, Broker.stored, hstarted, hstorage, Except.bind]
        rw [hremoved]
        exact deploySpec_replaces hspec hstarted hstorage journal
      · have hremoved : b.removed spec.name = .error (.broker (.storage reason)) := by
          simp [Broker.removed, Broker.stored, hstarted, hstorage, Except.bind]
        rw [hremoved, (resolve_eq_ok hspec).1]
        exact ⟨_, _, journal, rfl, .notStored hspec hstarted hstorage⟩
    · have hremoved : b.removed spec.name = .error .brokerNotStarted := if_neg hstarted
      rw [hremoved, if_neg hstarted]
      exact ⟨_, _, journal, rfl, .notStarted hspec (Bool.eq_false_iff.mpr hstarted)⟩

/-- Bridges of other names stay as they are. -/
theorem Replacement.get?_of_ne (h : Replacement b o d result bridges) {name : String}
    (hname : name ≠ d.name) : bridges.get? name = b.bridges.get? name := by
  cases h <;> simp [hname]

/-- The bridge that is answered is the one that is deployed. -/
theorem Replacement.get?_of_ok {spec : Spec} (h : Replacement b o d (.ok spec) bridges) :
    bridges.get? d.name = some spec := by
  cases h
  rw [Catalog.get?_insert, if_pos rfl]

/-- The error tells whether the running bridge is still there. -/
theorem Replacement.get?_of_error {e : Error} (h : Replacement b o d (.error e) bridges) :
    bridges.get? d.name = if e.precedesRemoval then b.bridges.get? d.name else none := by
  cases h with
  | unresolved hspec =>
    obtain ⟨violation, -, rfl⟩ := mapError_eq_error_iff.mp hspec
    rfl
  | notStarted => rfl
  | notStored => simp [Error.precedesRemoval]
  | refused => simp [Error.precedesRemoval]

/-- Whatever broker a bridge is replaced on, a replacement that succeeds leaves what it answers under the
name of the bridge. One that fails has kept the running bridge if the error is that the declared one breaks a
rule or that the broker has not started. Otherwise storage has failed or the new bridge was refused, and no
bridge of that name is left. Nothing changes in the bridges of other names, and nothing else in the broker
but the journal. -/
theorem redeploy_keeps_running_iff (b : Broker) (o : Overrides) (d : Declared) :
    ∃ result bridges journal, redeploy Broker.handle o d b =
        (.finished result, { b with bridges := bridges, journal := journal }) ∧
      Replacement b o d result bridges ∧
      (∀ name, name ≠ d.name → bridges.get? name = b.bridges.get? name) ∧
      (∀ spec, result = .ok spec → bridges.get? d.name = some spec) ∧
      ∀ e, result = .error e →
        bridges.get? d.name = if e.precedesRemoval then b.bridges.get? d.name else none := by
  obtain ⟨result, bridges, journal, hredeploy, hends⟩ := redeploy_cases b o d
  refine ⟨result, bridges, journal, hredeploy, hends, fun _ => hends.get?_of_ne, ?_, ?_⟩
  · rintro spec rfl
    exact hends.get?_of_ok
  · rintro e rfl
    exact hends.get?_of_error

/-- A running bridge is replaced by the same one while the broker refuses bridges: the replacement fails, and
the bridge is gone. -/
theorem redeploy_loses_running :
    ∃ spec, resolve {} (.withConnectors "a" "q" ["c"]) = .ok spec ∧
      let b := Broker.run [.createQueue "t" "q" {}, .deployBridge spec, .refuseBridges true]
      b.Reachable ∧ b.bridges.get? "a" = some spec ∧
        ∃ bridges journal, redeploy Broker.handle {} (.withConnectors "a" "q" ["c"]) b =
            (.finished (.error (.deploymentFailed "a")),
              { b with bridges := bridges, journal := journal }) ∧
          bridges.get? "a" = none := by
  have hresolves : (resolve {} (.withConnectors "a" "q" ["c"])).isOk = true := by decide +kernel
  cases hspec : resolve {} (.withConnectors "a" "q" ["c"]) with
  | error e =>
    rw [hspec] at hresolves
    cases hresolves
  | ok spec =>
    obtain ⟨hname, hqueue⟩ := resolve_eq_ok hspec
    have hthere : (Broker.run [.createQueue "t" "q" {}]).queues.contains spec.queueName = true := by
      rw [hqueue]
      decide +kernel
    have htaken : ((Broker.run [.createQueue "t" "q" {}]).deployBridge spec).2 =
        (Broker.run [.createQueue "t" "q" {}]).taking spec :=
      congrArg Prod.snd (Broker.Serves.handle_deployBridge ⟨rfl, rfl, rfl⟩ ⟨rfl, hthere⟩)
    have hrun : Broker.run [.createQueue "t" "q" {}, .deployBridge spec, .refuseBridges true] =
        { (Broker.run [.createQueue "t" "q" {}]).taking spec with refusesBridges := true } := by
      rw [← htaken]
      rfl
    refine ⟨spec, rfl, ⟨_, rfl⟩, ?_, ?_⟩
    · simp [hrun, Broker.taking, hname, Declared.withConnectors]
    · rw [hrun]
      obtain ⟨_, bridges, journal, hredeploy, hends⟩ := redeploy_cases
        { (Broker.run [.createQueue "t" "q" {}]).taking spec with refusesBridges := true } {}
        (.withConnectors "a" "q" ["c"])
      have hnone := hends
      cases hends with
      | unresolved hunresolved => cases hspec.symm.trans hunresolved
      | notStarted _ hstarted => cases hstarted
      | notStored _ _ hstorage => cases hstorage
      | replaced _ hserves => cases hserves.refusesBridges
      | refused => exact ⟨_, journal, hredeploy, hnone.get?_of_error⟩

end Bridge

end BrokerAdmin
