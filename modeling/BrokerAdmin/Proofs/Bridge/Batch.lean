import BrokerAdmin.Proofs.Bridge.Deployment
import BrokerAdmin.Proofs.Broker.Run
import Mathlib.Data.List.Perm.Basic

/-!
# The order of a batch

A broker in memory decides on a bridge by the name and the queue of that bridge alone: whether the name is
free and the queue is there. A deployment, whether it is made or refused and whether storage then fails or
not, changes nothing but what stands under the name of its bridge, and the journal. So the bridges of a
batch that have different names do not see each other, and each fares as it would fare on its own. What is
deployed in the end is told by what each of them resolves to, in which their order has no part.
-/

namespace BrokerAdmin

namespace Broker

/-- Whether a broker takes a bridge: it has started, and neither refuses bridges nor lacks the name or the
queue for this one. -/
def takesBridge (b : Broker) (spec : Bridge.Spec) : Bool :=
  b.started && !(b.refusesBridges || b.bridges.contains spec.name || !b.queues.contains spec.queueName)

/-- What the deployment of a resolved bridge is answered with. A bridge that is taken stays deployed if
storage fails after that. -/
def verdict (b : Broker) (spec : Bridge.Spec) : Except Bridge.Error Unit :=
  if b.takesBridge spec then b.storageFailure.elim (.ok ()) fun reason => .error (.broker (.storage reason))
  else .error (if b.started then .deploymentFailed spec.name else .brokerNotStarted)

/-- The bridges of a broker after the deployment of a resolved one. -/
def bridgesAfter (b : Broker) (spec : Bridge.Spec) : Catalog Bridge.Spec :=
  if b.takesBridge spec then b.bridges.insert spec.name spec else b.bridges

/-- A broker that has changed in its bridges and its journal only, and in none of its bridges of a name. -/
structure SameFor (name : String) (b b' : Broker) : Prop where
  others : ∃ bridges journal, b' = { b with bridges := bridges, journal := journal }
  bridge : b'.bridges.get? name = b.bridges.get? name

variable {b b' : Broker}

/-- A bridge that is taken finds its name free. -/
theorem get?_eq_none_of_takesBridge {spec : Bridge.Spec} (htakes : b.takesBridge spec = true) :
    b.bridges.get? spec.name = none := by
  simp only [takesBridge, Bool.and_eq_true, Bool.not_eq_true', Bool.or_eq_false_iff] at htakes
  obtain ⟨-, ⟨-, hfree⟩, -⟩ := htakes
  simpa [Catalog.contains] using hfree

/-- A bridge that is taken is added to the others. -/
theorem get?_bridgesAfter (b : Broker) (spec other : Bridge.Spec) (name : String) :
    (b.bridgesAfter spec).get? name = some other ↔
      b.bridges.get? name = some other ∨ (other = spec ∧ b.takesBridge spec = true) ∧ other.name = name := by
  unfold bridgesAfter
  cases htakes : b.takesBridge spec with
  | false => simp
  | true =>
    rw [if_pos rfl, Catalog.get?_insert]
    by_cases hname : name = spec.name
    · rw [if_pos hname, hname, get?_eq_none_of_takesBridge htakes]
      constructor
      · intro hspec
        cases hspec
        exact .inr ⟨⟨rfl, rfl⟩, rfl⟩
      · rintro (hspec | ⟨⟨rfl, -⟩, -⟩)
        · contradiction
        · rfl
    · rw [if_neg hname, or_iff_left]
      rintro ⟨⟨rfl, -⟩, rfl⟩
      exact hname rfl

/-- A broker that has started is asked to deploy a bridge. -/
theorem handle_deployBridge (hstarted : b.started = true) (spec : Bridge.Spec) :
    handle.deployBridge spec b = (.finished (.ok (b.takesBridge spec)),
      { b.record (.deployBridge spec.name) with bridges := b.bridgesAfter spec }) := by
  change (Answer.finished (b.deployBridge spec).1, (b.deployBridge spec).2) = _
  unfold deployBridge bridgesAfter takesBridge
  rw [hstarted, Bool.true_and]
  dsimp only [record]
  cases b.refusesBridges || b.bridges.contains spec.name || !b.queues.contains spec.queueName <;> rfl

/-- A broker takes a bridge or not by what stands under the name of the bridge. -/
theorem SameFor.takesBridge {spec : Bridge.Spec} (hsame : SameFor spec.name b b') :
    b'.takesBridge spec = b.takesBridge spec := by
  obtain ⟨⟨bridges, journal, rfl⟩, hbridge⟩ := hsame
  simp only [Broker.takesBridge, Catalog.contains, hbridge]

/-- So does the answer to a deployment depend on nothing else. -/
theorem SameFor.verdict {spec : Bridge.Spec} (hsame : SameFor spec.name b b') :
    b'.verdict spec = b.verdict spec := by
  have htakes := hsame.takesBridge
  obtain ⟨⟨bridges, journal, rfl⟩, -⟩ := hsame
  simp only [Broker.verdict, htakes]

end Broker

namespace Bridge

variable {o : Overrides}

/-! ### Single bridges -/

/-- The deployment of a resolved bridge is answered with the verdict of the broker, and only the bridges
and the journal are not as they were. -/
theorem deploySpec_eq (b : Broker) (spec : Spec) :
    ∃ journal, deploySpec Broker.handle spec b =
      (.finished (b.verdict spec), { b with bridges := b.bridgesAfter spec, journal := journal }) := by
  have hask : Broker.handle.isStarted b = (b.started, b.record .isStarted) := rfl
  unfold deploySpec onceStarted
  rw [hask]
  dsimp only
  cases hstarted : b.started with
  | false =>
    have htakes : b.takesBridge spec = false := by simp [Broker.takesBridge, hstarted]
    refine ⟨b.journal ++ [.isStarted], ?_⟩
    simp [Broker.verdict, Broker.bridgesAfter, htakes, hstarted, decided, Broker.record]
  | true =>
    have hchange : Broker.handle.deployBridge spec ((b.record .isStarted).record .clearPending) =
        (.finished (.ok (b.takesBridge spec)),
          { ((b.record .isStarted).record .clearPending).record (.deployBridge spec.name) with
            bridges := b.bridgesAfter spec }) :=
      Broker.handle_deployBridge (b := (b.record .isStarted).record .clearPending) hstarted spec
    refine ⟨b.journal ++ [.isStarted, .clearPending, .deployBridge spec.name, .awaitPending,
      .clearPending], ?_⟩
    rw [if_pos rfl, inScope_eq hchange]
    refine Prod.ext ?_ ?_
    · cases htakes : b.takesBridge spec <;>
        simp [Broker.stored, Broker.record, Broker.verdict, settleDeployment, htakes, hstarted, Except.bind]
    · simp [Broker.record, hstarted]

/-- What the deployment of a declared bridge is answered with. -/
def outcome (b : Broker) (o : Overrides) (d : Declared) : Except Error Spec := do
  let spec ← resolve o d
  b.verdict spec
  return spec

/-- A declared bridge resolves to one that a broker takes. -/
structure Adds (b : Broker) (o : Overrides) (d : Declared) (spec : Spec) : Prop where
  resolves : resolve o d = .ok spec
  takes : b.takesBridge spec = true

/-- A broker adds a declared bridge or not by what stands under the name of the bridge. -/
theorem adds_iff_of_sameFor {b b' : Broker} {d : Declared} (hsame : b.SameFor d.name b') (spec : Spec) :
    Adds b' o d spec ↔ Adds b o d spec := by
  have htakes (hresolves : resolve o d = .ok spec) : b'.takesBridge spec = b.takesBridge spec :=
    Broker.SameFor.takesBridge ((resolve_eq_ok hresolves).1 ▸ hsame)
  constructor
  · intro hadds
    exact ⟨hadds.resolves, (htakes hadds.resolves).symm.trans hadds.takes⟩
  · intro hadds
    exact ⟨hadds.resolves, (htakes hadds.resolves).trans hadds.takes⟩

/-- The answer to the deployment of a declared bridge depends on nothing else either. -/
theorem outcome_of_sameFor {b b' : Broker} {d : Declared} (hsame : b.SameFor d.name b') :
    outcome b' o d = outcome b o d := by
  unfold outcome
  cases hresolves : resolve o d with
  | error e => rfl
  | ok spec =>
    rw [← (resolve_eq_ok hresolves).1] at hsame
    change (b'.verdict spec >>= fun _ => pure spec) = (b.verdict spec >>= fun _ => pure spec)
    rw [hsame.verdict]

/-- A declared bridge is added to the others if it resolves and the broker takes it. -/
theorem deploy_eq (b : Broker) (o : Overrides) (d : Declared) :
    ∃ bridges journal, deploy Broker.handle o d b =
        (.finished (outcome b o d), { b with bridges := bridges, journal := journal }) ∧
      ∀ name spec, bridges.get? name = some spec ↔
        b.bridges.get? name = some spec ∨ Adds b o d spec ∧ spec.name = name := by
  unfold deploy outcome
  cases hresolves : resolve o d with
  | error e =>
    refine ⟨b.bridges, b.journal, rfl, fun name spec => ?_⟩
    rw [or_iff_left]
    rintro ⟨hadds, -⟩
    cases hresolves.symm.trans hadds.resolves
  | ok resolved =>
    have hadds (spec : Spec) : Adds b o d spec ↔ spec = resolved ∧ b.takesBridge resolved = true := by
      constructor
      · rintro ⟨hspec, htakes⟩
        cases hresolves.symm.trans hspec
        exact ⟨rfl, htakes⟩
      · rintro ⟨rfl, htakes⟩
        exact ⟨hresolves, htakes⟩
    obtain ⟨journal, hdeploy⟩ := deploySpec_eq b resolved
    refine ⟨b.bridgesAfter resolved, journal, ?_, fun name spec => ?_⟩
    · dsimp only
      rw [hdeploy]
      change _ = (Answer.finished (b.verdict resolved >>= fun _ => pure resolved), _)
      cases b.verdict resolved <;> rfl
    · rw [hadds, Broker.get?_bridgesAfter]

/-- A deployment is not seen under other names. -/
theorem sameFor_of_deploy {b : Broker} {d : Declared} {bridges : Catalog Spec}
    (hbridges : ∀ name spec, bridges.get? name = some spec ↔
      b.bridges.get? name = some spec ∨ Adds b o d spec ∧ spec.name = name)
    (journal : List Broker.Call) {name : String} (hname : name ≠ d.name) :
    b.SameFor name { b with bridges := bridges, journal := journal } where
  others := ⟨bridges, journal, rfl⟩
  bridge := by
    refine Option.ext fun spec => ?_
    rw [hbridges, or_iff_left]
    rintro ⟨hadds, rfl⟩
    exact hname (resolve_eq_ok hadds.resolves).1

/-! ### Batches -/

/-- In a batch of bridges of different names each is answered as it would be on its own. In the end
those are deployed that were before, and each that is enabled and that the broker would take on its own. -/
theorem deployAll_eq (b : Broker) (o : Overrides) {ds : List Declared}
    (hnodup : (ds.map Declared.name).Nodup) :
    ∃ bridges journal, deployAll Broker.handle o ds b =
        (some ((ds.filter Declared.enabled).map fun d => (d.name, outcome b o d)),
          { b with bridges := bridges, journal := journal }) ∧
      ∀ name spec, bridges.get? name = some spec ↔
        b.bridges.get? name = some spec ∨
          ∃ d ∈ ds, d.enabled = true ∧ Adds b o d spec ∧ spec.name = name := by
  induction ds generalizing b with
  | nil => exact ⟨b.bridges, b.journal, rfl, by simp⟩
  | cons d rest ih =>
    obtain ⟨hfirst, hrest⟩ := List.nodup_cons.mp hnodup
    cases henabled : d.enabled with
    | false =>
      obtain ⟨bridges, journal, hbatch, hbridges⟩ := ih b hrest
      refine ⟨bridges, journal, ?_, ?_⟩
      · rw [deployAll, henabled, if_neg Bool.false_ne_true, hbatch,
          List.filter_cons_of_neg (by simp [henabled])]
      · simpa [henabled] using hbridges
    | true =>
      obtain ⟨bridges, journal, hdeploy, hbridges⟩ := deploy_eq b o d
      obtain ⟨last, journal', hbatch, hlast⟩ :=
        ih { b with bridges := bridges, journal := journal } hrest
      -- what is left of the batch does not see the first bridge
      have hsame : ∀ other ∈ rest, b.SameFor other.name { b with bridges := bridges, journal := journal } := by
        intro other hother
        apply sameFor_of_deploy hbridges journal
        rintro hname
        exact hfirst (hname ▸ List.mem_map_of_mem hother)
      refine ⟨last, journal', ?_, fun name spec => ?_⟩
      · have houtcomes : ((rest.filter Declared.enabled).map fun other =>
            (other.name, outcome { b with bridges := bridges, journal := journal } o other)) =
            (rest.filter Declared.enabled).map fun other => (other.name, outcome b o other) :=
          List.map_congr_left fun other hother => by
            rw [outcome_of_sameFor (hsame other (List.mem_filter.mp hother).1)]
        rw [deployAll, if_pos henabled, hdeploy]
        dsimp only
        rw [hbatch, houtcomes, List.filter_cons_of_pos henabled]
        rfl
      · have hadds : (∃ other ∈ rest, other.enabled = true ∧
              Adds { b with bridges := bridges, journal := journal } o other spec ∧ spec.name = name) ↔
            ∃ other ∈ rest, other.enabled = true ∧ Adds b o other spec ∧ spec.name = name := by
          refine exists_congr fun other => and_congr_right fun hother => ?_
          rw [adds_iff_of_sameFor (hsame other hother)]
        rw [hlast, hadds, hbridges, or_assoc, List.exists_mem_cons_iff]
        simp only [henabled, true_and]

/-- The order of a batch does not matter. On whatever broker a batch of bridges of different names is
deployed, each enabled bridge is answered in its turn as its deployment alone would be. The batch in
another order is answered with the same results in that order, and leads to the same bridges. Neither
changes anything else of the broker but the journal. -/
theorem deployAll_of_perm (b : Broker) (o : Overrides) {ds ds' : List Declared}
    (hnodup : (ds.map Declared.name).Nodup) (hperm : ds'.Perm ds) :
    ∃ alone : Declared → Except Error Spec, ∃ results results' bridges journal journal',
      (∀ d, (deploy Broker.handle o d b).1 = .finished (alone d)) ∧
      results = (ds.filter Declared.enabled).map (fun d => (d.name, alone d)) ∧
      results' = (ds'.filter Declared.enabled).map (fun d => (d.name, alone d)) ∧
      results'.Perm results ∧ (results.map Prod.fst).Nodup ∧
      deployAll Broker.handle o ds b = (some results, { b with bridges := bridges, journal := journal }) ∧
      deployAll Broker.handle o ds' b =
        (some results', { b with bridges := bridges, journal := journal' }) := by
  have hnodup' : (ds'.map Declared.name).Nodup := (hperm.map Declared.name).nodup_iff.mpr hnodup
  obtain ⟨bridges, journal, hbatch, hbridges⟩ := deployAll_eq b o hnodup
  obtain ⟨bridges', journal', hbatch', hbridges'⟩ := deployAll_eq b o hnodup'
  have hsame : bridges' = bridges := by
    refine Catalog.ext_get? fun name => Option.ext fun spec => ?_
    simp only [hbridges, hbridges', hperm.mem_iff]
  have halone : ∀ d, (deploy Broker.handle o d b).1 = .finished (outcome b o d) := by
    intro d
    obtain ⟨_, _, hdeploy, -⟩ := deploy_eq b o d
    rw [hdeploy]
  have hnames : (((ds.filter Declared.enabled).map fun d => (d.name, outcome b o d)).map Prod.fst).Nodup := by
    rw [List.map_map]
    exact hnodup.sublist (List.filter_sublist.map Declared.name)
  exact ⟨outcome b o, _, _, bridges, journal, journal', halone, rfl, rfl,
    (hperm.filter Declared.enabled).map _, hnames, hbatch, hsame ▸ hbatch'⟩

/-- A bridge without a queue fails before a good one as well as after it. -/
theorem deployAll_of_perm_blank_queue :
    let b := Broker.run [.createQueue "t" "q" {}]
    let ds : List Declared := [.withConnectors "a" "q" ["c"], .unnamed]
    ((ds.map Declared.name).Nodup ∧ ds.reverse.Perm ds) ∧ ∃ spec bridges journal journal',
      deployAll Broker.handle {} ds b =
        (some [("a", .ok spec), ("default", .error (.configuration "default" .blankQueueName))],
          { b with bridges := bridges, journal := journal }) ∧
      deployAll Broker.handle {} ds.reverse b =
        (some [("default", .error (.configuration "default" .blankQueueName)), ("a", .ok spec)],
          { b with bridges := bridges, journal := journal' }) := by
  intro b ds
  have hnodup : (ds.map Declared.name).Nodup := by decide
  obtain ⟨alone, _, _, bridges, journal, journal', halone, rfl, rfl, -, -, hbatch, hbatch'⟩ :=
    deployAll_of_perm b {} hnodup ds.reverse_perm
  have hresolves : (resolve {} (.withConnectors "a" "q" ["c"])).isOk = true := by decide +kernel
  cases hspec : resolve {} (.withConnectors "a" "q" ["c"]) with
  | error e =>
    rw [hspec] at hresolves
    cases hresolves
  | ok spec =>
    have hdeploy := congrArg Prod.fst
      (deploy_of_hasRoom (b := b) ⟨rfl, rfl, rfl⟩ hspec ⟨rfl, rfl⟩)
    have ha := Answer.finished.inj ((halone _).symm.trans hdeploy)
    have hblank : alone .unnamed = .error (.configuration "default" .blankQueueName) :=
      Answer.finished.inj ((halone .unnamed).symm.trans rfl)
    refine ⟨⟨hnodup, ds.reverse_perm⟩, spec, bridges, journal, journal', ?_, ?_⟩
    · rw [hbatch, ← ha, ← hblank]
      rfl
    · rw [hbatch', ← ha, ← hblank]
      rfl

end Bridge

end BrokerAdmin
