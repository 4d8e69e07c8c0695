import BrokerAdmin.Bridge.Manager
import BrokerAdmin.Proofs.Catalog
import BrokerAdmin.Proofs.Outcome

/-!
# Bridges on a broker in memory

A broker in memory that has started, refuses no bridges and completes storage operations takes every bridge
that there is room for: its name is free and its queue is there. A bridge leaves room for others of other
names, so a batch of bridges of different names is deployed as a whole.
-/

namespace BrokerAdmin

namespace Broker

/-- A broker has started, refuses no bridges and completes storage operations. -/
structure Serves (b : Broker) : Prop where
  started : b.started = true
  refusesBridges : b.refusesBridges = false
  storageFailure : b.storageFailure = none

/-- There is room for a bridge of a name from a queue: the name is free, and the queue is there. -/
structure HasRoom (b : Broker) (name queueName : String) : Prop where
  free : b.bridges.get? name = none
  queue : b.queues.contains queueName = true

/-- A broker that has taken a bridge. -/
def taking (b : Broker) (spec : Bridge.Spec) : Broker :=
  { b.record (.deployBridge spec.name) with bridges := b.bridges.insert spec.name spec }

/-- A broker after the deployment of a bridge in a scope of storage operations. -/
def withBridge (b : Broker) (spec : Bridge.Spec) : Broker :=
  { b with
    bridges := b.bridges.insert spec.name spec
    journal := b.journal ++
      [.isStarted, .clearPending, .deployBridge spec.name, .awaitPending, .clearPending] }

/-- A broker after the deployment of several bridges, one after the other. -/
def withBridges (b : Broker) (specs : List Bridge.Spec) : Broker :=
  specs.foldl withBridge b

/-- What is answered when storage has followed a change. An error of the change comes first. -/
def stored {α : Type} (b : Broker) (result : Except Bridge.Error α) : Except Bridge.Error α :=
  result.bind fun value =>
    b.storageFailure.elim (.ok value) fun reason => .error (.broker (.storage reason))

variable {b : Broker} {name queueName : String}

/-- A call that is recorded is no obstacle. -/
theorem Serves.record (hb : b.Serves) (call : Call) : (b.record call).Serves :=
  ⟨hb.started, hb.refusesBridges, hb.storageFailure⟩

/-- A bridge is no obstacle. -/
theorem Serves.taking (hb : b.Serves) (spec : Bridge.Spec) : (b.taking spec).Serves :=
  ⟨hb.started, hb.refusesBridges, hb.storageFailure⟩

/-- A deployment is no obstacle to another. -/
theorem Serves.withBridge (hb : b.Serves) (spec : Bridge.Spec) : (b.withBridge spec).Serves :=
  ⟨hb.started, hb.refusesBridges, hb.storageFailure⟩

/-- A call that is recorded takes no room. -/
theorem HasRoom.record (hroom : b.HasRoom name queueName) (call : Call) :
    (b.record call).HasRoom name queueName :=
  ⟨hroom.free, hroom.queue⟩

/-- A deployment puts the bridge under its name. -/
theorem get?_withBridge (b : Broker) (spec : Bridge.Spec) (name : String) :
    (b.withBridge spec).bridges.get? name = if name = spec.name then some spec else b.bridges.get? name :=
  Catalog.get?_insert b.bridges spec.name name spec

/-- A deployment leaves room for bridges of other names. -/
theorem HasRoom.withBridge (hroom : b.HasRoom name queueName) {spec : Bridge.Spec}
    (hname : name ≠ spec.name) : (b.withBridge spec).HasRoom name queueName where
  free := by rw [get?_withBridge, if_neg hname, hroom.free]
  queue := hroom.queue

/-- Several deployments change nothing but bridges and the journal. -/
theorem withBridges_eq (b : Broker) (specs : List Bridge.Spec) :
    ∃ bridges journal, b.withBridges specs = { b with bridges := bridges, journal := journal } := by
  induction specs generalizing b with
  | nil => exact ⟨b.bridges, b.journal, rfl⟩
  | cons spec specs ih =>
    obtain ⟨bridges, journal, heq⟩ := ih (b.withBridge spec)
    exact ⟨bridges, journal, heq⟩

/-- After several deployments of bridges of different and free names, these are deployed besides the ones
from before. -/
theorem get?_withBridges {specs : List Bridge.Spec} (hnodup : (specs.map Bridge.Spec.name).Nodup)
    (hfree : ∀ spec ∈ specs, b.bridges.get? spec.name = none) (name : String) (spec : Bridge.Spec) :
    (b.withBridges specs).bridges.get? name = some spec ↔
      b.bridges.get? name = some spec ∨ spec ∈ specs ∧ spec.name = name := by
  induction specs generalizing b with
  | nil => simp [withBridges]
  | cons first specs ih =>
    obtain ⟨hfirst, hnodup⟩ := List.nodup_cons.mp hnodup
    obtain ⟨hfreeFirst, hfree⟩ := List.forall_mem_cons.mp hfree
    have hothers : ∀ other ∈ specs, other.name ≠ first.name :=
      fun other hother hname => hfirst (hname ▸ List.mem_map_of_mem hother)
    have hfree' : ∀ other ∈ specs, (b.withBridge first).bridges.get? other.name = none := by
      intro other hother
      rw [get?_withBridge, if_neg (hothers other hother)]
      exact hfree other hother
    change ((b.withBridge first).withBridges specs).bridges.get? name = some spec ↔ _
    rw [ih hnodup hfree', get?_withBridge, List.mem_cons]
    by_cases hname : name = first.name
    · subst hname
      rw [if_pos rfl, hfreeFirst, Option.some.injEq]
      constructor
      · rintro (rfl | ⟨hspec, hname⟩)
        · exact Or.inr ⟨Or.inl rfl, rfl⟩
        · exact Or.inr ⟨Or.inr hspec, hname⟩
      · rintro (hnone | ⟨rfl | hspec, hname⟩)
        · contradiction
        · exact Or.inl rfl
        · exact Or.inr ⟨hspec, hname⟩
    · rw [if_neg hname]
      refine or_congr_right (and_congr_left fun hspec => ?_)
      rw [or_iff_right]
      rintro rfl
      exact hname hspec.symm

/-- A broker takes a bridge that there is room for. -/
theorem Serves.handle_deployBridge (hb : b.Serves) {spec : Bridge.Spec}
    (hroom : b.HasRoom spec.name spec.queueName) :
    handle.deployBridge spec b = (.finished (.ok true), b.taking spec) := by
  have hfree : b.bridges.contains spec.name = false := by simp [Catalog.contains, hroom.free]
  have htaken : b.deployBridge spec = (.ok true, b.taking spec) := by
    simp [deployBridge, Broker.taking, Broker.record, hb.refusesBridges, hfree, hroom.queue]
  change (Answer.finished (b.deployBridge spec).1, (b.deployBridge spec).2) = _
  rw [htaken]

/-- Storage follows every change. -/
theorem Serves.stored {α : Type} (hb : b.Serves) (result : Except Bridge.Error α) :
    b.stored result = result := by
  rw [Broker.stored, hb.storageFailure]
  cases result <;> rfl

end Broker

namespace Bridge

/-! ### Single bridges -/

/-- A bridge keeps the name and the queue that it is declared with. -/
theorem resolve_eq_ok {o : Overrides} {d : Declared} {spec : Spec} (h : resolve o d = .ok spec) :
    spec.name = d.name ∧ spec.queueName = d.queueName := by
  rw [resolve, mapError_eq_ok_iff] at h
  unfold Declared.resolve at h
  -- past the rules, one by one
  repeat obtain ⟨_, -, h⟩ := bind_eq_ok_iff.mp h
  obtain rfl := Except.ok.inj h
  exact ⟨rfl, rfl⟩

/-- Storage is awaited, and the pending operations are forgotten. -/
theorem drain_eq (b : Broker) :
    drain Broker.handle b = (b.storageFailure.elim (.ok ()) fun reason => .error (.storage reason),
      (b.record .awaitPending).record .clearPending) := by
  change (b.awaitPending.1, b.awaitPending.2.clearPending) = _
  unfold Broker.awaitPending
  dsimp only [Broker.record]
  split
  next reason hstorage =>
    rw [hstorage]
    rfl
  next hstorage =>
    rw [hstorage]
    rfl

variable {b : Broker} {o : Overrides}

/-- A change that is answered is settled, and storage has to follow it. -/
theorem inScope_eq {α β : Type} {change : Broker → Answer Broker.Error α × Broker}
    {settle : Except Broker.Error α → Except Error β} {changed : Broker} {result : Except Broker.Error α}
    (hchange : change (b.record .clearPending) = (.finished result, changed)) :
    inScope Broker.handle change settle b = (.finished (changed.stored (settle result)),
      (changed.record .awaitPending).record .clearPending) := by
  have hclear : change (Broker.handle.clearPending b) = (.finished result, changed) := hchange
  simp only [inScope, hclear, drain_eq, Answer.map, Broker.stored]
  cases settle result with
  | error e => rfl
  | ok value => cases changed.storageFailure <;> rfl

/-- A resolved bridge is deployed where there is room for it. -/
theorem deploySpec_of_hasRoom (hb : b.Serves) {spec : Spec} (hroom : b.HasRoom spec.name spec.queueName) :
    deploySpec Broker.handle spec b = (.finished (.ok ()), b.withBridge spec) := by
  have hstarted : Broker.handle.isStarted b = (true, b.record .isStarted) := by
    change (b.started, b.record .isStarted) = _
    rw [hb.started]
  have hserves := (hb.record .isStarted).record .clearPending
  have hdeploy := hserves.handle_deployBridge ((hroom.record .isStarted).record .clearPending)
  have hchanged : (((((b.record .isStarted).record .clearPending).taking spec).record .awaitPending).record
      .clearPending) = b.withBridge spec := by
    simp [Broker.withBridge, Broker.taking, Broker.record]
  rw [deploySpec, onceStarted, hstarted, ← hchanged]
  dsimp only
  rw [if_pos rfl, inScope_eq hdeploy, (hserves.taking spec).stored]
  rfl

/-- A declared bridge is deployed where there is room for it. -/
theorem deploy_of_hasRoom (hb : b.Serves) {d : Declared} {spec : Spec} (hspec : resolve o d = .ok spec)
    (hroom : b.HasRoom d.name d.queueName) :
    deploy Broker.handle o d b = (.finished (.ok spec), b.withBridge spec) := by
  obtain ⟨hname, hqueue⟩ := resolve_eq_ok hspec
  rw [← hname, ← hqueue] at hroom
  rw [deploy, hspec]
  dsimp only
  rw [deploySpec_of_hasRoom hb hroom]
  rfl

/-! ### Batches -/

/-- The enabled ones among declared bridges, each with its definition. -/
def enabledPairs (ds : List Declared) (specs : List Spec) : List (Declared × Spec) :=
  (ds.zip specs).filter fun pair => pair.1.enabled

/-- Each of them is among the declared bridges, enabled, and paired with what it resolves to. -/
theorem of_mem_enabledPairs {ds : List Declared} {specs : List Spec}
    (hspecs : List.Forall₂ (fun d spec => resolve o d = .ok spec) ds specs) {d : Declared} {spec : Spec}
    (hmem : (d, spec) ∈ enabledPairs ds specs) : d ∈ ds ∧ d.enabled = true ∧ resolve o d = .ok spec := by
  obtain ⟨hzip, henabled⟩ := List.mem_filter.mp hmem
  exact ⟨(List.of_mem_zip hzip).1, henabled, (List.forall₂_iff_zip.mp hspecs).2 hzip⟩

/-- Their definitions have different names when the declared bridges have. -/
theorem enabledPairs_nodup {ds : List Declared} {specs : List Spec}
    (hspecs : List.Forall₂ (fun d spec => resolve o d = .ok spec) ds specs)
    (hnodup : (ds.map Declared.name).Nodup) :
    (((enabledPairs ds specs).map Prod.snd).map Spec.name).Nodup := by
  have hnames : ((enabledPairs ds specs).map Prod.snd).map Spec.name =
      ((enabledPairs ds specs).map Prod.fst).map Declared.name := by
    rw [List.map_map, List.map_map]
    exact List.map_congr_left fun _ hmem => (resolve_eq_ok (of_mem_enabledPairs hspecs hmem).2.2).1
  have hsublist : ((enabledPairs ds specs).map Prod.fst).Sublist ds := by
    have hzip : (ds.zip specs).map Prod.fst = ds := List.map_fst_zip (Nat.le_of_eq hspecs.length_eq)
    have hpairs : (enabledPairs ds specs).Sublist (ds.zip specs) := List.filter_sublist
    simpa only [hzip] using hpairs.map Prod.fst
  rw [hnames]
  exact hnodup.sublist (hsublist.map Declared.name)

/-- A batch of bridges of different names is deployed where there is room for the enabled ones. -/
theorem deployAll_of_hasRoom {ds : List Declared} {specs : List Spec}
    (hspecs : List.Forall₂ (fun d spec => resolve o d = .ok spec) ds specs)
    (hnodup : (ds.map Declared.name).Nodup) (hb : b.Serves)
    (hroom : ∀ d ∈ ds, d.enabled = true → b.HasRoom d.name d.queueName) :
    deployAll Broker.handle o ds b =
      (some ((enabledPairs ds specs).map fun (d, spec) => (d.name, .ok spec)),
        b.withBridges ((enabledPairs ds specs).map Prod.snd)) := by
  induction hspecs generalizing b with
  | nil => rfl
  | @cons d spec ds specs hspec hspecs ih =>
    obtain ⟨hfirst, hnodup⟩ := List.nodup_cons.mp hnodup
    obtain ⟨hroomFirst, hroom⟩ := List.forall_mem_cons.mp hroom
    cases henabled : d.enabled with
    | false =>
      have hpairs : enabledPairs (d :: ds) (spec :: specs) = enabledPairs ds specs := by
        simp [enabledPairs, henabled]
      rw [deployAll, henabled, if_neg Bool.false_ne_true, ih hnodup hb hroom, hpairs]
    | true =>
      have hpairs : enabledPairs (d :: ds) (spec :: specs) = (d, spec) :: enabledPairs ds specs := by
        simp [enabledPairs, henabled]
      have hroom' : ∀ other ∈ ds, other.enabled = true →
          (b.withBridge spec).HasRoom other.name other.queueName := by
        intro other hother hotherEnabled
        apply (hroom other hother hotherEnabled).withBridge
        rw [(resolve_eq_ok hspec).1]
        rintro hname
        exact hfirst (hname ▸ List.mem_map_of_mem hother)
      rw [deployAll, if_pos henabled, deploy_of_hasRoom hb hspec (hroomFirst henabled)]
      dsimp only
      rw [ih hnodup (hb.withBridge spec) hroom', hpairs]
      rfl

end Bridge

end BrokerAdmin
