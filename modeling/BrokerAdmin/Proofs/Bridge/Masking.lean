import BrokerAdmin.Bridge.Document
import BrokerAdmin.Broker.Faulty
import BrokerAdmin.Bridge.Manager
import BrokerAdmin.Proofs.Catalog
import BrokerAdmin.Proofs.Outcome

/-!
# Masked passwords

A bridge is masked by writing the same text over its password, and a broker by masking its bridges. Masking
commutes with whatever is done to a bridge: the masked bridge resolves to the masked definition or breaks
the same rule, a masked definition is written like the definition itself, and a masked broker answers the
deployment of a masked bridge like the broker itself and is left masked. So two runs whose bridges look
alike when they are masked still do so at every step, whatever the passwords are.
-/

namespace BrokerAdmin

namespace Bridge

/-- The source of a password without the password. -/
def PasswordSource.masked : PasswordSource → PasswordSource
  | clear _ => clear mask
  | reference entry => reference entry

/-- Credentials without the password. -/
def Credentials.masked (c : Credentials) : Credentials :=
  { c with password := c.password.map PasswordSource.masked }

/-- A resolved bridge without its password. -/
def Spec.masked (s : Spec) : Spec :=
  { s with credentials := s.credentials.map Credentials.masked }

/-- A declared bridge without its password; that there is one can still be seen. -/
def Declared.masked (d : Declared) : Declared :=
  { d with password := d.password.map fun _ => PasswordSource.mask }

/-- How the source of the password of a resolved bridge is shown inside a message. -/
def Spec.shownPassword? (s : Spec) : Option String :=
  (s.credentials.bind Credentials.password).map PasswordSource.shown

/-! ### Definitions -/

/-- The source of a password is shown without the password. -/
theorem PasswordSource.shown_masked (p : PasswordSource) : p.masked.shown = p.shown := by
  cases p <;> rfl

/-- The source of a password is written without the password. -/
theorem PasswordSource.toValue_masked (p : PasswordSource) : p.masked.toValue = p.toValue := by
  cases p <;> rfl

/-- Credentials are written without the password. -/
theorem Credentials.toValue_masked (c : Credentials) : c.masked.toValue = c.toValue := by
  unfold Credentials.toValue
  cases hpassword : c.password with
  | none => simp [masked, hpassword]
  | some source => simp [masked, hpassword, source.toValue_masked]

/-- A resolved bridge is written without its password. -/
theorem Spec.toValue_masked (s : Spec) : s.masked.toValue = s.toValue := by
  unfold Spec.toValue
  cases hcredentials : s.credentials with
  | none => simp [masked, hcredentials]
  | some c => simp [masked, hcredentials, c.toValue_masked]

/-- The source of the password of a resolved bridge is shown without the password. -/
theorem Spec.shownPassword?_masked (s : Spec) : s.masked.shownPassword? = s.shownPassword? := by
  unfold Spec.shownPassword?
  cases hcredentials : s.credentials with
  | none => simp [masked, hcredentials]
  | some c =>
    cases hpassword : c.password with
    | none => simp [masked, Credentials.masked, hcredentials, hpassword]
    | some source => simp [masked, Credentials.masked, hcredentials, hpassword, source.shown_masked]

/-! ### Resolution -/

/-- The source of the password depends on which of its two forms are given, not on what the password is. -/
theorem Declared.passwordSource_masked (d : Declared) :
    d.masked.passwordSource = d.passwordSource.map (Option.map PasswordSource.masked) := by
  unfold passwordSource masked
  cases d.password <;> cases d.credentialReference <;> rfl

/-- The credentials of a masked bridge are the masked credentials. -/
theorem Declared.credentials_masked (d : Declared) :
    d.masked.credentials = d.credentials.map (Option.map Credentials.masked) := by
  unfold credentials
  rw [passwordSource_masked]
  cases d.passwordSource with
  | error violation => rfl
  | ok source =>
    have huser : d.masked.user = d.user := rfl
    rw [huser]
    cases d.user <;> cases source <;> rfl

/-- The routing type does not depend on the password. -/
theorem Declared.routing_masked (d : Declared) (o : Overrides) : d.masked.routing o = d.routing o := by
  have htext : (o.routingTypeFor d.masked.name).getD d.masked.routingType =
      (o.routingTypeFor d.name).getD d.routingType := rfl
  unfold routing
  rw [htext]

/-- The retry policy does not depend on the password. -/
theorem Declared.retryPolicy_masked (d : Declared) : d.masked.retryPolicy = d.retryPolicy := by
  have hmultiplier : d.masked.multiplier = d.multiplier := rfl
  rw [retryPolicy, hmultiplier]
  rfl

/-- A masked bridge resolves to the masked definition, or breaks the same rule. -/
theorem Declared.resolve_masked (d : Declared) (o : Overrides) :
    d.masked.resolve o = (d.resolve o).map Spec.masked := by
  have hcredentials : d.masked.credentials = Option.map Credentials.masked <$> d.credentials :=
    d.credentials_masked
  have hconnectors : d.masked.connectors = d.connectors := rfl
  change d.masked.resolve o = Spec.masked <$> d.resolve o
  unfold Declared.resolve
  -- no rule before the last looks at the password
  rw [hcredentials, hconnectors, d.routing_masked, d.retryPolicy_masked]
  simp only [map_bind, bind_map_left, map_pure]
  rfl

/-- A masked bridge resolves to the masked definition, or is wrong in the same way. -/
theorem resolve_masked (o : Overrides) (d : Declared) :
    resolve o d.masked = (resolve o d).map Spec.masked := by
  unfold resolve
  rw [d.resolve_masked o]
  cases d.resolve o <;> rfl

/-! ### Deployment -/

variable {σ : Type}

/-- A broker that does not look at passwords: a masked state answers like the state itself when the bridge
that is deployed is masked as well, and is left masked. -/
structure Blind (h : Handle σ) (mask : σ → σ) : Prop where
  isStarted (s : σ) : h.isStarted (mask s) = Prod.map id mask (h.isStarted s)
  clearPending (s : σ) : h.clearPending (mask s) = mask (h.clearPending s)
  awaitPending (s : σ) : h.awaitPending (mask s) = Prod.map id mask (h.awaitPending s)
  deployBridge (spec : Spec) (s : σ) :
    h.deployBridge spec.masked (mask s) = Prod.map id mask (h.deployBridge spec s)
  destroyBridge (name : String) (force : Bool) (s : σ) :
    h.destroyBridge name force (mask s) = Prod.map id mask (h.destroyBridge name force s)

/-- What is answered to the deployment of a bridge, with the definition and the state masked. -/
def maskedOutcome (mask : σ → σ) : Outcome σ Spec → Outcome σ Spec :=
  Prod.map (Answer.map (Except.map Spec.masked)) mask

/-- What is answered to the deployment of a batch, with the definitions and the state masked. -/
def maskedBatch (mask : σ → σ) : Option (List (String × Except Error Spec)) × σ →
    Option (List (String × Except Error Spec)) × σ :=
  Prod.map (Option.map (List.map (Prod.map id (Except.map Spec.masked)))) mask

variable {h : Handle σ} {mask : σ → σ} {α β : Type}

/-- Storage is awaited without a look at passwords. -/
theorem Blind.drain (hblind : Blind h mask) (s : σ) :
    drain h (mask s) = Prod.map id mask (drain h s) := by
  unfold Bridge.drain
  rw [hblind.awaitPending]
  exact congrArg (Prod.mk _) (hblind.clearPending _)

/-- A change that does not look at passwords does not do so in a scope. -/
theorem Blind.inScope (hblind : Blind h mask) {change change' : σ → Answer Broker.Error α × σ}
    (hchange : ∀ s, change' (mask s) = Prod.map id mask (change s))
    (settle : Except Broker.Error α → Except Error β) (s : σ) :
    inScope h change' settle (mask s) = Prod.map id mask (inScope h change settle s) := by
  unfold Bridge.inScope
  rw [hblind.clearPending, hchange]
  dsimp only [Prod.map_fst, Prod.map_snd]
  rw [hblind.drain]
  rfl

/-- An operation that does not look at passwords does not do so on a broker that has started. -/
theorem Blind.onceStarted (hblind : Blind h mask) {operation operation' : σ → Outcome σ α}
    (hoperation : ∀ s, operation' (mask s) = Prod.map id mask (operation s)) (s : σ) :
    onceStarted h operation' (mask s) = Prod.map id mask (onceStarted h operation s) := by
  unfold Bridge.onceStarted
  rw [hblind.isStarted]
  obtain ⟨started, s⟩ := h.isStarted s
  cases started with
  | false => rfl
  | true => exact hoperation s

/-- A masked definition is deployed like the definition itself. -/
theorem Blind.deploySpec (hblind : Blind h mask) (spec : Spec) (s : σ) :
    deploySpec h spec.masked (mask s) = Prod.map id mask (deploySpec h spec s) :=
  hblind.onceStarted (hblind.inScope (hblind.deployBridge spec) (settleDeployment spec.name)) s

/-- A bridge is removed without a look at its password. -/
theorem Blind.remove (hblind : Blind h mask) (name : String) (s : σ) :
    remove h name (mask s) = Prod.map id mask (remove h name s) :=
  hblind.onceStarted (hblind.inScope (hblind.destroyBridge name false) settleRemoval) s

/-- What goes on after a masked state is masked as long as each of its steps is. -/
theorem andThen_masked (outcome : Outcome σ α) {next next' : α → σ → Outcome σ Spec}
    (hnext : ∀ value s, next' value (mask s) = maskedOutcome mask (next value s)) :
    andThen (Prod.map id mask outcome) next' = maskedOutcome mask (andThen outcome next) := by
  obtain ⟨(value | e) | _, s⟩ := outcome
  · rfl
  · exact hnext _ s
  · rfl

/-- A masked bridge is deployed like the bridge itself. -/
theorem Blind.deploy (hblind : Blind h mask) (o : Overrides) (d : Declared) (s : σ) :
    deploy h o d.masked (mask s) = maskedOutcome mask (deploy h o d s) := by
  unfold Bridge.deploy
  rw [resolve_masked]
  cases resolve o d with
  | error e => rfl
  | ok spec =>
    dsimp only [Except.map]
    rw [hblind.deploySpec]
    exact andThen_masked _ fun _ _ => rfl

/-- A masked bridge replaces another like the bridge itself. -/
theorem Blind.redeploy (hblind : Blind h mask) (o : Overrides) (d : Declared) (s : σ) :
    redeploy h o d.masked (mask s) = maskedOutcome mask (redeploy h o d s) := by
  unfold Bridge.redeploy
  rw [resolve_masked]
  cases resolve o d with
  | error e => rfl
  | ok spec =>
    dsimp only [Except.map]
    rw [hblind.remove]
    apply andThen_masked
    intro _ s
    rw [hblind.deploySpec]
    exact andThen_masked _ fun _ _ => rfl

/-- A masked batch is deployed like the batch itself. -/
theorem Blind.deployAll (hblind : Blind h mask) (o : Overrides) (ds : List Declared) (s : σ) :
    deployAll h o (ds.map Declared.masked) (mask s) = maskedBatch mask (deployAll h o ds s) := by
  induction ds generalizing s with
  | nil => rfl
  | cons d rest ih =>
    rw [List.map_cons, Bridge.deployAll, Bridge.deployAll]
    have henabled : d.masked.enabled = d.enabled := rfl
    rw [henabled]
    cases d.enabled with
    | false => exact ih s
    | true =>
      simp only [if_true]
      rw [hblind.deploy]
      obtain ⟨result | _, s⟩ := Bridge.deploy h o d s
      · dsimp only [maskedOutcome, Prod.map, Answer.map]
        rw [ih s]
        dsimp only [maskedBatch, Prod.map]
        rw [Option.map_map, Option.map_map]
        rfl
      · rfl

end Bridge

/-! ### Brokers -/

/-- A broker without the passwords of its bridges. -/
def Broker.masked (b : Broker) : Broker :=
  { b with bridges := b.bridges.mapEntries fun _ => Bridge.Spec.masked }

/-- A broker with faults before it and without the passwords of its bridges. -/
def Faulty.masked (f : Faulty) : Faulty :=
  { f with broker := f.broker.masked }

namespace Broker

/-- A masked bridge is taken by the masked broker like the bridge by the broker. -/
theorem deployBridge_masked (b : Broker) (spec : Bridge.Spec) :
    b.masked.deployBridge spec.masked = Prod.map id masked (b.deployBridge spec) := by
  have hrefused : (b.masked.refusesBridges || b.masked.bridges.contains spec.masked.name ||
        !b.masked.queues.contains spec.masked.queueName) =
      (b.refusesBridges || b.bridges.contains spec.name || !b.queues.contains spec.queueName) :=
    congrArg (fun taken => b.refusesBridges || taken || !b.queues.contains spec.queueName)
      (Catalog.contains_mapEntries _ b.bridges spec.name)
  have hinsert : b.masked.bridges.insert spec.masked.name spec.masked =
      (b.bridges.insert spec.name spec).mapEntries fun _ => Bridge.Spec.masked :=
    (Catalog.mapEntries_insert (fun _ => Bridge.Spec.masked) b.bridges spec.name spec).symm
  unfold deployBridge
  dsimp only [record]
  rw [hrefused, hinsert]
  cases b.refusesBridges || b.bridges.contains spec.name || !b.queues.contains spec.queueName <;> rfl

/-- A bridge is destroyed in the masked broker as it is in the broker. -/
theorem destroyBridge_masked (b : Broker) (name : String) (force : Bool) :
    b.masked.destroyBridge name force = Prod.map id masked (b.destroyBridge name force) := by
  have hcontains : b.masked.bridges.contains name = b.bridges.contains name :=
    Catalog.contains_mapEntries _ b.bridges name
  have herase : b.masked.bridges.erase name =
      (b.bridges.erase name).mapEntries fun _ => Bridge.Spec.masked :=
    (Catalog.mapEntries_erase _ b.bridges name).symm
  unfold destroyBridge
  dsimp only [record]
  rw [hcontains, herase]
  cases b.bridges.contains name <;> rfl

/-- Storage is awaited in the masked broker as it is in the broker. -/
theorem awaitPending_masked (b : Broker) : b.masked.awaitPending = Prod.map id masked b.awaitPending := by
  have hstorage : b.masked.storageFailure = b.storageFailure := rfl
  unfold awaitPending
  dsimp only [record]
  rw [hstorage]
  cases b.storageFailure <;> rfl

/-- A broker in memory does not look at passwords. -/
theorem blind : Bridge.Blind handle masked where
  isStarted _ := rfl
  clearPending _ := rfl
  awaitPending b := b.awaitPending_masked
  deployBridge spec b := by
    change (Answer.finished (b.masked.deployBridge spec.masked).1, (b.masked.deployBridge spec.masked).2) = _
    rw [b.deployBridge_masked]
    rfl
  destroyBridge name force b := by
    change (Answer.finished (b.masked.destroyBridge name force).1, (b.masked.destroyBridge name force).2) = _
    rw [b.destroyBridge_masked]
    rfl

end Broker

namespace Faulty

/-- A change of bridges that does not look at passwords does not do so behind faults. -/
theorem bridgeChange_masked {α : Type} (f : Faulty) (point : FaultPoint) (name : String)
    (call call' : Broker → Broker.Outcome α)
    (hcall : ∀ b, call' b.masked = Prod.map id Broker.masked (call b)) :
    f.masked.bridgeChange point name call' = Prod.map id masked (f.bridgeChange point name call) := by
  have herror : f.masked.error? point name = f.error? point name := rfl
  have hbroker : call' f.masked.broker = Prod.map id Broker.masked (call f.broker) := hcall f.broker
  have hhangs : f.masked.faults.hangs = f.faults.hangs := rfl
  unfold bridgeChange guardedChange
  rw [herror, hbroker, hhangs]
  cases f.error? point name with
  | some e => cases f.faults.hangs <;> rfl
  | none => cases f.faults.hangs <;> rfl

/-- A broker behind faults does not look at passwords. -/
theorem blind : Bridge.Blind handle masked where
  isStarted _ := rfl
  clearPending _ := rfl
  awaitPending f := by
    change ((f.broker.masked.awaitPending).1,
      { f.masked with broker := (f.broker.masked.awaitPending).2 }) = _
    rw [f.broker.awaitPending_masked]
    rfl
  deployBridge spec f :=
    f.bridgeChange_masked .deployBridge spec.name (·.deployBridge spec) (·.deployBridge spec.masked)
      fun b => b.deployBridge_masked spec
  destroyBridge name force f :=
    f.bridgeChange_masked .destroyBridge name (·.destroyBridge name force) (·.destroyBridge name force)
      fun b => b.destroyBridge_masked name force

end Faulty

end BrokerAdmin
