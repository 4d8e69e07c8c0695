import BrokerAdmin.Proofs.Broker.WellFormed
import BrokerAdmin.Proofs.Catalog
import Mathlib.Data.List.Induction

/-!
# The pause of an address

An address is paused by what happened to it: by the pauses that succeeded and have not been undone, and by
nothing else. Queues may come and go in between, even the last ones of the address, because the pause is
kept with the address and an address never goes. A pause outlives the broker when one of those that
stand was asked to; a later one that was not takes nothing back.
-/

namespace BrokerAdmin

namespace Broker

/-! ### Single actions -/

/-- Pausing marks an address, if it is there, and keeps a mark that outlives the broker. -/
theorem pauseAddress_state (b : Broker) (address : String) (persist : Bool) :
    (b.pauseAddress address persist).2 =
      { b with
        addresses := b.addresses.modify address fun a =>
          { a with pause := some (persist || a.pause.getD false) }
        journal := b.journal ++ [.pauseAddress address persist] } := by
  unfold pauseAddress record
  dsimp only
  split
  next hnone => rw [Catalog.modify_eq_self (by simp [hnone])]
  next a ha => rw [← Catalog.insert_eq_modify ha]

/-- Resuming takes the mark from an address, if it is there. -/
theorem resumeAddress_state (b : Broker) (address : String) :
    (b.resumeAddress address).2 =
      { b with
        addresses := b.addresses.modify address fun a => { a with pause := none }
        journal := b.journal ++ [.resumeAddress address] } := by
  unfold resumeAddress record
  dsimp only
  split
  next hnone => rw [Catalog.modify_eq_self (by simp [hnone])]
  next a ha => rw [← Catalog.insert_eq_modify ha]

/-- An action pauses an address, which is there. -/
def Pauses (b : Broker) (address : String) (persist : Bool) (action : Action) : Prop :=
  action = .pauseAddress address persist ∧ (b.pauseAddress address persist).1 = .ok ()

/-- An action lets delivery on an address go on, which is there. -/
def Resumes (b : Broker) (address : String) (action : Action) : Prop :=
  action = .resumeAddress address ∧ (b.resumeAddress address).1 = .ok ()

/-- An action pauses an address in one way only. -/
theorem Pauses.pauses_iff {b : Broker} {address : String} {persist : Bool} {action : Action}
    (h : b.Pauses address persist action) (other : Bool) :
    b.Pauses address other action ↔ other = persist := by
  obtain ⟨rfl, hok⟩ := h
  constructor
  · rintro ⟨heq, -⟩
    exact (Action.pauseAddress.inj heq).2.symm
  · rintro rfl
    exact ⟨rfl, hok⟩

/-- An action that pauses an address does not resume it. -/
theorem Pauses.not_resumes {b : Broker} {address : String} {persist : Bool} {action : Action}
    (h : b.Pauses address persist action) : ¬ b.Resumes address action := by
  obtain ⟨rfl, -⟩ := h
  exact nofun

/-- Pausing succeeds on every address that is there. -/
theorem pauseAddress_eq_ok_iff (b : Broker) (address : String) (persist : Bool) :
    (b.pauseAddress address persist).1 = .ok () ↔ ∃ a, b.addresses.get? address = some a := by
  cases ha : b.addresses.get? address <;> simp [pauseAddress, record, ha]

/-- Resuming succeeds on every address that is there. -/
theorem resumeAddress_eq_ok_iff (b : Broker) (address : String) :
    (b.resumeAddress address).1 = .ok () ↔ ∃ a, b.addresses.get? address = some a := by
  cases ha : b.addresses.get? address <;> simp [resumeAddress, record, ha]

/-- An address that is paused stays so; the pause outlives the broker if one of them does. -/
theorem Pauses.pauseState {b : Broker} {address : String} {persist : Bool} {action : Action}
    (h : b.Pauses address persist action) :
    (b.perform action).pauseState address = some (persist || (b.pauseState address).getD false) := by
  obtain ⟨rfl, hok⟩ := h
  obtain ⟨a, ha⟩ := (b.pauseAddress_eq_ok_iff address persist).mp hok
  change (b.pauseAddress address persist).2.pauseState address = _
  simp [pauseAddress_state, Broker.pauseState, ha]

/-- An address is not paused when delivery goes on. -/
theorem Resumes.pauseState {b : Broker} {address : String} {action : Action}
    (h : b.Resumes address action) : (b.perform action).pauseState address = none := by
  obtain ⟨rfl, hok⟩ := h
  obtain ⟨a, ha⟩ := (b.resumeAddress_eq_ok_iff address).mp hok
  change (b.resumeAddress address).2.pauseState address = none
  simp [resumeAddress_state, Broker.pauseState, ha]

/-- A pause stays while addresses stay as they are. -/
theorem pauseState_of_eq {b b' : Broker} (h : b'.addresses = b.addresses) (address : String) :
    b'.pauseState address = b.pauseState address := by
  rw [pauseState, pauseState, h]

/-- A change of an address that does not touch its pause keeps every pause. -/
theorem pauseState_of_modify {b b' : Broker} {address other : String} {f : Address → Address}
    (h : b'.addresses = b.addresses.modify other f)
    (hf : address = other → ∀ a, b.addresses.get? address = some a → (f a).pause = a.pause) :
    b'.pauseState address = b.pauseState address := by
  rw [pauseState, pauseState, h, Catalog.get?_modify]
  split
  next hother =>
    cases ha : b.addresses.get? address with
    | none => rfl
    | some a => exact hf hother a ha
  next => rfl

/-- A new address is not paused, and others are as before. -/
theorem pauseState_of_new {b b' : Broker} {other : String} {a : Address}
    (hnone : b.addresses.get? other = none) (h : b'.addresses = b.addresses.insert other a)
    (ha : a.pause = none) (address : String) : b'.pauseState address = b.pauseState address := by
  rw [pauseState, pauseState, h, Catalog.get?_insert]
  split
  next hother =>
    rw [hother, hnone]
    exact ha
  next => rfl

/-- An address that is created leaves every pause as it is. -/
theorem pauseState_createAddress (b : Broker) (other address : String) :
    (b.createAddress other).2.pauseState address = b.pauseState address := by
  rcases b.createAddress_cases other with heq | ⟨hnone, heq⟩
  · rw [heq]
  · rw [heq]
    exact pauseState_of_new hnone rfl rfl address

/-- A queue that is created leaves every pause as it is, whether its address was there or not. -/
theorem pauseState_createQueue (b : Broker) (other name : String) (options : QueueOptions)
    (address : String) : (b.createQueue other name options).2.pauseState address = b.pauseState address := by
  unfold createQueue
  split
  next => rfl
  next =>
    by_cases haddress : address = other
    · subst haddress
      cases ha : b.addresses.get? address <;> simp [pauseState, ha, Address.empty]
    · simp [pauseState, haddress]

/-- A topic that is created leaves every pause as it is. -/
theorem pauseState_createTopicWithPlaceholder (b : Broker) (other placeholder address : String) :
    (b.createTopicWithPlaceholder other placeholder).2.pauseState address = b.pauseState address := by
  rcases b.createTopic_cases other placeholder with heq | ⟨hnone, heq | ⟨-, heq⟩⟩
  · rw [heq]
  · rw [heq]
    exact pauseState_of_new hnone rfl rfl address
  · rw [heq]
    exact pauseState_of_new hnone rfl rfl address

/-- A queue that is destroyed leaves every pause as it is, even if it was the last of its address. -/
theorem pauseState_destroyQueue (b : Broker) (name : String) (removeConsumers : Bool) (address : String) :
    (b.destroyQueue name removeConsumers).2.pauseState address = b.pauseState address := by
  rcases b.destroyQueue_eq name removeConsumers with heq | ⟨q, -, heq⟩
  · rw [heq]
    rfl
  · rw [heq]
    exact pauseState_of_modify (f := fun a => a.unbind name) rfl fun _ _ _ => rfl

/-- An action that neither pauses an address nor resumes it leaves its pause as it is. -/
theorem pauseState_perform {b : Broker} {address : String} {action : Action}
    (hpauses : ∀ persist, ¬ b.Pauses address persist action) (hresumes : ¬ b.Resumes address action) :
    (b.perform action).pauseState address = b.pauseState address := by
  by_cases haddresses : action.isAboutAddresses = true
  · cases action with
    | createAddress other => exact b.pauseState_createAddress other address
    | createTopic other => exact b.pauseState_createTopicWithPlaceholder other other address
    | createTopicWithPlaceholder other placeholder =>
      exact b.pauseState_createTopicWithPlaceholder other placeholder address
    | createQueue other name options => exact b.pauseState_createQueue other name options address
    | destroyQueue name removeConsumers => exact b.pauseState_destroyQueue name removeConsumers address
    | pauseAddress other persist =>
      refine pauseState_of_modify (f := fun a => { a with pause := some (persist || a.pause.getD false) })
        (congrArg addresses (b.pauseAddress_state other persist)) ?_
      rintro rfl a ha
      exact absurd ⟨rfl, (b.pauseAddress_eq_ok_iff address persist).mpr ⟨a, ha⟩⟩ (hpauses persist)
    | resumeAddress other =>
      refine pauseState_of_modify (f := fun a => { a with pause := none })
        (congrArg addresses (b.resumeAddress_state other)) ?_
      rintro rfl a ha
      exact absurd ⟨rfl, (b.resumeAddress_eq_ok_iff address).mpr ⟨a, ha⟩⟩ hresumes
    | _ => contradiction
  · rw [Bool.not_eq_true] at haddresses
    exact pauseState_of_eq (b.restocks_perform haddresses).addresses address

/-- Nothing is received from the queues of an address that is paused. -/
theorem receive_of_paused {b : Broker} {address name : String} (hbinds : b.Binds address name)
    (hpaused : b.pauseState address ≠ none) : b.receive name = (.ok none, b) := by
  obtain ⟨q, hq, rfl⟩ := hbinds
  have hpaused : (b.pauseState q.address).isSome = true := Option.isSome_iff_ne_none.mpr hpaused
  rw [receive, (queue_eq_ok_iff b name q).mpr hq]
  exact if_pos hpaused

/-! ### Runs -/

/-- An address was paused with success at some point of a run, and was not resumed with success since. -/
def StandingPause (address : String) (persist : Bool) (actions : List Action) : Prop :=
  ∃ before after, actions = before ++ .pauseAddress address persist :: after ∧
    ((run before).pauseAddress address persist).1 = .ok () ∧
    ∀ earlier later, after = earlier ++ .resumeAddress address :: later →
      ((run (before ++ .pauseAddress address persist :: earlier)).resumeAddress address).1 ≠ .ok ()

/-- A list with one more member at its end is split at that member or before it. -/
theorem append_singleton_eq_iff {α : Type} {members before after : List α} {last split : α} :
    members ++ [last] = before ++ split :: after ↔
      (members = before ∧ last = split ∧ after = []) ∨
        ∃ rest, members = before ++ split :: rest ∧ after = rest ++ [last] := by
  constructor
  · intro h
    rcases List.eq_nil_or_concat after with rfl | ⟨rest, other, rfl⟩
    · obtain ⟨hmembers, hlast⟩ := List.append_inj' h rfl
      exact Or.inl ⟨hmembers, List.singleton_inj.mp hlast, rfl⟩
    · have h : members ++ [last] = (before ++ split :: rest) ++ [other] := by simpa using h
      obtain ⟨hmembers, hlast⟩ := List.append_inj' h rfl
      exact Or.inr ⟨rest, hmembers, by rw [hlast, List.concat_eq_append]⟩
  · rintro (⟨rfl, rfl, rfl⟩ | ⟨rest, rfl, rfl⟩)
    · rfl
    · simp

/-- A pause stands after one more action just when the action is that pause, or when it stood before and the
action does not resume the address. -/
theorem standingPause_concat (address : String) (persist : Bool) (actions : List Action)
    (action : Action) :
    StandingPause address persist (actions ++ [action]) ↔
      (run actions).Pauses address persist action ∨
        StandingPause address persist actions ∧ ¬ (run actions).Resumes address action := by
  constructor
  · rintro ⟨before, after, hsplit, hok, hsince⟩
    rcases append_singleton_eq_iff.mp hsplit with ⟨rfl, rfl, rfl⟩ | ⟨rest, rfl, rfl⟩
    · exact Or.inl ⟨rfl, hok⟩
    · refine Or.inr ⟨⟨before, rest, rfl, hok, fun earlier later hrest => ?_⟩, ?_⟩
      · exact hsince earlier (later ++ [action]) (by simp [hrest])
      · rintro ⟨rfl, hresumed⟩
        exact hsince rest [] rfl hresumed
  · rintro (⟨rfl, hok⟩ | ⟨⟨before, after, rfl, hok, hsince⟩, hstays⟩)
    · exact ⟨actions, [], rfl, hok, by simp⟩
    · refine ⟨before, after ++ [action], by simp, hok, fun earlier later hafter => ?_⟩
      rcases append_singleton_eq_iff.mp hafter with ⟨rfl, rfl, -⟩ | ⟨rest, rfl, -⟩
      · exact fun hresumed => hstays ⟨rfl, hresumed⟩
      · exact hsince earlier rest rfl

/-- An address is paused just when a pause stands, and the pause outlives the broker just when one stands
that was asked to. -/
theorem pauseState_run (actions : List Action) (address : String) :
    ((run actions).pauseState address ≠ none ↔ ∃ persist, StandingPause address persist actions) ∧
      ((run actions).pauseState address = some true ↔ StandingPause address true actions) := by
  -- from the end, because what stands depends on the actions that come after
  induction actions using List.reverseRecOn with
  | nil => simp [run, performAll, start, pauseState, StandingPause]
  | append_singleton actions action ih =>
    obtain ⟨ihpaused, ihpersisted⟩ := ih
    simp only [standingPause_concat]
    rw [run_concat]
    by_cases hpauses : ∃ persist, (run actions).Pauses address persist action
    · obtain ⟨persist, hpauses⟩ := hpauses
      have hold : ((run actions).pauseState address).getD false = true ↔
          (run actions).pauseState address = some true := by
        cases (run actions).pauseState address <;> simp
      rw [hpauses.pauseState]
      refine ⟨iff_of_true (by simp) ⟨persist, Or.inl hpauses⟩, ?_⟩
      rw [Option.some.injEq, Bool.or_eq_true, hold, ihpersisted, hpauses.pauses_iff,
        and_iff_left hpauses.not_resumes, eq_comm]
    by_cases hresumes : (run actions).Resumes address action
    · have hnone : ∀ persist, ¬ ((run actions).Pauses address persist action ∨
          StandingPause address persist actions ∧ ¬ (run actions).Resumes address action) := by
        rintro persist (hpauses' | ⟨-, hstays⟩)
        · exact hpauses ⟨persist, hpauses'⟩
        · exact hstays hresumes
      rw [hresumes.pauseState]
      exact ⟨iff_of_false (by simp) (not_exists.mpr hnone), iff_of_false (by simp) (hnone true)⟩
    have hsame : ∀ persist, ((run actions).Pauses address persist action ∨
        StandingPause address persist actions ∧ ¬ (run actions).Resumes address action) ↔
          StandingPause address persist actions := by
      intro persist
      rw [or_iff_right (not_exists.mp hpauses persist), and_iff_left hresumes]
    simp only [hsame]
    rw [pauseState_perform (not_exists.mp hpauses) hresumes]
    exact ⟨ihpaused, ihpersisted⟩

/-- The pause of an address after a run: the address is paused just when some pause succeeded and was not
followed by a resumption that did, and the pause outlives the broker just when one of those pauses was
asked to. While the address is paused, receiving from a queue that is bound to it gives nothing and changes
nothing. -/
theorem run_pauses (actions : List Action) (address : String) :
    ((run actions).pauseState address ≠ none ↔ ∃ persist, StandingPause address persist actions) ∧
      ((run actions).pauseState address = some true ↔ StandingPause address true actions) ∧
      ((run actions).pauseState address ≠ none →
        ∀ name, (run actions).Binds address name → (run actions).receive name = (.ok none, run actions)) := by
  obtain ⟨hpaused, hpersisted⟩ := pauseState_run actions address
  exact ⟨hpaused, hpersisted, fun h name hbinds => receive_of_paused hbinds h⟩

/-- A pause that outlives the broker stands through a later one that does not, and through the end of the
only queue of its address; the next queue of the address is paused too. -/
theorem run_pauses_new_queue :
    let actions : List Action := [.createQueue "t" "q" {}, .pauseAddress "t" true,
      .pauseAddress "t" false, .destroyQueue "q" true, .createQueue "t" "r" {},
      .send "t" (.ofBody "text" 0)]
    StandingPause "t" true actions ∧ (run actions).receive "r" = (.ok none, run actions) := by
  intro actions
  obtain ⟨-, hpersisted, hreceive⟩ := run_pauses actions "t"
  have hpaused : (run actions).pauseState "t" = some true := by decide +kernel
  have hbinds : (run actions).Binds "t" "r" :=
    ⟨⟨"t", {}, [{ Message.ofBody "text" 0 with id := 1 }], [], []⟩, by rfl, rfl⟩
  exact ⟨hpersisted.mp hpaused, hreceive (by simp [hpaused]) "r" hbinds⟩

end Broker

end BrokerAdmin
