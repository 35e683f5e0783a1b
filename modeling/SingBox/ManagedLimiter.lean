/-
This file is about the limiters whose users a manager controls. A connection is admitted in two
critical sections, one that looks for the strategy of its user and one that registers the
connection. An update that removes the user between them does not see the connection.
-/

import SingBox.Log
import SingBox.Machine

namespace SingBox.ManagedLimiter

open Machine List Log

/-- A connection request has found a strategy, the strategy has admitted it, its connection is
registered and open, or it has ended. -/
inductive Phase where
  | found
  | admitted
  | opened
  | ended
deriving DecidableEq

structure Request where
  user : String
  phase : Phase := .found
  cancelled : Bool := false

/-- A call of `UpdateStrategies`, with the entries that it has still to cancel. Once it has
returned, it knows how many requests had begun by then. -/
structure Update where
  users : List String
  entries : List Nat
  returned : Option Nat := none

/-- A `ManagerConnectionStrategy` with the requests and the updates. The sections of
`ManagerTrafficStrategy` and `ManagerBandwidthStrategy` are the same, with `conns` in the place of
`cancels`: their entries are connections, which are closed. -/
structure ManagerStrategy where
  strategies : List String := []
  cancels : List (String × Nat) := []
  requests : List Request := []
  updates : List Update := []

/-- A critical section, the answer of the strategy of the user, which may refuse a request, or the
cancelling of one entry. -/
inductive Event where
  | request (user : String)
  | answer (place : Nat) (admitted : Bool)
  | register (place : Nat)
  | close (place : Nat)
  | updateStrategies (users : List String)
  | cancel (place : Nat)

namespace ManagerStrategy

variable (manager : ManagerStrategy)

def step : Event → ManagerStrategy
  | .request user =>
    if user ∈ manager.strategies then
      { manager with requests := manager.requests ++ [{ user }] }
    else manager
  | .answer place admitted =>
    match manager.requests[place]? with
    | some ⟨user, .found, cancelled⟩ =>
      let phase := if admitted then .admitted else .ended
      { manager with requests := manager.requests.set place ⟨user, phase, cancelled⟩ }
    | _ => manager
  | .register place =>
    match manager.requests[place]? with
    | some ⟨user, .admitted, cancelled⟩ =>
      { manager with
        requests := manager.requests.set place ⟨user, .opened, cancelled⟩
        cancels := manager.cancels ++ [(user, place)] }
    | _ => manager
  | .close place =>
    match manager.requests[place]? with
    | some ⟨user, .opened, cancelled⟩ =>
      { manager with
        requests := manager.requests.set place ⟨user, .ended, cancelled⟩
        cancels := manager.cancels.erase (user, place) }
    | _ => manager
  | .updateStrategies users =>
    { manager with
      strategies := users
      cancels := manager.cancels.filter (·.1 ∈ users)
      updates := manager.updates ++
        [{ users, entries := (manager.cancels.filter (·.1 ∉ users)).map Prod.snd }] }
  | .cancel place =>
    match manager.updates[place]? with
    | some ⟨users, [], none⟩ =>
      { manager with updates := manager.updates.set place ⟨users, [], manager.requests.length⟩ }
    | some ⟨users, entry :: entries, none⟩ =>
      { manager with
        requests := manager.requests.modify entry ({ · with cancelled := true })
        updates := manager.updates.set place ⟨users, entries, none⟩ }
    | _ => manager

/-- A request is registered only if no update that had not returned when it began removes its user,
and an update begins only when the others have returned. -/
def Orderly : Event → Prop
  | .register place => ∀ request ∈ manager.requests[place]?, ∀ update ∈ manager.updates,
    request.user ∈ update.users ∨ ∃ count ∈ update.returned, count ≤ place
  | .updateStrategies _ => ∀ update ∈ manager.updates, update.returned ≠ none
  | .request _ | .answer _ _ | .close _ | .cancel _ => True

/-- After an update has returned, the open connections of other users that had begun by then have
been cancelled. -/
def Removed : Prop :=
  ∀ update ∈ manager.updates, ∀ count ∈ update.returned, ∀ place request,
    manager.requests[place]? = some request → place < count → request.phase = .opened →
      request.user ∉ update.users → request.cancelled = true

/-- An open connection is registered or about to be cancelled, and an update has cancelled the
connections of other users or is about to. -/
structure Sound : Prop where
  idle : ∀ (index : Nat) update, manager.updates[index]? = some update →
    update.returned ≠ none → update.entries = []
  kept : ∀ place request, manager.requests[place]? = some request → request.phase = .opened →
    request.cancelled = false → (request.user, place) ∈ manager.cancels ∨
      ∃ (index : Nat) (update : Update), manager.updates[index]? = some update ∧
        place ∈ update.entries
  removed : ∀ (index : Nat) update, manager.updates[index]? = some update → ∀ place request,
    manager.requests[place]? = some request → request.phase = .opened →
      request.user ∉ update.users → request.cancelled = true ∨ place ∈ update.entries ∨
        ∃ count ∈ update.returned, count ≤ place

variable {manager}

/-- Requests may change as long as no connection is opened. -/
theorem Sound.of_opened (sound : manager.Sound) {requests : List Request}
    (opened : ∀ (place : Nat) request, requests[place]? = some request →
      request.phase = .opened → manager.requests[place]? = some request) :
    { manager with requests }.Sound where
  idle := sound.idle
  kept place request found isOpen :=
    sound.kept place request (opened place request found isOpen) isOpen
  removed index update listed place request found isOpen :=
    sound.removed index update listed place request (opened place request found isOpen) isOpen

/-- A connection is registered that no update has to cancel any more. -/
theorem Sound.register (sound : manager.Sound) {place : Nat} {user : String} (cancelled : Bool)
    (free : ∀ update ∈ manager.updates,
      user ∈ update.users ∨ ∃ count ∈ update.returned, count ≤ place) :
    { manager with
      requests := manager.requests.set place ⟨user, .opened, cancelled⟩
      cancels := manager.cancels ++ [(user, place)] }.Sound where
  idle := sound.idle
  kept other request found isOpen uncancelled := by
    rcases set_cases found with ⟨rfl, rfl⟩ | ⟨-, before⟩
    · exact .inl (mem_append_right _ mem_cons_self)
    · exact (sound.kept other request before isOpen uncancelled).imp_left (mem_append_left _)
  removed index update listed other request found isOpen absent := by
    rcases set_cases found with ⟨rfl, rfl⟩ | ⟨-, before⟩
    · exact .inr (.inr ((free update (mem_of_getElem? listed)).resolve_left absent))
    · exact sound.removed index update listed other request before isOpen absent

/-- A connection is closed, and its entry is gone. -/
theorem Sound.close (sound : manager.Sound) (place : Nat) (user : String) (cancelled : Bool) :
    { manager with
      requests := manager.requests.set place ⟨user, .ended, cancelled⟩
      cancels := manager.cancels.erase (user, place) }.Sound where
  idle := sound.idle
  kept other request found isOpen uncancelled := by
    rcases set_cases found with ⟨rfl, rfl⟩ | ⟨different, before⟩
    · cases isOpen
    · refine (sound.kept other request before isOpen uncancelled).imp_left fun member => ?_
      exact (mem_erase_of_ne fun same => different (congrArg Prod.snd same)).mpr member
  removed index update listed other request found isOpen := by
    rcases set_cases found with ⟨rfl, rfl⟩ | ⟨-, before⟩
    · cases isOpen
    · exact sound.removed index update listed other request before isOpen

/-- An update begins: it takes the entries of the users that it does not have. -/
theorem Sound.updateStrategies (sound : manager.Sound) (users : List String)
    (others : ∀ update ∈ manager.updates, update.returned ≠ none) :
    (manager.step (.updateStrategies users)).Sound := by
  have registered : ∀ place request, manager.requests[place]? = some request →
      request.phase = .opened → request.cancelled = false →
        (request.user, place) ∈ manager.cancels := by
    intro place request found isOpen uncancelled
    refine (sound.kept place request found isOpen uncancelled).resolve_right ?_
    rintro ⟨index, update, listed, pending⟩
    rw [sound.idle index update listed (others update (mem_of_getElem? listed))] at pending
    exact not_mem_nil pending
  have taken : ∀ user place, (user, place) ∈ manager.cancels → user ∉ users →
      place ∈ (manager.cancels.filter (·.1 ∉ users)).map Prod.snd := by
    intro user place member removed
    exact mem_map.mpr ⟨_, mem_filter.mpr ⟨member, decide_eq_true removed⟩, rfl⟩
  refine ⟨fun index update listed returned => ?_, fun place request found isOpen uncancelled => ?_,
    fun index update listed place request found isOpen other => ?_⟩
  · rcases snoc_cases listed with before | ⟨-, rfl⟩
    · exact sound.idle index update before returned
    · exact absurd rfl returned
  · have member := registered place request found isOpen uncancelled
    by_cases present : request.user ∈ users
    · exact .inl (mem_filter.mpr ⟨member, decide_eq_true present⟩)
    · exact .inr ⟨_, _, getElem?_concat_length, taken _ _ member present⟩
  · rcases snoc_cases listed with before | ⟨-, rfl⟩
    · exact sound.removed index update before place request found isOpen other
    · cases cancelled : request.cancelled with
      | true => exact .inl rfl
      | false =>
        exact .inr (.inl (taken _ _ (registered place request found isOpen cancelled) other))

/-- What is about to be cancelled is so after a change of an update that has it still. -/
theorem pending_set {updates : List Update} {place entry : Nat} {old new : Update}
    (listed : updates[place]? = some old) (still : entry ∈ old.entries → entry ∈ new.entries)
    (pending : ∃ (index : Nat) (update : Update), updates[index]? = some update ∧
      entry ∈ update.entries) :
    ∃ (index : Nat) (update : Update), (updates.set place new)[index]? = some update ∧
      entry ∈ update.entries := by
  obtain ⟨index, update, found, member⟩ := pending
  by_cases same : place = index
  · subst same
    cases listed.symm.trans found
    exact ⟨place, new, getElem?_set_self (lt_length listed), still member⟩
  · exact ⟨index, update, (getElem?_set_ne same).trans found, member⟩

/-- After the cancelling of an entry, a request is cancelled or it is another one. -/
theorem modify_cases {requests : List Request} {entry place : Nat} {request : Request}
    (found : (requests.modify entry ({ · with cancelled := true }))[place]? = some request) :
    request.cancelled = true ∨ place ≠ entry ∧ requests[place]? = some request := by
  rw [getElem?_modify] at found
  obtain ⟨before, listed, rfl⟩ := Option.map_eq_some_iff.mp found
  by_cases same : entry = place
  · exact .inl (by rw [if_pos same])
  · rw [if_neg same]
    exact .inr ⟨Ne.symm same, listed⟩

section Cancel

variable (sound : manager.Sound) {place : Nat} {users : List String}

include sound

/-- An update without further entries returns. -/
theorem Sound.returns (listed : manager.updates[place]? = some ⟨users, [], none⟩) (count : Nat) :
    { manager with updates := manager.updates.set place ⟨users, [], some count⟩ }.Sound where
  idle index update found returned := by
    rcases set_cases found with ⟨-, rfl⟩ | ⟨-, before⟩
    · rfl
    · exact sound.idle index update before returned
  kept other request found isOpen uncancelled :=
    (sound.kept other request found isOpen uncancelled).imp_right (pending_set listed id)
  removed index update changed other request found isOpen absent := by
    rcases set_cases changed with ⟨-, rfl⟩ | ⟨-, before⟩
    · rcases sound.removed place _ listed other request found isOpen absent with
        cancelled | pending | ⟨bound, returned, -⟩
      · exact .inl cancelled
      · cases pending
      · cases returned
    · exact sound.removed index update before other request found isOpen absent

/-- An update cancels its next entry. -/
theorem Sound.cancels {entry : Nat} {entries : List Nat}
    (listed : manager.updates[place]? = some ⟨users, entry :: entries, none⟩) :
    { manager with
      requests := manager.requests.modify entry ({ · with cancelled := true })
      updates := manager.updates.set place ⟨users, entries, none⟩ }.Sound where
  idle index update found returned := by
    rcases set_cases found with ⟨-, rfl⟩ | ⟨-, before⟩
    · exact absurd rfl returned
    · exact sound.idle index update before returned
  kept other request found isOpen uncancelled := by
    rcases modify_cases found with cancelled | ⟨different, before⟩
    · cases uncancelled.symm.trans cancelled
    · refine (sound.kept other request before isOpen uncancelled).imp_right
        (pending_set listed fun member => ?_)
      exact (mem_cons.mp member).resolve_left different
  removed index update changed other request found isOpen absent := by
    rcases modify_cases found with cancelled | ⟨different, before⟩
    · exact .inl cancelled
    rcases set_cases changed with ⟨-, rfl⟩ | ⟨-, old⟩
    · refine (sound.removed place _ listed other request before isOpen absent).imp_right
        (Or.imp_left fun member => ?_)
      exact (mem_cons.mp member).resolve_left different
    · exact sound.removed index update old other request before isOpen absent

end Cancel

theorem sound_step (sound : manager.Sound) (event : Event) (orderly : manager.Orderly event) :
    (manager.step event).Sound := by
  cases event with
  | request user =>
    simp only [step]
    split
    · refine sound.of_opened fun place request found isOpen => ?_
      rcases snoc_cases found with before | ⟨-, rfl⟩
      · exact before
      · cases isOpen
    · exact sound
  | answer place admitted =>
    simp only [step]
    split
    · refine sound.of_opened fun other request found isOpen => ?_
      rcases set_cases found with ⟨-, rfl⟩ | ⟨-, before⟩
      · cases admitted <;> cases isOpen
      · exact before
    · exact sound
  | register place =>
    simp only [step]
    split
    next user cancelled found => exact sound.register cancelled (orderly _ found)
    · exact sound
  | close place =>
    simp only [step]
    split
    · exact sound.close ..
    · exact sound
  | updateStrategies users => exact sound.updateStrategies users orderly
  | cancel place =>
    simp only [step]
    split
    next listed => exact sound.returns listed _
    next listed => exact sound.cancels listed
    · exact sound

/-- Along every orderly run, an update that has returned has removed the connections of the users
that it does not have. -/
theorem users_removed {events : List Event} (orderly : Meets step Orderly {} events) :
    (drive step {} events).Removed := by
  have sound := invariant_drive Sound ⟨by simp, by simp, by simp⟩
    (fun _ event sound => sound_step sound event) orderly
  intro update member count returned place request found earlier isOpen other
  obtain ⟨index, listed⟩ := mem_iff_getElem?.mp member
  rw [Option.mem_def] at returned
  have removed := sound.removed index update listed place request found isOpen other
  simp only [sound.idle index update listed (by simp [returned]), returned, not_mem_nil, false_or,
    Option.mem_some_iff, exists_eq_left'] at removed
  exact removed.resolve_right (Nat.not_le.mpr earlier)

instance (manager : ManagerStrategy) (event : Event) : Decidable (manager.Orderly event) := by
  cases event <;> unfold Orderly <;> infer_instance

/-- One of two users is removed while both have a connection. -/
theorem users_removed_one : (drive step {} [.updateStrategies ["a", "b"], .cancel 0, .request "a",
    .request "b", .answer 0 true, .answer 1 true, .register 0, .register 1, .updateStrategies ["b"],
    .cancel 1, .cancel 1]).Removed :=
  users_removed (by decide)

/-- A user is removed after a request was admitted and before it is registered: the connection
stays open. -/
theorem late_stays : ¬(drive step {} [.updateStrategies ["a"], .cancel 0, .request "a",
    .answer 0 true, .updateStrategies [], .cancel 1, .register 0]).Removed := by
  intro removed
  exact absurd (removed ⟨[], [], some 1⟩ (by simp [drive, step]) 1 rfl 0 ⟨"a", .opened, false⟩ rfl
    (by decide) rfl nofun) (by decide)

end ManagerStrategy

end SingBox.ManagedLimiter
