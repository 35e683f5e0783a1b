/-
This file is about the outbound manager: `Create` and `Remove` on a manager without a
configured default tag. Both change the list, the map, the default outbound and the
table of dependents one after the other, and may return an error in between.
-/

import SingBox.Machine
import SingBox.Registry

namespace SingBox.OutboundManager

open Machine

/-- An `adapter.Outbound`. -/
abbrev Outbound := Item String

/-- A `Manager`. The outbounds that the registry has made are numbered. -/
structure Manager where
  started : Bool
  registry : Registry String := {}
  defaultOutbound : Option Outbound := none
  created : Nat := 0

inductive Error where
  | invalid
  | create
  | start
  | close
  | depended (tag : String) (dependBy : List String)
  | invalidIndex
  deriving DecidableEq

/-- The calls, with what `CreateOutbound` makes of the options, and whether `Start` of the new
outbound and `Close` of the old one fail. -/
inductive Call where
  | create (tag : String) (dependencies : Option (List String)) (startFails closeFails : Bool)
  | remove (tag : String) (closeFails : Bool)

namespace Manager

variable (manager : Manager)

/-- The end of `Create`. -/
def enter (registry : Registry String) (outbound : Outbound) : Manager :=
  { manager with
    registry := registry.enter outbound
    defaultOutbound := manager.defaultOutbound.or (some outbound)
    created := manager.created + 1 }

/-- `Create`. -/
def create (tag : String) (dependencies : Option (List String)) (startFails closeFails : Bool) :
    Manager × Option Error :=
  if tag = "" then (manager, some .invalid)
  else
    match dependencies with
    | none => (manager, some .create)
    | some dependencies =>
      let outbound : Outbound := ⟨manager.created, tag, dependencies⟩
      if manager.started ∧ startFails then (manager, some .start)
      else
        match manager.registry.byTag tag with
        | none => (manager.enter manager.registry outbound, none)
        | some existsOutbound =>
          if manager.started ∧ closeFails then (manager, some .close)
          else if existsOutbound ∉ manager.registry.items then (manager, some .invalidIndex)
          else (manager.enter (manager.registry.unlist existsOutbound) outbound, none)

/-- `Remove`. -/
def remove (tag : String) (closeFails : Bool) : Manager × Option Error :=
  match manager.registry.byTag tag with
  | none => (manager, some .invalid)
  | some outbound =>
    let dropped := manager.registry.drop outbound tag
    if outbound ∉ manager.registry.items then
      ({ manager with registry := { dropped with items := manager.registry.items } },
        some .invalidIndex)
    else
      let manager := { manager with
        registry := dropped
        defaultOutbound := if manager.defaultOutbound = some outbound then dropped.items.head?
          else manager.defaultOutbound }
      if dropped.dependBy tag ≠ [] then
        (manager, some (.depended tag (dropped.dependBy tag)))
      else
        ({ manager with registry := dropped.release outbound },
          if manager.started ∧ closeFails then some .close else none)

def call : Call → Manager × Option Error
  | .create tag dependencies startFails closeFails =>
    manager.create tag dependencies startFails closeFails
  | .remove tag closeFails => manager.remove tag closeFails

def step (call : Call) : Manager := (manager.call call).1

/-- An outbound that is removed has no dependents and closes without an error; one that is replaced
depends on nothing and is not the default; and nothing depends on a tag twice. -/
def Orderly : Call → Prop
  | .create tag dependencies _ _ => ∀ new, dependencies = some new → new.Nodup ∧
    ∀ old, manager.registry.byTag tag = some old →
      old.dependencies = [] ∧ manager.defaultOutbound ≠ some old
  | .remove tag closeFails => ∀ old, manager.registry.byTag tag = some old →
    manager.registry.dependBy tag = [] ∧ (manager.started = true → closeFails = false)

instance (call : Call) : Decidable (manager.Orderly call) := by
  cases call <;> unfold Orderly <;> infer_instance

/-- The four structures agree. -/
structure Consistent : Prop where
  registry : manager.registry.Sound
  listed : ∀ outbound, manager.defaultOutbound = some outbound → outbound ∈ manager.registry.items

variable {manager}

theorem Consistent.enter {registry : Registry String} {outbound : Outbound}
    (sound : (registry.enter outbound).Sound)
    (kept : ∀ other, manager.defaultOutbound = some other → other ∈ registry.items) :
    (manager.enter registry outbound).Consistent := by
  refine ⟨sound, fun other isDefault => ?_⟩
  rcases Option.or_eq_some_iff.mp isDefault with before | ⟨-, new⟩
  · exact List.mem_append_left _ (kept other before)
  · exact List.mem_append_right _ (List.mem_singleton.mpr (Option.some.inj new).symm)

theorem Consistent.step (consistent : manager.Consistent) (call : Call)
    (orderly : manager.Orderly call) : (manager.step call).Consistent ∧
      ((manager.call call).2 ≠ none → manager.step call = manager) := by
  have ⟨sound, listed⟩ := consistent
  have same {error : Prop} : manager.Consistent ∧ (error → manager = manager) :=
    ⟨consistent, fun _ => rfl⟩
  cases call with
  | create tag dependencies startFails closeFails =>
    simp only [Manager.step, Manager.call, Manager.create]
    split
    · exact same
    cases dependencies with
    | none => exact same
    | some new =>
      obtain ⟨nodup, replaces⟩ := orderly new rfl
      dsimp only
      split
      · exact same
      cases found : manager.registry.byTag tag with
      | none =>
        refine ⟨.enter (sound.enter (fun other member equal => ?_) nodup) listed, nofun⟩
        exact nomatch found.symm.trans ((sound.byTag tag other).mpr ⟨member, equal⟩)
      | some old =>
        obtain ⟨free, other⟩ := replaces old found
        obtain ⟨member, equal⟩ := (sound.byTag tag old).mp found
        dsimp only
        split
        · exact same
        refine ⟨.enter (sound.replace member equal free nodup) fun outbound isDefault => ?_, nofun⟩
        refine (List.mem_erase_of_ne ?_).mpr (listed outbound isDefault)
        exact fun isOld => other (isOld ▸ isDefault)
  | remove tag closeFails =>
    simp only [Manager.step, Manager.call, Manager.remove]
    cases found : manager.registry.byTag tag with
    | none => exact same
    | some outbound =>
      obtain ⟨free, closes⟩ := orderly outbound found
      obtain ⟨member, rfl⟩ := (sound.byTag tag outbound).mp found
      dsimp only
      have nobody : ¬(manager.registry.drop outbound outbound.tag).dependBy outbound.tag ≠ [] :=
        not_not.mpr free
      have closed : ¬(manager.started = true ∧ closeFails = true) := by grind
      rw [if_neg (not_not.mpr member), if_neg nobody, if_neg closed]
      refine ⟨⟨sound.drop_release member, fun other isDefault => ?_⟩, nofun⟩
      dsimp only at isDefault
      split at isDefault
      · exact List.mem_of_mem_head? isDefault
      next different =>
        refine (List.mem_erase_of_ne ?_).mpr (listed other isDefault)
        exact fun isOld => different (isOld ▸ isDefault)

end Manager

/-- The manager after some calls. -/
def run (started : Bool) (calls : List Call) : Manager := drive Manager.step { started } calls

/-- Along every run in which an outbound is removed only when nothing depends on it and it closes
without an error, and replaced only when it depends on nothing and is not the default: list, map,
default and dependents agree, and a call that returns an error changes nothing. -/
theorem manager_consistent (started : Bool) (calls : List Call)
    (orderly : Meets Manager.step Manager.Orderly { started } calls) :
    (run started calls).Consistent ∧ ∀ call, (run started calls).Orderly call →
      ((run started calls).call call).2 ≠ none →
        (run started calls).step call = run started calls := by
  have consistent : (run started calls).Consistent := by
    refine invariant_drive Manager.Consistent ⟨⟨List.nodup_nil, ?_, ?_, ?_, ?_⟩, ?_⟩
      (fun _ call consistent met => (consistent.step call met).1) orderly <;> simp
  exact ⟨consistent, fun call met => (consistent.step call met).2⟩

/-- Two outbounds, one of which depends on the other, removed in the right order. -/
theorem manager_consistent_removed :
    (run true [.create "a" (some []) false false, .create "b" (some ["a"]) false false,
      .remove "b" false, .remove "a" false]).Consistent :=
  (manager_consistent true _ (by decide)).1

/-- An outbound on which another one depends is gone although `Remove` returns an error; a default
outbound that is replaced stays the default. -/
theorem depended_removed :
    let depended :=
      run true [.create "a" (some []) false false, .create "b" (some ["a"]) false false]
    let replaced := run true [.create "a" (some []) false false, .create "a" (some []) false false]
    (depended.call (.remove "a" false)).2 = some (.depended "a" ["b"]) ∧
      (depended.step (.remove "a" false)).registry.items ≠ depended.registry.items ∧
      replaced.defaultOutbound = some ⟨0, "a", []⟩ ∧ ⟨0, "a", []⟩ ∉ replaced.registry.items := by
  decide

end SingBox.OutboundManager
