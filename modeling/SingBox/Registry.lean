/-
This file is about registries of tagged items that depend on each other: a list of the
items, a map from tags to items, and for every tag the tags of the items that depend on
it. Items are told apart by their number, as objects are by their address.
-/

import Mathlib.Data.List.Nodup
import Mathlib.Logic.Function.Basic

structure Item (Tag : Type) where
  number : Nat
  tag : Tag
  dependencies : List Tag
  deriving DecidableEq

structure Registry (Tag : Type) where
  items : List (Item Tag) := []
  byTag : Tag → Option (Item Tag) := fun _ => none
  dependBy : Tag → List Tag := fun _ => []

namespace Registry

variable {Tag : Type} [DecidableEq Tag]

/-- Changes what stands under each of the keys, one after the other. -/
def each {Value : Type} (change : Value → Value) (table : Tag → Value) (keys : List Tag) :
    Tag → Value :=
  keys.foldl (fun table key => Function.update table key (change (table key))) table

theorem each_apply {Value : Type} (change : Value → Value) (table : Tag → Value) {keys : List Tag}
    (nodup : keys.Nodup) (key : Tag) :
    each change table keys key = if key ∈ keys then change (table key) else table key := by
  induction keys generalizing table with
  | nil => rfl
  | cons first rest ih =>
    obtain ⟨absent, nodup⟩ := List.nodup_cons.mp nodup
    show each change (Function.update table first _) rest key = _
    rw [ih _ nodup]
    grind [Function.update_apply]

variable (registry : Registry Tag) (item : Item Tag)

/-- The item is taken from the list. -/
def unlist : Registry Tag := { registry with items := registry.items.erase item }

/-- The tag is taken from the map and the item from the list. -/
def drop (tag : Tag) : Registry Tag :=
  { registry.unlist item with byTag := Function.update registry.byTag tag none }

/-- The item does not depend on anything any more. -/
def release : Registry Tag :=
  { registry with
    dependBy := each (fun dependBy => if dependBy.length = 1 then []
      else dependBy.filter (· ≠ item.tag)) registry.dependBy item.dependencies }

/-- The item is entered. -/
def enter : Registry Tag where
  items := registry.items ++ [item]
  byTag := Function.update registry.byTag item.tag (some item)
  dependBy := each (· ++ [item.tag]) registry.dependBy item.dependencies

/-- The tags are distinct, the list is the range of the map, and the dependents of a tag are listed
once each. -/
structure Sound : Prop where
  distinct : (registry.items.map Item.tag).Nodup
  byTag : ∀ tag item, registry.byTag tag = some item ↔ item ∈ registry.items ∧ item.tag = tag
  once : ∀ tag, (registry.dependBy tag).Nodup
  dependBy : ∀ tag dependent, dependent ∈ registry.dependBy tag ↔
    ∃ item ∈ registry.items, item.tag = dependent ∧ tag ∈ item.dependencies
  plain : ∀ item ∈ registry.items, item.dependencies.Nodup

variable {registry item}

theorem Sound.drop_release (sound : registry.Sound) (listed : item ∈ registry.items) :
    ((registry.drop item item.tag).release item).Sound := by
  have ⟨distinct, byTag, once, dependBy, plain⟩ := sound
  have unique : ∀ other ∈ registry.items, other.tag = item.tag → other = item :=
    fun other member same => List.inj_on_of_nodup_map distinct member listed same
  have nodup := List.Nodup.of_map _ distinct
  have erased : ∀ other, other ∈ registry.items.erase item ↔
      other ∈ registry.items ∧ other ≠ item :=
    fun other => by rw [nodup.mem_erase_iff, and_comm]
  refine ⟨distinct.sublist (List.erase_sublist.map _), fun tag other => ?_, fun tag => ?_,
    fun tag dependent => ?_, fun other member => plain other (List.mem_of_mem_erase member)⟩
  · simp only [release, drop, unlist, Function.update_apply, erased]
    grind
  · simp only [release, drop, unlist, each_apply _ _ (plain item listed)]
    grind
  · simp only [release, drop, unlist, each_apply _ _ (plain item listed), erased]
    have own : tag ∈ item.dependencies → item.tag ∈ registry.dependBy tag := fun depends =>
      (dependBy tag item.tag).mpr ⟨item, listed, rfl, depends⟩
    have single := @List.length_eq_one_iff _ (registry.dependBy tag)
    grind

/-- An item with a new tag is entered. -/
theorem Sound.enter (sound : registry.Sound)
    (fresh : ∀ other ∈ registry.items, other.tag ≠ item.tag) (nodup : item.dependencies.Nodup) : (registry.enter item).Sound := by
  have ⟨distinct, byTag, once, dependBy, plain⟩ := sound
  refine ⟨?_, fun tag other => ?_, fun tag => ?_, fun tag dependent => ?_, ?_⟩
  · simp only [Registry.enter, List.map_append, List.map_cons, List.map_nil]
    grind
  · simp only [Registry.enter, Function.update_apply]
    grind
  · simp only [Registry.enter, each_apply _ _ nodup]
    grind
  · simp only [Registry.enter, each_apply _ _ nodup]
    grind
  · simp only [Registry.enter]
    grind

/-- An item that depends on nothing is replaced. -/
theorem Sound.replace (sound : registry.Sound) {old : Item Tag} (listed : old ∈ registry.items)
    (same : old.tag = item.tag) (free : old.dependencies = []) (nodup : item.dependencies.Nodup) :
    ((registry.unlist old).enter item).Sound := by
  have fresh : ∀ other ∈ registry.items.erase old, other.tag ≠ item.tag := by
    intro other member equal
    obtain ⟨different, before⟩ := (List.Nodup.of_map _ sound.distinct).mem_erase_iff.mp member
    exact different (List.inj_on_of_nodup_map sound.distinct before listed (equal.trans same.symm))
  have entered : (((registry.drop old old.tag).release old).enter item).Sound :=
    (sound.drop_release listed).enter fresh nodup
  simp only [Registry.enter, release, drop, unlist, free, each, List.foldl_nil, same,
    Function.update_idem] at entered ⊢
  exact entered

end Registry
