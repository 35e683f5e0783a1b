/-
This file is about finite tables from keys to values, each key at most once. A
table lists its entries, so its entries can be counted; the rules say what setting
and erasing a key do to the other keys and to a count.
-/

import Mathlib.Data.List.Nodup

/-- A finite table; no key has two entries. -/
@[ext] structure Table (Key Value : Type) where
  entries : List (Key × Value)
  distinct : (entries.map Prod.fst).Nodup

namespace Table

open List Option

variable {Key Value : Type}

instance [DecidableEq Key] [DecidableEq Value] : DecidableEq (Table Key Value) :=
  fun first second =>
  decidable_of_iff (first.entries = second.entries)
    ⟨fun equal => Table.ext equal, fun equal => equal ▸ rfl⟩

def empty : Table Key Value := ⟨[], List.nodup_nil⟩

theorem distinct_filter (table : Table Key Value) (keep : Key × Value → Bool) :
    ((table.entries.filter keep).map Prod.fst).Nodup :=
  table.distinct.sublist (filter_sublist.map Prod.fst)

theorem nodup_entries (table : Table Key Value) : table.entries.Nodup :=
  List.Nodup.of_map _ table.distinct

variable [DecidableEq Key] (table : Table Key Value) (key : Key) (value : Value)

def find? : Option Value := (table.entries.find? fun entry => entry.1 = key).map Prod.snd

def erase : Table Key Value :=
  ⟨table.entries.filter fun entry => entry.1 ≠ key, distinct_filter _ _⟩

def set : Table Key Value where
  entries := (key, value) :: (table.erase key).entries
  distinct := by
    refine List.nodup_cons.mpr ⟨fun listed => ?_, (table.erase key).distinct⟩
    obtain ⟨entry, member, equal⟩ := List.mem_map.mp listed
    exact absurd equal (of_decide_eq_true (List.mem_filter.mp member).2)

def count (counted : Key × Value → Bool) : Nat := table.entries.countP counted

variable {table key value}

/-- Reading a key and listing the entries are the same. -/
theorem find?_eq_some_iff : table.find? key = some value ↔ (key, value) ∈ table.entries := by
  unfold find?
  constructor
  · intro found
    obtain ⟨entry, first, rfl⟩ := map_eq_some_iff.mp found
    have same : entry.1 = key := by simpa using find?_some first
    rw [← same]
    exact mem_of_find?_eq_some first
  · intro member
    cases first : table.entries.find? fun entry => entry.1 = key with
    | none => exact absurd (decide_eq_true rfl) (find?_eq_none.mp first _ member)
    | some entry =>
      have same : entry.1 = key := by simpa using find?_some first
      have equal : entry = (key, value) :=
        inj_on_of_nodup_map table.distinct (mem_of_find?_eq_some first) member same
      rw [equal]
      rfl

theorem find?_eq_none_iff : table.find? key = none ↔ ∀ entry ∈ table.entries, entry.1 ≠ key := by
  unfold find?
  rw [map_eq_none_iff, find?_eq_none]
  exact forall₂_congr fun entry _ => by rw [decide_eq_true_iff]

@[simp] theorem find?_empty (key : Key) : (empty : Table Key Value).find? key = none := rfl

variable {entry : Key × Value} {other : Key}

theorem mem_erase : entry ∈ (table.erase key).entries ↔ entry ∈ table.entries ∧ entry.1 ≠ key := by
  show entry ∈ table.entries.filter _ ↔ _
  rw [mem_filter, decide_eq_true_iff]

theorem mem_set : entry ∈ (table.set key value).entries ↔
      entry = (key, value) ∨ (entry ∈ table.entries ∧ entry.1 ≠ key) := by
  show entry ∈ (key, value) :: (table.erase key).entries ↔ _
  rw [mem_cons, mem_erase]

theorem find?_erase_ne (ne : other ≠ key) : (table.erase key).find? other = table.find? other := by
  ext found
  rw [find?_eq_some_iff, find?_eq_some_iff, mem_erase]
  exact ⟨fun kept => kept.1, fun member => ⟨member, ne⟩⟩

/-- What is left after erasing a key was there before, under another key. -/
theorem find?_erase_some {found : Value} (left : (table.erase key).find? other = some found) :
    other ≠ key ∧ table.find? other = some found := by
  rw [find?_eq_some_iff] at left ⊢
  exact ⟨(mem_erase.mp left).2, (mem_erase.mp left).1⟩

@[simp] theorem find?_set_self (table : Table Key Value) (key : Key) (value : Value) :
    (table.set key value).find? key = some value :=
  find?_eq_some_iff.mpr (mem_set.mpr (.inl rfl))

theorem find?_set_ne (ne : other ≠ key) :
    (table.set key value).find? other = table.find? other := by
  ext found
  rw [find?_eq_some_iff, find?_eq_some_iff, mem_set]
  constructor
  · rintro (equal | kept)
    · exact absurd (congrArg Prod.fst equal) ne
    · exact kept.1
  · exact fun member => .inr ⟨member, ne⟩

/-- An entry of a table in which a key was set is the new one, or has another key. -/
theorem find?_set_some {found : Value} (listed : (table.set key value).find? other = some found) :
    (other = key ∧ found = value) ∨ (other ≠ key ∧ table.find? other = some found) := by
  by_cases same : other = key
  · subst same
    rw [find?_set_self] at listed
    exact .inl ⟨rfl, (some.inj listed).symm⟩
  · rw [find?_set_ne same] at listed
    exact .inr ⟨same, listed⟩

/-! ### Counting entries -/

theorem erase_of_none (absent : table.find? key = none) : table.erase key = table :=
  Table.ext (filter_eq_self.mpr fun entry member =>
    decide_eq_true (find?_eq_none_iff.mp absent entry member))

theorem erase_set (absent : table.find? key = none) : (table.set key value).erase key = table := by
  refine Table.ext ?_
  show ((key, value) :: (table.erase key).entries).filter (fun entry => entry.1 ≠ key) = _
  rw [filter_cons_of_neg (by simp), erase_of_none absent]
  exact congrArg entries (erase_of_none absent)

/-- The entry of a key, and the entries of the other keys. -/
theorem perm_set (present : table.find? key = some value) :
    table.entries.Perm (table.set key value).entries := by
  have member := find?_eq_some_iff.mp present
  refine (perm_ext_iff_of_nodup (nodup_entries _) (nodup_entries _)).mpr fun entry => ?_
  rw [mem_set]
  constructor
  · intro listed
    by_cases same : entry.1 = key
    · exact .inl (inj_on_of_nodup_map table.distinct listed member same)
    · exact .inr ⟨listed, same⟩
  · rintro (rfl | kept)
    · exact member
    · exact kept.1

/-- Erasing a key takes its entry from a count. -/
theorem count_erase (counted : Key × Value → Bool) (present : table.find? key = some value) :
    table.count counted =
      (table.erase key).count counted + (if counted (key, value) then 1 else 0) := by
  refine ((perm_set present).countP_eq counted).trans ?_
  exact countP_cons

/-- Setting a new key adds its entry to a count. -/
theorem count_set (counted : Key × Value → Bool) (absent : table.find? key = none) :
    (table.set key value).count counted =
      table.count counted + (if counted (key, value) then 1 else 0) := by
  show ((key, value) :: (table.erase key).entries).countP counted = _
  rw [erase_of_none absent, countP_cons]
  rfl

end Table
