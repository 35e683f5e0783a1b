/-
This file embeds what `start` of the cache file does to the buckets of its database. Inside the
bucket of a cache id, a bucket with the name of that bucket is deleted in place of an unknown one.
Which buckets an iteration visits while the callback deletes some of them is up to the database,
so the visits are an argument.
-/

import SingBox.ByteString
import SingBox.Log

namespace SingBox.CacheFile

open ByteString

def bytes (text : String) : List UInt8 := text.toList.map fun char => char.toNat.toUInt8

def bucketNameList : List (List UInt8) :=
  ["selected", "group_expand", "clash_mode", "rule_set", "rdrc2", "dns_cache"].map bytes

structure Bucket (Contents : Type) where
  name : List UInt8
  contents : Contents
  nested : List (List UInt8 × Contents)
  deriving DecidableEq

/-- A bucket that `ForEach` visits, and the names that `ForEachBucket` then visits in it. -/
structure Visit where
  name : List UInt8
  inner : List (List UInt8)

abbrev IsCacheID (name : List UInt8) : Prop := name.head? = some 0

abbrev Known (name : List UInt8) : Prop := name ∈ bucketNameList ∨ bytes "fakeip_" <+: name

variable {Contents : Type} {db : List (Bucket Contents)}

/-- `ForEachBucket` in the bucket of the given name, with what it visits and what is there. -/
def forEachBucket (name : List UInt8) (visited : List (List UInt8))
    (nested : List (List UInt8 × Contents)) : List (List UInt8 × Contents) :=
  visited.foldl (fun nested k =>
    if k ∈ bucketNameList then nested else nested.filter (·.1 ≠ name)) nested

/-- The callback of `ForEach`. -/
def visitBucket (db : List (Bucket Contents)) (visit : Visit) : List (Bucket Contents) :=
  if IsCacheID visit.name then
    db.map fun b =>
      if b.name = visit.name then
        { b with nested := forEachBucket visit.name visit.inner b.nested }
      else b
  else if Known visit.name then db
  else db.filter (·.name ≠ visit.name)

/-- The transaction of `start`. -/
def start (visits : List Visit) (db : List (Bucket Contents)) : List (Bucket Contents) :=
  visits.foldl visitBucket db

/-- The database without its unknown buckets, and with all the others as they were. -/
def cleaned (db : List (Bucket Contents)) : List (Bucket Contents) :=
  db.filterMap fun b =>
    if IsCacheID b.name then some { b with nested := b.nested.filter (·.1 ∈ bucketNameList) }
    else if Known b.name then some b
    else none

/-! ### What the visits leave -/

/-- One of the visits of a bucket comes across an unknown name inside it. -/
abbrev MeetsUnknown (visits : List Visit) (name : List UInt8) : Prop :=
  ∃ visit ∈ visits, visit.name = name ∧ ∃ k ∈ visit.inner, k ∉ bucketNameList

abbrev Visited (visits : List Visit) (name : List UInt8) : Prop :=
  ∃ visit ∈ visits, visit.name = name

/-- What is left of a bucket. -/
def Bucket.after (visits : List Visit) (b : Bucket Contents) : Option (Bucket Contents) :=
  if IsCacheID b.name then
    some { b with nested := b.nested.filter fun inner =>
      ¬(inner.1 = b.name ∧ MeetsUnknown visits b.name) }
  else if Known b.name ∨ ¬Visited visits b.name then some b
  else none

theorem forEachBucket_eq {name : List UInt8} {visited : List (List UInt8)}
    {nested : List (List UInt8 × Contents)} :
    forEachBucket name visited nested =
      nested.filter fun inner => ¬(inner.1 = name ∧ ∃ k ∈ visited, k ∉ bucketNameList) := by
  induction visited generalizing nested with
  | nil => simp [forEachBucket]
  | cons first rest ih =>
    unfold forEachBucket at ih ⊢
    rw [List.foldl_cons, ih]
    by_cases known : first ∈ bucketNameList
    · simp [known]
    · rw [if_neg known, List.filter_filter]
      refine List.filter_congr fun inner _ => ?_
      grind

theorem visitBucket_eq (visit : Visit) :
    visitBucket db visit = db.filterMap (Bucket.after [visit]) := by
  unfold visitBucket
  split
  next isID =>
    rw [← List.filterMap_eq_map]
    refine List.filterMap_congr fun b _ => ?_
    by_cases same : b.name = visit.name
    · simp [Bucket.after, same, isID, forEachBucket_eq]
    · have other : visit.name ≠ b.name := fun equal => same equal.symm
      simp [Bucket.after, same, other]
  next notID =>
    split
    next known =>
      refine (List.filterMap_some.symm.trans (List.filterMap_congr fun b _ => ?_))
      by_cases same : b.name = visit.name
      · simp [Bucket.after, same, notID, known]
      · have other : visit.name ≠ b.name := fun equal => same equal.symm
        simp [Bucket.after, other]
    next unknown =>
      rw [← List.filterMap_eq_filter]
      refine List.filterMap_congr fun b _ => ?_
      by_cases same : b.name = visit.name
      · simp [Bucket.after, same, notID, unknown, Option.guard]
      · have other : visit.name ≠ b.name := fun equal => same equal.symm
        simp [Bucket.after, same, other, Option.guard]

theorem exists_visit_cons {visit : Visit} {rest : List Visit} {p : Visit → Prop} :
    (∃ other ∈ visit :: rest, p other) ↔ (∃ other ∈ [visit], p other) ∨ ∃ other ∈ rest, p other := by
  simp only [List.mem_cons, List.not_mem_nil, or_false, or_and_right, exists_or, exists_eq_left]

theorem Bucket.after_cons (visit : Visit) (rest : List Visit) (b : Bucket Contents) :
    b.after (visit :: rest) = (b.after [visit]).bind (Bucket.after rest) := by
  by_cases isID : IsCacheID b.name
  · unfold Bucket.after
    rw [if_pos isID, if_pos isID, Option.bind_some, if_pos isID, List.filter_filter]
    refine congrArg (fun nested => some { b with nested }) (List.filter_congr fun inner _ => ?_)
    rw [← Bool.decide_and, decide_eq_decide, ← not_or, ← and_or_left, or_comm]
    exact not_congr (and_congr_right fun _ => exists_visit_cons)
  · have parts : Visited (visit :: rest) b.name ↔ Visited [visit] b.name ∨ Visited rest b.name :=
      exists_visit_cons
    unfold Bucket.after
    rw [if_neg isID, if_neg isID]
    by_cases known : Known b.name
    · rw [if_pos (Or.inl known), if_pos (Or.inl known), Option.bind_some, if_neg isID,
        if_pos (Or.inl known)]
    · by_cases here : Visited [visit] b.name <;> simp only [known, here, parts, isID, true_or,
        false_or, not_true, not_false_eq_true, if_true, if_false, Option.bind_none,
        Option.bind_some]

/-- Every bucket is left as its own visits leave it. -/
theorem start_eq (visits : List Visit) : start visits db = db.filterMap (Bucket.after visits) := by
  induction visits generalizing db with
  | nil =>
    refine List.filterMap_some.symm.trans (List.filterMap_congr fun b _ => ?_)
    simp [Bucket.after]
  | cons visit rest ih =>
    rw [start, List.foldl_cons, ← start, ih, visitBucket_eq, List.filterMap_filterMap]
    exact List.filterMap_congr fun b _ => (b.after_cons visit rest).symm

theorem not_isCacheID : ∀ name ∈ bucketNameList, ¬IsCacheID name := by decide

/-- For every database and whatever is visited: exactly the unknown buckets are removed if and only
if every unknown bucket of the top level is visited, and the unknown buckets in the bucket of a
cache id all have its name and an unknown name is visited there. -/
theorem start_eq_cleaned_iff (visits : List Visit) :
    start visits db = cleaned db ↔ ∀ b ∈ db,
      (¬IsCacheID b.name → Known b.name ∨ Visited visits b.name) ∧
        (IsCacheID b.name → ∀ inner ∈ b.nested, inner.1 ∈ bucketNameList ∨
          inner.1 = b.name ∧ MeetsUnknown visits b.name) := by
  rw [start_eq]
  constructor
  · intro same b member
    refine ⟨fun notID => ?_, fun isID inner listed => ?_⟩
    · by_contra! kept
      -- the bucket is unknown and still there
      have stays : b ∈ cleaned db := same ▸ List.mem_filterMap.mpr ⟨b, member, by
        rw [Bucket.after, if_neg notID, if_pos (Or.inr fun ⟨visit, listed, equal⟩ =>
          kept.2 visit listed equal)]⟩
      grind [cleaned]
    · rw [or_iff_not_imp_left]
      intro unknown
      by_contra kept
      -- the inner bucket is unknown and still there
      have left : { b with nested := b.nested.filter fun inner =>
          ¬(inner.1 = b.name ∧ MeetsUnknown visits b.name) } ∈ cleaned db :=
        same ▸ List.mem_filterMap.mpr ⟨b, member, if_pos isID⟩
      obtain ⟨other, -, equal⟩ := List.mem_filterMap.mp left
      have stays : inner ∈ b.nested.filter fun inner =>
          ¬(inner.1 = b.name ∧ MeetsUnknown visits b.name) :=
        List.mem_filter.mpr ⟨listed, decide_eq_true fun ⟨named, meets⟩ => kept ⟨named, meets⟩⟩
      grind
  · intro own
    refine List.filterMap_congr fun b member => ?_
    obtain ⟨outer, inside⟩ := own b member
    by_cases isID : IsCacheID b.name
    · rw [Bucket.after, if_pos isID, if_pos isID]
      refine congrArg (fun nested => some { b with nested }) ?_
      refine List.filter_congr fun inner listed => ?_
      have := inside isID inner listed
      grind [not_isCacheID]
    · rw [Bucket.after, if_neg isID, if_neg isID]
      grind

/-- An unknown bucket inside the bucket of a cache id is visited and stays. -/
theorem start_ne_cleaned :
    start [⟨[0, 1], [[1]]⟩] [⟨[0, 1], (), [([1], ())]⟩] ≠
      cleaned [⟨[0, 1], (), [([1], ())]⟩] := by decide

end SingBox.CacheFile
