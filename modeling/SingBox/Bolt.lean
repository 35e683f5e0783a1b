/-
This file is about a key-value file with buckets and transactions, as `bbolt`
offers it. What the database decides is a parameter: which keys and values it
refuses, whether a commit fails, and what the file has after an error. That it
does as its documentation says is a hypothesis: keys are not empty and not longer
than 32768 bytes, a bucket that does not exist cannot be deleted, commits succeed,
and after an error the file is as it was. If the function of a transaction panics,
the program throws the file away.
-/

import SingBox.Outcome
import Mathlib

namespace Bolt

abbrev Bytes := List UInt8

/-- The errors of the database, and those the function of a transaction returns itself. -/
inductive Error where
  | keyRequired
  | keyTooLarge
  | valueTooLarge
  | bucketNotFound
  | returned (text : String)
  deriving DecidableEq, Repr

abbrev Bucket := Bytes → Option Bytes

abbrev Database := String → Option Bucket

/-- The database with another bucket of the name, or with none. -/
def Database.set (db : Database) (name : String) (bucket : Option Bucket) : Database :=
  fun other => if other = name then bucket else db other

/-- The value of a key, in a bucket that may not exist. -/
def Database.lookup (db : Database) (name : String) (key : Bytes) : Option Bytes :=
  (db name).bind fun bucket => bucket key

/-- The function of a transaction. -/
abbrev Tx := StateT Database (Outcome Error)

def maxKeySize : Nat := 32768

def maxValueSize : Nat := 2 ^ 31 - 2

/-- A key that a bucket takes. -/
def Storable (key : Bytes) : Prop := key ≠ [] ∧ key.length ≤ maxKeySize

instance (key : Bytes) : Decidable (Storable key) :=
  inferInstanceAs (Decidable (_ ∧ _))

/-- What a database decides: the errors of `Bucket.Put` for a key and a value, of making a bucket of
a name, of `Tx.DeleteBucket` for a name without a bucket and of the commit of a database, and what
the file has after a transaction with an error. -/
class Engine where
  putError : Bytes → Bytes → Option Error
  createError : Bytes → Option Error
  deleteError : String → Option Error
  commitError : Database → Option Error
  rollback : Database → Error → Database

open Engine

/-- The database does as its documentation says. -/
class Documented [Engine] : Prop where
  keyRequired : ∀ value, putError [] value = some .keyRequired
  keyTooLarge : ∀ key value, maxKeySize < key.length → putError key value = some .keyTooLarge
  valueTooLarge : ∀ key value, Storable key → maxValueSize < value.length →
    putError key value = some .valueTooLarge
  stored : ∀ key value, Storable key → value.length ≤ maxValueSize → putError key value = none
  named : ∀ name, name ≠ [] → createError name = none
  bucketNotFound : ∀ name, deleteError name = some .bucketNotFound
  committed : ∀ db, commitError db = none
  rolledBack : ∀ db err, rollback db err = db

/-- A database that does so. -/
@[reducible] def bbolt : Engine where
  putError key value :=
    if key = [] then some .keyRequired
    else if key.length > maxKeySize then some .keyTooLarge
    else if value.length > maxValueSize then some .valueTooLarge
    else none
  createError name := if name = [] then some (.returned "bucket name required") else none
  deleteError _ := some .bucketNotFound
  commitError _ := none
  rollback db _ := db

theorem documented_bbolt : @Documented bbolt := by
  refine @Documented.mk bbolt (fun _ => rfl) (fun key value long => ?_)
    (fun key value storable large => ?_) (fun key value storable small => ?_)
    (fun _ nonempty => if_neg nonempty) (fun _ => rfl) (fun _ => rfl) fun _ _ => rfl
  · have nonempty : key ≠ [] := fun empty => absurd long (by simp [empty])
    exact (if_neg nonempty).trans (if_pos long)
  · exact (if_neg storable.1).trans ((if_neg (Nat.not_lt.mpr storable.2)).trans (if_pos large))
  · exact (if_neg storable.1).trans
      ((if_neg (Nat.not_lt.mpr storable.2)).trans (if_neg (Nat.not_lt.mpr small)))

/-- The function returns an error of its own. -/
def fail {Value : Type} (text : String) : Tx Value := fun _ => .error (.returned text)

/-- `Tx.Bucket`: whether the bucket exists. -/
def hasBucket (name : String) : Tx Bool := fun db => .value ((db name).isSome, db)

/-- `Tx.CreateBucketIfNotExists`. -/
def createBucketIfNotExists (name : String) : Tx Unit := fun db =>
  .value ((), db.set name (some ((db name).getD fun _ => none)))

/-- `Tx.DeleteBucket`. -/
def deleteBucket [Engine] (name : String) : Tx Unit := fun db =>
  match db name with
  | some _ => .value ((), db.set name none)
  | none =>
    match deleteError name with
    | none => .value ((), db)
    | some err => .error err

/-- `Bucket.Get` on a bucket of the transaction. -/
def get (name : String) (key : Bytes) : Tx (Option Bytes) := fun db =>
  match db name with
  | none => .panicked
  | some bucket => .value (bucket key, db)

/-- `Bucket.Put`. -/
def put [Engine] (name : String) (key value : Bytes) : Tx Unit := fun db =>
  match db name with
  | none => .panicked
  | some bucket =>
    match putError key value with
    | some err => .error err
    | none =>
      .value ((), db.set name
        (some fun other => if other = key then some value else bucket other))

/-- `Bucket.Delete`, which does nothing for a key that is not there. -/
def delete (name : String) (key : Bytes) : Tx Unit := fun db =>
  match db name with
  | none => .panicked
  | some bucket =>
    .value ((), db.set name (some fun other => if other = key then none else bucket other))

/-- A batch of one function: the database after it, and what the function returned. -/
def batch [Engine] {Value : Type} (db : Database) (fn : Tx Value) : Database × Except Error Value :=
  match fn db with
  | .value (result, after) =>
    match commitError after with
    | none => (after, .ok result)
    | some err => (rollback db err, .error err)
  | .error err => (rollback db err, .error err)
  | .panicked | .unfinished => (fun _ => none, .error (.returned "database corrupted"))

/-! ### Rules -/

section Rules

variable {Value Result : Type}

theorem bind_apply (first : Tx Value) (next : Value → Tx Result) (db : Database) :
    (first >>= next) db = first db >>= fun outcome => next outcome.1 outcome.2 := rfl

@[simp] theorem set_self (db : Database) (name : String) (bucket : Option Bucket) :
    db.set name bucket name = bucket := if_pos rfl

variable {name : String} {bucket : Bucket} {db : Database} {key value : Bytes}

theorem set_of_ne (db : Database) {other : String} (bucket : Option Bucket)
    (different : other ≠ name) : db.set name bucket other = db other := if_neg different

theorem set_set (db : Database) (name : String) (first second : Option Bucket) :
    (db.set name first).set name second = db.set name second := by
  funext other
  by_cases same : other = name
  · rw [same, set_self, set_self]
  · rw [set_of_ne _ _ same, set_of_ne _ _ same, set_of_ne _ _ same]

theorem lookup_set_self (db : Database) (name : String) (bucket : Bucket) (key : Bytes) :
    (db.set name (some bucket)).lookup name key = bucket key := by
  rw [Database.lookup, set_self]
  rfl

theorem lookup_set_of_ne (db : Database) {other : String} (bucket : Option Bucket)
    (different : other ≠ name) (key : Bytes) :
    (db.set name bucket).lookup other key = db.lookup other key := by
  rw [Database.lookup, set_of_ne db bucket different]
  rfl

/-- The bucket that `createBucketIfNotExists` leaves has what a lookup finds. -/
theorem getD_apply (db : Database) (name : String) (key : Bytes) :
    ((db name).getD fun _ => none) key = db.lookup name key := by
  rw [Database.lookup]
  cases db name <;> rfl

section Errors

variable [Engine]

theorem deleteBucket_of_isSome (present : (db name).isSome = true) :
    deleteBucket name db = .value ((), db.set name none) := by
  unfold deleteBucket
  obtain ⟨bucket, present⟩ := Option.isSome_iff_exists.mp present
  rw [present]

/-- A bucket takes the value, or refuses it with an error. -/
theorem put_cases (key value : Bytes) (present : db name = some bucket) :
    (∃ err, put name key value db = .error err) ∨ put name key value db =
      .value ((), db.set name
        (some fun other => if other = key then some value else bucket other)) := by
  unfold put
  rw [present]
  dsimp only
  cases putError key value with
  | some err => exact .inl ⟨err, rfl⟩
  | none => exact .inr rfl

variable [Documented]

theorem put_of_storable (present : db name = some bucket) (storable : Storable key)
    (small : value.length ≤ maxValueSize) : put name key value db = .value ((), db.set name
      (some fun other => if other = key then some value else bucket other)) := by
  unfold put
  rw [present, Documented.stored key value storable small]

/-- What a bucket does not take, for its key or for its size, is an error. -/
theorem put_of_not_taken (present : db name = some bucket)
    (refused : ¬(Storable key ∧ value.length ≤ maxValueSize)) :
    ∃ err, put name key value db = .error err := by
  have error : ∃ err, putError key value = some err := by
    by_cases empty : key = []
    · exact ⟨_, empty ▸ Documented.keyRequired value⟩
    by_cases long : maxKeySize < key.length
    · exact ⟨_, Documented.keyTooLarge key value long⟩
    have storable : Storable key := ⟨empty, Nat.le_of_not_lt long⟩
    refine ⟨_, Documented.valueTooLarge key value storable ?_⟩
    exact Nat.lt_of_not_le fun small => refused ⟨storable, small⟩
  obtain ⟨err, fails⟩ := error
  refine ⟨err, ?_⟩
  unfold put
  rw [present, fails]

/-- A key that cannot be stored is an error. -/
theorem put_of_not_storable (present : db name = some bucket) (refused : ¬Storable key) :
    ∃ err, put name key value db = .error err :=
  put_of_not_taken present fun taken => refused taken.1

theorem deleteBucket_of_not_isSome (missing : ¬(db name).isSome = true) :
    deleteBucket name db = .error .bucketNotFound := by
  unfold deleteBucket
  rw [Option.not_isSome_iff_eq_none.mp missing, Documented.bucketNotFound]

variable {fn : Tx Value}

theorem batch_of_value {result : Value} {after : Database}
    (returned : fn db = .value (result, after)) : batch db fn = (after, .ok result) := by
  unfold batch
  rw [returned]
  dsimp only
  rw [Documented.committed]

theorem batch_of_error {err : Error} (failed : fn db = .error err) :
    batch db fn = (db, .error err) := by
  unfold batch
  rw [failed]
  dsimp only
  rw [Documented.rolledBack]

end Errors

end Rules

end Bolt
