/-
This file is about what a load of the DNS cache may return while saves, flushes and
clears go on. A value stays among the pending saves until it is in the database, and
there is one goroutine for a key at a time, so the database runs behind the saves but
never back: what a load finds was saved at or after the last save before it.

Clearing does not wait for the goroutines. One that has read its entry writes it after
the clear, and one that comes back from writing compares a sequence number that may have
started again. What is proved here is about runs in which no goroutine is under way when
a clear starts, none writes while it runs, and every transaction succeeds.
-/

import SingBox.DnsStore
import SingBox.Log

namespace SingBox

open Log Option

namespace DnsStore

/-! ### The database -/

/-- A response as the database returns it: the time is cut to seconds. -/
def Response.kept (response : Response) : Response :=
  { response with expireAt := ofUnix (unix response.expireAt) }

/-- A key and a response that the database takes. -/
structure Saveable (key : SaveCacheKey) (response : Response) : Prop where
  name : key.transportName ≠ []
  key : (recordKey key).length ≤ Bolt.maxKeySize
  value : (recordValue response).length ≤ Bolt.maxValueSize

instance (key : SaveCacheKey) (response : Response) : Decidable (Saveable key response) :=
  decidable_of_iff (key.transportName ≠ [] ∧ (recordKey key).length ≤ Bolt.maxKeySize ∧
    (recordValue response).length ≤ Bolt.maxValueSize)
    ⟨fun ⟨name, key, value⟩ => ⟨name, key, value⟩, fun ⟨name, key, value⟩ => ⟨name, key, value⟩⟩

theorem recordKey_inj {one two : SaveCacheKey} (name : one.transportName = two.transportName)
    (same : recordKey one = recordKey two) : one = two := by
  have parts := List.append_inj same (by rw [BigEndian.length_put, BigEndian.length_put])
  have type := BigEndian.put_inj one.qType.toNat_lt two.qType.toNat_lt parts.1
  obtain ⟨transportName, questionName, qType⟩ := one
  obtain ⟨otherName, otherQuestion, otherType⟩ := two
  obtain rfl : transportName = otherName := name
  obtain rfl : questionName = otherQuestion := parts.2
  obtain rfl : qType = otherType := UInt16.toNat_inj.mp type
  rfl

theorem decode_recordValue (response : Response) :
    decode (recordValue response) = some response.kept := by
  have length : (BigEndian.put 8 (unix response.expireAt).toUInt64.toNat).length = 8 :=
    BigEndian.length_put _ _
  have long : ¬ (recordValue response).length < 8 := by
    rw [recordValue, List.length_append, length]
    omega
  rw [decode, if_neg long, recordValue, List.drop_left' length, List.take_left' length,
    BigEndian.get_put (UInt64.toNat_lt _), UInt64.ofNat_toNat]
  rfl

variable {after : Tree} {key : SaveCacheKey} {response : Response}

section

variable [Bolt.Engine] {db : Tree} (saved : saveDNSCache db key response = .ok after)
  (other : SaveCacheKey)

include saved

/-- What a save does to the contents. -/
theorem content_saveDNSCache :
    after.content other = if other = key then some (recordValue response) else db.content other := by
  unfold saveDNSCache at saved
  dsimp only at saved
  split at saved
  · cases saved
  split at saved
  · cases saved
  cases saved
  show (if other.transportName = key.transportName then _ else _ : Option Bolt.Bucket).bind
    (fun bucket => bucket (recordKey other)) = _
  by_cases name : other.transportName = key.transportName
  · rw [if_pos name]
    show (if recordKey other = recordKey key then _ else _) = _
    by_cases same : other = key
    · rw [if_pos same, same, if_pos rfl]
    · rw [if_neg same, if_neg fun equal => same (recordKey_inj name equal), ← name]
      cases db with
      | none => rfl
      | some root =>
        show ((root other.transportName).getD fun _ => none) _ = (root other.transportName).bind _
        cases root other.transportName <;> rfl
  · rw [if_neg name, if_neg fun same => name (congrArg SaveCacheKey.transportName same)]
    cases db <;> rfl

/-- What a save does to what loads find. -/
theorem view_saveDNSCache : viewDNSCache after other =
      if other = key then some response.kept else viewDNSCache db other := by
  rw [viewDNSCache, content_saveDNSCache saved]
  split_ifs
  · exact decode_recordValue response
  · rfl

end

theorem recordKey_ne_nil (key : SaveCacheKey) : recordKey key ≠ [] := by
  refine List.append_ne_nil_of_left_ne_nil (List.ne_nil_of_length_pos ?_) _
  rw [BigEndian.length_put]
  exact Nat.two_pos

theorem saveDNSCache_of_saveable [Bolt.Engine] [Bolt.Documented] (saveable : Saveable key response)
    (db : Tree) : ∃ after, saveDNSCache db key response = .ok after := by
  unfold saveDNSCache
  rw [Bolt.Documented.named _ saveable.name,
    Bolt.Documented.stored _ _ ⟨recordKey_ne_nil key, saveable.key⟩ saveable.value]
  exact ⟨_, rfl⟩

/-! ### What loads should return -/

/-- A response that was saved and one that was returned: the same message, which expires in the same
second. -/
structure Response.Agrees (saved returned : Response) : Prop where
  message : returned.rawMessage = saved.rawMessage
  time : unix returned.expireAt = unix saved.expireAt

theorem Response.agrees_self (response : Response) : response.Agrees response := ⟨rfl, rfl⟩

theorem Response.agrees_kept (response : Response) : response.Agrees response.kept :=
  ⟨rfl, unix_ofUnix _⟩

/-- A load that returns something returns what was saved after every clear that had returned. If its
key was saved before it started, and no clear has started since, it returns this save or a later
one. -/
structure Right (saves : List (SaveCacheKey × Response)) (answer : Answer) : Prop where
  cleared : ∀ returned, answer.result = some returned →
    ∃ place saved, saves[place]? = some (answer.key, saved) ∧ saved.Agrees returned ∧
      answer.cleared ≤ place
  fresh : ∀ earlier response, saves[earlier]? = some (answer.key, response) →
    answer.floor ≤ earlier → earlier < answer.begun →
      ∃ returned place saved, answer.result = some returned ∧
        saves[place]? = some (answer.key, saved) ∧ saved.Agrees returned ∧ earlier ≤ place

/-- The events that are considered: a sequence number does not wrap, a transaction succeeds and does
not happen while a clear is running, and no goroutine is under way when a clear starts. -/
def Allowed (store : Store) : Event → Prop
  | .save key _ => ((store.pending key).getD {}).sequence.toNat + 1 < 2 ^ 64
  | .flush index fault =>
    match store.flushers[index]? with
    | some ⟨key, .save entry⟩ =>
      fault = false ∧ Saveable key entry.response ∧ store.clears = []
    | _ => True
  | .clearStart => ∀ flusher ∈ store.flushers, flusher.phase = .done
  | .clearEnd _ | .loadStart _ | .loadEnd _ => True

instance (store : Store) (event : Event) : Decidable (Allowed store event) := by
  unfold Allowed
  split
  · infer_instance
  · split <;> infer_instance
  all_goals infer_instance

/-! ### The invariant -/

/-- An entry that a goroutine has read, where the given one is pending. -/
structure Held (store : Store) (key : SaveCacheKey) (held entry : Entry) : Prop where
  saved : store.saves[held.place]? = some (key, held.response)
  floor : store.floor ≤ held.place
  place : held.place ≤ entry.place
  sequence : held.sequence.toNat ≤ entry.sequence.toNat
  current : held.sequence = entry.sequence → held.place = entry.place
  stored : ∀ place, store.stored key = some place → place ≤ held.place

/-- What a goroutine knows, where the given entry is pending. -/
def Working (store : Store) (key : SaveCacheKey) (entry : Entry) : Phase → Prop
  | .read | .done => True
  | .save held => Held store key held entry
  | .check held =>
    Held store key held entry ∧ store.stored key = some held.place ∧ store.clears = []

/-- The goroutine with the given number is in the given phase. -/
def Store.At (store : Store) (index : Nat) (key : SaveCacheKey) (phase : Phase) : Prop :=
  store.flushers[index]? = some ⟨key, phase⟩

/-- A pending entry is the last save of its key, and a goroutine takes care of it. -/
structure Pending (store : Store) (key : SaveCacheKey) (entry : Entry) : Prop where
  saving : entry.saving = true
  saved : store.saves[entry.place]? = some (key, entry.response)
  floor : store.floor ≤ entry.place
  last : ∀ place response, store.saves[place]? = some (key, response) → place ≤ entry.place
  flusher : ∃ index phase, store.At index key phase ∧ phase ≠ .done

/-- The database has the saves of a key since the last start of a clear, as far as the bound, or
later ones. -/
def Covers (store : Store) (key : SaveCacheKey) (bound : Nat) : Prop :=
  ∀ place response, store.saves[place]? = some (key, response) → store.floor ≤ place →
    place < bound → ∃ later, store.stored key = some later ∧ place ≤ later

/-- There is no save of a key since the last start of a clear, as far as the bound. -/
def Before (store : Store) (key : SaveCacheKey) (bound : Nat) : Prop :=
  ∀ place response, store.saves[place]? = some (key, response) → place < bound →
    place < store.floor

structure Consistent (store : Store) : Prop where
  pending : ∀ key entry, store.pending key = some entry → Pending store key entry
  unique : ∀ first second key one two, store.At first key one → store.At second key two →
    one ≠ .done → two ≠ .done → first = second
  working : ∀ index key phase, store.At index key phase → phase ≠ .done →
    ∃ entry, store.pending key = some entry ∧ Working store key entry phase
  stored : ∀ key place, store.stored key = some place → store.cleared ≤ place ∧
    ∃ response, store.saves[place]? = some (key, response) ∧
      viewDNSCache store.db key = some response.kept
  absent : ∀ key, store.stored key = none → viewDNSCache store.db key = none
  covered : ∀ key, store.pending key = none → Covers store key store.saves.length
  loads : ∀ load ∈ store.loads, load.begun ≤ store.saves.length ∧
    Covers store load.key load.begun
  clearing : store.clears ≠ [] →
    (∀ key, store.pending key = none → Before store key store.saves.length) ∧
      ∀ load ∈ store.loads, Before store load.key load.begun
  floor : store.floor ≤ store.saves.length
  cleared : store.cleared ≤ store.floor
  clears : ∀ begun ∈ store.clears, begun ≤ store.floor
  answers : ∀ answer ∈ store.answers, answer.begun ≤ store.saves.length ∧
    Right store.saves answer

variable {store : Store}

section

variable {after : Store} {entry : Entry} {phase : Phase} (working : Working store key entry phase)
  (stored : after.stored key = store.stored key) (clears : after.clears = store.clears)

include working stored clears

/-- A goroutine goes on knowing what it knows where the entry that it holds stays one. -/
theorem Working.map {later : Entry}
    (held : ∀ held, Held store key held entry → Held after key held later) :
    Working after key later phase := by
  cases phase with
  | read => trivial
  | save entry => exact held entry working
  | check entry => exact ⟨held entry working.1, stored.trans working.2.1, clears.trans working.2.2⟩
  | done => trivial

/-- What a goroutine knows does not depend on the rest of the store. -/
theorem Working.transfer (saves : after.saves = store.saves)
    (floor : after.floor = store.floor) : Working after key entry phase :=
  working.map stored clears fun _ facts => ⟨saves ▸ facts.saved, floor ▸ facts.floor, facts.place,
    facts.sequence, facts.current, stored ▸ facts.stored⟩

end

/-! ### Saves -/

theorem Right.snoc {saves : List (SaveCacheKey × Response)} {answer : Answer}
    (right : Right saves answer) (bound : answer.begun ≤ saves.length)
    (save : SaveCacheKey × Response) : Right (saves ++ [save]) answer := by
  refine ⟨fun returned same => ?_, fun earlier response listed low high => ?_⟩
  · obtain ⟨place, saved, found, agrees, after⟩ := right.cleared returned same
    exact ⟨place, saved, snoc_of_some found, agrees, after⟩
  · rcases snoc_cases listed with old | ⟨new, -⟩
    · obtain ⟨returned, place, saved, result, found, agrees, after⟩ :=
        right.fresh earlier response old low high
      exact ⟨returned, place, saved, result, snoc_of_some found, agrees, after⟩
    · omega

theorem put_self {Value : Type} (map : SaveCacheKey → Option Value) (key : SaveCacheKey)
    (value : Option Value) : put map key value key = value := if_pos rfl

theorem put_of_ne {Value : Type} (map : SaveCacheKey → Option Value) {other : SaveCacheKey}
    (value : Option Value) (different : other ≠ key) : put map key value other = map other :=
  if_neg different

section

variable {bound : Nat} (inside : bound ≤ store.saves.length) {after : Store}
  {save : SaveCacheKey × Response} (saves : after.saves = store.saves ++ [save])
  (floor : after.floor = store.floor)

include inside saves floor

theorem Covers.snoc (covers : Covers store key bound) (stored : after.stored = store.stored) :
    Covers after key bound := by
  intro place response listed low high
  rw [saves] at listed
  rw [floor] at low
  rw [stored]
  rcases snoc_cases listed with old | ⟨new, -⟩
  · exact covers place response old low high
  · omega

theorem Before.snoc (before : Before store key bound) : Before after key bound := by
  intro place response listed high
  rw [saves] at listed
  rw [floor]
  rcases snoc_cases listed with old | ⟨new, -⟩
  · exact before place response old high
  · omega

end

section Save

variable {other : SaveCacheKey} {response : Response} {index place : Nat} {phase : Phase}

theorem flushers_save : (store.save key response).flushers =
    if !((store.pending key).getD {}).saving then store.flushers ++ [⟨key, .read⟩]
    else store.flushers := rfl

theorem at_save (found : store.At index other phase) :
    (store.save key response).At index other phase := by
  rw [Store.At, flushers_save]
  split_ifs
  · exact snoc_of_some found
  · exact found

theorem pending_save : (store.save key response).pending key = some (store.queued key response) :=
  put_self _ _ _

theorem absent_of_save (absent : (store.save key response).pending other = none) :
    other ≠ key ∧ store.pending other = none := by
  have different : other ≠ key := fun same => by
    rw [same, pending_save] at absent
    cases absent
  exact ⟨different, (put_of_ne _ _ different).symm.trans absent⟩

theorem saved_of_save {saved : Response} (different : other ≠ key)
    (listed : (store.save key response).saves[place]? = some (other, saved)) :
    store.saves[place]? = some (other, saved) := by
  rcases snoc_cases listed with old | ⟨-, same⟩
  · exact old
  · exact absurd (congrArg Prod.fst same) different

namespace Consistent

variable (consistent : Consistent store)
include consistent

/-- A save starts a goroutine where none takes care of its key. -/
theorem at_of_save (found : (store.save key response).At index other phase) :
    store.At index other phase ∨
      (index = store.flushers.length ∧ other = key ∧ phase = .read ∧ store.pending key = none) := by
  rw [Store.At, flushers_save] at found
  split_ifs at found with start
  · rcases snoc_cases found with old | ⟨new, same⟩
    · exact .inl old
    · cases same
      refine .inr ⟨new, rfl, rfl, ?_⟩
      cases present : store.pending key with
      | none => rfl
      | some entry =>
        rw [present] at start
        exact absurd (consistent.pending key entry present).saving (by simpa using start)
  · exact .inl found

theorem queued : Pending (store.save key response) key (store.queued key response) := by
  refine ⟨rfl, snoc_self _ _, consistent.floor, fun place saved listed => ?_, ?_⟩
  · have inside := lt_length listed
    rw [show (store.save key response).saves.length = _ from List.length_append] at inside
    exact Nat.le_of_lt_succ inside
  · cases known : store.pending key with
    | none =>
      refine ⟨store.flushers.length, .read, ?_, nofun⟩
      rw [Store.At, flushers_save, known]
      exact snoc_self _ _
    | some entry =>
      obtain ⟨index, phase, found, live⟩ := (consistent.pending key entry known).flusher
      exact ⟨index, phase, at_save found, live⟩

theorem working_save (allowed : Allowed store (.save key response))
    (found : (store.save key response).At index other phase) (live : phase ≠ .done) :
    ∃ entry, (store.save key response).pending other = some entry ∧
      Working (store.save key response) other entry phase := by
  rcases consistent.at_of_save found with old | ⟨-, rfl, rfl, -⟩
  · obtain ⟨entry, present, working⟩ := consistent.working index other phase old live
    by_cases same : other = key
    · subst same
      refine ⟨_, pending_save, ?_⟩
      have sequence : (store.queued other response).sequence.toNat = entry.sequence.toNat + 1 := by
        rw [Allowed, present] at allowed
        rw [Store.queued, present, UInt64.toNat_add]
        exact Nat.mod_eq_of_lt allowed
      refine working.map (by rfl) (by rfl) fun held facts => ?_
      have bound := facts.sequence
      refine ⟨snoc_of_some facts.saved, facts.floor, ?_, ?_, fun equal => ?_, facts.stored⟩
      · exact Nat.le_of_lt (lt_length facts.saved)
      · omega
      · rw [equal] at bound
        omega
    · refine ⟨entry, (put_of_ne _ _ same).trans present, ?_⟩
      exact working.map (by rfl) (by rfl) fun held facts =>
        { facts with saved := snoc_of_some facts.saved }
  · exact ⟨_, pending_save, trivial⟩

/-- A save gives its key another entry, and a goroutine if it has none. -/
theorem save (response : Response) (allowed : Allowed store (.save key response)) :
    Consistent (store.save key response) := by
  have grown : (store.save key response).saves.length = store.saves.length + 1 :=
    List.length_append
  refine ⟨fun other entry present => ?_, fun first second other one two isFirst isSecond live
    liveToo => ?_, fun _ _ _ => consistent.working_save allowed, fun other place found => ?_,
    consistent.absent, fun other absent => ?_, fun load member => ?_, fun running => ⟨fun other
    absent => ?_, fun load member => ?_⟩, ?_, consistent.cleared, consistent.clears,
    fun answer member => ?_⟩
  · by_cases same : other = key
    · subst same
      cases pending_save.symm.trans present
      exact consistent.queued
    · have pending := consistent.pending other entry ((put_of_ne _ _ same).symm.trans present)
      obtain ⟨index, phase, found, live⟩ := pending.flusher
      exact ⟨pending.saving, snoc_of_some pending.saved, pending.floor,
        fun place saved listed => pending.last place saved (saved_of_save same listed),
        index, phase, at_save found, live⟩
  · rcases consistent.at_of_save isFirst with oldFirst | ⟨newFirst, rfl, -, none⟩ <;>
      rcases consistent.at_of_save isSecond with oldSecond | ⟨newSecond, sameKey, -, noneToo⟩
    · exact consistent.unique first second other one two oldFirst oldSecond live liveToo
    · subst sameKey
      obtain ⟨entry, present, -⟩ := consistent.working first other one oldFirst live
      exact nomatch noneToo.symm.trans present
    · obtain ⟨entry, present, -⟩ := consistent.working second other two oldSecond liveToo
      exact nomatch none.symm.trans present
    · exact newFirst.trans newSecond.symm
  · obtain ⟨low, saved, listed, view⟩ := consistent.stored other place found
    exact ⟨low, saved, snoc_of_some listed, view⟩
  · obtain ⟨different, absent⟩ := absent_of_save absent
    intro place saved listed low high
    have listed := saved_of_save different listed
    exact consistent.covered other absent place saved listed low (lt_length listed)
  · obtain ⟨begun, covers⟩ := consistent.loads load member
    exact ⟨by omega, covers.snoc begun rfl rfl rfl⟩
  · obtain ⟨different, absent⟩ := absent_of_save absent
    intro place saved listed high
    have listed := saved_of_save different listed
    exact (consistent.clearing running).1 other absent place saved listed (lt_length listed)
  · exact ((consistent.clearing running).2 load member).snoc (consistent.loads load member).1 rfl rfl
  · have floor := consistent.floor
    show store.floor ≤ _
    omega
  · obtain ⟨begun, right⟩ := consistent.answers answer member
    exact ⟨by omega, right.snoc begun _⟩

end Consistent

end Save

/-! ### Flushes -/

section Flush

variable {index : Nat} {key : SaveCacheKey} {phase : Phase} {entry : Entry}

variable {name : SaveCacheKey} {old : Phase}

theorem at_setPhase {other : Nat} {new : Phase}
    (found : (store.setPhase index key new).At other name old) :
    (other = index ∧ name = key ∧ old = new) ∨ (other ≠ index ∧ store.At other name old) := by
  rcases set_cases found with ⟨same, equal⟩ | different
  · cases equal
    exact .inl ⟨same, rfl, rfl⟩
  · exact .inr different

theorem setPhase_at {other : Nat} (new : Phase) (different : other ≠ index)
    (found : store.At other name old) : (store.setPhase index key new).At other name old := by
  show (store.flushers.set index _)[other]? = _
  rw [List.getElem?_set_ne different.symm]
  exact found

theorem setPhase_self (new : Phase) (found : store.At index key old) :
    (store.setPhase index key new).At index key new :=
  List.getElem?_set_self (lt_length found)

section

variable (consistent : Consistent store)

include consistent

/-- A goroutine goes on with what it knows. -/
theorem Consistent.setPhase (found : store.At index key phase) (live : phase ≠ .done)
    {new : Phase} (still : new ≠ .done) (present : store.pending key = some entry)
    (working : Working store key entry new) : Consistent (store.setPhase index key new) := by
  refine { consistent with pending := ?_, unique := ?_, working := ?_ }
  · intro other current known
    have pending := consistent.pending other current known
    obtain ⟨place, old, at_, alive⟩ := pending.flusher
    refine { pending with flusher := ?_ }
    by_cases same : place = index
    · subst same
      cases some.inj (found.symm.trans at_)
      exact ⟨place, new, setPhase_self new found, still⟩
    · exact ⟨place, old, setPhase_at new same at_, alive⟩
  · intro first second name one two isFirst isSecond alive aliveToo
    rcases at_setPhase isFirst with ⟨rfl, rfl, -⟩ | ⟨-, oldFirst⟩ <;>
      rcases at_setPhase isSecond with ⟨rfl, sameKey, -⟩ | ⟨-, oldSecond⟩
    · rfl
    · exact consistent.unique _ _ _ _ _ found oldSecond live aliveToo
    · subst sameKey
      exact consistent.unique _ _ _ _ _ oldFirst found alive live
    · exact consistent.unique _ _ _ _ _ oldFirst oldSecond alive aliveToo
  · intro other name old at_ alive
    rcases at_setPhase at_ with ⟨-, rfl, rfl⟩ | ⟨-, before⟩
    · exact ⟨entry, present, working.transfer rfl rfl rfl rfl⟩
    · obtain ⟨current, known, knows⟩ := consistent.working other name old before alive
      exact ⟨current, known, knows.transfer rfl rfl rfl rfl⟩

/-- The transaction of a goroutine. -/
theorem Consistent.write [Bolt.Engine] {held : Entry} (found : store.At index key (.save held))
    (saved : saveDNSCache store.db key held.response = .ok after) :
    Consistent { store with db := after, stored := put store.stored key (some held.place) } := by
  obtain ⟨entry, present, facts⟩ := consistent.working index key _ found nofun
  have covers : ∀ {other bound}, Covers store other bound →
      Covers { store with db := after, stored := put store.stored key (some held.place) } other
        bound := by
    intro other bound old place response listed low high
    obtain ⟨later, stored, bounded⟩ := old place response listed low high
    by_cases same : other = key
    · subst same
      exact ⟨held.place, put_self _ _ _, bounded.trans (facts.stored later stored)⟩
    · exact ⟨later, (put_of_ne _ _ same).trans stored, bounded⟩
  refine { consistent with
    pending := ?_, working := ?_, stored := ?_, absent := ?_, covered := ?_, loads := ?_,
    clearing := consistent.clearing }
  · intro other current known
    exact { consistent.pending other current known with }
  · intro other name old at_ alive
    obtain ⟨current, known, working⟩ := consistent.working other name old at_ alive
    refine ⟨current, known, ?_⟩
    by_cases same : name = key
    · subst same
      obtain rfl := consistent.unique _ _ _ _ _ found at_ nofun alive
      cases some.inj (found.symm.trans at_)
      refine { working with stored := fun place stored => ?_ }
      cases (put_self _ _ _).symm.trans stored
      exact le_rfl
    · exact working.transfer (put_of_ne _ _ same) rfl rfl rfl
  · intro other place stored
    dsimp only at stored ⊢
    rw [view_saveDNSCache saved]
    by_cases same : other = key
    · subst same
      cases (put_self _ _ _).symm.trans stored
      rw [if_pos rfl]
      exact ⟨consistent.cleared.trans facts.floor, _, facts.saved, rfl⟩
    · rw [put_of_ne _ _ same] at stored
      rw [if_neg same]
      exact consistent.stored other place stored
  · intro other stored
    dsimp only at stored ⊢
    by_cases same : other = key
    · rw [same, put_self] at stored
      cases stored
    · rw [put_of_ne _ _ same] at stored
      rw [view_saveDNSCache saved, if_neg same]
      exact consistent.absent other stored
  · exact fun other absent => covers (consistent.covered other absent)
  · exact fun load member => ⟨(consistent.loads load member).1,
      covers (consistent.loads load member).2⟩

/-- A goroutine whose entry is in the database and has not been replaced. -/
theorem Consistent.finish {held : Entry} (found : store.At index key (.check held))
    (present : store.pending key = some entry) (same : entry.sequence = held.sequence) :
    Consistent ({ store with pending := put store.pending key none }.setPhase index key .done) := by
  obtain ⟨current, known, facts, stored, idle⟩ := consistent.working index key _ found nofun
  cases some.inj (present.symm.trans known)
  have others : ∀ {other name old}, ({ store with pending := put store.pending key none }.setPhase
      index key .done).At other name old → old ≠ .done → name ≠ key ∧ store.At other name old := by
    intro other name old at_ alive
    rcases at_setPhase at_ with ⟨-, -, rfl⟩ | ⟨different, before⟩
    · exact absurd rfl alive
    · refine ⟨fun equal => ?_, before⟩
      subst equal
      exact different (consistent.unique _ _ _ _ _ before found alive nofun)
  refine { consistent with pending := ?_, unique := ?_, working := ?_, covered := ?_, clearing := ?_ }
  · intro other current known
    by_cases equal : other = key
    · rw [equal] at known
      cases (put_self _ _ _).symm.trans known
    · have pending := consistent.pending other current ((put_of_ne _ _ equal).symm.trans known)
      obtain ⟨place, old, at_, alive⟩ := pending.flusher
      refine ⟨pending.saving, pending.saved, pending.floor, pending.last, place, old,
        setPhase_at _ (fun here => ?_) at_, alive⟩
      subst here
      cases some.inj (found.symm.trans at_)
      exact equal rfl
  · intro first second name one two isFirst isSecond alive aliveToo
    exact consistent.unique _ _ _ _ _ (others isFirst alive).2 (others isSecond aliveToo).2 alive
      aliveToo
  · intro other name old at_ alive
    obtain ⟨different, before⟩ := others at_ alive
    obtain ⟨current, known, working⟩ := consistent.working other name old before alive
    exact ⟨current, (put_of_ne _ _ different).trans known, working.transfer rfl rfl rfl rfl⟩
  · intro other absent
    by_cases equal : other = key
    · subst equal
      intro place response listed low high
      refine ⟨held.place, stored, ?_⟩
      rw [facts.current same.symm]
      exact (consistent.pending other entry present).last place response listed
    · exact consistent.covered other ((put_of_ne _ _ equal).symm.trans absent)
  · exact fun running => absurd idle running

theorem Consistent.flush [Bolt.Engine] [Bolt.Documented] (fault : Bool)
    (allowed : Allowed store (.flush index fault)) : Consistent (store.flush index fault) := by
  unfold Store.flush
  cases listed : store.flushers[index]? with
  | none => exact consistent
  | some flusher =>
    obtain ⟨key, phase⟩ := flusher
    cases phase with
    | done => exact consistent
    | read =>
      obtain ⟨entry, present, -⟩ := consistent.working index key _ listed nofun
      have pending := consistent.pending key entry present
      dsimp only
      rw [present]
      refine consistent.setPhase listed nofun nofun present ⟨pending.saved, pending.floor,
        le_rfl, le_rfl, fun _ => rfl, fun place stored => ?_⟩
      obtain ⟨-, response, found, -⟩ := consistent.stored key place stored
      exact pending.last place response found
    | save held =>
      rw [Allowed, listed] at allowed
      obtain ⟨rfl, saveable, idle⟩ := allowed
      obtain ⟨after, saved⟩ := saveDNSCache_of_saveable saveable store.db
      dsimp only
      rw [if_neg nofun, saved]
      have written := consistent.write listed saved
      obtain ⟨entry, present, facts⟩ := written.working index key _ listed nofun
      exact written.setPhase listed nofun nofun present ⟨facts, put_self _ _ _, idle⟩
    | check held =>
      obtain ⟨entry, present, -⟩ := consistent.working index key _ listed nofun
      dsimp only
      rw [present]
      dsimp only
      split_ifs with replaced
      · exact consistent.setPhase listed nofun nofun present trivial
      · exact consistent.finish listed present (not_not.mp replaced)

end

end Flush

/-! ### Clears and loads -/

section

variable (consistent : Consistent store)

include consistent

theorem Consistent.clearStart (idle : ∀ flusher ∈ store.flushers, flusher.phase = .done) :
    Consistent (store.clearStart) := by
  have all : ∀ {key bound}, bound ≤ store.saves.length →
      Before (store.clearStart) key bound := fun inside place response listed high =>
    Nat.lt_of_lt_of_le high inside
  have none : ∀ {key bound}, Covers (store.clearStart) key bound := by
    intro key bound place response listed low high
    exact absurd (lt_length listed) (Nat.not_lt.mpr low)
  refine { consistent with
    pending := nofun, working := ?_, covered := fun key absent => none,
    loads := fun load member => ⟨(consistent.loads load member).1, none⟩,
    clearing := fun running => ⟨fun key absent => all le_rfl,
      fun load member => all (consistent.loads load member).1⟩,
    floor := le_rfl, cleared := consistent.cleared.trans consistent.floor, clears := ?_ }
  · intro index key phase found live
    exact absurd (idle _ (List.mem_of_getElem? found)) live
  · intro begun member
    rcases mem_snoc member with old | rfl
    · exact (consistent.clears begun old).trans consistent.floor
    · exact le_rfl

theorem Consistent.clearEnd (index : Nat) : Consistent (store.clearEnd index) := by
  unfold Store.clearEnd
  cases listed : store.clears[index]? with
  | none => exact consistent
  | some begun =>
    have member : begun ∈ store.clears := List.mem_of_getElem? listed
    have running : store.clears ≠ [] := List.ne_nil_of_mem member
    obtain ⟨keys, loads⟩ := consistent.clearing running
    refine { consistent with
      pending := fun key entry present => { consistent.pending key entry present with }
      working := ?_, stored := nofun, absent := fun key _ => rfl, covered := ?_, loads := ?_,
      clearing := fun _ => ⟨keys, loads⟩, cleared := ?_, clears := ?_ }
    · intro place key phase found live
      obtain ⟨entry, present, working⟩ := consistent.working place key phase found live
      refine ⟨entry, present, ?_⟩
      cases phase with
      | read => trivial
      | save held =>
        exact { working with stored := nofun }
      | check held => exact absurd working.2.2 running
      | done => trivial
    · intro key absent place response found low high
      exact absurd (keys key absent place response found high) (Nat.not_lt.mpr low)
    · intro load inside
      refine ⟨(consistent.loads load inside).1, fun place response found low high => ?_⟩
      exact absurd (loads load inside place response found high) (Nat.not_lt.mpr low)
    · exact Nat.max_le.mpr ⟨consistent.cleared, consistent.clears begun member⟩
    · exact fun other inside => consistent.clears other (List.mem_of_mem_eraseIdx inside)

theorem Consistent.answer {answer : Answer} {loads : List Load}
    (fewer : ∀ load ∈ loads, load ∈ store.loads) (bound : answer.begun ≤ store.saves.length)
    (right : Right store.saves answer) :
    Consistent { store with loads, answers := store.answers ++ [answer] } := by
  refine { consistent with
    pending := fun key entry present => { consistent.pending key entry present with }
    working := ?_,
    loads := fun load member => consistent.loads load (fewer load member),
    clearing := fun running => ⟨(consistent.clearing running).1, fun load member =>
      (consistent.clearing running).2 load (fewer load member)⟩,
    answers := ?_ }
  · intro place key phase found live
    obtain ⟨entry, present, working⟩ := consistent.working place key phase found live
    exact ⟨entry, present, working.transfer rfl rfl rfl rfl⟩
  · intro other member
    rcases mem_snoc member with old | rfl
    · exact consistent.answers other old
    · exact ⟨bound, right⟩

theorem Consistent.loadStart (key : SaveCacheKey) : Consistent (store.loadStart key) := by
  unfold Store.loadStart
  cases present : store.pending key with
  | some entry =>
    have pending := consistent.pending key entry present
    refine consistent.answer (fun _ member => member) le_rfl
      ⟨fun returned same => ?_, fun earlier response listed low high => ?_⟩
    · cases same
      exact ⟨entry.place, _, pending.saved, entry.response.agrees_self,
        consistent.cleared.trans pending.floor⟩
    · exact ⟨_, entry.place, _, rfl, pending.saved, entry.response.agrees_self,
        pending.last earlier response listed⟩
  | none =>
    refine { consistent with pending := ?_, working := ?_, loads := ?_, clearing := ?_ }
    · intro other entry known
      have pending := consistent.pending other entry known
      exact { pending with }
    · intro place other phase found live
      obtain ⟨entry, known, working⟩ := consistent.working place other phase found live
      exact ⟨entry, known, working.transfer rfl rfl rfl rfl⟩
    · intro load member
      rcases mem_snoc member with old | rfl
      · exact consistent.loads load old
      · exact ⟨le_rfl, consistent.covered key present⟩
    · intro running
      refine ⟨(consistent.clearing running).1, fun load member => ?_⟩
      rcases mem_snoc member with old | rfl
      · exact (consistent.clearing running).2 load old
      · exact (consistent.clearing running).1 key present

theorem Consistent.loadEnd (index : Nat) : Consistent (store.loadEnd index) := by
  unfold Store.loadEnd
  cases listed : store.loads[index]? with
  | none => exact consistent
  | some load =>
    obtain ⟨bound, covers⟩ := consistent.loads load (List.mem_of_getElem? listed)
    refine consistent.answer (fun other member => List.mem_of_mem_eraseIdx member) bound
      ⟨fun returned same => ?_, fun earlier response found low high => ?_⟩
    · cases stored : store.stored load.key with
      | none => cases (consistent.absent load.key stored).symm.trans same
      | some place =>
        obtain ⟨low, saved, found, view⟩ := consistent.stored load.key place stored
        cases view.symm.trans same
        exact ⟨place, saved, found, saved.agrees_kept, low⟩
    · obtain ⟨later, stored, after⟩ := covers earlier response found low high
      obtain ⟨-, saved, found, view⟩ := consistent.stored load.key later stored
      exact ⟨_, later, saved, view, found, saved.agrees_kept, after⟩

end

/-! ### Whole runs -/

theorem consistent_empty : Consistent {} where
  pending := nofun
  unique := nofun
  working := nofun
  stored := nofun
  absent _ _ := rfl
  covered := nofun
  loads := nofun
  clearing running := absurd rfl running
  floor := le_rfl
  cleared := le_rfl
  clears := nofun
  answers := nofun

theorem Consistent.step [Bolt.Engine] [Bolt.Documented] (consistent : Consistent store)
    {event : Event} (allowed : Allowed store event) : Consistent (store.step event) := by
  cases event with
  | save key response => exact consistent.save response allowed
  | flush index fault => exact consistent.flush fault allowed
  | clearStart => exact consistent.clearStart allowed
  | clearEnd index => exact consistent.clearEnd index
  | loadStart key => exact consistent.loadStart key
  | loadEnd index => exact consistent.loadEnd index

/-- In every run whose events are all allowed, every load returns the last save of its key before it
started or a later one, unless a clear has started since, and nothing that was saved before a clear
that has returned. -/
theorem loads_right [Bolt.Engine] [Bolt.Documented] (events : List Event)
    (allowed : Machine.Meets Store.step Allowed {} events) :
    ∀ answer ∈ (run events).answers, Right (run events).saves answer := by
  intro answer member
  have consistent := Machine.invariant_drive Consistent consistent_empty
    (fun store event holds met => holds.step met) allowed
  exact (consistent.answers answer member).2

/-- A name of a transport, a question and two responses. -/
def sampleKey : SaveCacheKey := ⟨[100], [46], 1⟩

def firstResponse : Response := ⟨[1, 2], 100 * second + 5⟩

def secondResponse : Response := ⟨[3, 4], 200 * second⟩

/-- A response is saved and loaded while it is pending, replaced while its goroutine writes, loaded
from the database, and cleared. -/
def replacedRun : List Event :=
  [.save sampleKey firstResponse, .flush 0 false, .flush 0 false, .loadStart sampleKey,
    .save sampleKey secondResponse, .flush 0 false, .flush 0 false, .flush 0 false,
    .flush 0 false, .loadStart sampleKey, .loadEnd 0, .clearStart, .clearEnd 0,
    .loadStart sampleKey, .loadEnd 0]

section

attribute [local instance] Bolt.bbolt Bolt.documented_bbolt

theorem loads_right_replaced :
    ((run replacedRun).answers.map Answer.result =
        [some firstResponse, some secondResponse, none]) ∧
      ∀ answer ∈ (run replacedRun).answers, Right (run replacedRun).saves answer :=
  ⟨by decide +kernel, loads_right replacedRun (by decide +kernel)⟩

/-- A goroutine that has read its entry before a clear writes it after the clear: a load returns a
response that was saved before. -/
theorem cleared_returns :
    (run [.save sampleKey firstResponse, .flush 0 false, .clearStart, .clearEnd 0, .flush 0 false,
        .flush 0 false, .loadStart sampleKey, .loadEnd 0]).answers =
      [⟨sampleKey, 1, 1, 1, some firstResponse.kept⟩] ∧
    (run [.save sampleKey firstResponse, .flush 0 false, .clearStart, .clearEnd 0, .flush 0 false,
        .flush 0 false, .loadStart sampleKey, .loadEnd 0]).saves =
      [(sampleKey, firstResponse)] ∧
    ¬ Right [(sampleKey, firstResponse)] ⟨sampleKey, 1, 1, 1, some firstResponse.kept⟩ := by
  refine ⟨by decide +kernel, by decide +kernel, fun right => ?_⟩
  obtain ⟨place, saved, listed, -, after⟩ := right.cleared _ rfl
  exact absurd (lt_length listed) (Nat.not_lt.mpr after)

end

end DnsStore

end SingBox
