/-
This file is the argument that a walk of the DNS rules follows the sequential
walk. Suspensions, polls and armed rules do not show in what a rule is matched
with, under one condition: whenever a rule is matched, the futures that its tags
refer to have been settled. The walk itself does not make sure of it. It settles
before it checks what to await, a future that completes in between is not
awaited and not settled, and the rule is matched without its response.
-/

import SingBox.DnsLedger
import Mathlib

namespace SingBox

open List Option WalkState SingBox.Sequential

/-- Whenever a rule is matched, the futures that its tags refer to have been settled. -/
def Walk.Timely (walk : Walk) : Prop :=
  match walk.control with
  | .matchRule rule => ∀ future ∈ walk.state.taggedFutures rule, future.id ∈ walk.state.settled
  | .matchArmed armed _ _ =>
    ∀ future ∈ walk.state.taggedFutures armed.rule, future.id ∈ walk.state.settled
  | _ => True

instance : DecidablePred Walk.Timely
  | ⟨.matchRule rule, state⟩ =>
    inferInstanceAs (Decidable (∀ future ∈ state.taggedFutures rule, future.id ∈ state.settled))
  | ⟨.matchArmed armed _ _, state⟩ =>
    inferInstanceAs (Decidable (∀ future ∈ state.taggedFutures armed.rule,
      future.id ∈ state.settled))
  | ⟨.walk, _⟩ | ⟨.sweep _ _, _⟩ | ⟨.resume _, _⟩ | ⟨.decide _, _⟩ | ⟨.finish _, _⟩
  | ⟨.done _, _⟩ => isTrue trivial

section

variable (router : WalkContext) (schedule : Schedule) (rules : List DNSRule)

/-- A result, and the rule that produced it: a race rule whose bound exchanges are visible as
completed, the first rule that ends the walk, or the default transport. -/
inductive Produced (state : WalkState) (result : ExchangeResult) : Prop where
  | race (index : Nat) (rule : DNSRule) (listed : rules[index]? = some rule)
      (races : rule.race = true)
      (resolved : ∀ launch ∈ (sequentialAt router rules index).boundLaunches rule,
        ∃ future ∈ state.futures, future.toLaunch = launch ∧ schedule future.id ≤ state.clock)
      (earlier : ∀ other < index, ∀ rule, rules[other]? = some rule → rule.race = false →
        committed router rules other = none)
      (commits : committed router rules index = some result)
  | final (index : Nat) (rule : DNSRule) (listed : rules[index]? = some rule)
      (final : rule.race = false)
      (earlier : ∀ other < index, committed router rules other = none)
      (gives : Gives router rules index result)
  | default (none : ∀ index, committed router rules index = none)
      (result : result = defaultResult router rules)

/-- The state of a walk at a rule is the state in which the sequential walk considers it. -/
structure Tracks (state : WalkState) : Prop where
  options : state.effectiveOptions = (sequentialAt router rules state.ruleIndex).options
  anonymous : state.anonymousFuture.map Future.toLaunch =
    (sequentialAt router rules state.ruleIndex).anonymous
  named : ∀ tag, (state.namedFutures tag).map Future.toLaunch =
    (sequentialAt router rules state.ruleIndex).named tag
  passed : ∀ index < state.ruleIndex, ∀ rule, rules[index]? = some rule → rule.race = false →
    committed router rules index = none

/-- An armed rule holds what the sequential walk would match it with. A rule that waits for
nothing is swept before the walk goes on. -/
structure Armed (state : WalkState) (armed : ArmedRule) : Prop where
  listed : rules[armed.ruleIndex]? = some armed.rule
  races : armed.rule.race = true
  reached : armed.ruleIndex ≤ state.ruleIndex
  options : armed.options = (sequentialAt router rules armed.ruleIndex).options
  binds : armed.bindsAnonymous = armed.rule.matchResponseAnonymous
  anonymous : armed.anonymousFuture.map Future.toLaunch =
    if armed.rule.matchResponseAnonymous then
      (sequentialAt router rules armed.ruleIndex).anonymous
    else none
  anonymousPending : ∀ future ∈ armed.anonymousFuture,
    future ∈ armed.futures ∨ schedule future.id ≤ state.clock
  bound : ∀ launch ∈ (sequentialAt router rules armed.ruleIndex).boundLaunches armed.rule,
    ∃ future ∈ state.futures, future.toLaunch = launch ∧
      (future ∈ armed.futures ∨ schedule future.id ≤ state.clock)
  pending : ∀ future ∈ armed.futures, future.toLaunch ∈
    (sequentialAt router rules armed.ruleIndex).boundLaunches armed.rule
  swept : armed.futures = [] → armed.ruleIndex = state.ruleIndex

/-- Every race rule before the bound has been decided without a result or is still armed. -/
def Undecided (bound : Nat) (armed : List ArmedRule) : Prop :=
  ∀ index < bound, ∀ rule, rules[index]? = some rule → rule.race = true →
    committed router rules index = none ∨ ∃ member ∈ armed, member.ruleIndex = index

/-- The speculative exchange of a walk is the one its route rule would launch. -/
def TerminalKept (state : WalkState) : Prop :=
  ∀ future ∈ state.terminalFuture, ∃ rule server options,
    rules[state.terminalIndex]? = some rule ∧ rule.action = .route server true options ∧
    (sequentialAt router rules state.terminalIndex).matchRule router rule = true ∧
    router.resolveDNSRoute server options
      (sequentialAt router rules state.terminalIndex).options =
        some (future.transport, future.options) ∧
    future.site = state.terminalIndex ∧
    ∃ other < state.terminalIndex, ∃ race, rules[other]? = some race ∧ race.race = true

/-- What a suspended walk waits for. -/
def Suspension.Sound (state : WalkState) (armed : List ArmedRule) : Suspension → Prop
  | .await future => future ∈ state.futures ∧ Undecided router rules state.ruleIndex armed
  | .drain => Undecided router rules state.ruleIndex armed
  | .pending exchange =>
    armed = [] ∧ Produced router schedule rules state
      (WalkState.finishPendingExchange router exchange)

/-- Where a sweep returns to. -/
def AfterSweep.Sound (state : WalkState) (armed : List ArmedRule) : AfterSweep → Prop
  | .nextRule => (∃ rule, rules[state.ruleIndex]? = some rule ∧ rule.race = true) ∧
    Undecided router rules (state.ruleIndex + 1) armed
  | .resume suspension => suspension.Sound router schedule rules state armed

/-- What holds at each program point. -/
def Control.Sound (state : WalkState) : Control → Prop
  | .walk => (∀ armed ∈ state.armedRules, armed.futures ≠ []) ∧
    Undecided router rules state.ruleIndex state.armedRules
  | .matchRule rule => rules[state.ruleIndex]? = some rule ∧ rule.race = false ∧
    (rule.matchResponseAnonymous = true →
      ∀ future ∈ state.anonymousFuture, schedule future.id ≤ state.clock) ∧
    (∀ armed ∈ state.armedRules, armed.futures ≠ []) ∧
    Undecided router rules state.ruleIndex state.armedRules
  | .sweep index after => (∀ armed ∈ state.armedRules.take index, armed.futures ≠ []) ∧
    after.Sound router schedule rules state state.armedRules
  | .matchArmed armed index after => Armed router schedule rules state armed ∧
    (∀ future ∈ armed.futures, schedule future.id ≤ state.clock) ∧
    (∀ armed ∈ state.armedRules.take index, armed.futures ≠ []) ∧
    after.Sound router schedule rules state (armed :: state.armedRules)
  | .resume suspension | .decide suspension =>
    (∀ armed ∈ state.armedRules, armed.futures ≠ []) ∧
    suspension.Sound router schedule rules state state.armedRules
  | .finish exchange => Produced router schedule rules state
    (WalkState.finishPendingExchange router exchange)
  | .done result => Produced router schedule rules state result

/-- The state agrees with the sequential walk. -/
structure Steady (state : WalkState) : Prop where
  tracks : Tracks router rules state
  armed : ∀ armed ∈ state.armedRules, Armed router schedule rules state armed
  terminal : TerminalKept router rules state

/-- The walk follows the sequential walk. -/
structure Follows (walk : Walk) : Prop where
  steady : Steady router schedule rules walk.state
  sound : walk.control.Sound router schedule rules walk.state

end

variable {router : WalkContext} {schedule : Schedule} {rules : List DNSRule} {state : WalkState}

/-! ### What stays when the state moves on -/

/-- The later state has the same exchanges and futures, and a later clock. -/
structure Later (state later : WalkState) : Prop where
  clock : state.clock ≤ later.clock
  futures : ∀ future ∈ state.futures, future ∈ later.futures

variable {result : ExchangeResult} {armed : ArmedRule} {suspension : Suspension}
  {after : AfterSweep} {clock index bound : Nat} {rule : DNSRule} {tag : String}

theorem Produced.later {later : WalkState}
    (produced : Produced router schedule rules state result) (moved : Later state later) :
    Produced router schedule rules later result := by
  cases produced with
  | race index rule listed races resolved earlier commits =>
    refine .race index rule listed races (fun launch member => ?_) earlier commits
    obtain ⟨future, inside, same, visible⟩ := resolved launch member
    exact ⟨future, moved.futures future inside, same, visible.trans moved.clock⟩
  | final index rule listed final earlier gives => exact .final index rule listed final earlier gives
  | default none result => exact .default none result

theorem Armed.later {later : WalkState} (holds : Armed router schedule rules state armed)
    (moved : Later state later) (index : later.ruleIndex = state.ruleIndex) :
    Armed router schedule rules later armed := { holds with
  reached := index ▸ holds.reached
  anonymousPending := fun future member =>
    (holds.anonymousPending future member).imp_right fun visible => visible.trans moved.clock
  bound := by
    intro launch member
    obtain ⟨future, inside, same, visible⟩ := holds.bound launch member
    exact ⟨future, moved.futures future inside, same,
      visible.imp_right fun visible => visible.trans moved.clock⟩
  swept := fun none => (holds.swept none).trans index.symm }

theorem Armed.advance (holds : Armed router schedule rules state armed)
    (waits : armed.futures ≠ []) : Armed router schedule rules state.advance.state armed :=
  { holds with
    reached := holds.reached.trans (Nat.le_succ _)
    swept := fun none => absurd none waits }

theorem Suspension.Sound.later {later : WalkState} {armed : List ArmedRule}
    (sound : suspension.Sound router schedule rules state armed) (moved : Later state later)
    (index : later.ruleIndex = state.ruleIndex) :
    suspension.Sound router schedule rules later armed := by
  cases suspension with
  | await future =>
    exact ⟨moved.futures future sound.1, by rw [index]; exact sound.2⟩
  | drain =>
    show Undecided router rules later.ruleIndex armed
    rw [index]
    exact sound
  | pending exchange => exact ⟨sound.1, sound.2.later moved⟩

theorem AfterSweep.Sound.later {later : WalkState} {armed : List ArmedRule}
    (sound : after.Sound router schedule rules state armed) (moved : Later state later)
    (index : later.ruleIndex = state.ruleIndex) :
    after.Sound router schedule rules later armed := by
  cases after with
  | nextRule =>
    show (∃ rule, rules[later.ruleIndex]? = some rule ∧ rule.race = true) ∧ _
    rw [index]
    exact sound
  | resume suspension => exact Suspension.Sound.later sound moved index

theorem Tracks.congr {later : WalkState} (tracks : Tracks router rules state)
    (index : later.ruleIndex = state.ruleIndex)
    (options : later.effectiveOptions = state.effectiveOptions)
    (anonymous : later.anonymousFuture = state.anonymousFuture)
    (named : later.namedFutures = state.namedFutures) : Tracks router rules later := by
  refine ⟨?_, ?_, fun tag => ?_, ?_⟩
  · rw [options, index]
    exact tracks.options
  · rw [anonymous, index]
    exact tracks.anonymous
  · rw [named, index]
    exact tracks.named tag
  · rw [index]
    exact tracks.passed

theorem TerminalKept.congr {later : WalkState} (kept : TerminalKept router rules state)
    (future : later.terminalFuture = state.terminalFuture)
    (index : later.terminalIndex = state.terminalIndex) : TerminalKept router rules later := by
  unfold TerminalKept
  rw [future, index]
  exact kept

namespace Steady

variable (steady : Steady router schedule rules state)

include steady

theorem later {later : WalkState} (moved : Later state later)
    (index : later.ruleIndex = state.ruleIndex)
    (options : later.effectiveOptions = state.effectiveOptions)
    (anonymous : later.anonymousFuture = state.anonymousFuture)
    (named : later.namedFutures = state.namedFutures)
    (future : later.terminalFuture = state.terminalFuture)
    (terminal : later.terminalIndex = state.terminalIndex)
    (armed : ∀ armed ∈ later.armedRules, armed ∈ state.armedRules) :
    Steady router schedule rules later where
  tracks := steady.tracks.congr index options anonymous named
  armed := fun member inside => (steady.armed member (armed member inside)).later moved index
  terminal := steady.terminal.congr future terminal

theorem setClock (grown : state.clock ≤ clock) :
    Steady router schedule rules (state.setClock clock) :=
  steady.later ⟨grown, fun _ member => member⟩ rfl rfl rfl rfl rfl rfl fun _ member => member

theorem settles {later : WalkState} (settles : state.Settles later) :
    Steady router schedule rules later := by
  refine steady.later ⟨settles.clock, fun _ member => ?_⟩ settles.ruleIndex
    settles.effectiveOptions settles.anonymousFuture settles.namedFutures settles.terminalFuture
    settles.terminalIndex fun _ member => ?_
  · rw [settles.futures]
    exact member
  · rw [settles.armedRules] at member
    exact member

/-! ### What a rule is matched with -/

section

variable (ledger : Ledger router rules state) (accepted : Accepted rules)
  (listed : rules[index]? = some rule)
  (reached : index ≤ state.ruleIndex)
  (timely : ∀ future ∈ state.taggedFutures rule, future.id ∈ state.settled)

include ledger accepted listed reached timely

/-- What is stored under the tags of a rule is what the sequential walk has. -/
theorem named_response (bound : tag ∈ rule.matchResponseTags) :
    state.namedResponses tag = ((sequentialAt router rules index).named tag).bind router.view ∧
      ((sequentialAt router rules index).named tag ≠ none → state.namedTransports tag =
        ((sequentialAt router rules index).named tag).map (·.transport)) := by
  have refers := steady.tracks.named tag
  rw [accepted.named_stable reached listed bound] at refers
  cases present : state.namedFutures tag with
  | none =>
    rw [← refers, present]
    exact ⟨ledger.unnamed tag present, fun some => absurd rfl some⟩
  | some future =>
    have settled := timely future (mem_filterMap.mpr ⟨tag, bound, present⟩)
    have stored := ledger.response tag future present settled
    rw [← refers, present]
    exact ⟨stored.1, fun _ => stored.2⟩

/-- A rule matches in the walk as it does in the sequential walk. -/
theorem matchOn_eq {anonymous : Option Msg}
    (bound : rule.matchResponseAnonymous = true →
      anonymous = (sequentialAt router rules index).anonymous.bind router.view) :
    (rule.rule.matchOn (router.matchMetadata anonymous state.namedResponses)).1 =
      (sequentialAt router rules index).matchRule router rule :=
  rule.matchOn_congr (accepted.reads rule (mem_of_getElem? listed)) router bound fun _ member =>
    (steady.named_response ledger accepted listed reached timely member).1

end

/-- The futures that a rule binds are the exchanges that the sequential walk binds. -/
theorem boundLaunches_eq (rule : DNSRule) :
    (sequentialAt router rules state.ruleIndex).boundLaunches rule =
      (state.boundFutures rule).map Future.toLaunch := by
  unfold boundLaunches boundFutures taggedFutures
    boundAnonymous
  rw [map_append, map_filterMap, ← steady.tracks.anonymous]
  congr 1
  · exact filterMap_congr fun tag _ => (steady.tracks.named tag).symm
  · cases rule.matchResponseAnonymous with
    | false => rfl
    | true => cases state.anonymousFuture <;> rfl

/-! ### Going on to the next rule -/

section

variable (listed : rules[state.ruleIndex]? = some rule)
  (quiet : rule.race = false → committed router rules state.ruleIndex = none)
  (waits : ∀ armed ∈ state.armedRules, armed.futures ≠ [])

include listed quiet waits

theorem next {later : WalkState} (moved : Later state later)
    (index : later.ruleIndex = state.ruleIndex + 1)
    (options : later.effectiveOptions =
      ((sequentialAt router rules state.ruleIndex).next router state.ruleIndex rule).options)
    (anonymous : later.anonymousFuture.map Future.toLaunch =
      ((sequentialAt router rules state.ruleIndex).next router state.ruleIndex rule).anonymous)
    (named : ∀ tag, (later.namedFutures tag).map Future.toLaunch =
      ((sequentialAt router rules state.ruleIndex).next router state.ruleIndex rule).named tag)
    (future : later.terminalFuture = state.terminalFuture)
    (terminal : later.terminalIndex = state.terminalIndex)
    (armed : later.armedRules = state.armedRules) : Steady router schedule rules later := by
  have here : sequentialAt router rules (state.ruleIndex + 1) = _ := sequentialAt_succ listed
  rw [← here, ← index] at options anonymous
  refine ⟨⟨options, anonymous, fun tag => ?_, fun other before rule' present final => ?_⟩,
    fun member inside => ?_, steady.terminal.congr future terminal⟩
  · rw [named tag, index, here]
  · rcases Nat.lt_succ_iff_lt_or_eq.mp (index ▸ before) with old | rfl
    · exact steady.tracks.passed other old rule' present final
    · obtain rfl : rule = rule' := some.inj (listed.symm.trans present)
      exact quiet final
  · rw [armed] at inside
    have held := (steady.armed member inside).advance (waits member inside)
    exact held.later ⟨moved.clock, moved.futures⟩ index

/-- A rule that changed nothing. -/
theorem advance
    (same : (sequentialAt router rules state.ruleIndex).next router state.ruleIndex rule =
      sequentialAt router rules state.ruleIndex) :
    Steady router schedule rules state.advance.state := by
  refine steady.next listed quiet waits ⟨le_rfl, fun _ member => member⟩ rfl ?_ ?_ (fun tag => ?_)
    rfl rfl rfl
  · rw [same]
    exact steady.tracks.options
  · rw [same]
    exact steady.tracks.anonymous
  · rw [same]
    exact steady.tracks.named tag

end

/-- With no rule armed, no rule before the one the walk is at ends the walk. -/
theorem committed_eq_none (undecided : Undecided router rules state.ruleIndex []) :
    ∀ index < state.ruleIndex, committed router rules index = none := by
  intro index before
  cases present : rules[index]? with
  | none => rw [committed, present, bind_none]
  | some rule =>
    cases races : rule.race with
    | false => exact steady.tracks.passed index before rule present races
    | true =>
      rcases undecided index before rule present races with decided | ⟨_, absent, _⟩
      · exact decided
      · cases absent

end Steady

theorem Undecided.succ {armed : List ArmedRule} (undecided : Undecided router rules bound armed)
    (listed : rules[bound]? = some rule) (final : rule.race = false) :
    Undecided router rules (bound + 1) armed := by
  intro index before rule' present races
  rcases Nat.lt_succ_iff_lt_or_eq.mp before with old | rfl
  · exact undecided index old rule' present races
  · obtain rfl : rule = rule' := some.inj (listed.symm.trans present)
    exact absurd (final.symm.trans races) (by simp)

namespace Follows

variable {rule : DNSRule}

/-! ### Visiting a rule -/

variable {pending : List Future} {options : RuleActionDNSRouteOptions} {server : String}
  {speculative : Bool} (steady : Steady router schedule rules state)

include steady

/-- The rule is armed with what it binds. -/
theorem armed_of_visit (ledger : Ledger router rules state)
    (listed : rules[state.ruleIndex]? = some rule) (races : rule.race = true)
    (subset : ∀ future ∈ pending, future ∈ state.boundFutures rule)
    (split : ∀ future ∈ state.boundFutures rule, future ∈ pending ∨ schedule future.id ≤ clock)
    (armedRules : List ArmedRule) :
    Armed router schedule rules { state.setClock clock with armedRules }
      { ruleIndex := state.ruleIndex, rule, futures := pending,
        anonymousFuture := state.boundAnonymous rule,
        bindsAnonymous := rule.matchResponseAnonymous, options := state.effectiveOptions } := by
  have launches := steady.boundLaunches_eq rule
  refine ⟨listed, races, le_rfl, steady.tracks.options, rfl, ?_, ?_, ?_, ?_, fun _ => rfl⟩
  · unfold boundAnonymous
    cases rule.matchResponseAnonymous with
    | false => rfl
    | true => exact steady.tracks.anonymous
  · intro future member
    refine split future (mem_append_right _ ?_)
    rwa [mem_toList]
  · intro launch member
    rw [launches] at member
    obtain ⟨future, inside, rfl⟩ := mem_map.mp member
    exact ⟨future, ledger.mem_of_bound inside, rfl, split future inside⟩
  · intro future member
    rw [launches]
    exact mem_map_of_mem (subset future member)

section

variable (accepted : Accepted rules) (ledger : Ledger router rules state)
  (listed : rules[state.ruleIndex]? = some rule)

include accepted ledger listed

theorem arm (races : rule.race = true) (sound : Control.walk.Sound router schedule rules state)
    (grown : state.clock ≤ clock) (subset : ∀ future ∈ pending, future ∈ state.boundFutures rule)
    (split : ∀ future ∈ state.boundFutures rule, future ∈ pending ∨ schedule future.id ≤ clock)
    (recorded : armed =
      { ruleIndex := state.ruleIndex, rule, futures := pending,
        anonymousFuture := state.boundAnonymous rule,
        bindsAnonymous := rule.matchResponseAnonymous, options := state.effectiveOptions }) :
    Follows router schedule rules
      (if pending.isEmpty then
        { control := .sweep 0 .nextRule
          state := { state.setClock clock with armedRules := state.armedRules ++ [armed] } }
      else ({ state.setClock clock with armedRules := state.armedRules ++ [armed] } :
        WalkState).advance) := by
  obtain ⟨waits, undecided⟩ := sound
  have index : armed.ruleIndex = state.ruleIndex := by rw [recorded]
  have futures : armed.futures = pending := by rw [recorded]
  have here : ∀ armedRules, Armed router schedule rules { state.setClock clock with armedRules }
      armed := by
    rw [recorded]
    exact armed_of_visit steady ledger listed races subset split
  have steady' : Steady router schedule rules
      { state.setClock clock with armedRules := state.armedRules ++ [armed] } := by
    refine ⟨steady.tracks.congr rfl rfl rfl rfl, fun member inside => ?_, steady.terminal⟩
    rcases mem_append.mp inside with old | new
    · exact (steady.armed member old).later ⟨grown, fun _ inside => inside⟩ rfl
    · rw [mem_singleton.mp new]
      exact here _
  have undecided' : Undecided router rules (state.ruleIndex + 1) (state.armedRules ++ [armed]) := by
    intro other before rule' present races'
    rcases Nat.lt_succ_iff_lt_or_eq.mp before with old | rfl
    · refine (undecided other old rule' present races').imp_right ?_
      rintro ⟨member, inside, same⟩
      exact ⟨member, mem_append_left _ inside, same⟩
    · exact .inr ⟨armed, mem_concat_self, index⟩
  split_ifs with none
  · exact ⟨steady', by simp, ⟨rule, listed, races⟩, undecided'⟩
  · have waits' : ∀ member ∈ state.armedRules ++ [armed], member.futures ≠ [] := by
      intro member inside
      rcases mem_append.mp inside with old | new
      · exact waits member old
      · rw [mem_singleton.mp new, futures]
        simpa using none
    have final := (accepted.race (mem_of_getElem? listed) races).1
    refine ⟨steady'.advance listed (fun other => ?_) waits' ?_, waits', undecided'⟩
    · exact absurd (races.symm.trans other) (by simp)
    · exact next_of_final final _ _

theorem visitRule (sound : Control.walk.Sound router schedule rules state) :
    Follows router schedule rules (state.visitRule router schedule rule) := by
  obtain ⟨waits, undecided⟩ := sound
  unfold WalkState.visitRule
  split
  next unbound =>
    rw [Bool.not_eq_true'] at unbound
    refine ⟨steady, listed, ?_, fun bound => ?_, waits, undecided⟩
    · by_contra races
      have bindings := (accepted.race (mem_of_getElem? listed) (by simpa using races)).2.2
      exact absurd bindings (by simp [unbound])
    · exact absurd unbound (by simp [DNSRule.hasBindings, bound])
  · have settles : state.Settles (state.settleDNSFutures router schedule) :=
      state.settleDNSFutures_settles
    have booked : Ledger router rules (state.settleDNSFutures router schedule) :=
      ledger.settleDNSFutures
    have steady' := steady.settles settles
    rw [← settles.ruleIndex] at listed undecided
    rw [← settles.armedRules] at waits undecided
    generalize state.settleDNSFutures router schedule = state' at *
    dsimp only
    split
    next races =>
      have subset := allUnresolved_subset schedule state' (state'.boundFutures rule)
      have split := mem_or_resolved_of_allUnresolved schedule state' (state'.boundFutures rule)
      obtain ⟨clock, grown, same⟩ := allUnresolved_polled schedule state' (state'.boundFutures rule)
      rw [same] at split ⊢
      exact arm steady' accepted booked listed races ⟨waits, undecided⟩ grown subset split rfl
    next final =>
      have polled := firstUnresolved_polled schedule state' (state'.boundFutures rule)
      split
      next future later polls =>
        rw [polls] at polled
        obtain ⟨clock, grown, rfl⟩ := polled
        have member := (unresolved_of_firstUnresolved polls).1
        exact ⟨steady'.setClock grown, waits, booked.mem_of_bound member, undecided⟩
      next later polls =>
        rw [polls] at polled
        obtain ⟨clock, grown, rfl⟩ := polled
        refine ⟨steady'.setClock grown, listed, by simpa using final, fun bound future member => ?_,
          waits, undecided⟩
        refine resolved_of_firstUnresolved polls future (mem_append_right _ ?_)
        rw [mem_toList, boundAnonymous, if_pos bound]
        exact member

end

/-! ### The action of a rule -/

theorem drain (waits : ∀ armed ∈ state.armedRules, armed.futures ≠ [])
    (undecided : Undecided router rules state.ruleIndex state.armedRules) :
    Follows router schedule rules { control := .resume .drain, state } :=
  ⟨steady, waits, undecided⟩

section Action

variable (listed : rules[state.ruleIndex]? = some rule) (final : rule.race = false)
  (hit : (sequentialAt router rules state.ruleIndex).matchRule router rule = true)

include listed final hit

/-- The rule gives its result when no rule is armed. -/
theorem produced_of_effect (undecided : Undecided router rules state.ruleIndex state.armedRules)
    (unarmed : state.armedRules = [])
    (effect : (sequentialAt router rules state.ruleIndex).effect router rule = some result) :
    Produced router schedule rules state result := by
  rw [unarmed] at undecided
  exact .final state.ruleIndex rule listed final (steady.committed_eq_none undecided)
    (.inTurn ((committed_of_hit listed hit).trans effect))

variable (waits : ∀ armed ∈ state.armedRules, armed.futures ≠ [])
  (undecided : Undecided router rules state.ruleIndex state.armedRules)

include waits undecided

/-- An action that ends nothing and changes nothing. -/
theorem skip (effect : (sequentialAt router rules state.ruleIndex).effect router rule = none)
    (same : (sequentialAt router rules state.ruleIndex).apply router state.ruleIndex rule =
      sequentialAt router rules state.ruleIndex) :
    Follows router schedule rules state.advance := by
  refine ⟨steady.advance listed (fun _ => (committed_of_hit listed hit).trans effect) waits ?_,
    waits, undecided.succ listed final⟩
  rw [next_of_hit hit, same]

theorem routeOptions (act : rule.action = .routeOptions options) :
    Follows router schedule rules ({ state with
      effectiveOptions := applyDNSRouteOptions state.effectiveOptions options } :
        WalkState).advance := by
  have effect : (sequentialAt router rules state.ruleIndex).effect router rule = none := by
    rw [effect, act]
  have next := next_of_hit hit state.ruleIndex
  rw [apply, act] at next
  refine ⟨steady.next listed (fun _ => (committed_of_hit listed hit).trans effect) waits
    ⟨le_rfl, fun _ member => member⟩ rfl ?_ ?_ ?_ rfl rfl rfl, waits, undecided.succ listed final⟩
  · rw [next, ← steady.tracks.options]
    rfl
  · rw [next]
    exact steady.tracks.anonymous
  · rw [next]
    exact steady.tracks.named

theorem evaluate (act : rule.action = .evaluate server tag speculative options) :
    Follows router schedule rules (state.evaluate router server tag speculative options) := by
  unfold WalkState.evaluate
  have effect : (sequentialAt router rules state.ruleIndex).effect router rule = none := by
    rw [effect, act]
  have quiet (_ : rule.race = false) : committed router rules state.ruleIndex = none :=
    (committed_of_hit listed hit).trans effect
  have next := next_of_hit hit state.ruleIndex
  rw [apply, act] at next
  cases loaded : router.transport server with
  | none =>
    simp only [loaded] at next ⊢
    split_ifs at next ⊢ with anonymous
    · refine ⟨steady.next listed quiet waits ⟨le_rfl, fun _ member => member⟩ rfl ?_ ?_ ?_ rfl rfl rfl,
        waits, undecided.succ listed final⟩
      · rw [next]
        exact steady.tracks.options
      · rw [next]
        rfl
      · rw [next]
        exact steady.tracks.named
    · exact ⟨steady.advance listed quiet waits next, waits, undecided.succ listed final⟩
  | some transport =>
    simp only [loaded] at next ⊢
    split_ifs with drains anonymous
    · exact drain steady waits undecided
    · rw [if_pos anonymous] at next
      refine ⟨steady.next listed quiet waits ⟨le_rfl, fun _ member => mem_append_left _ member⟩
        rfl ?_ ?_ ?_ rfl rfl rfl, waits, undecided.succ listed final⟩
      · rw [next]
        exact steady.tracks.options
      · rw [next, ← steady.tracks.options]
        rfl
      · rw [next]
        exact steady.tracks.named
    · rw [if_neg anonymous] at next
      refine ⟨steady.next listed quiet waits ⟨le_rfl, fun _ member => mem_append_left _ member⟩
        rfl ?_ ?_ (fun other => ?_) rfl rfl rfl, waits, undecided.succ listed final⟩
      · rw [next]
        exact steady.tracks.options
      · rw [next]
        exact steady.tracks.anonymous
      · rw [next]
        by_cases same : other = tag
        · subst same
          rw [← steady.tracks.options]
          simp [launchDNSEvaluate, advance]
        · simpa [launchDNSEvaluate, advance, same] using steady.tracks.named other

theorem route (act : rule.action = .route server speculative options)
    {transport : DNSTransport} {queryOptions : DNSQueryOptions}
    (resolves : router.resolveDNSRoute server options state.effectiveOptions =
      some (transport, queryOptions)) :
    Follows router schedule rules (state.route speculative transport queryOptions) := by
  rw [steady.tracks.options] at resolves
  unfold WalkState.route
  split
  next armed =>
    have ahead : ∃ other < state.ruleIndex, ∃ race, rules[other]? = some race ∧
        race.race = true := by
      obtain ⟨first, member⟩ := exists_mem_of_ne_nil state.armedRules (by simpa using armed)
      have holds := steady.armed first member
      refine ⟨first.ruleIndex, lt_of_le_of_ne holds.reached fun same => ?_, first.rule, holds.listed,
        holds.races⟩
      have present := holds.listed
      rw [same, listed, some.injEq] at present
      exact absurd (final.symm.trans (present ▸ holds.races)) (by simp)
    split
    next launches =>
      rw [Bool.and_eq_true] at launches
      rw [launches.1] at act
      refine ⟨⟨steady.tracks.congr rfl rfl rfl rfl, fun armed member => ?_, ?_⟩, waits, undecided⟩
      · exact (steady.armed armed member).later
          ⟨le_rfl, fun _ inside => mem_append_left _ inside⟩ rfl
      · rintro future ⟨⟩
        exact ⟨rule, server, options, listed, act, hit, resolves, rfl, ahead⟩
    · exact drain steady waits undecided
  next unarmed =>
    have unarmed : state.armedRules = [] := by simpa using unarmed
    have effect : (sequentialAt router rules state.ruleIndex).effect router rule =
        some (finishPendingExchange router { transport, options := queryOptions }) := by
      rw [effect, act]
      dsimp only
      rw [resolves]
      rfl
    have inTurn := produced_of_effect steady listed final hit undecided unarmed effect
    split
    next future kept =>
      split
      next same =>
        refine ⟨steady, waits, unarmed, ?_⟩
        obtain ⟨rule', server', options', present, act', hit', resolves', site, ahead⟩ :=
          steady.terminal future kept
        rw [same] at present hit' resolves' site ahead
        obtain rfl : rule = rule' := some.inj (listed.symm.trans present)
        rw [unarmed] at undecided
        exact .final state.ruleIndex rule listed final (steady.committed_eq_none undecided)
          (.speculative rule server' options' future.toLaunch listed act' hit' resolves' site ahead
            rfl)
      · exact ⟨steady, waits, unarmed, inTurn⟩
    · exact ⟨steady, waits, unarmed, inTurn⟩

end Action

/-- The result of a respond action with what is stored under its tag. -/
theorem respond_tagged (accepted : Accepted rules) (ledger : Ledger router rules state)
    (listed : rules[index]? = some rule) (reached : index ≤ state.ruleIndex)
    (timely : ∀ future ∈ state.taggedFutures rule, future.id ∈ state.settled)
    (act : rule.action = .respond) (tagged : rule.matchResponseTag = some tag) :
    (sequentialAt router rules index).effect router rule =
      some (respondWith (state.namedResponses tag) (state.namedTransports tag)) := by
  obtain ⟨response, transport⟩ := steady.named_response ledger accepted listed reached timely
    (DNSRule.mem_matchResponseTags tagged)
  have responds : (sequentialAt router rules index).respondLaunch rule =
      (sequentialAt router rules index).named tag := by
    rw [respondLaunch, tagged]
  rw [effect_respond act responds, response]
  cases present : (sequentialAt router rules index).named tag with
  | none => rfl
  | some launch => rw [transport (by simp [present]), present]

/-- The result of a respond action with the anonymous response. -/
theorem respond_untagged
    (resolved : ∀ future ∈ state.anonymousFuture, schedule future.id ≤ state.clock)
    (act : rule.action = .respond) (untagged : rule.matchResponseTag = none) :
    (sequentialAt router rules state.ruleIndex).effect router rule =
      some (respondWith (state.anonymousResponse router schedule).1
        (state.anonymousFuture.map (·.transport))) := by
  have responds : (sequentialAt router rules state.ruleIndex).respondLaunch rule =
      state.anonymousFuture.map Future.toLaunch := by
    rw [respondLaunch, untagged, steady.tracks.anonymous]
  rw [effect_respond act responds, anonymousResponse, viewOf_of_resolved resolved]
  cases state.anonymousFuture <;> rfl

theorem respond (accepted : Accepted rules) (ledger : Ledger router rules state)
    (listed : rules[state.ruleIndex]? = some rule) (final : rule.race = false)
    (hit : (sequentialAt router rules state.ruleIndex).matchRule router rule = true)
    (timely : ∀ future ∈ state.taggedFutures rule, future.id ∈ state.settled)
    (resolved : rule.matchResponseAnonymous = true →
      ∀ future ∈ state.anonymousFuture, schedule future.id ≤ state.clock)
    (undecided : Undecided router rules state.ruleIndex state.armedRules)
    (unarmed : state.armedRules = []) (act : rule.action = .respond) :
    Follows router schedule rules (state.respond router schedule rule) := by
  unfold WalkState.respond
  cases tagged : rule.matchResponseTag with
  | some tag =>
    exact ⟨steady, produced_of_effect steady listed final hit undecided unarmed
      (respond_tagged steady accepted ledger listed le_rfl timely act tagged)⟩
  | none =>
    have polled := awaitAnonymous_polled schedule state rule
    dsimp only
    split
    next future later polls =>
      rw [polls] at polled
      obtain ⟨clock, grown, rfl⟩ := polled
      rw [awaitAnonymous] at polls
      split at polls
      · cases polls
      · have member := (unresolved_of_firstUnresolved polls).1
        rw [mem_toList] at member
        refine ⟨steady.setClock grown, ?_, ledger.anonymous future member, undecided⟩
        intro armed inside
        rw [show (state.setClock clock).armedRules = [] from unarmed] at inside
        cases inside
    next later polls =>
      rw [polls] at polled
      obtain ⟨clock, grown, rfl⟩ := polled
      have visible : ∀ future ∈ (state.setClock clock).anonymousFuture,
          schedule future.id ≤ (state.setClock clock).clock := by
        intro future member
        rw [awaitAnonymous] at polls
        split at polls
        next binds =>
          exact (resolved (accepted.respond_anonymous listed act tagged binds) future member).trans
            grown
        · exact resolved_of_firstUnresolved polls future (by rwa [mem_toList])
      have steady' := steady.setClock grown
      have effect := respond_untagged steady' visible act tagged
      have produced := produced_of_effect steady' listed final hit undecided unarmed effect
      obtain ⟨clock', grown', left⟩ :=
        (state.setClock clock).anonymousResponse_polled router schedule
      rw [left]
      exact ⟨steady'.setClock grown', produced.later ⟨grown', fun _ member => member⟩⟩

section

variable (accepted : Accepted rules) (ledger : Ledger router rules state)
  (timely : ∀ future ∈ state.taggedFutures rule, future.id ∈ state.settled)

include accepted ledger timely

theorem applyAction
    (hit : (sequentialAt router rules state.ruleIndex).matchRule router rule = true)
    (sound : (Control.matchRule rule).Sound router schedule rules state) :
    Follows router schedule rules (state.applyAction router schedule rule) := by
  obtain ⟨listed, final, resolved, waits, undecided⟩ := sound
  fun_cases WalkState.applyAction router schedule state rule with
  | case1 options act => exact routeOptions steady listed final hit waits undecided act
  | case2 server tag speculative options act =>
    exact evaluate steady listed final hit waits undecided act
  | case4 act unarmed =>
    exact respond steady accepted ledger listed final hit timely resolved undecided
      (by simpa using unarmed) act
  | case5 server speculative options act resolves =>
    refine skip steady listed final hit waits undecided ?_ (by rw [apply, act])
    rw [effect, act]
    dsimp only
    rw [← steady.tracks.options, resolves]
    rfl
  | case6 server speculative options act transport queryOptions resolves =>
    exact route steady listed final hit waits undecided act resolves
  | case8 action act unarmed method | case9 action act unarmed method =>
    exact ⟨steady, produced_of_effect steady listed final hit undecided (by simpa using unarmed)
      (by rw [effect, act]; dsimp only; rw [method])⟩
  | case10 action act unarmed method =>
    refine skip steady listed final hit waits undecided ?_ (by rw [apply, act])
    rw [effect, act]
    dsimp only
    rw [method]
  | case12 response act unarmed =>
    exact ⟨steady, produced_of_effect steady listed final hit undecided (by simpa using unarmed)
      (by rw [effect, act])⟩
  | _ => exact drain steady waits undecided

theorem matchRule (sound : (Control.matchRule rule).Sound router schedule rules state) :
    Follows router schedule rules (state.matchRule router schedule rule) := by
  obtain ⟨listed, final, resolved, waits, undecided⟩ := sound
  have value : (rule.rule.matchOn (router.matchMetadata
      (state.anonymousResponse router schedule).1 state.namedResponses)).1 =
      (sequentialAt router rules state.ruleIndex).matchRule router rule := by
    refine steady.matchOn_eq ledger accepted listed le_rfl timely fun bound => ?_
    rw [anonymousResponse, viewOf_of_resolved (resolved bound), ← steady.tracks.anonymous]
    cases state.anonymousFuture <;> rfl
  obtain ⟨clock, grown, left⟩ := state.anonymousResponse_polled router schedule
  unfold WalkState.matchRule
  dsimp only
  rw [left, show (state.setClock clock).namedResponses = state.namedResponses from rfl, value]
  cases hit : (sequentialAt router rules state.ruleIndex).matchRule router rule with
  | true =>
    refine applyAction (steady.setClock grown) accepted (ledger.congr rfl) timely hit
      ⟨listed, final, fun bound future member => ?_, waits, undecided⟩
    exact (resolved bound future member).trans grown
  | false =>
    exact ⟨(steady.setClock grown).advance listed (fun _ => committed_of_miss listed hit) waits
      (next_of_miss hit _), waits, undecided.succ listed final⟩

end

theorem endOfRules (beyond : rules[state.ruleIndex]? = none)
    (sound : Control.walk.Sound router schedule rules state) :
    Follows router schedule rules (state.endOfRules router) := by
  obtain ⟨waits, undecided⟩ := sound
  unfold WalkState.endOfRules
  split
  · exact drain steady waits undecided
  next unarmed =>
    have unarmed : state.armedRules = [] := by simpa using unarmed
    have past := List.getElem?_eq_none_iff.mp beyond
    refine ⟨steady, waits, unarmed, .default (fun index => ?_) ?_⟩
    · by_cases before : index < state.ruleIndex
      · rw [unarmed] at undecided
        exact steady.committed_eq_none undecided index before
      · exact committed_of_length_le (by omega)
    · rw [defaultResult, ← sequentialAt_of_length_le past, ← steady.tracks.options]

end Follows

/-! ### Sweeping the armed rules -/

theorem Undecided.subset {armed other : List ArmedRule}
    (undecided : Undecided router rules bound armed) (subset : ∀ member ∈ armed, member ∈ other) :
    Undecided router rules bound other := by
  intro index before rule present races
  refine (undecided index before rule present races).imp_right ?_
  rintro ⟨member, inside, same⟩
  exact ⟨member, subset member inside, same⟩

theorem Undecided.decided {rest : List ArmedRule}
    (undecided : Undecided router rules bound (armed :: rest))
    (none : committed router rules armed.ruleIndex = none) : Undecided router rules bound rest := by
  intro index before rule present races
  rcases undecided index before rule present races with decided | ⟨member, inside, same⟩
  · exact .inl decided
  · rcases mem_cons.mp inside with rfl | inside
    · exact .inl (same ▸ none)
    · exact .inr ⟨member, inside, same⟩

namespace AfterSweep.Sound

variable {after : AfterSweep} {armed : ArmedRule} {rest : List ArmedRule}

/-- An armed rule is taken out of the list. -/
theorem takeOut {others : List ArmedRule} (member : armed ∈ others)
    (sound : after.Sound router schedule rules state others)
    (subset : ∀ other ∈ others, other ∈ armed :: rest) :
    after.Sound router schedule rules state (armed :: rest) := by
  cases after with
  | nextRule => exact ⟨sound.1, sound.2.subset subset⟩
  | resume suspension =>
    cases suspension with
    | await future => exact ⟨sound.1, sound.2.subset subset⟩
    | drain => exact Undecided.subset sound subset
    | pending exchange =>
      rw [sound.1] at member
      cases member

/-- The rule that was taken out is decided without a result. -/
theorem decided (sound : after.Sound router schedule rules state (armed :: rest))
    (none : committed router rules armed.ruleIndex = none) :
    after.Sound router schedule rules state rest := by
  cases after with
  | nextRule => exact ⟨sound.1, sound.2.decided none⟩
  | resume suspension =>
    cases suspension with
    | await future => exact ⟨sound.1, sound.2.decided none⟩
    | drain => exact Undecided.decided sound none
    | pending exchange => exact absurd sound.1 (by simp)

end AfterSweep.Sound

namespace Armed

variable {armed : ArmedRule} (holds : Armed router schedule rules state armed)
  (resolved : ∀ future ∈ armed.futures, schedule future.id ≤ state.clock)

include holds resolved

/-- A ready armed rule sees the anonymous future that it bound as resolved. -/
theorem anonymous_resolved : ∀ future ∈ armed.anonymousFuture, schedule future.id ≤ state.clock :=
  fun future member => (holds.anonymousPending future member).elim (resolved future) id

/-- What a ready armed rule produces. -/
theorem produced (steady : Steady router schedule rules state)
    (hit : (sequentialAt router rules armed.ruleIndex).matchRule router armed.rule = true)
    (effect : (sequentialAt router rules armed.ruleIndex).effect router armed.rule = some result) :
    Produced router schedule rules state result := by
  refine .race armed.ruleIndex armed.rule holds.listed holds.races (fun launch member => ?_)
    (fun index before => steady.tracks.passed index (before.trans_le holds.reached))
    ((committed_of_hit holds.listed hit).trans effect)
  obtain ⟨future, inside, same, visible⟩ := holds.bound launch member
  exact ⟨future, inside, same, visible.elim (resolved future) id⟩

section

variable (accepted : Accepted rules) (steady : Steady router schedule rules state)
  (ledger : Ledger router rules state)
  (timely : ∀ future ∈ state.taggedFutures armed.rule, future.id ∈ state.settled)

include accepted steady ledger timely

/-- A ready armed rule matches as it does in the sequential walk. -/
theorem matchOn_eq :
    (armed.rule.rule.matchOn (router.matchMetadata (state.armedAnonymous router schedule armed).1
      state.namedResponses)).1 =
      (sequentialAt router rules armed.ruleIndex).matchRule router armed.rule := by
  refine steady.matchOn_eq ledger accepted holds.listed holds.reached timely fun bound => ?_
  have launch := holds.anonymous
  rw [if_pos bound] at launch
  rw [armedAnonymous, holds.binds, if_pos bound,
    viewOf_of_resolved (holds.anonymous_resolved resolved), ← launch]
  cases armed.anonymousFuture <;> rfl

/-- A respond action of a ready armed rule returns what it does in the sequential walk. -/
theorem respond (act : armed.rule.action = .respond) :
    (sequentialAt router rules armed.ruleIndex).effect router armed.rule =
      some (respondWith (state.armedResponse router schedule armed).1
        (state.armedResponse router schedule armed).2.1) := by
  cases tagged : armed.rule.matchResponseTag with
  | some tag =>
    rw [Follows.respond_tagged steady accepted ledger holds.listed holds.reached timely act tagged,
      armedResponse, tagged]
  | none =>
    have binds := (accepted.race (mem_of_getElem? holds.listed) holds.races).2.2
    have bound := accepted.respond_anonymous holds.listed act tagged binds
    have launch := holds.anonymous
    rw [if_pos bound] at launch
    have responds : (sequentialAt router rules armed.ruleIndex).respondLaunch armed.rule =
        armed.anonymousFuture.map Future.toLaunch := by
      rw [respondLaunch, tagged, launch]
    rw [effect_respond act responds, armedResponse, tagged]
    cases present : armed.anonymousFuture with
    | some future =>
      have view : (state.viewOf router schedule (some future)).1 = some future >>= fun member =>
          router.view member.toLaunch := by
        refine viewOf_of_resolved ?_
        rw [← present]
        exact holds.anonymous_resolved resolved
      rw [view]
      rfl
    | none =>
      have unbound : (sequentialAt router rules armed.ruleIndex).boundLaunches armed.rule = [] := by
        rw [boundLaunches, accepted.respond_unbound holds.listed act tagged, if_pos bound,
          ← launch, present]
        rfl
      have alone : armed.futures = [] := by
        refine eq_nil_iff_forall_not_mem.mpr fun future member => ?_
        have := holds.pending future member
        rw [unbound] at this
        cases this
      have anonymous := steady.tracks.anonymous
      rw [← holds.swept alone, ← launch, present] at anonymous
      rw [map_eq_none_iff.mp anonymous]
      rfl

end

end Armed

namespace Follows

section

variable (steady : Steady router schedule rules state)

include steady

theorem sweep (accepted : Accepted rules)
    (sound : (Control.sweep index after).Sound router schedule rules state) :
    Follows router schedule rules (state.sweep schedule index after) := by
  obtain ⟨waits, returns⟩ := sound
  unfold WalkState.sweep
  cases present : state.armedRules[index]? with
  | none =>
    have whole : state.armedRules.take index = state.armedRules :=
      take_of_length_le (List.getElem?_eq_none_iff.mp present)
    rw [whole] at waits
    cases after with
    | nextRule =>
      obtain ⟨⟨rule, listed, races⟩, undecided⟩ := returns
      have final := (accepted.race (mem_of_getElem? listed) races).1
      refine ⟨steady.advance listed (fun other => ?_) waits (next_of_final final _ _),
        waits, undecided⟩
      exact absurd (races.symm.trans other) (by simp)
    | resume suspension => exact ⟨steady, waits, returns⟩
  | some armed =>
    have polled := firstUnresolved_polled schedule state armed.futures
    dsimp only
    split
    next future later polls =>
      rw [polls] at polled
      obtain ⟨clock, grown, rfl⟩ := polled
      refine ⟨steady.setClock grown, fun other member => ?_,
        returns.later ⟨grown, fun _ inside => inside⟩ rfl⟩
      have member : other ∈ state.armedRules.take index ++ [armed] := by
        rw [show (state.setClock clock).armedRules = state.armedRules from rfl,
          take_add_one, present] at member
        exact member
      rcases mem_append.mp member with old | new
      · exact waits other old
      · rw [mem_singleton.mp new]
        exact ne_nil_of_mem (unresolved_of_firstUnresolved polls).1
    next later polls =>
      rw [polls] at polled
      have resolved := resolved_of_firstUnresolved polls
      obtain ⟨clock, grown, rfl⟩ := polled
      have member := mem_of_getElem? present
      have moved : Later state { state.setClock clock with
          armedRules := state.armedRules.eraseIdx index } := ⟨grown, fun _ inside => inside⟩
      refine ⟨steady.later moved rfl rfl rfl rfl rfl rfl fun _ inside =>
        mem_of_mem_eraseIdx inside, (steady.armed armed member).later moved rfl, resolved, ?_, ?_⟩
      · intro other inside
        refine waits other ?_
        rwa [← take_eraseIdx_eq_take_of_le state.armedRules index index le_rfl]
      · refine (returns.takeOut member fun other inside => ?_).later moved rfl
        obtain ⟨position, listed⟩ := getElem?_of_mem inside
        by_cases here : position = index
        · subst here
          rw [present] at listed
          exact some.inj listed ▸ mem_cons_self
        · exact mem_cons_of_mem _ (mem_eraseIdx_iff_getElem?.mpr ⟨position, here, listed⟩)

/-- An armed rule that gives no result. -/
theorem dismiss (sound : (Control.matchArmed armed index after).Sound router schedule rules state)
    (none : committed router rules armed.ruleIndex = none) :
    Follows router schedule rules { control := .sweep index after, state } :=
  ⟨steady, sound.2.2.1, sound.2.2.2.decided none⟩

/-- A committed armed rule whose result is still to be fetched. -/
theorem commitPending {exchange : PendingExchange} (after : AfterSweep)
    (produced : Produced router schedule rules state (finishPendingExchange router exchange)) :
    Follows router schedule rules (state.commitPending after exchange) := by
  cases after with
  | nextRule =>
    have moved : Later state { state with armedRules := [] } := ⟨le_rfl, fun _ inside => inside⟩
    refine ⟨steady.later moved rfl rfl rfl rfl rfl rfl fun _ inside => ?_, fun _ inside => ?_, rfl,
      produced.later moved⟩
    · cases inside
    · cases inside
  | resume suspension => exact ⟨steady, produced⟩

section

variable (accepted : Accepted rules) (ledger : Ledger router rules state)
  (sound : (Control.matchArmed armed index after).Sound router schedule rules state)
  (timely : ∀ future ∈ state.taggedFutures armed.rule, future.id ∈ state.settled)

include accepted ledger sound timely

theorem applyArmed
    (hit : (sequentialAt router rules armed.ruleIndex).matchRule router armed.rule = true) :
    Follows router schedule rules (state.applyArmed router schedule armed index after) := by
  obtain ⟨holds, resolved, waits, returns⟩ := id sound
  have commits {result : ExchangeResult} (effect : (sequentialAt router rules
      armed.ruleIndex).effect router armed.rule = some result) :
      Produced router schedule rules state result :=
    holds.produced resolved steady hit effect
  have skips (effect : (sequentialAt router rules armed.ruleIndex).effect router armed.rule = none) :
      Follows router schedule rules { control := .sweep index after, state } :=
    dismiss steady sound ((committed_of_hit holds.listed hit).trans effect)
  unfold WalkState.applyArmed
  cases act : armed.rule.action with
  | respond =>
    obtain ⟨clock, grown, same⟩ := armedResponse_polled router schedule state armed
    have produced := commits (holds.respond resolved accepted steady ledger timely act)
    dsimp only
    rw [same]
    exact ⟨steady.setClock grown, produced.later ⟨grown, fun _ inside => inside⟩⟩
  | route server speculative options =>
    dsimp only
    cases resolves : router.resolveDNSRoute server options armed.options with
    | none =>
      refine skips ?_
      rw [effect, act]
      dsimp only
      rw [← holds.options, resolves]
      rfl
    | some found =>
      refine commitPending steady after (commits ?_)
      rw [effect, act]
      dsimp only
      rw [← holds.options, resolves]
      rfl
  | reject action =>
    dsimp only
    cases method : action.method with
    | default | drop =>
      exact ⟨steady, commits (by rw [effect, act]; dsimp only; rw [method])⟩
    | reply => exact skips (by rw [effect, act]; dsimp only; rw [method])
  | predefined response => exact ⟨steady, commits (by rw [effect, act])⟩
  | routeOptions | evaluate => exact skips (by rw [effect, act])

theorem matchArmed :
    Follows router schedule rules (state.matchArmed router schedule armed index after) := by
  obtain ⟨holds, resolved, waits, returns⟩ := id sound
  have value := holds.matchOn_eq resolved accepted steady ledger timely
  obtain ⟨clock, grown, same⟩ := armedAnonymous_polled router schedule state armed
  have moved : Later state (state.setClock clock) := ⟨grown, fun _ inside => inside⟩
  have sound' : (Control.matchArmed armed index after).Sound router schedule rules
      (state.setClock clock) :=
    ⟨holds.later moved rfl, fun future member => (resolved future member).trans grown, waits,
      returns.later moved rfl⟩
  unfold WalkState.matchArmed
  dsimp only
  rw [same, show (state.setClock clock).namedResponses = state.namedResponses from rfl, value]
  cases hit : (sequentialAt router rules armed.ruleIndex).matchRule router armed.rule with
  | true => exact applyArmed (steady.setClock grown) accepted (ledger.congr rfl) sound' timely hit
  | false => exact dismiss (steady.setClock grown) sound' (committed_of_miss holds.listed hit)

end

/-! ### Suspensions -/

theorem resume (sound : (Control.resume suspension).Sound router schedule rules state) :
    Follows router schedule rules
      { control := .sweep 0 (.resume suspension)
        state := state.settleDNSFutures router schedule } := by
  have settles : state.Settles (state.settleDNSFutures router schedule) :=
    state.settleDNSFutures_settles
  have moved : Later state (state.settleDNSFutures router schedule) :=
    ⟨settles.clock, fun _ inside => settles.futures ▸ inside⟩
  refine ⟨steady.settles settles, by simp, ?_⟩
  rw [settles.armedRules]
  exact Suspension.Sound.later sound.2 moved settles.ruleIndex

theorem decide (sound : (Control.decide suspension).Sound router schedule rules state) :
    Follows router schedule rules (state.decide schedule suspension) := by
  obtain ⟨waits, waiting⟩ := sound
  cases suspension with
  | await future =>
    have steady' := steady.setClock (Nat.le_succ state.clock)
    unfold WalkState.decide
    dsimp only [WalkState.resolved]
    split
    · exact ⟨steady', waits, waiting.2⟩
    · exact ⟨steady', waits, waiting⟩
  | drain =>
    unfold WalkState.decide
    dsimp only
    split
    · exact ⟨steady, waits, waiting⟩
    · exact ⟨steady, waits, waiting⟩
  | pending exchange => exact ⟨steady, waiting.2⟩

end

/-! ### The walk -/

theorem step (accepted : Accepted rules) {walk : Walk} (located : Located router rules walk)
    (follows : Follows router schedule rules walk) (timely : walk.Timely) :
    Follows router schedule rules (walk.step router schedule rules) := by
  obtain ⟨control, state⟩ := walk
  obtain ⟨steady, sound⟩ := follows
  have ledger := located.ledger
  unfold Walk.step
  cases control with
  | walk =>
    dsimp only
    split
    next rule present => exact visitRule steady accepted ledger present sound
    next beyond => exact endOfRules steady beyond sound
  | matchRule rule => exact matchRule steady accepted ledger timely sound
  | sweep index after => exact sweep steady accepted sound
  | matchArmed armed index after => exact matchArmed steady accepted ledger sound timely
  | resume suspension => exact resume steady sound
  | decide suspension => exact decide steady sound
  | finish exchange | done result => exact ⟨steady, sound⟩

theorem start : Follows router schedule rules (Walk.start router) := by
  refine ⟨⟨⟨rfl, rfl, fun _ => rfl, fun index before => ?_⟩, fun armed member => ?_,
    fun future member => ?_⟩, fun armed member => ?_, fun index before => ?_⟩
  · exact absurd before (Nat.not_lt_zero index)
  · cases member
  · cases member
  · cases member
  · exact absurd before (Nat.not_lt_zero index)

/-- A walk of an accepted list that is timely follows the sequential walk. -/
theorem run (accepted : Accepted rules)
    (timely : ∀ count, (Walk.run router schedule rules count).Timely) (count : Nat) :
    Follows router schedule rules (Walk.run router schedule rules count) := by
  have both := Machine.invariant_run
    (fun walk => Located router rules walk ∧ Follows router schedule rules walk)
    ⟨⟨Ledger.start, trivial⟩, start⟩
    (fun walk kept timely => ⟨kept.1.step accepted, kept.2.step accepted kept.1 timely⟩) timely count
  exact both.2

end Follows

end SingBox
