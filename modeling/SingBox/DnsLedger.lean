/-
This file is the bookkeeping of a walk: what a poll and a settling can do to the
state, and the ledger of the launched exchanges. Every walk of an accepted list
keeps the ledger, whatever the schedule: a rule launches at most one exchange, a
tag refers to the exchange of the rule that defines it, and the response that is
stored under a tag is the response of that exchange.
-/

import SingBox.Log
import SingBox.DnsSequential

namespace SingBox

open List Function Option WalkState

variable {future : Future} {later : WalkState}

namespace WalkState

variable {router : WalkContext} {schedule : Schedule}

/-! ### Polls -/

/-- Polls only move the clock. -/
def Polled (state later : WalkState) : Prop :=
  ∃ clock, state.clock ≤ clock ∧ later = state.setClock clock

theorem Polled.refl (state : WalkState) : state.Polled state := ⟨state.clock, le_rfl, rfl⟩

variable {first third state : WalkState} {futures : List Future}

theorem Polled.trans {second : WalkState} (one : first.Polled second) (two : second.Polled third) :
    first.Polled third := by
  obtain ⟨clock, later, rfl⟩ := one
  obtain ⟨clock', later', rfl⟩ := two
  exact ⟨clock', later.trans later', rfl⟩

section

variable (router schedule state futures)

theorem resolved_polled (future : Future) : state.Polled (state.resolved schedule future).2 :=
  ⟨state.clock + 1, Nat.le_succ _, rfl⟩

theorem viewOf_polled (future : Option Future) :
    state.Polled (state.viewOf router schedule future).2 := by
  cases future with
  | none => exact .refl state
  | some future => exact resolved_polled schedule state future

theorem anonymousResponse_polled : state.Polled (state.anonymousResponse router schedule).2 :=
  viewOf_polled router schedule state state.anonymousFuture

theorem firstUnresolved_polled : state.Polled (state.firstUnresolved schedule futures).2 := by
  induction futures generalizing state with
  | nil => exact .refl state
  | cons future rest ih =>
    have polled := resolved_polled schedule state future
    rw [firstUnresolved]
    dsimp only
    split
    · exact polled.trans (ih _)
    · exact polled

theorem awaitAnonymous_polled (rule : DNSRule) :
    state.Polled (state.awaitAnonymous schedule rule).2 := by
  unfold awaitAnonymous
  split
  · exact .refl state
  · exact firstUnresolved_polled schedule state _

theorem armedAnonymous_polled (armed : ArmedRule) :
    state.Polled (state.armedAnonymous router schedule armed).2 := by
  unfold armedAnonymous
  split <;> exact viewOf_polled router schedule state _

theorem armedResponse_polled (armed : ArmedRule) :
    state.Polled (state.armedResponse router schedule armed).2.2 := by
  unfold armedResponse
  split
  · exact .refl state
  · split
    · exact viewOf_polled router schedule state _
    · split
      · exact viewOf_polled router schedule state _
      · exact .refl state

theorem allUnresolved_polled : state.Polled (state.allUnresolved schedule futures).2 := by
  induction futures generalizing state with
  | nil => exact .refl state
  | cons future rest ih =>
    exact (resolved_polled schedule state future).trans (ih _)

theorem allUnresolved_subset :
    ∀ future ∈ (state.allUnresolved schedule futures).1, future ∈ futures := by
  induction futures generalizing state with
  | nil => exact fun _ member => member
  | cons first rest ih =>
    intro future member
    rw [allUnresolved] at member
    have inside := ih (state.resolved schedule first).2
    dsimp only at member inside
    split at member
    · exact mem_cons_of_mem _ (inside future member)
    · rcases mem_cons.mp member with rfl | later
      · exact mem_cons_self
      · exact mem_cons_of_mem _ (inside future later)

theorem mem_or_resolved_of_allUnresolved : ∀ future ∈ futures,
    future ∈ (state.allUnresolved schedule futures).1 ∨
      schedule future.id ≤ (state.allUnresolved schedule futures).2.clock := by
  induction futures generalizing state with
  | nil => simp
  | cons first rest ih =>
    intro future member
    obtain ⟨clock, grown, same⟩ :=
      allUnresolved_polled schedule (state.setClock (state.clock + 1)) rest
    have inside := ih (state.setClock (state.clock + 1))
    rw [allUnresolved]
    dsimp only [resolved]
    rcases mem_cons.mp member with rfl | later
    · by_cases visible : schedule future.id ≤ state.clock
      · refine .inr (visible.trans ?_)
        rw [same]
        exact (Nat.le_succ _).trans grown
      · exact .inl (by simp [visible])
    · rcases inside future later with pending | resolved
      · refine .inl ?_
        split
        · exact pending
        · exact mem_cons_of_mem _ pending
      · exact .inr resolved

end

/-- The view of a future that is seen as resolved. -/
theorem viewOf_of_resolved {future : Option Future}
    (resolved : ∀ member ∈ future, schedule member.id ≤ state.clock) :
    (state.viewOf router schedule future).1 = future.bind fun member =>
      router.view member.toLaunch := by
  cases future with
  | none => rfl
  | some future => simp [viewOf, WalkState.resolved, resolved future rfl]

theorem resolved_of_firstUnresolved
    (polls : state.firstUnresolved schedule futures = (none, later)) :
    ∀ future ∈ futures, schedule future.id ≤ later.clock := by
  induction futures generalizing state with
  | nil => simp
  | cons first rest ih =>
    rw [firstUnresolved] at polls
    by_cases visible : schedule first.id ≤ state.clock
    · simp only [resolved, visible, decide_true, if_true] at polls
      intro future member
      rcases mem_cons.mp member with rfl | inside
      · obtain ⟨clock, later', same⟩ :=
          firstUnresolved_polled schedule (state.setClock (state.clock + 1)) rest
        rw [polls] at same
        have grown : state.clock + 1 ≤ later.clock := by
          rw [show later = _ from same]
          exact later'
        omega
      · exact ih polls future inside
    · simp [resolved, visible] at polls

theorem unresolved_of_firstUnresolved
    (polls : state.firstUnresolved schedule futures = (some future, later)) :
    future ∈ futures ∧ state.clock < later.clock ∧ later.clock ≤ schedule future.id := by
  induction futures generalizing state with
  | nil => simp [firstUnresolved] at polls
  | cons first rest ih =>
    rw [firstUnresolved] at polls
    by_cases visible : schedule first.id ≤ state.clock
    · simp only [resolved, visible, decide_true, if_true] at polls
      obtain ⟨member, before, after⟩ := ih polls
      exact ⟨mem_cons_of_mem _ member, (Nat.lt_succ_self _).trans before, after⟩
    · simp only [resolved, visible, decide_false, Bool.false_eq_true, if_false,
        Prod.mk.injEq, some.injEq] at polls
      obtain ⟨rfl, rfl⟩ := polls
      exact ⟨mem_cons_self, Nat.lt_succ_self _, Nat.succ_le_of_lt (not_le.mp visible)⟩

/-! ### Settling -/

/-- Settling moves the clock and stores responses. -/
structure Settles (state later : WalkState) : Prop where
  clock : state.clock ≤ later.clock
  ruleIndex : later.ruleIndex = state.ruleIndex
  effectiveOptions : later.effectiveOptions = state.effectiveOptions
  anonymousFuture : later.anonymousFuture = state.anonymousFuture
  namedFutures : later.namedFutures = state.namedFutures
  futures : later.futures = state.futures
  armedRules : later.armedRules = state.armedRules
  terminalFuture : later.terminalFuture = state.terminalFuture
  terminalIndex : later.terminalIndex = state.terminalIndex

theorem Settles.refl (state : WalkState) : state.Settles state :=
  ⟨le_rfl, rfl, rfl, rfl, rfl, rfl, rfl, rfl, rfl⟩

theorem Settles.trans {second : WalkState} (one : first.Settles second)
    (two : second.Settles third) : first.Settles third where
  clock := one.clock.trans two.clock
  ruleIndex := two.ruleIndex.trans one.ruleIndex
  effectiveOptions := two.effectiveOptions.trans one.effectiveOptions
  anonymousFuture := two.anonymousFuture.trans one.anonymousFuture
  namedFutures := two.namedFutures.trans one.namedFutures
  futures := two.futures.trans one.futures
  armedRules := two.armedRules.trans one.armedRules
  terminalFuture := two.terminalFuture.trans one.terminalFuture
  terminalIndex := two.terminalIndex.trans one.terminalIndex

/-- The four outcomes of a turn of `settleDNSFutures`. -/
theorem settleFuture_cases (state : WalkState) (future : Future) :
    state.settleFuture router schedule future = state ∨
    state.settleFuture router schedule future = state.setClock (state.clock + 1) ∨
    future.tag = "" ∧ state.settleFuture router schedule future =
      { state.setClock (state.clock + 1) with settled := future.id :: state.settled } ∨
    future.tag ≠ "" ∧ state.settleFuture router schedule future =
      { state.setClock (state.clock + 1) with
        settled := future.id :: state.settled
        namedResponses :=
          update state.namedResponses future.tag (router.view future.toLaunch)
        namedTransports :=
          update state.namedTransports future.tag (some future.transport) } := by
  unfold settleFuture
  split
  · exact .inl rfl
  · by_cases visible : schedule future.id ≤ state.clock
    · by_cases anonymous : future.tag = ""
      · exact .inr (.inr (.inl ⟨anonymous, by simp [resolved, visible, anonymous, setClock]⟩))
      · exact .inr (.inr (.inr ⟨anonymous, by simp [resolved, visible, anonymous, setClock]⟩))
    · exact .inr (.inl (by simp [resolved, visible]))

theorem settleFuture_settles (state : WalkState) (future : Future) :
    state.Settles (state.settleFuture router schedule future) := by
  rcases state.settleFuture_cases future with same | same | ⟨_, same⟩ | ⟨_, same⟩
  · rw [same]
    exact .refl state
  all_goals
    rw [same]
    exact ⟨Nat.le_succ _, rfl, rfl, rfl, rfl, rfl, rfl, rfl, rfl⟩

/-- What every turn of `settleDNSFutures` keeps, `settleDNSFutures` keeps. -/
theorem settleDNSFutures_induction {kept : WalkState → Prop} (start : kept state)
    (turn : ∀ later, state.Settles later → kept later → ∀ future ∈ later.futures,
      kept (later.settleFuture router schedule future)) :
    state.Settles (state.settleDNSFutures router schedule) ∧
      kept (state.settleDNSFutures router schedule) := by
  have loop : ∀ (futures : List Future) (later : WalkState), (∀ future ∈ futures,
      future ∈ state.futures) → state.Settles later → kept later →
      state.Settles (futures.foldl (settleFuture router schedule) later) ∧
        kept (futures.foldl (settleFuture router schedule) later) := by
    intro futures
    induction futures with
    | nil => exact fun later _ settles holds => ⟨settles, holds⟩
    | cons future rest ih =>
      intro later inside settles holds
      refine ih _ (fun other member => inside other (mem_cons_of_mem _ member))
        (settles.trans (later.settleFuture_settles future)) (turn later settles holds future ?_)
      rw [settles.futures]
      exact inside future mem_cons_self
  exact loop state.futures state (fun _ member => member) (.refl state) start

theorem settleDNSFutures_settles (state : WalkState) :
    state.Settles (state.settleDNSFutures router schedule) :=
  (settleDNSFutures_induction (Settles.refl state) fun later _ settles future _ =>
    settles.trans (later.settleFuture_settles future)).1

end WalkState

/-! ### The ledger -/

/-- Which rule launched an exchange: an evaluate rule the walk has passed, or the speculative
route rule that the walk keeps as the terminal one. -/
inductive LaunchedBy (rules : List DNSRule) (ruleIndex : Nat) (terminalFuture : Option Future)
    (terminalIndex : Nat) (future : Future) : Prop where
  | evaluate (rule : DNSRule) (server : String) (speculative : Bool)
      (options : RuleActionDNSRouteOptions) (listed : rules[future.site]? = some rule)
      (launches : rule.action = .evaluate server future.tag speculative options)
      (passed : future.site < ruleIndex)
  | terminal (rule : DNSRule) (listed : rules[future.site]? = some rule)
      (launches : rule.action.routeSpeculative = true) (untagged : future.tag = "")
      (kept : terminalFuture = some future) (site : terminalIndex = future.site)

/-- The exchanges of a walk and what the state says about them. -/
structure Ledger (router : WalkContext) (rules : List DNSRule) (state : WalkState) : Prop where
  ids : ∀ (position : Nat) (future : Future), state.futures[position]? = some future →
    future.id = position
  settled : ∀ id ∈ state.settled, id < state.futures.length
  launched : ∀ future ∈ state.futures,
    LaunchedBy rules state.ruleIndex state.terminalFuture state.terminalIndex future
  once : (state.futures.map (·.site)).Nodup
  named : ∀ tag future, state.namedFutures tag = some future →
    future ∈ state.futures ∧ future.tag = tag ∧ tag ≠ ""
  anonymous : ∀ future, state.anonymousFuture = some future → future ∈ state.futures
  tagged : ∀ future ∈ state.futures, future.tag ≠ "" →
    state.namedFutures future.tag = some future
  response : ∀ tag future, state.namedFutures tag = some future → future.id ∈ state.settled →
    state.namedResponses tag = router.view future.toLaunch ∧
      state.namedTransports tag = some future.transport
  unnamed : ∀ tag, state.namedFutures tag = none → state.namedResponses tag = none

namespace Ledger

variable {router : WalkContext} {schedule : Schedule} {rules : List DNSRule} {state : WalkState}

theorem start : Ledger router rules (Walk.start router).state where
  ids := by simp [Walk.start]
  settled := by simp [Walk.start]
  launched := by simp [Walk.start]
  once := nodup_nil
  named := by simp [Walk.start]
  anonymous := by simp [Walk.start]
  tagged := by simp [Walk.start]
  response := by simp [Walk.start]
  unnamed := by simp [Walk.start]

section

variable (ledger : Ledger router rules state)

include ledger

/-- The ledger does not depend on the clock, the armed rules and the query options. -/
theorem congr {other : WalkState}
    (same : other = { state with
      effectiveOptions := other.effectiveOptions
      armedRules := other.armedRules
      clock := other.clock }) : Ledger router rules other := by
  rw [same]
  exact { ledger with }

theorem polled (polls : state.Polled later) : Ledger router rules later := by
  obtain ⟨clock, _, rfl⟩ := polls
  exact ledger.congr rfl

theorem eq_of_id {first second : Future} (member : first ∈ state.futures)
    (member' : second ∈ state.futures) (same : first.id = second.id) : first = second := by
  obtain ⟨position, listed⟩ := getElem?_of_mem member
  obtain ⟨position', listed'⟩ := getElem?_of_mem member'
  have here := ledger.ids _ _ listed
  have there := ledger.ids _ _ listed'
  obtain rfl : position = position' := by omega
  exact some.inj (listed.symm.trans listed')

theorem id_lt (member : future ∈ state.futures) : future.id < state.futures.length := by
  obtain ⟨position, listed⟩ := getElem?_of_mem member
  rw [ledger.ids _ _ listed]
  exact (List.getElem?_eq_some_iff.mp listed).1

theorem mem_of_bound {rule : DNSRule} (bound : future ∈ state.boundFutures rule) :
    future ∈ state.futures := by
  rcases mem_append.mp bound with tagged | anonymous
  · obtain ⟨tag, _, refers⟩ := mem_filterMap.mp tagged
    exact (ledger.named tag future refers).1
  · rw [mem_toList, boundAnonymous] at anonymous
    split at anonymous
    · exact ledger.anonymous future anonymous
    · cases anonymous

theorem settleFuture (member : future ∈ state.futures) :
    Ledger router rules (state.settleFuture router schedule future) := by
  have settled : ∀ id ∈ future.id :: state.settled, id < state.futures.length := by
    intro id inside
    rcases mem_cons.mp inside with rfl | old
    · exact ledger.id_lt member
    · exact ledger.settled id old
  rcases state.settleFuture_cases future with same | same | ⟨anonymous, same⟩ | ⟨tagged, same⟩
  · rw [same]
    exact ledger
  · rw [same]
    exact ledger.congr rfl
  · rw [same]
    refine { ledger with settled, response := fun tag other refers inside => ?_ }
    obtain ⟨listed, here, named⟩ := ledger.named tag other refers
    rcases mem_cons.mp inside with equal | old
    · rw [ledger.eq_of_id listed member equal] at here
      exact absurd (here.symm.trans anonymous) named
    · exact ledger.response tag other refers old
  · rw [same]
    have own := ledger.tagged future member tagged
    refine { ledger with
      settled
      response := fun tag other refers inside => ?_
      unnamed := fun tag none => ?_ }
    · by_cases here : tag = future.tag
      · subst here
        obtain rfl : future = other := some.inj (own.symm.trans refers)
        exact ⟨update_self .., update_self ..⟩
      · obtain ⟨listed, tagOf, _⟩ := ledger.named tag other refers
        have old : other.id ∈ state.settled := by
          refine (mem_cons.mp inside).resolve_left fun equal => here ?_
          rw [← tagOf, ledger.eq_of_id listed member equal]
        have stored := ledger.response tag other refers old
        exact ⟨(update_of_ne here ..).trans stored.1, (update_of_ne here ..).trans stored.2⟩
    · have other : tag ≠ future.tag := by
        rintro rfl
        exact absurd (own.symm.trans none) (by simp)
      exact (update_of_ne other ..).trans (ledger.unnamed tag none)

theorem settleDNSFutures : Ledger router rules (state.settleDNSFutures router schedule) :=
  (settleDNSFutures_induction ledger fun _ _ kept _ member =>
    kept.settleFuture member).2

theorem advance : Ledger router rules state.advance.state := by
  refine { ledger with launched := fun future member => ?_ }
  cases ledger.launched future member with
  | evaluate rule server speculative options listed launches passed =>
    exact .evaluate rule server speculative options listed launches (passed.trans (Nat.lt_succ_self _))
  | terminal rule listed launches untagged kept site =>
    exact .terminal rule listed launches untagged kept site

theorem dropAnonymous : Ledger router rules { state with anonymousFuture := none } := by
  refine { ledger with anonymous := ?_ }
  intro future absent
  cases absent

end

/-! ### Launches -/

theorem ids_append (ledger : Ledger router rules state) (id : future.id = state.futures.length)
    (position : Nat) (other : Future)
    (listed : (state.futures ++ [future])[position]? = some other) : other.id = position := by
  by_cases old : position < state.futures.length
  · exact ledger.ids position other (by rwa [getElem?_append_left old] at listed)
  · have last : position = state.futures.length := by
      have := (List.getElem?_eq_some_iff.mp listed).1
      rw [length_append, length_singleton] at this
      omega
    subst last
    rw [getElem?_concat_length, some.injEq] at listed
    exact listed ▸ id

theorem settled_append (ledger : Ledger router rules state) (future : Future) :
    ∀ id ∈ state.settled, id < (state.futures ++ [future]).length := by
  intro id member
  have := ledger.settled id member
  rw [length_append]
  omega

theorem once_append (ledger : Ledger router rules state)
    (fresh : ∀ other ∈ state.futures, other.site ≠ future.site) :
    ((state.futures ++ [future]).map (·.site)).Nodup := by
  rw [map_append, nodup_append]
  refine ⟨ledger.once, by simp, fun site member site' member' => ?_⟩
  obtain ⟨other, inside, rfl⟩ := mem_map.mp member
  rw [map_singleton, mem_singleton] at member'
  exact member' ▸ fresh other inside

section Evaluate

variable {rule : DNSRule} {server tag : String} {speculative : Bool}
  {options : RuleActionDNSRouteOptions}

section

variable (ledger : Ledger router rules state) (listed : rules[state.ruleIndex]? = some rule)

include ledger listed

section

variable (evaluates : rule.action = .evaluate server tag speculative options)

include evaluates

/-- An evaluate rule that is being considered has launched nothing yet. -/
theorem site_ne : ∀ other ∈ state.futures, other.site ≠ state.ruleIndex := by
  intro other member
  cases ledger.launched other member with
  | evaluate _ _ _ _ _ _ passed => exact passed.ne
  | terminal route present launches _ _ _ =>
    intro same
    rw [same, listed, some.injEq] at present
    rw [← present, evaluates] at launches
    cases launches

/-- A launched exchange and the one an evaluate rule launches now. -/
theorem launched_append (site : future.site = state.ruleIndex) (tagOf : future.tag = tag) :
    ∀ other ∈ state.futures ++ [future],
      LaunchedBy rules (state.ruleIndex + 1) state.terminalFuture state.terminalIndex other := by
  intro other member
  rcases Log.mem_snoc member with old | rfl
  · exact ledger.advance.launched other old
  · exact .evaluate rule server speculative options (site ▸ listed) (tagOf ▸ evaluates) (by omega)

/-- The tag that a rule defines has not been used before. -/
theorem tag_ne (accepted : Accepted rules) (named : tag ≠ "") :
    ∀ other ∈ state.futures, other.tag ≠ tag := by
  rintro other member rfl
  cases ledger.launched other member with
  | evaluate earlier _ _ _ present launches passed =>
    have defines : earlier.evaluateTag = some other.tag := by
      simp [DNSRule.evaluateTag, launches, named]
    exact accepted.evaluateTag_ne present listed passed defines
      (by simp [DNSRule.evaluateTag, evaluates, named])
  | terminal _ _ _ untagged _ _ => exact named untagged

end

variable (future : Future) (id : future.id = state.futures.length)
  (site : future.site = state.ruleIndex)

include id site

theorem launchAnonymous (evaluates : rule.action = .evaluate server "" speculative options)
    (tagOf : future.tag = "") : Ledger router rules { state with
      ruleIndex := state.ruleIndex + 1
      futures := state.futures ++ [future]
      anonymousFuture := some future } := by
  refine ⟨ledger.ids_append id, ledger.settled_append future,
    ledger.launched_append listed evaluates site tagOf,
    ledger.once_append (site ▸ ledger.site_ne listed evaluates), ?_, ?_, ?_, ledger.response,
    ledger.unnamed⟩
  · intro tag other refers
    obtain ⟨member, facts⟩ := ledger.named tag other refers
    exact ⟨mem_append_left _ member, facts⟩
  · rintro other ⟨⟩
    exact mem_concat_self
  · intro other member named
    rcases Log.mem_snoc member with old | rfl
    · exact ledger.tagged other old named
    · exact absurd tagOf named

theorem launchNamed (accepted : Accepted rules)
    (evaluates : rule.action = .evaluate server tag speculative options) (named : tag ≠ "")
    (tagOf : future.tag = tag) :
    Ledger router rules { state with
      ruleIndex := state.ruleIndex + 1
      futures := state.futures ++ [future]
      namedFutures := update state.namedFutures tag (some future) } := by
  refine ⟨ledger.ids_append id, ledger.settled_append future,
    ledger.launched_append listed evaluates site tagOf,
    ledger.once_append (site ▸ ledger.site_ne listed evaluates), ?_, ?_, ?_, ?_, ?_⟩
  · intro other launch refers
    by_cases same : other = tag
    · subst same
      obtain rfl : future = launch := by simpa using refers
      exact ⟨mem_concat_self, tagOf, named⟩
    · obtain ⟨member, facts⟩ := ledger.named other launch (by simpa [same] using refers)
      exact ⟨mem_append_left _ member, facts⟩
  · intro other present
    exact mem_append_left _ (ledger.anonymous other present)
  · intro other member tagged
    rcases Log.mem_snoc member with old | rfl
    · have distinct := ledger.tag_ne listed evaluates accepted named other old
      exact (update_of_ne distinct ..).trans (ledger.tagged other old tagged)
    · simp [tagOf]
  · intro other launch refers inside
    by_cases same : other = tag
    · subst same
      obtain rfl : future = launch := by simpa using refers
      exact absurd (ledger.settled _ inside) (by omega)
    · exact ledger.response other launch (by simpa [same] using refers) inside
  · intro other absent
    by_cases same : other = tag
    · simp [same] at absent
    · exact ledger.unnamed other (by simpa [same] using absent)

end

end Evaluate

/-- The first speculative route rule that meets armed rules launches the terminal exchange. -/
theorem launchTerminal (ledger : Ledger router rules state) {rule : DNSRule}
    (listed : rules[state.ruleIndex]? = some rule)
    (speculates : rule.action.routeSpeculative = true) (first : state.terminalFuture = none)
    (future : Future) (id : future.id = state.futures.length)
    (site : future.site = state.ruleIndex) (tagOf : future.tag = "") :
    Ledger router rules { state with
      futures := state.futures ++ [future]
      terminalFuture := some future
      terminalIndex := state.ruleIndex } := by
  have passed : ∀ other ∈ state.futures, ∃ rule server speculative options,
      rules[other.site]? = some rule ∧
        rule.action = .evaluate server other.tag speculative options ∧
        other.site < state.ruleIndex := by
    intro other member
    cases ledger.launched other member with
    | evaluate rule server speculative options listed launches passed =>
      exact ⟨rule, server, speculative, options, listed, launches, passed⟩
    | terminal _ _ _ _ kept _ => exact absurd (first.symm.trans kept) (by simp)
  refine ⟨ledger.ids_append id, ledger.settled_append future, ?_, ledger.once_append ?_, ?_, ?_, ?_,
    ledger.response, ledger.unnamed⟩
  · intro other member
    rcases Log.mem_snoc member with old | rfl
    · obtain ⟨rule, server, speculative, options, listed, launches, before⟩ := passed other old
      exact .evaluate rule server speculative options listed launches before
    · exact .terminal rule (site ▸ listed) speculates tagOf rfl site.symm
  · intro other member
    obtain ⟨_, _, _, _, _, _, before⟩ := passed other member
    omega
  · intro tag other refers
    obtain ⟨member, facts⟩ := ledger.named tag other refers
    exact ⟨mem_append_left _ member, facts⟩
  · intro other present
    exact mem_append_left _ (ledger.anonymous other present)
  · intro other member named
    rcases Log.mem_snoc member with old | rfl
    · exact ledger.tagged other old named
    · exact absurd tagOf named

end Ledger

/-! ### The ledger along a walk -/

/-- A rule that is matched is the rule at the index. -/
def Control.At (rules : List DNSRule) (index : Nat) : Control → Prop
  | .matchRule rule => rules[index]? = some rule
  | _ => True

/-- The ledger is kept, and a rule that is matched is the rule the walk is at. -/
structure Located (router : WalkContext) (rules : List DNSRule) (walk : Walk) : Prop where
  ledger : Ledger router rules walk.state
  listed : walk.control.At rules walk.state.ruleIndex

namespace Located

variable {router : WalkContext} {schedule : Schedule} {rules : List DNSRule} {state : WalkState}
  {rule : DNSRule}

section

variable (ledger : Ledger router rules state)

include ledger

theorem advance : Located router rules state.advance :=
  ⟨ledger.advance, trivial⟩

theorem respond (rule : DNSRule) : Located router rules (state.respond router schedule rule) := by
  unfold WalkState.respond
  split
  · exact ⟨ledger, trivial⟩
  · have polled := awaitAnonymous_polled schedule state rule
    split
    all_goals
      rename_i later polls
      rw [polls] at polled
    · exact ⟨ledger.polled polled, trivial⟩
    · exact ⟨ledger.polled (polled.trans (viewOf_polled router schedule later _)), trivial⟩

section

variable (listed : rules[state.ruleIndex]? = some rule)

include listed

theorem visitRule : Located router rules (state.visitRule router schedule rule) := by
  unfold WalkState.visitRule
  split
  · exact ⟨ledger, listed⟩
  · have settles : state.Settles (state.settleDNSFutures router schedule) :=
      state.settleDNSFutures_settles
    have settled : Ledger router rules (state.settleDNSFutures router schedule) :=
      ledger.settleDNSFutures
    generalize state.settleDNSFutures router schedule = state' at settles settled
    dsimp only
    split
    · obtain ⟨clock, _, same⟩ := allUnresolved_polled schedule state'
        (state'.boundFutures rule)
      rw [same]
      split
      · exact ⟨settled.congr rfl, trivial⟩
      · exact advance (settled.congr rfl)
    · have polled := firstUnresolved_polled schedule state' (state'.boundFutures rule)
      split
      next future later polls =>
        rw [polls] at polled
        exact ⟨settled.polled polled, trivial⟩
      next later polls =>
        rw [polls] at polled
        obtain ⟨clock, _, rfl⟩ := polled
        exact ⟨settled.congr rfl, (congrArg (rules[·]?) settles.ruleIndex).trans listed⟩

variable {options : RuleActionDNSRouteOptions} {server : String} {speculative : Bool}

theorem evaluate (accepted : Accepted rules) {tag : String}
    (act : rule.action = .evaluate server tag speculative options) :
    Located router rules (state.evaluate router server tag speculative options) := by
  unfold WalkState.evaluate
  cases router.transport server with
  | none =>
    dsimp only
    split
    · exact advance ledger.dropAnonymous
    · exact advance ledger
  | some transport =>
    dsimp only
    split
    · exact ⟨ledger, trivial⟩
    · split
      next anonymous =>
        subst anonymous
        exact ⟨ledger.launchAnonymous listed _ rfl rfl act rfl, trivial⟩
      next named => exact ⟨ledger.launchNamed listed _ rfl rfl accepted act named rfl, trivial⟩

theorem route (routes : rule.action = .route server speculative options)
    (transport : DNSTransport) (queryOptions : DNSQueryOptions) :
    Located router rules (state.route speculative transport queryOptions) := by
  unfold WalkState.route
  split
  · split
    next launches =>
      rw [Bool.and_eq_true, isNone_iff_eq_none] at launches
      refine ⟨ledger.launchTerminal listed ?_ launches.2 _ rfl rfl rfl, trivial⟩
      rw [routes]
      exact launches.1
    · exact ⟨ledger, trivial⟩
  · split
    · split <;> exact ⟨ledger, trivial⟩
    · exact ⟨ledger, trivial⟩

theorem applyAction (accepted : Accepted rules) :
    Located router rules (state.applyAction router schedule rule) := by
  fun_cases WalkState.applyAction router schedule state rule with
  | case1 => exact advance (ledger.congr rfl)
  | case2 _ _ _ _ act => exact evaluate ledger listed accepted act
  | case4 => exact respond ledger rule
  | case5 | case10 => exact advance ledger
  | case6 _ _ _ act => exact route ledger listed act _ _
  | _ => exact ⟨ledger, trivial⟩

theorem matchRule (accepted : Accepted rules) :
    Located router rules (state.matchRule router schedule rule) := by
  obtain ⟨clock, _, same⟩ := WalkState.viewOf_polled router schedule state state.anonymousFuture
  unfold WalkState.matchRule WalkState.anonymousResponse
  dsimp only
  rw [same]
  split
  · exact applyAction (ledger.congr rfl) listed accepted
  · exact advance (ledger.congr rfl)

end

theorem sweep (index : Nat) (after : AfterSweep) :
    Located router rules (state.sweep schedule index after) := by
  unfold WalkState.sweep
  split
  · split
    · exact advance ledger
    · exact ⟨ledger, trivial⟩
  next armed present =>
    have polled := firstUnresolved_polled schedule state armed.futures
    split
    all_goals
      rename_i polls
      rw [polls] at polled
    · exact ⟨ledger.polled polled, trivial⟩
    · exact ⟨(ledger.polled polled).congr rfl, trivial⟩

theorem commitPending (after : AfterSweep) (exchange : PendingExchange) :
    Located router rules (state.commitPending after exchange) := by
  cases after with
  | nextRule => exact ⟨ledger.congr rfl, trivial⟩
  | resume suspension => exact ⟨ledger, trivial⟩

theorem applyArmed (armed : ArmedRule) (index : Nat) (after : AfterSweep) :
    Located router rules (state.applyArmed router schedule armed index after) := by
  fun_cases WalkState.applyArmed router schedule state armed index after with
  | case1 _ _ _ _ polls =>
    have polled := armedResponse_polled router schedule state armed
    rw [polls] at polled
    exact ⟨ledger.polled polled, trivial⟩
  | case3 => exact commitPending ledger after _
  | _ => exact ⟨ledger, trivial⟩

theorem matchArmed (armed : ArmedRule) (index : Nat) (after : AfterSweep) :
    Located router rules (state.matchArmed router schedule armed index after) := by
  have polled := WalkState.armedAnonymous_polled router schedule state armed
  unfold WalkState.matchArmed
  dsimp only
  split
  · exact applyArmed (ledger.polled polled) armed index after
  · exact ⟨ledger.polled polled, trivial⟩

theorem decide (suspension : Suspension) :
    Located router rules (state.decide schedule suspension) := by
  cases suspension with
  | await future =>
    have polled := WalkState.resolved_polled schedule state future
    unfold WalkState.decide
    dsimp only
    split <;> exact ⟨ledger.polled polled, trivial⟩
  | drain =>
    unfold WalkState.decide
    dsimp only
    split <;> exact ⟨ledger, trivial⟩
  | pending exchange => exact ⟨ledger, trivial⟩

end

theorem step (accepted : Accepted rules) {walk : Walk} (located : Located router rules walk) :
    Located router rules (walk.step router schedule rules) := by
  obtain ⟨control, state⟩ := walk
  obtain ⟨ledger, listed⟩ := located
  unfold Walk.step
  cases control with
  | walk =>
    dsimp only
    split
    next rule present => exact visitRule ledger present
    · unfold endOfRules
      split <;> exact ⟨ledger, trivial⟩
  | matchRule rule => exact matchRule ledger listed accepted
  | sweep index after => exact sweep ledger index after
  | matchArmed armed index after => exact matchArmed ledger armed index after
  | resume suspension => exact ⟨ledger.settleDNSFutures, trivial⟩
  | decide suspension => exact decide ledger suspension
  | finish exchange | done result => exact ⟨ledger, trivial⟩

/-- Every walk of an accepted list keeps the ledger. -/
theorem run (accepted : Accepted rules) (count : Nat) :
    Located router rules (Walk.run router schedule rules count) :=
  Machine.invariant_run_of_step (Located router rules) ⟨Ledger.start, trivial⟩
    (fun _ located => located.step accepted) count

end Located

end SingBox
