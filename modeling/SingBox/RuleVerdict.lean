/-
This file evaluates the legacy DNS pre-match. Before a query is sent, the router
matches a rule with its destination `ip_cidr` items ignored; after the response
has arrived it matches the rule again, with the response's addresses. A group
whose `ip_cidr` items were ignored is recorded in `DeferredIPCIDRMatchGroups`,
so the pair of the returned Boolean and the recorded bits is a three-valued
answer.

`Rule.verdict` is that evaluation written with Kleene connectives. With `lossy`
set it also does what `matchInner` does to the bits of a referenced rule-set
when the outer rule's own destination address items matched: it clears them, so
an open answer is taken for a positive one. The last theorem says that the
pre-match computes the lossy verdict.
-/

import SingBox.Verdict
import SingBox.RuleFormula

namespace SingBox

open List

open Kleene Verdict

/-! ### Verdicts of rules -/

/-- A three-valued match. -/
abbrev RuleVerdict := InboundContext → Verdict

/-- A three-valued rule-set. -/
structure RuleSetVerdict where
  verdict : RuleVerdict
  mergeableRule : Option AbstractDefaultRule

namespace AbstractDefaultRule

/-- One referenced rule-set together with the groups of the outer rule. -/
def setVerdict (outer : AbstractDefaultRule) (metadata nestedMetadata : InboundContext)
    (ruleSet : RuleSetVerdict) : Verdict :=
  match ruleSet.mergeableRule with
  | some branch => (Verdict.ofBool (matchAllItems branch.items nestedMetadata)).conj
      ((Verdict.openIf (branch.defersIPCIDR nestedMetadata)).conj
        (.ofBool (outer.mergedGroupsHold branch metadata nestedMetadata)))
  | none => (Verdict.ofBool (outer.groupsHold metadata)).conj (ruleSet.verdict nestedMetadata)

/-- Some referenced rule-set together with the groups of the outer rule. -/
def setsVerdict (outer : AbstractDefaultRule) (item : RuleSetItem RuleSetVerdict)
    (metadata : InboundContext) : Verdict :=
  .any (outer.setVerdict metadata (item.nestedMetadata metadata)) item.setList

/-- The groups of a rule, on their own or with one of the rule-sets it references. -/
def groupsVerdict (lossy : Bool) (r : AbstractDefaultRule)
    (item : Option (RuleSetItem RuleSetVerdict)) (metadata : InboundContext) : Verdict :=
  match item with
  | none => .ofBool (r.groupsHold metadata)
  | some item => (r.setsVerdict item metadata).settle
      (lossy && r.satisfied metadata .destinationAddress)

def verdict (lossy : Bool) (r : AbstractDefaultRule)
    (item : Option (RuleSetItem RuleSetVerdict)) : RuleVerdict := fun metadata =>
  if r.allItemsEmpty item then .yes
  else ((Verdict.ofBool (matchAllItems r.items metadata)).conj
    ((Verdict.openIf (r.defersIPCIDR metadata)).conj
      (r.groupsVerdict lossy item metadata))).invert r.invert

end AbstractDefaultRule

/-- The connective of a logical rule. -/
def logicalModeVerdict {α : Type} (mode : LogicalMode) (verdict : α → Verdict)
    (rules : List α) : Verdict :=
  match mode with
  | .and => .all verdict rules
  | .or => .any verdict rules

def logicalVerdict (mode : LogicalMode) (invert : Bool) (rules : List RuleVerdict) :
    RuleVerdict := fun metadata =>
  (logicalModeVerdict mode (fun rule => rule metadata.resetRuleCache) rules).invert invert

mutual

def Rule.verdict (lossy : Bool) : Rule → RuleVerdict
  | .default rule none => rule.verdict lossy none
  | .default rule (some item) =>
    rule.verdict lossy (some { setList := ruleSetVerdicts lossy item.setList,
                               ipCIDRMatchSource := item.ipCIDRMatchSource,
                               ipCIDRAcceptEmpty := item.ipCIDRAcceptEmpty })
  | .logical mode rules invert => logicalVerdict mode invert (ruleVerdicts lossy rules)

def ruleVerdicts (lossy : Bool) : List Rule → List RuleVerdict
  | [] => []
  | rule :: rest => rule.verdict lossy :: ruleVerdicts lossy rest

def ruleSetVerdicts (lossy : Bool) : List (List Rule) → List RuleSetVerdict
  | [] => []
  | rules :: rest =>
    { verdict := fun metadata => Verdict.any (fun rule => rule metadata.resetRuleMatchCache)
        (ruleVerdicts lossy rules)
      mergeableRule := mergeableRuleIn rules } :: ruleSetVerdicts lossy rest

end

namespace Rule

def setVerdict (lossy : Bool) (rules : List Rule) : RuleSetVerdict where
  verdict metadata := .any (fun rule => rule.verdict lossy metadata.resetRuleMatchCache) rules
  mergeableRule := mergeableRuleIn rules

/-- The verdicts of the rule-sets that an item references. -/
def itemVerdict (lossy : Bool) (item : RuleSetItem (List Rule)) : RuleSetItem RuleSetVerdict where
  setList := item.setList.map (setVerdict lossy)
  ipCIDRMatchSource := item.ipCIDRMatchSource
  ipCIDRAcceptEmpty := item.ipCIDRAcceptEmpty

theorem ruleVerdicts_eq_map (lossy : Bool) (rules : List Rule) :
    ruleVerdicts lossy rules = rules.map (verdict lossy) := by
  induction rules with
  | nil => rfl
  | cons rule rest ih => rw [ruleVerdicts, ih, map_cons]

theorem ruleSetVerdicts_eq_map (lossy : Bool) (sets : List (List Rule)) :
    ruleSetVerdicts lossy sets = sets.map (setVerdict lossy) := by
  induction sets with
  | nil => rfl
  | cons rules rest ih =>
    rw [ruleSetVerdicts, ih, ruleVerdicts_eq_map, map_cons, setVerdict]
    simp only [Verdict.any_map]

theorem verdict_default (lossy : Bool) (rule : AbstractDefaultRule)
    (item : Option (RuleSetItem (List Rule))) :
    (Rule.default rule item).verdict lossy = rule.verdict lossy (item.map (itemVerdict lossy)) := by
  cases item with
  | none => rw [verdict, Option.map_none]
  | some item =>
    rw [verdict, ruleSetVerdicts_eq_map]
    rfl

theorem verdict_logical (lossy : Bool) (mode : LogicalMode) (rules : List Rule)
    (invert : Bool) :
    (Rule.logical mode rules invert).verdict lossy =
      logicalVerdict mode invert (rules.map (verdict lossy)) := by
  rw [verdict, ruleVerdicts_eq_map]

end Rule

/-! ### The pre-match reports a verdict -/

/-- The deferred groups that stand for a verdict. Only the destination address group is ever
deferred. -/
def deferredBits (verdict : Verdict) : BitVec 8 :=
  if verdict = .unknown then ruleMatchDestinationAddress else 0

/-- The Boolean and the deferred groups of a match stand for the verdict. What a failed match
leaves in the groups has no meaning. -/
structure Reports (matched : Bool) (deferred : BitVec 8) (verdict : Verdict) : Prop where
  matched : matched = verdict.possible
  deferred : verdict ≠ .no → deferred = deferredBits verdict

/-- The metadata at the start of a match below `LegacyPreMatch`. -/
structure PreMatching (metadata : InboundContext) : Prop where
  ignored : metadata.ignoreDestinationIPCIDRMatch = true
  clear : metadata.deferredIPCIDRMatchGroups = 0

/-- A rule reports a verdict on every metadata of the pre-match. -/
def Evaluates (rule : HeadlessRule) (verdict : RuleVerdict) : Prop :=
  ∀ metadata, PreMatching metadata →
    Reports (rule metadata).1 (rule metadata).2.deferredIPCIDRMatchGroups (verdict metadata)

theorem reports_no (deferred : BitVec 8) : Reports false deferred .no :=
  ⟨rfl, fun decided => absurd rfl decided⟩

theorem reports_of_possible {verdict : Verdict} (possible : verdict.possible = true) :
    Reports true (deferredBits verdict) verdict :=
  ⟨possible.symm, fun _ => rfl⟩

variable {deferred : BitVec 8}

theorem Reports.eq_no {matched : Bool} {verdict : Verdict}
    (report : Reports matched deferred verdict) (failed : matched = false) : verdict = .no := by
  obtain ⟨same, _⟩ := report
  rw [failed] at same
  cases verdict with
  | no => rfl
  | unknown | yes => cases same

theorem deferredBits_or : ∀ first second : Verdict,
    first.possible = true → second.possible = true →
      deferredBits first ||| deferredBits second = deferredBits (first.conj second) := by
  intro first second
  cases first <;> cases second <;> decide

/-- The accumulator of the disjunction loops after an open child. -/
theorem disj_unknown_of_unsettled {sofar : Verdict} (unsettled : sofar ≠ .yes) :
    sofar.disj .unknown = .unknown ∧
      deferredBits sofar ||| deferredBits .unknown = deferredBits .unknown := by
  cases sofar with
  | yes => exact absurd rfl unsettled
  | no | unknown => decide

theorem deferredBits_eq_stateOf (verdict : Verdict) :
    deferredBits verdict = stateOf fun group =>
      decide (verdict = .unknown) && decide (group = .destinationAddress) := by
  cases verdict <;> decide

/-- Clearing the satisfied groups settles the verdict when the destination address group is
one of them. -/
theorem deferredBits_andNot (verdict : Verdict) (groups : RuleGroup → Bool) :
    deferredBits verdict &&& ~~~stateOf groups =
      deferredBits (verdict.settle (groups .destinationAddress)) := by
  rw [deferredBits_eq_stateOf, deferredBits_eq_stateOf, stateOf_andNot]
  refine congrArg stateOf (funext fun group => ?_)
  cases group <;> cases verdict <;> cases groups .destinationAddress <;> simp [settle]

namespace PreMatching

variable {metadata : InboundContext}

theorem reset (pre : PreMatching metadata) : PreMatching metadata.resetRuleCache :=
  ⟨pre.ignored, rfl⟩

theorem resetMatch (pre : PreMatching metadata) : PreMatching metadata.resetRuleMatchCache :=
  ⟨pre.ignored, rfl⟩

theorem nested {Set : Type} (pre : PreMatching metadata) (item : RuleSetItem Set) :
    PreMatching (item.nestedMetadata metadata) :=
  ⟨pre.ignored, rfl⟩

end PreMatching

section Loops

variable {α : Type} (rule : α → HeadlessRule) (verdict : α → RuleVerdict)

section

variable (children : List α) (each : ∀ child ∈ children, Evaluates (rule child) (verdict child))
  (metadata : InboundContext) (pre : PreMatching metadata) (sofar : Verdict)

include children each metadata pre sofar

theorem logicalAndLoop_reports (possible : sofar.possible = true) :
    let outcome := logicalAndLoop metadata (deferredBits sofar) (children.map rule)
    Reports outcome.1 outcome.2
      (sofar.conj (.all (fun child => verdict child metadata.resetRuleCache) children)) := by
  induction children generalizing sofar with
  | nil =>
    rw [map_nil, logicalAndLoop, Verdict.all, Verdict.conj_yes]
    exact reports_of_possible possible
  | cons child rest ih =>
    have later := ih fun other member => each other (mem_cons_of_mem _ member)
    have report := each child mem_cons_self _ pre.reset
    rw [map_cons, logicalAndLoop, Verdict.all, ← Verdict.conj_assoc]
    revert report
    rcases rule child metadata.resetRuleCache with ⟨answer, nestedMetadata⟩
    generalize verdict child metadata.resetRuleCache = value
    rintro ⟨rfl, deferred⟩
    have joined := deferredBits_or sofar value possible
    cases value with
    | no =>
      rw [Verdict.conj_no]
      exact reports_no 0
    | unknown | yes =>
      dsimp only [Verdict.possible] at deferred ⊢
      rw [deferred (by decide), joined rfl]
      exact later _ (by cases sofar <;> first | rfl | exact possible)

theorem logicalOrLoop_reports (unsettled : sofar ≠ .yes) :
    let outcome :=
      logicalOrLoop metadata sofar.possible (deferredBits sofar) (children.map rule)
    Reports outcome.1 outcome.2
      (sofar.disj (.any (fun child => verdict child metadata.resetRuleCache) children)) := by
  induction children generalizing sofar with
  | nil =>
    rw [map_nil, logicalOrLoop, Verdict.any, Verdict.disj_no]
    exact ⟨rfl, fun _ => rfl⟩
  | cons child rest ih =>
    have later := ih fun other member => each other (mem_cons_of_mem _ member)
    have report := each child mem_cons_self _ pre.reset
    rw [map_cons, logicalOrLoop, Verdict.any, ← Verdict.disj_assoc]
    revert report
    rcases rule child metadata.resetRuleCache with ⟨answer, nestedMetadata⟩
    generalize verdict child metadata.resetRuleCache = value
    rintro ⟨rfl, deferred⟩
    cases value with
    | no =>
      rw [disj_no]
      exact later sofar unsettled
    | yes =>
      rw [disj_yes, yes_disj]
      dsimp only [possible] at deferred ⊢
      rw [deferred (by decide)]
      exact ⟨rfl, fun _ => rfl⟩
    | unknown =>
      obtain ⟨joined, bits⟩ := disj_unknown_of_unsettled unsettled
      rw [joined]
      dsimp only [possible] at deferred ⊢
      rw [deferred (by decide), bits]
      exact later .unknown (by decide)

theorem matchAnyHeadlessRuleLoop_reports (unsettled : sofar ≠ .yes) :
    let outcome := matchAnyHeadlessRuleLoop metadata sofar.possible (deferredBits sofar)
      (children.map rule)
    Reports outcome.1 outcome.2.deferredIPCIDRMatchGroups
      (sofar.disj (.any (fun child => verdict child metadata.resetRuleMatchCache) children)) := by
  induction children generalizing sofar with
  | nil =>
    rw [map_nil, matchAnyHeadlessRuleLoop, Verdict.any, Verdict.disj_no]
    cases sofar with
    | no => exact reports_no _
    | yes => exact absurd rfl unsettled
    | unknown =>
      refine ⟨rfl, fun _ => ?_⟩
      simp [possible, pre.clear]
  | cons child rest ih =>
    have later := ih fun other member => each other (mem_cons_of_mem _ member)
    have report := each child mem_cons_self _ pre.resetMatch
    rw [map_cons, matchAnyHeadlessRuleLoop, Verdict.any, ← Verdict.disj_assoc]
    revert report
    rcases rule child metadata.resetRuleMatchCache with ⟨answer, nestedMetadata⟩
    generalize verdict child metadata.resetRuleMatchCache = value
    rintro ⟨rfl, deferred⟩
    cases value with
    | no =>
      rw [disj_no]
      exact later sofar unsettled
    | yes =>
      rw [disj_yes, yes_disj]
      dsimp only [possible] at deferred ⊢
      rw [deferred (by decide)]
      exact ⟨rfl, fun _ => pre.clear⟩
    | unknown =>
      obtain ⟨joined, bits⟩ := disj_unknown_of_unsettled unsettled
      rw [joined]
      dsimp only [possible] at deferred ⊢
      rw [deferred (by decide), bits]
      exact later .unknown (by decide)

end

section

variable (children : List α) (each : ∀ child ∈ children, Evaluates (rule child) (verdict child))

include each

theorem logicalLoop_reports (mode : LogicalMode) (metadata : InboundContext)
    (pre : PreMatching metadata) : let outcome := logicalLoop mode (children.map rule) metadata
    Reports outcome.1 outcome.2
      (logicalModeVerdict mode (fun child => verdict child metadata.resetRuleCache) children) := by
  cases mode with
  | and => exact logicalAndLoop_reports rule verdict children each metadata pre .yes rfl
  | or => exact logicalOrLoop_reports rule verdict children each metadata pre .no (by decide)

theorem logicalMatchOn_evaluates (mode : LogicalMode) (invert : Bool) :
    Evaluates (logicalMatchOn mode invert (children.map rule))
      (logicalVerdict mode invert (children.map verdict)) := by
  intro metadata pre
  have report := logicalLoop_reports rule verdict children each mode metadata pre
  have value : logicalVerdict mode invert (children.map verdict) metadata =
      (logicalModeVerdict mode (fun child => verdict child metadata.resetRuleCache)
        children).invert invert := by
    rw [logicalVerdict]
    cases mode <;> simp only [logicalModeVerdict, Verdict.all_map, Verdict.any_map]
  rw [value, logicalMatchOn]
  revert report
  rcases logicalLoop mode (children.map rule) metadata with ⟨matched, deferredGroups⟩
  generalize logicalModeVerdict mode (fun child => verdict child metadata.resetRuleCache)
    children = result
  rintro ⟨rfl, deferred⟩
  cases result with
  | no =>
    cases invert with
    | false => exact reports_no _
    | true => exact ⟨rfl, fun _ => pre.clear⟩
  | unknown | yes =>
    dsimp only at deferred
    rw [deferred (by decide)]
    cases invert <;> refine ⟨rfl, fun _ => ?_⟩ <;>
      simp [Verdict.possible, Verdict.invert, Verdict.neg, pre.clear, deferredBits]

theorem matchAnyHeadlessRule_evaluates : Evaluates (matchAnyHeadlessRule (children.map rule))
      fun metadata => .any (fun child => verdict child metadata.resetRuleMatchCache) children :=
  fun metadata pre => matchAnyHeadlessRuleLoop_reports rule verdict children each metadata pre .no
    (by decide)

end

end Loops

/-! ### Default rules in the pre-match -/

/-- An item that reads neither the DNS response nor the bookkeeping of the pre-match. -/
structure ResponseBlind (item : RuleItem) : Prop where
  response : ∀ metadata response, item (metadata.setResponse response) = item metadata
  ignore : ∀ metadata ignore, item (metadata.setIgnore ignore) = item metadata
  deferred : ∀ metadata groups, item (metadata.setDeferred groups) = item metadata

theorem DomainItem.blind (item : DomainItem) : ResponseBlind item.matchOn :=
  ⟨fun _ _ => rfl, fun _ _ => rfl, fun _ _ => rfl⟩

namespace AbstractDefaultRule

/-- Domain items and destination `ip_cidr` items do not meet in the two rules. -/
def Unmixed (first second : AbstractDefaultRule) : Prop :=
  (first.destinationAddressItems = [] ∧ second.destinationAddressItems = []) ∨
    (first.destinationIPCIDRItems = [] ∧ second.destinationIPCIDRItems = [])

theorem matchAllItems_setDeferred (r : AbstractDefaultRule)
    (blind : ∀ item ∈ r.items, ResponseBlind item) (metadata : InboundContext)
    (groups : BitVec 8) :
    matchAllItems r.items (metadata.setDeferred groups) = matchAllItems r.items metadata := by
  rw [Bool.eq_iff_iff, matchAllItems, matchAllItems, all_eq_true, all_eq_true]
  exact forall₂_congr fun item member => by rw [(blind item member).deferred]

theorem satisfied_of_ignored (r : AbstractDefaultRule) (metadata : InboundContext)
    (ignored : metadata.ignoreDestinationIPCIDRMatch = true)
    (empty : r.destinationAddressItems = []) :
    r.satisfied metadata .destinationAddress = false := by
  simp [satisfied, groupItems, empty, destinationIPCIDRMatchesDestination, ignored, matchAnyItem]

/-- A rule that leaves `ip_cidr` items for the response has no destination address item to
satisfy the group before. -/
theorem satisfied_of_defersIPCIDR {first second : AbstractDefaultRule}
    (unmixed : first.Unmixed second) {metadata nestedMetadata : InboundContext}
    (pre : PreMatching metadata) (nested : PreMatching nestedMetadata)
    (deferring : first.defersIPCIDR metadata = true ∨ second.defersIPCIDR nestedMetadata = true) :
    first.satisfied metadata .destinationAddress = false ∧
      second.satisfied nestedMetadata .destinationAddress = false := by
  rcases unmixed with ⟨firstEmpty, secondEmpty⟩ | ⟨firstEmpty, secondEmpty⟩
  · exact ⟨first.satisfied_of_ignored metadata pre.ignored firstEmpty,
      second.satisfied_of_ignored nestedMetadata nested.ignored secondEmpty⟩
  · simp [defersIPCIDR, firstEmpty, secondEmpty] at deferring

theorem evaluateGroups_of_preMatching (r : AbstractDefaultRule) (metadata : InboundContext)
    (pre : PreMatching metadata) :
    r.evaluateGroups metadata = (.ofGroups (r.required metadata) (r.satisfied metadata),
      metadata.setDeferred (deferredBits (.openIf (r.defersIPCIDR metadata)))) := by
  have clear := pre.clear
  have same := metadata.setDeferred_self
  rw [clear] at same
  rw [evaluateGroups, groupMatch_eq]
  cases r.defersIPCIDR metadata with
  | false => exact Prod.ext rfl same.symm
  | true => simp [clear, deferredBits, openIf]

theorem evaluateForMerge_of_preMatching (r : AbstractDefaultRule)
    (blind : ∀ item ∈ r.items, ResponseBlind item) (metadata : InboundContext)
    (pre : PreMatching metadata) :
    r.evaluateForMerge metadata =
      (if matchAllItems r.items metadata then
        some (.ofGroups (r.required metadata) (r.satisfied metadata)) else none,
      metadata.setDeferred (deferredBits (.openIf (r.defersIPCIDR metadata)))) := by
  rw [evaluateForMerge, r.evaluateGroups_of_preMatching metadata pre]
  dsimp only
  rw [r.matchAllItems_setDeferred blind]
  cases matchAllItems r.items metadata <;> rfl

end AbstractDefaultRule

/-- What the loop over referenced rule-sets needs to know about one of them. -/
structure SetEvaluates (outer : AbstractDefaultRule) (ruleSet : RuleSet)
    (verdict : RuleSetVerdict) : Prop where
  mergeable : ruleSet.mergeableRule = verdict.mergeableRule
  evaluates : Evaluates ruleSet.matchOn verdict.verdict
  unmixed : ∀ branch ∈ verdict.mergeableRule, outer.Unmixed branch
  blind : ∀ branch ∈ verdict.mergeableRule, ∀ item ∈ branch.items, ResponseBlind item

theorem matchWithOuterGroupsLoop_reports {α : Type} (set : α → RuleSet)
    (verdict : α → RuleSetVerdict) (item : RuleSetItem RuleSet) (outer : AbstractDefaultRule)
    (sets : List α) (each : ∀ one ∈ sets, SetEvaluates outer (set one) (verdict one))
    (metadata : InboundContext) (pre : PreMatching metadata) (sofar : Verdict)
    (unsettled : sofar ≠ .yes) :
    let outerVerdict := openIf (outer.defersIPCIDR metadata)
    let outcome := item.matchWithOuterGroupsLoop (metadata.setDeferred (deferredBits outerVerdict))
      (.ofGroups (outer.required metadata) (outer.satisfied metadata)) sofar.possible
      (deferredBits sofar) (sets.map set)
    Reports outcome.1 outcome.2.deferredIPCIDRMatchGroups
      (outerVerdict.conj (sofar.disj (.any (fun one =>
        outer.setVerdict metadata (item.nestedMetadata metadata) (verdict one)) sets))) := by
  intro outerVerdict
  have outerPossible : outerVerdict.possible = true := possible_openIf _
  have nested := pre.nested item
  have sameNested (groups : BitVec 8) :
      item.nestedMetadata (metadata.setDeferred groups) = item.nestedMetadata metadata := rfl
  induction sets generalizing sofar with
  | nil =>
    rw [map_nil, RuleSetItem.matchWithOuterGroupsLoop, Verdict.any, Verdict.disj_no]
    cases sofar with
    | no =>
      rw [conj_no]
      exact reports_no _
    | yes => exact absurd rfl unsettled
    | unknown =>
      have joined := deferredBits_or outerVerdict .unknown outerPossible rfl
      have value : outerVerdict.conj .unknown = .unknown := by
        revert outerPossible
        cases outerVerdict <;> simp [possible, conj]
      rw [value] at joined ⊢
      exact ⟨rfl, fun _ => joined⟩
  | cons one rest ih =>
    have later := ih fun other member => each other (mem_cons_of_mem _ member)
    obtain ⟨mergeable, evaluates, unmixed, blind⟩ := each one mem_cons_self
    rw [map_cons, RuleSetItem.matchWithOuterGroupsLoop, Verdict.any, ← Verdict.disj_assoc,
      AbstractDefaultRule.setVerdict, mergeable]
    cases offered : (verdict one).mergeableRule with
    | none =>
      simp only [RuleGroupMatch.done_ofGroups, AbstractDefaultRule.groupsHold, sameNested]
      cases groupsDone (outer.required metadata) (outer.satisfied metadata) with
      | false =>
        simp only [ofBool, no_conj, disj_no]
        exact later sofar unsettled
      | true =>
        have report := evaluates _ nested
        simp only [ofBool, yes_conj, if_true]
        revert report
        rcases (set one).matchOn (item.nestedMetadata metadata) with ⟨answer, nestedMetadata⟩
        generalize (verdict one).verdict (item.nestedMetadata metadata) = value
        rintro ⟨rfl, deferred⟩
        cases value with
        | no =>
          rw [disj_no]
          exact later sofar unsettled
        | yes =>
          dsimp only [possible] at deferred ⊢
          rw [disj_yes, yes_disj, conj_yes, deferred (by decide)]
          exact reports_of_possible outerPossible
        | unknown =>
          obtain ⟨joined, bits⟩ := disj_unknown_of_unsettled unsettled
          dsimp only [possible] at deferred ⊢
          rw [joined, deferred (by decide), bits]
          exact later .unknown (by decide)
    | some branch =>
      have separate := AbstractDefaultRule.satisfied_of_defersIPCIDR (unmixed branch offered) pre
        nested
      simp only [sameNested, branch.evaluateForMerge_of_preMatching (blind branch offered) _ nested]
      cases matchAllItems branch.items (item.nestedMetadata metadata) with
      | false =>
        simp only [ofBool, no_conj, disj_no]
        exact later sofar unsettled
      | true =>
        have kept (verdict : Verdict) (deferring : verdict = .unknown →
            outer.defersIPCIDR metadata = true ∨
              branch.defersIPCIDR (item.nestedMetadata metadata) = true) :
            verdict.settle (outer.satisfied metadata .destinationAddress ||
              branch.satisfied (item.nestedMetadata metadata) .destinationAddress) = verdict := by
          refine settle_of_ne fun satisfied isOpen => ?_
          obtain ⟨outerUnsatisfied, branchUnsatisfied⟩ := separate (deferring isOpen)
          simp [outerUnsatisfied, branchUnsatisfied] at satisfied
        simp only [if_true, RuleGroupMatch.mergeWith_ofGroups, RuleGroupMatch.done_ofGroups,
          AbstractDefaultRule.mergedGroupsHold]
        cases groupsDone _ _ with
        | false =>
          simp only [ofBool, conj_no, disj_no]
          exact later sofar unsettled
        | true =>
          simp only [if_true, RuleGroupMatch.ofGroups, InboundContext.deferred_setDeferred,
            deferredBits_andNot, ofBool, yes_conj, conj_yes]
          rw [kept _ fun isOpen => Or.inr ?_, kept outerVerdict fun isOpen => Or.inl ?_]
          · cases branch.defersIPCIDR (item.nestedMetadata metadata) with
            | false =>
              simp only [openIf_false, disj_yes, yes_disj, conj_yes]
              exact reports_of_possible outerPossible
            | true =>
              obtain ⟨joined, bits⟩ := disj_unknown_of_unsettled unsettled
              simp only [openIf_true, joined, bits]
              exact later .unknown (by decide)
          · exact (openIf_eq_unknown_iff _).mp isOpen
          · exact (openIf_eq_unknown_iff _).mp isOpen

namespace AbstractDefaultRule

theorem allItemsEmpty_map {First Second : Type} (r : AbstractDefaultRule)
    (f : RuleSetItem First → RuleSetItem Second) (item : Option (RuleSetItem First)) :
    r.allItemsEmpty (item.map f) = r.allItemsEmpty item := by
  cases item <;> rfl

/-- The groups of a default rule, before the satisfied groups are cleared from the deferred
ones. -/
theorem matchGroups_reports (r : AbstractDefaultRule) (item : Option (RuleSetItem (List Rule)))
    (each : ∀ ruleSetItem ∈ item, ∀ rules ∈ ruleSetItem.setList,
      SetEvaluates r (Rule.toRuleSet rules) (Rule.setVerdict true rules))
    (metadata : InboundContext) (pre : PreMatching metadata) :
    let outerVerdict := openIf (r.defersIPCIDR metadata)
    let outcome := matchGroups (item.map Rule.toItem)
      (metadata.setDeferred (deferredBits outerVerdict))
      (.ofGroups (r.required metadata) (r.satisfied metadata))
    Reports outcome.1 outcome.2.deferredIPCIDRMatchGroups
      (outerVerdict.conj (r.groupsVerdict false (item.map (Rule.itemVerdict true)) metadata)) := by
  cases item with
  | none =>
    simp only [Option.map_none, matchGroups, RuleGroupMatch.done_ofGroups, groupsVerdict, groupsHold]
    cases groupsDone (r.required metadata) (r.satisfied metadata) with
    | false =>
      simp only [ofBool, conj_no]
      exact reports_no _
    | true =>
      simp only [ofBool, conj_yes]
      exact reports_of_possible (possible_openIf _)
  | some item =>
    have report := matchWithOuterGroupsLoop_reports Rule.toRuleSet (Rule.setVerdict true)
      (Rule.toItem item) r item.setList (each item rfl) metadata pre .no (by decide)
    simp only [Option.map_some, groupsVerdict, setsVerdict, Rule.itemVerdict, Verdict.any_map]
    exact report

/-- Clearing the satisfied groups after the match settles exactly the referenced rule-sets: a
rule whose own `ip_cidr` items are left open has no satisfied destination address group. -/
theorem settle_conj_groupsVerdict (r : AbstractDefaultRule)
    (item : Option (RuleSetItem RuleSetVerdict)) (metadata : InboundContext)
    (pre : PreMatching metadata) :
    ((openIf (r.defersIPCIDR metadata)).conj (r.groupsVerdict false item metadata)).settle
        (r.satisfied metadata .destinationAddress) =
      (openIf (r.defersIPCIDR metadata)).conj (r.groupsVerdict true item metadata) := by
  have closed : r.satisfied metadata .destinationAddress = true →
      r.defersIPCIDR metadata = false := by
    intro satisfied
    cases deferring : r.defersIPCIDR metadata with
    | false => rfl
    | true =>
      have empty : r.destinationAddressItems = [] := by
        simp only [defersIPCIDR, Bool.and_eq_true, List.isEmpty_iff] at deferring
        exact deferring.2
      rw [r.satisfied_of_ignored metadata pre.ignored empty] at satisfied
      cases satisfied
  have plain : ∀ verdict : Verdict, verdict.settle false = verdict := fun _ => rfl
  cases satisfied : r.satisfied metadata .destinationAddress with
  | false => cases item <;> simp [groupsVerdict, satisfied, plain]
  | true =>
    rw [closed satisfied, openIf_false, yes_conj, yes_conj]
    cases item with
    | none => cases holds : r.groupsHold metadata <;> simp [groupsVerdict, holds] <;> rfl
    | some item => simp [groupsVerdict, satisfied, plain]

section

variable (r : AbstractDefaultRule) (item : Option (RuleSetItem (List Rule)))
  (blind : ∀ plain ∈ r.items, ResponseBlind plain)
  (each : ∀ ruleSetItem ∈ item, ∀ rules ∈ ruleSetItem.setList,
    SetEvaluates r (Rule.toRuleSet rules) (Rule.setVerdict true rules))

include r item blind each

theorem matchInner_reports (metadata : InboundContext) (pre : PreMatching metadata) :
    let outcome := r.matchInner (item.map Rule.toItem) metadata
    Reports outcome.1 outcome.2.deferredIPCIDRMatchGroups
      ((ofBool (matchAllItems r.items metadata)).conj
        ((openIf (r.defersIPCIDR metadata)).conj
          (r.groupsVerdict true (item.map (Rule.itemVerdict true)) metadata))) := by
  have report := r.matchGroups_reports item each metadata pre
  rw [matchInner, r.evaluateGroups_of_preMatching metadata pre]
  dsimp only at report ⊢
  rw [r.matchAllItems_setDeferred blind]
  cases matchAllItems r.items metadata with
  | false => exact reports_no _
  | true =>
    have settled := r.settle_conj_groupsVerdict (item.map (Rule.itemVerdict true)) metadata pre
    simp only [ofBool, yes_conj, ← settled]
    revert report
    rcases matchGroups _ _ _ with ⟨answer, left⟩
    generalize (openIf (r.defersIPCIDR metadata)).conj _ = value
    rintro ⟨rfl, deferred⟩
    cases value with
    | no =>
      rw [settle_of_ne fun _ => by decide]
      exact reports_no _
    | unknown | yes =>
      refine ⟨?_, fun _ => ?_⟩
      · cases r.satisfied metadata .destinationAddress <;> rfl
      · rw [← deferredBits_andNot]
        exact congrArg (· &&& ~~~stateOf (r.satisfied metadata)) (deferred (by decide))

theorem matchOn_evaluates : Evaluates (r.matchOn (item.map Rule.toItem))
      (r.verdict true (item.map (Rule.itemVerdict true))) := by
  intro metadata pre
  have report := r.matchInner_reports item blind each metadata pre
  rw [matchOn, verdict, r.allItemsEmpty_map, r.allItemsEmpty_map]
  cases r.allItemsEmpty item with
  | true => exact ⟨rfl, fun _ => pre.clear⟩
  | false =>
    revert report
    rcases r.matchInner (item.map Rule.toItem) metadata with ⟨answer, left⟩
    generalize Verdict.conj _ _ = value
    rintro ⟨rfl, deferred⟩
    cases r.invert with
    | false => exact ⟨rfl, deferred⟩
    | true =>
      cases value with
      | no => exact ⟨rfl, fun _ => rfl⟩
      | unknown | yes =>
        dsimp only [Verdict.possible] at deferred ⊢
        refine ⟨?_, fun _ => ?_⟩ <;>
          simp [deferred, Verdict.invert, Verdict.neg, Verdict.possible, deferredBits,
            ruleMatchDestinationAddress]

end

end AbstractDefaultRule

/-! ### Legacy rule trees -/

/-- An `ip_cidr` item of a headless rule. -/
def IsIPCIDRItem (item : RuleItem) : Prop :=
  ∃ cidr : IPCIDRItem, item = cidr.matchOn

/-- The destination `ip_cidr` items of the rule are `IPCIDRItem`s, as those of a headless rule
always are. -/
def HeadlessRuleItems (rule : AbstractDefaultRule) (_item : Option (RuleSetItem (List Rule))) :
    Prop :=
  ∀ other ∈ rule.destinationIPCIDRItems, IsIPCIDRItem other

/-- What the DNS rules of the legacy mode promise. No rule binds a response. The items outside
the `ip_cidr` group do not read the response. Neither a rule nor a rule merged with it has
both domain items and destination `ip_cidr` items. The `ip_cidr` items of a rule-set are
`IPCIDRItem`s. -/
structure LegacyRule (rule : AbstractDefaultRule) (item : Option (RuleSetItem (List Rule))) :
    Prop where
  unbound : rule.matchResponse = .disabled
  blind : ∀ other ∈ rule.items ++ rule.sourceAddressItems ++ rule.sourcePortItems ++
    rule.destinationAddressItems ++ rule.destinationPortItems, ResponseBlind other
  unmixed : rule.Unmixed rule
  unmixedSets : ∀ ruleSetItem ∈ item, ∀ rules ∈ ruleSetItem.setList,
    ∀ branch ∈ mergeableRuleIn rules, rule.Unmixed branch
  headless : ∀ ruleSetItem ∈ item, ∀ rules ∈ ruleSetItem.setList, ∀ child ∈ rules,
    child.Every HeadlessRuleItems

theorem LegacyRule.blindItems {rule : AbstractDefaultRule}
    {item : Option (RuleSetItem (List Rule))} (legacy : LegacyRule rule item) :
    ∀ plain ∈ rule.items, ResponseBlind plain :=
  fun plain member => legacy.blind plain (by simp [member])

/-- The pre-match of a legacy rule tree computes its lossy verdict. -/
theorem Rule.matchOn_evaluates (rule : Rule) (legacy : rule.Every LegacyRule) :
    Evaluates rule.matchOn (rule.verdict true) := by
  induction rule using Rule.induction with
  | default rule item ih =>
    have direct : (Rule.default rule item).matchOn = rule.matchOn (item.map toItem) := by
      funext metadata
      rw [matchOn_default, matchForMatch, legacy.here.unbound]
    rw [direct, verdict_default]
    refine rule.matchOn_evaluates item legacy.here.blindItems fun ruleSetItem same rules listed => ?_
    have below := legacy.inSets ruleSetItem same rules listed
    refine ⟨rfl, ?_, legacy.here.unmixedSets ruleSetItem same rules listed, ?_⟩
    · exact matchAnyHeadlessRule_evaluates matchOn (verdict true) rules fun child member =>
        ih ruleSetItem same rules listed child member (below child member)
    · exact fun branch offered => (below _ (mem_of_mergeableRuleIn offered)).here.blindItems
  | logical mode rules invert ih =>
    rw [matchOn_logical, verdict_logical]
    refine logicalMatchOn_evaluates matchOn (verdict true) rules (fun child member => ?_) mode invert
    exact ih child member (legacy.inRules child member)

end SingBox
