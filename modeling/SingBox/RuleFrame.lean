/-
This file is a frame rule for rule matching. A change of the metadata that
touches none of the fields the matching functions themselves read commutes with
all of them, as long as the items that are evaluated answer the same before and
after the change. The rules that depend on what was changed are exactly those
with such an item at a place where it is evaluated. A loop that leaves early evaluates
the rules that it reaches only.
-/

import SingBox.Reached
import SingBox.RuleFormula

namespace SingBox

open List Loop AbstractDefaultRule

/-- A change of the metadata that leaves the state of a rule match alone. -/
structure Frame (move : InboundContext → InboundContext) : Prop where
  setDeferred : ∀ metadata groups,
    move (metadata.setDeferred groups) = (move metadata).setDeferred groups
  setIPCIDRFlags : ∀ metadata matchSource acceptEmpty,
    move (metadata.setIPCIDRFlags matchSource acceptEmpty) =
      (move metadata).setIPCIDRFlags matchSource acceptEmpty
  deferred : ∀ metadata,
    (move metadata).deferredIPCIDRMatchGroups = metadata.deferredIPCIDRMatchGroups
  ignore : ∀ metadata,
    (move metadata).ignoreDestinationIPCIDRMatch = metadata.ignoreDestinationIPCIDRMatch
  matchSource : ∀ metadata, (move metadata).ipCIDRMatchSource = metadata.ipCIDRMatchSource

/-- The rule answers the same after the change, and leaves the same deferred groups. -/
def Unmoved (move : InboundContext → InboundContext) (rule : HeadlessRule)
    (metadata : InboundContext) : Prop :=
  rule (move metadata) = ((rule metadata).1, move (rule metadata).2)

/-- The items of the rule answer the same after the change. The plain items are evaluated
after the groups, when the rule has recorded what it defers. -/
structure SameItems (move : InboundContext → InboundContext) (metadata : InboundContext)
    (rule : AbstractDefaultRule) : Prop where
  plain : ∀ item ∈ rule.items, ∀ groups,
    item (move (metadata.setDeferred groups)) = item (metadata.setDeferred groups)
  grouped : ∀ item ∈ rule.sourceAddressItems ++ rule.sourcePortItems ++
    rule.destinationAddressItems ++ rule.destinationPortItems, item (move metadata) = item metadata
  ipCIDR : ∀ item ∈ rule.destinationIPCIDRItems, item (move metadata) = item metadata

variable {move : InboundContext → InboundContext}

namespace Frame

theorem resetRuleMatchCache (frame : Frame move) (metadata : InboundContext) :
    (move metadata).resetRuleMatchCache = move metadata.resetRuleMatchCache :=
  (frame.setDeferred metadata 0).symm

theorem resetRuleCache (frame : Frame move) (metadata : InboundContext) :
    (move metadata).resetRuleCache = move metadata.resetRuleCache := by
  rw [InboundContext.resetRuleCache, ← frame.setIPCIDRFlags, frame.resetRuleMatchCache]
  rfl

theorem nestedMetadata {Set : Type} (frame : Frame move) (item : RuleSetItem Set)
    (metadata : InboundContext) :
    item.nestedMetadata (move metadata) = move (item.nestedMetadata metadata) := by
  rw [RuleSetItem.nestedMetadata, frame.resetRuleMatchCache, ← frame.setIPCIDRFlags]
  rfl

end Frame

variable {items : List RuleItem} {metadata : InboundContext}

theorem matchAnyItem_unmoved (same : ∀ item ∈ items, item (move metadata) = item metadata) :
    matchAnyItem items (move metadata) = matchAnyItem items metadata := by
  rw [Bool.eq_iff_iff, matchAnyItem, matchAnyItem, any_eq_true, any_eq_true]
  exact exists_congr fun item => and_congr_right fun member => by rw [same item member]

theorem matchAllItems_unmoved (same : ∀ item ∈ items, item (move metadata) = item metadata) :
    matchAllItems items (move metadata) = matchAllItems items metadata := by
  rw [Bool.eq_iff_iff, matchAllItems, matchAllItems, all_eq_true, all_eq_true]
  exact forall₂_congr fun item member => by rw [same item member]

/-! ### Default rules -/

namespace SameItems

variable {rule : AbstractDefaultRule} {metadata : InboundContext}
  (same : SameItems move metadata rule)

include same

theorem groupMatch_unmoved (frame : Frame move) :
    rule.groupMatch (move metadata) = rule.groupMatch metadata := by
  have grouped (items : List RuleItem) (inside : ∀ other ∈ items, other ∈
      rule.sourceAddressItems ++ rule.sourcePortItems ++ rule.destinationAddressItems ++
      rule.destinationPortItems) :
      matchAnyItem items (move metadata) = matchAnyItem items metadata :=
    matchAnyItem_unmoved fun other member => same.grouped other (inside other member)
  have source : rule.destinationIPCIDRMatchesSource (move metadata) =
      rule.destinationIPCIDRMatchesSource metadata := by
    rw [destinationIPCIDRMatchesSource, frame.matchSource]
    rfl
  have destination : rule.destinationIPCIDRMatchesDestination (move metadata) =
      rule.destinationIPCIDRMatchesDestination metadata := by
    rw [destinationIPCIDRMatchesDestination, frame.matchSource, frame.ignore]
    rfl
  unfold groupMatch
  rw [grouped rule.sourceAddressItems fun other member => by simp [member],
    grouped rule.sourcePortItems fun other member => by simp [member],
    grouped rule.destinationAddressItems fun other member => by simp [member],
    grouped rule.destinationPortItems fun other member => by simp [member],
    matchAnyItem_unmoved same.ipCIDR, source, destination]

theorem evaluateGroups_unmoved (frame : Frame move) : rule.evaluateGroups (move metadata) =
      ((rule.evaluateGroups metadata).1, move (rule.evaluateGroups metadata).2) := by
  have deferring : rule.defersIPCIDR (move metadata) = rule.defersIPCIDR metadata := by
    rw [defersIPCIDR, frame.matchSource, frame.ignore]
    rfl
  rw [evaluateGroups, evaluateGroups,
    same.groupMatch_unmoved frame, deferring, frame.deferred, ← frame.setDeferred]
  cases rule.defersIPCIDR metadata <;> rfl

/-- The plain items, at the metadata `evaluateGroups` leaves. -/
theorem matchAllItems_evaluateGroups :
    matchAllItems rule.items (move (rule.evaluateGroups metadata).2) =
      matchAllItems rule.items (rule.evaluateGroups metadata).2 := by
  refine matchAllItems_unmoved fun item member => ?_
  rw [evaluateGroups]
  cases rule.defersIPCIDR metadata with
  | false => exact same.plain item member metadata.deferredIPCIDRMatchGroups
  | true => exact same.plain item member _

theorem evaluateForMerge_unmoved (frame : Frame move) : rule.evaluateForMerge (move metadata) =
      ((rule.evaluateForMerge metadata).1, move (rule.evaluateForMerge metadata).2) := by
  rw [evaluateForMerge, evaluateForMerge, same.evaluateGroups_unmoved frame]
  dsimp only
  rw [same.matchAllItems_evaluateGroups]
  cases matchAllItems rule.items (rule.evaluateGroups metadata).2 <;> rfl

end SameItems

/-! ### Loops -/

/-- A loop over rules leaves behind a result: a conjunction if the rule does not match, a
disjunction if it matches with nothing deferred. -/
def LogicalMode.leaves (mode : LogicalMode) (result : Bool × InboundContext) : Bool :=
  match mode with
  | .and => !result.1
  | .or => result.1 && result.2.deferredIPCIDRMatchGroups = 0

section Loops

variable {rules : List HeadlessRule} {metadata : InboundContext} (frame : Frame move)

include frame

theorem logicalAndLoop_unmoved (deferredGroups : BitVec 8)
    (each : ∀ rule ∈ reached (fun rule => LogicalMode.and.leaves (rule metadata.resetRuleCache))
      rules, Unmoved move rule metadata.resetRuleCache) :
    logicalAndLoop (move metadata) deferredGroups rules =
      logicalAndLoop metadata deferredGroups rules := by
  induction rules generalizing deferredGroups with
  | nil => rfl
  | cons rule rest ih =>
    have later goes groups := ih groups fun other member =>
      each other (mem_reached_cons goes member)
    have here : rule (move metadata.resetRuleCache) = _ := each rule mem_reached_cons_self
    rw [logicalAndLoop, logicalAndLoop, frame.resetRuleCache, here]
    rcases outcome : rule metadata.resetRuleCache with ⟨matched, nestedMetadata⟩
    rw [outcome] at later
    cases matched with
    | false => rfl
    | true =>
      dsimp only
      rw [frame.deferred]
      exact later rfl _

theorem logicalOrLoop_unmoved (matched : Bool) (deferredGroups : BitVec 8)
    (each : ∀ rule ∈ reached (fun rule => LogicalMode.or.leaves (rule metadata.resetRuleCache))
      rules, Unmoved move rule metadata.resetRuleCache) :
    logicalOrLoop (move metadata) matched deferredGroups rules =
      logicalOrLoop metadata matched deferredGroups rules := by
  induction rules generalizing matched deferredGroups with
  | nil => rfl
  | cons rule rest ih =>
    have later goes found groups := ih found groups fun other member =>
      each other (mem_reached_cons goes member)
    have here : rule (move metadata.resetRuleCache) = _ := each rule mem_reached_cons_self
    rw [logicalOrLoop, logicalOrLoop, frame.resetRuleCache, here]
    rcases outcome : rule metadata.resetRuleCache with ⟨answer, nestedMetadata⟩
    rw [outcome] at later
    cases answer with
    | false => exact later rfl _ _
    | true =>
      dsimp only
      rw [frame.deferred]
      split
      · rfl
      next deferring => exact later (decide_eq_false deferring) _ _

theorem logicalMatchOn_unmoved (mode : LogicalMode) (invert : Bool)
    (each : ∀ rule ∈ reached (fun rule => mode.leaves (rule metadata.resetRuleCache)) rules,
      Unmoved move rule metadata.resetRuleCache) :
    Unmoved move (logicalMatchOn mode invert rules) metadata := by
  have loop : logicalLoop mode rules (move metadata) = logicalLoop mode rules metadata := by
    cases mode with
    | and => exact logicalAndLoop_unmoved frame 0 each
    | or => exact logicalOrLoop_unmoved frame false 0 each
  unfold Unmoved
  rw [logicalMatchOn, logicalMatchOn, loop]
  rcases logicalLoop mode rules metadata with ⟨matched, deferredGroups⟩
  cases matched <;> cases invert <;> simp [frame.deferred, frame.setDeferred]

theorem matchAnyHeadlessRule_unmoved
    (each : ∀ rule ∈ reached
      (fun rule => LogicalMode.or.leaves (rule metadata.resetRuleMatchCache)) rules,
      Unmoved move rule metadata.resetRuleMatchCache) :
    Unmoved move (matchAnyHeadlessRule rules) metadata := by
  unfold Unmoved matchAnyHeadlessRule
  generalize false = matched
  generalize (0 : BitVec 8) = deferredGroups
  induction rules generalizing matched deferredGroups with
  | nil =>
    rw [matchAnyHeadlessRuleLoop, matchAnyHeadlessRuleLoop, frame.deferred, ← frame.setDeferred]
    cases matched <;> rfl
  | cons rule rest ih =>
    have later goes found groups := ih
      (fun other member => each other (mem_reached_cons goes member)) found groups
    have here : rule (move metadata.resetRuleMatchCache) = _ := each rule mem_reached_cons_self
    rw [matchAnyHeadlessRuleLoop, matchAnyHeadlessRuleLoop, frame.resetRuleMatchCache, here]
    rcases outcome : rule metadata.resetRuleMatchCache with ⟨answer, nestedMetadata⟩
    rw [outcome] at later
    cases answer with
    | false => exact later rfl _ _
    | true =>
      dsimp only
      rw [frame.deferred]
      split
      · rfl
      next deferring => exact later (decide_eq_false deferring) _ _

/-- A rule-set ends the loop over the sets that an item references. -/
def RuleSet.ends (outerGroups : RuleGroupMatch) (metadata : InboundContext) (ruleSet : RuleSet) :
    Bool :=
  match ruleSet.mergeableRule with
  | some branch =>
    match branch.evaluateForMerge metadata with
    | (some branchGroups, left) =>
      let merged := outerGroups.mergeWith branchGroups
      merged.done && left.deferredIPCIDRMatchGroups &&& ~~~merged.satisfied = 0
    | (none, _) => false
  | none => outerGroups.done && LogicalMode.or.leaves (ruleSet.matchOn metadata)

/-- A referenced rule-set is unmoved, as a rule to merge and, where it is matched on its own, as a
whole. -/
structure SetUnmoved (move : InboundContext → InboundContext) (metadata : InboundContext)
    (outerGroups : RuleGroupMatch) (ruleSet : RuleSet) : Prop where
  matchOn : ruleSet.mergeableRule = none → outerGroups.done = true →
    Unmoved move ruleSet.matchOn metadata
  mergeable : ∀ branch ∈ ruleSet.mergeableRule, branch.evaluateForMerge (move metadata) =
    ((branch.evaluateForMerge metadata).1, move (branch.evaluateForMerge metadata).2)

theorem matchWithOuterGroups_unmoved (item : RuleSetItem RuleSet)
    (outerGroups : RuleGroupMatch)
    (each : ∀ ruleSet ∈ reached (RuleSet.ends outerGroups (item.nestedMetadata metadata))
      item.setList, SetUnmoved move (item.nestedMetadata metadata) outerGroups ruleSet) :
    item.matchWithOuterGroups (move metadata) outerGroups =
      ((item.matchWithOuterGroups metadata outerGroups).1,
        move (item.matchWithOuterGroups metadata outerGroups).2) := by
  unfold RuleSetItem.matchWithOuterGroups
  generalize item.setList = sets at each
  generalize false = matched
  generalize (0 : BitVec 8) = deferredGroups
  induction sets generalizing matched deferredGroups with
  | nil =>
    rw [RuleSetItem.matchWithOuterGroupsLoop, RuleSetItem.matchWithOuterGroupsLoop,
      frame.deferred, ← frame.setDeferred]
    cases matched <;> rfl
  | cons ruleSet rest ih =>
    have later goes found groups := ih
      (fun other member => each other (mem_reached_cons goes member)) found groups
    obtain ⟨matchOn, mergeable⟩ := each ruleSet mem_reached_cons_self
    rw [RuleSetItem.matchWithOuterGroupsLoop, RuleSetItem.matchWithOuterGroupsLoop,
      frame.nestedMetadata]
    unfold RuleSet.ends at later
    cases offered : ruleSet.mergeableRule with
    | some branch =>
      rw [offered] at later
      dsimp only at later ⊢
      rw [mergeable branch offered]
      rcases outcome : branch.evaluateForMerge (item.nestedMetadata metadata) with ⟨groups, left⟩
      rw [outcome] at later
      cases groups with
      | none => exact later rfl _ _
      | some branchGroups =>
        dsimp only at later ⊢
        rw [frame.deferred, frame.deferred, ← frame.setDeferred]
        split
        next done =>
          split
          · rfl
          next deferring =>
            exact later (by rw [decide_eq_false deferring, Bool.and_false]) _ _
        next undone => exact later (by rw [Bool.eq_false_iff.mpr undone, Bool.false_and]) _ _
    | none =>
      rw [offered] at later
      dsimp only at later ⊢
      split
      next done =>
        rw [show ruleSet.matchOn _ = _ from matchOn offered done]
        rcases outcome : ruleSet.matchOn (item.nestedMetadata metadata) with ⟨answer, left⟩
        rw [outcome] at later
        cases answer with
        | false => exact later (by rw [done]; rfl) _ _
        | true =>
          dsimp only
          rw [frame.deferred]
          split
          · rfl
          next deferring =>
            exact later (by rw [done]; exact decide_eq_false deferring) _ _
      next undone => exact later (by rw [Bool.eq_false_iff.mpr undone, Bool.false_and]) _ _

end Loops

namespace AbstractDefaultRule

theorem unmoved_of_matchInner (frame : Frame move) {rule : AbstractDefaultRule}
    {item : Option (RuleSetItem RuleSet)}
    (inner : rule.matchInner item (move metadata) =
      ((rule.matchInner item metadata).1, move (rule.matchInner item metadata).2)) :
    Unmoved move (rule.matchOn item) metadata := by
  unfold Unmoved
  rw [matchOn, matchOn, inner]
  rcases rule.matchInner item metadata with ⟨matched, left⟩
  cases rule.allItemsEmpty item <;> cases rule.invert <;> cases matched <;>
    simp [frame.deferred, frame.setDeferred]

theorem evaluateGroups_unmoved (frame : Frame move) (rule : AbstractDefaultRule) :
    (rule.evaluateGroups (move metadata)).2 = move (rule.evaluateGroups metadata).2 := by
  have deferring : rule.defersIPCIDR (move metadata) = rule.defersIPCIDR metadata := by
    rw [defersIPCIDR, frame.matchSource, frame.ignore]
    rfl
  rw [evaluateGroups, evaluateGroups, deferring, frame.deferred, ← frame.setDeferred]
  cases rule.defersIPCIDR metadata <;> rfl

theorem groupItems_unmoved (frame : Frame move) (rule : AbstractDefaultRule) (group : RuleGroup) :
    rule.groupItems (move metadata) group = rule.groupItems metadata group := by
  cases group with
  | sourcePort | destinationPort => rfl
  | sourceAddress =>
    rw [groupItems, groupItems, destinationIPCIDRMatchesSource, frame.matchSource]
    rfl
  | destinationAddress =>
    rw [groupItems, groupItems, destinationIPCIDRMatchesDestination, frame.matchSource,
      frame.ignore]
    rfl

/-- Where the groups of a rule hold, they are those that have items. -/
theorem satisfied_of_groupsHold {rule : AbstractDefaultRule} (holds : rule.groupsHold metadata) :
    rule.satisfied metadata = rule.required metadata := by
  have done := (groupsDone_iff _ _).mp holds
  funext group
  cases present : rule.required metadata group with
  | true => exact done group present
  | false =>
    have none : rule.groupItems metadata group = [] := by
      unfold required at present
      cases items : rule.groupItems metadata group with
      | nil => rfl
      | cons first rest => simp [items] at present
    rw [satisfied, none]
    rfl

/-- A rule that references no rule-set is unmoved if its groups, as far as its plain items let
them decide, hold before and after the change alike. -/
theorem matchOn_none_unmoved (frame : Frame move) {rule : AbstractDefaultRule}
    (plain : matchAllItems rule.items (move (rule.evaluateGroups metadata).2) =
      matchAllItems rule.items (rule.evaluateGroups metadata).2)
    (groups : matchAllItems rule.items (rule.evaluateGroups metadata).2 = true →
      rule.groupsHold (move metadata) = rule.groupsHold metadata) :
    Unmoved move (rule.matchOn none) metadata := by
  refine unmoved_of_matchInner frame ?_
  have done (metadata : InboundContext) :
      (rule.groupMatch metadata).done = rule.groupsHold metadata := by
    rw [groupMatch_eq, RuleGroupMatch.done_ofGroups]
    rfl
  have first (metadata : InboundContext) :
      (rule.evaluateGroups metadata).1 = rule.groupMatch metadata := by
    rw [evaluateGroups]
    cases rule.defersIPCIDR metadata <;> rfl
  unfold matchInner matchGroups
  dsimp only
  rw [rule.evaluateGroups_unmoved frame, plain, first, first]
  cases items : matchAllItems rule.items (rule.evaluateGroups metadata).2 with
  | false => rfl
  | true =>
    have same := groups items
    rw [done, done, same]
    cases holds : rule.groupsHold metadata with
    | false => rfl
    | true =>
      have required : rule.required (move metadata) = rule.required metadata := by
        funext group
        rw [AbstractDefaultRule.required, rule.groupItems_unmoved frame]
        rfl
      rw [groupMatch_eq, groupMatch_eq, satisfied_of_groupsHold holds,
        satisfied_of_groupsHold (same.trans holds), required, frame.deferred, ← frame.setDeferred]
      rfl

theorem matchOn_unmoved (frame : Frame move) {rule : AbstractDefaultRule}
    (same : SameItems move metadata rule) (item : Option (RuleSetItem RuleSet))
    (each : ∀ ruleSetItem ∈ item, ∀ ruleSet ∈ ruleSetItem.setList, ∀ outerGroups,
      SetUnmoved move (ruleSetItem.nestedMetadata metadata) outerGroups ruleSet) :
    Unmoved move (rule.matchOn item) metadata := by
  have nested (ruleSetItem : RuleSetItem RuleSet) (groups : BitVec 8) :
      ruleSetItem.nestedMetadata (metadata.setDeferred groups) =
        ruleSetItem.nestedMetadata metadata := rfl
  have groups (groups : BitVec 8) (outer : RuleGroupMatch) :
      matchGroups item (move (metadata.setDeferred groups)) outer =
        ((matchGroups item (metadata.setDeferred groups) outer).1,
          move (matchGroups item (metadata.setDeferred groups) outer).2) := by
    cases item with
    | none => rfl
    | some ruleSetItem =>
      refine matchWithOuterGroups_unmoved frame ruleSetItem outer fun ruleSet member => ?_
      exact each ruleSetItem rfl ruleSet (mem_of_mem_reached member) outer
  have kept : ∃ deferred, (rule.evaluateGroups metadata).2 = metadata.setDeferred deferred := by
    rw [evaluateGroups]
    cases rule.defersIPCIDR metadata with
    | false => exact ⟨metadata.deferredIPCIDRMatchGroups, rfl⟩
    | true => exact ⟨_, rfl⟩
  have inner : rule.matchInner item (move metadata) =
      ((rule.matchInner item metadata).1, move (rule.matchInner item metadata).2) := by
    rw [matchInner, matchInner, same.evaluateGroups_unmoved frame]
    dsimp only
    rw [same.matchAllItems_evaluateGroups]
    cases matchAllItems rule.items (rule.evaluateGroups metadata).2 with
    | false => rfl
    | true =>
      obtain ⟨deferred, left⟩ := kept
      rw [left, groups]
      rcases matchGroups item (metadata.setDeferred deferred) (rule.evaluateGroups metadata).1 with
        ⟨matched, outcome⟩
      cases matched with
      | false => rfl
      | true => exact Prod.ext rfl (by simp [frame.deferred, frame.setDeferred])
  exact unmoved_of_matchInner frame inner

end AbstractDefaultRule

/-! ### Rule trees -/

namespace Rule

/-- No item of the tree sees the change at a place where it is evaluated. -/
inductive Unseen (move : InboundContext → InboundContext) : Rule → InboundContext → Prop where
  | default (rule : AbstractDefaultRule) (item : Option (RuleSetItem (List Rule)))
      (metadata : InboundContext) (unbound : rule.matchResponse = .disabled)
      (here : SameItems move metadata rule)
      (below : ∀ ruleSetItem ∈ item, ∀ rules ∈ ruleSetItem.setList, ∀ child ∈ rules,
        Unseen move child (ruleSetItem.nestedMetadata metadata)) :
      Unseen move (.default rule item) metadata
  | logical (mode : LogicalMode) (rules : List Rule) (invert : Bool) (metadata : InboundContext)
      (below : ∀ child ∈ rules, Unseen move child metadata.resetRuleCache) :
      Unseen move (.logical mode rules invert) metadata

/-- The rules of a rule-set that the loop over them reaches. -/
def reachedInSet (rules : List Rule) (metadata : InboundContext) : List Rule :=
  reached (fun rule => LogicalMode.or.leaves (rule.matchOn metadata.resetRuleMatchCache)) rules

theorem matchOn_toRuleSet_unmoved (frame : Frame move) {rules : List Rule}
    (each : ∀ rule ∈ reachedInSet rules metadata,
      Unmoved move rule.matchOn metadata.resetRuleMatchCache) :
    Unmoved move (toRuleSet rules).matchOn metadata := by
  refine matchAnyHeadlessRule_unmoved frame fun child inside => ?_
  rw [reached_map] at inside
  obtain ⟨rule, ofSet, rfl⟩ := mem_map.mp inside
  exact each rule ofSet

theorem toRuleSet_unmoved (frame : Frame move) {rules : List Rule} {outerGroups : RuleGroupMatch}
    (each : ∀ rule ∈ rules, Unmoved move rule.matchOn metadata.resetRuleMatchCache)
    (merging : ∀ branch ∈ mergeableRuleIn rules, SameItems move metadata branch) :
    SetUnmoved move metadata outerGroups (toRuleSet rules) := by
  refine ⟨fun _ _ => matchOn_toRuleSet_unmoved frame fun rule inside => ?_,
    fun branch offered => ?_⟩
  · exact each rule (mem_of_mem_reached inside)
  · exact (merging branch offered).evaluateForMerge_unmoved frame

/-- A rule none of whose items sees the change answers the same after it. -/
theorem matchOn_unmoved (frame : Frame move) (rule : Rule) (metadata : InboundContext)
    (unseen : rule.Unseen move metadata) : Unmoved move rule.matchOn metadata := by
  induction rule using Rule.induction generalizing metadata with
  | default rule item ih =>
    cases unseen with
    | default _ _ _ unbound here below =>
      have direct : (Rule.default rule item).matchOn = rule.matchOn (item.map toItem) := by
        funext metadata
        rw [matchOn_default, matchForMatch, unbound]
      rw [direct]
      refine AbstractDefaultRule.matchOn_unmoved frame here _ ?_
      rintro _ present ruleSet member outerGroups
      obtain ⟨ruleSetItem, same, rfl⟩ := Option.map_eq_some_iff.mp present
      obtain ⟨rules, listed, rfl⟩ := mem_map.mp member
      refine toRuleSet_unmoved frame (fun child inside => ?_) fun branch offered => ?_
      · exact ih ruleSetItem same rules listed child inside _
          (below ruleSetItem same rules listed child inside)
      · cases below ruleSetItem same rules listed _ (mem_of_mergeableRuleIn offered) with
        | default _ _ _ _ inside _ => exact inside
  | logical mode rules invert ih =>
    cases unseen with
    | logical _ _ _ _ below =>
      rw [matchOn_logical]
      refine logicalMatchOn_unmoved frame mode invert fun child member => ?_
      obtain ⟨rule, listed, rfl⟩ := mem_map.mp (mem_of_mem_reached member)
      exact ih rule listed _ (below rule listed)

end Rule

/-! ### What a match leaves -/

/-- A rule that changes nothing but the deferred groups. -/
def OnlyDefers (rule : HeadlessRule) : Prop :=
  ∀ metadata, ∃ groups, (rule metadata).2 = metadata.setDeferred groups

theorem onlyDefers_logicalMatchOn (mode : LogicalMode) (invert : Bool)
    (rules : List HeadlessRule) : OnlyDefers (logicalMatchOn mode invert rules) := by
  intro metadata
  rw [logicalMatchOn]
  rcases logicalLoop mode rules metadata with ⟨matched, deferredGroups⟩
  cases matched <;> cases invert
  · exact ⟨metadata.deferredIPCIDRMatchGroups, rfl⟩
  · exact ⟨metadata.deferredIPCIDRMatchGroups, rfl⟩
  · exact ⟨_, rfl⟩
  · exact ⟨_, rfl⟩

theorem matchWithOuterGroups_onlyDefers (item : RuleSetItem RuleSet)
    (metadata : InboundContext) (outerGroups : RuleGroupMatch) :
    ∃ groups, (item.matchWithOuterGroups metadata outerGroups).2 = metadata.setDeferred groups := by
  have untouched : metadata = metadata.setDeferred metadata.deferredIPCIDRMatchGroups := rfl
  unfold RuleSetItem.matchWithOuterGroups
  fun_induction RuleSetItem.matchWithOuterGroupsLoop item metadata outerGroups false 0
      item.setList with
  | case1 | case3 => exact ⟨_, rfl⟩
  | case2 | case7 => exact ⟨_, untouched⟩
  | case4 | case5 | case6 | case8 | case9 | case10 => assumption

theorem AbstractDefaultRule.onlyDefers_matchOn (rule : AbstractDefaultRule)
    (item : Option (RuleSetItem RuleSet)) : OnlyDefers (rule.matchOn item) := by
  intro metadata
  have untouched : metadata = metadata.setDeferred metadata.deferredIPCIDRMatchGroups := rfl
  have evaluated : ∃ groups, (rule.evaluateGroups metadata).2 = metadata.setDeferred groups := by
    rw [evaluateGroups]
    cases rule.defersIPCIDR metadata with
    | false => exact ⟨_, untouched⟩
    | true => exact ⟨_, rfl⟩
  have inner : ∃ groups, (rule.matchInner item metadata).2 = metadata.setDeferred groups := by
    obtain ⟨groups, evaluated⟩ := evaluated
    have outer : ∃ groups, (matchGroups item (rule.evaluateGroups metadata).2
        (rule.evaluateGroups metadata).1).2 = metadata.setDeferred groups := by
      cases item with
      | none => exact ⟨groups, evaluated⟩
      | some item =>
        rw [matchGroups, evaluated]
        exact matchWithOuterGroups_onlyDefers item _ _
    obtain ⟨outerGroups, outer⟩ := outer
    rw [matchInner]
    dsimp only
    split
    · exact ⟨groups, evaluated⟩
    · split
      · rw [outer]
        exact ⟨_, rfl⟩
      · exact ⟨outerGroups, outer⟩
  obtain ⟨groups, inner⟩ := inner
  rw [matchOn]
  dsimp only
  repeat' split
  · exact ⟨_, untouched⟩
  · rw [inner]
    exact ⟨0, rfl⟩
  · exact ⟨groups, inner⟩
  · exact ⟨groups, inner⟩

/-- Matching a rule changes nothing but the deferred groups. -/
theorem Rule.onlyDefers_matchOn (rule : Rule) : OnlyDefers rule.matchOn := by
  intro metadata
  cases rule with
  | default rule item =>
    rw [matchOn_default, matchForMatch]
    have bound (response : Option Msg) : (matchForMatch.matchBound rule
        (rule.matchOn (item.map toItem)) metadata response).2 =
          metadata.setDeferred metadata.deferredIPCIDRMatchGroups := by
      cases response <;> rfl
    split
    · exact AbstractDefaultRule.onlyDefers_matchOn rule _ metadata
    · exact ⟨_, bound _⟩
    · exact ⟨_, bound _⟩
  | logical mode rules invert =>
    exact onlyDefers_logicalMatchOn mode invert _ metadata

end SingBox
