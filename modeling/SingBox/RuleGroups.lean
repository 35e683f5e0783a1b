/-
This file reads the two bitmasks of `ruleGroupMatch` as sets of match groups.
`evaluateGroups` requires the groups that have items and satisfies those that
have a matching item, so a rule's groups are done when every group with items
has a matching one, and merging two rules takes the union of both sets.
-/

import SingBox.RuleMatch

namespace SingBox

/-! ### The bitmask as a set of groups -/

/-- The four groups in which one matching item is enough. -/
inductive RuleGroup where
  | sourceAddress
  | sourcePort
  | destinationAddress
  | destinationPort
  deriving DecidableEq, Repr

namespace RuleGroup

def all : List RuleGroup := [sourceAddress, sourcePort, destinationAddress, destinationPort]

/-- The bit of a group in a `ruleMatchState`. -/
def bit : RuleGroup → RuleMatchState
  | sourceAddress => ruleMatchSourceAddress
  | sourcePort => ruleMatchSourcePort
  | destinationAddress => ruleMatchDestinationAddress
  | destinationPort => ruleMatchDestinationPort

theorem mem_all (group : RuleGroup) : group ∈ all := by
  cases group <;> decide

end RuleGroup

/-- The `ruleMatchState` of four flags. -/
def stateOfFlags (sourceAddress sourcePort destinationAddress destinationPort : Bool) :
    RuleMatchState :=
  (if sourceAddress then ruleMatchSourceAddress else 0) |||
    (if sourcePort then ruleMatchSourcePort else 0) |||
    (if destinationAddress then ruleMatchDestinationAddress else 0) |||
    (if destinationPort then ruleMatchDestinationPort else 0)

theorem stateOfFlags_or : ∀ a1 a2 a3 a4 b1 b2 b3 b4 : Bool,
    stateOfFlags a1 a2 a3 a4 ||| stateOfFlags b1 b2 b3 b4 =
      stateOfFlags (a1 || b1) (a2 || b2) (a3 || b3) (a4 || b4) := by
  decide

theorem stateOfFlags_andNot : ∀ a1 a2 a3 a4 b1 b2 b3 b4 : Bool,
    stateOfFlags a1 a2 a3 a4 &&& ~~~stateOfFlags b1 b2 b3 b4 =
      stateOfFlags (a1 && !b1) (a2 && !b2) (a3 && !b3) (a4 && !b4) := by
  decide

theorem stateOfFlags_eq_zero : ∀ a1 a2 a3 a4 : Bool,
    stateOfFlags a1 a2 a3 a4 = 0 ↔ a1 = false ∧ a2 = false ∧ a3 = false ∧ a4 = false := by
  decide

theorem stateHas_stateOfFlags : ∀ a1 a2 a3 a4 : Bool,
    stateHas (stateOfFlags a1 a2 a3 a4) ruleMatchSourceAddress = a1 ∧
      stateHas (stateOfFlags a1 a2 a3 a4) ruleMatchSourcePort = a2 ∧
      stateHas (stateOfFlags a1 a2 a3 a4) ruleMatchDestinationAddress = a3 ∧
      stateHas (stateOfFlags a1 a2 a3 a4) ruleMatchDestinationPort = a4 := by
  decide

/-- The `ruleMatchState` with exactly the bits of the given groups. -/
def stateOf (groups : RuleGroup → Bool) : RuleMatchState :=
  stateOfFlags (groups .sourceAddress) (groups .sourcePort) (groups .destinationAddress)
    (groups .destinationPort)

theorem stateOf_or (first second : RuleGroup → Bool) :
    stateOf first ||| stateOf second = stateOf fun group => first group || second group :=
  stateOfFlags_or _ _ _ _ _ _ _ _

theorem stateOf_andNot (first second : RuleGroup → Bool) :
    stateOf first &&& ~~~stateOf second = stateOf fun group => first group && !second group :=
  stateOfFlags_andNot _ _ _ _ _ _ _ _

theorem stateOf_eq_zero (groups : RuleGroup → Bool) :
    stateOf groups = 0 ↔ ∀ group, groups group = false := by
  rw [stateOf, stateOfFlags_eq_zero]
  constructor
  · rintro ⟨first, second, third, fourth⟩ group
    cases group <;> assumption
  · intro none
    exact ⟨none _, none _, none _, none _⟩

theorem bit_eq_stateOf (group : RuleGroup) : group.bit = stateOf fun other => other = group := by
  cases group <;> decide

theorem stateHas_stateOf (groups : RuleGroup → Bool) (group : RuleGroup) :
    stateHas (stateOf groups) group.bit = groups group := by
  obtain ⟨first, second, third, fourth⟩ := stateHas_stateOfFlags (groups .sourceAddress)
    (groups .sourcePort) (groups .destinationAddress) (groups .destinationPort)
  cases group <;> assumption

/-- A `ruleGroupMatch` from the groups that are required and those that are satisfied. -/
def RuleGroupMatch.ofGroups (required satisfied : RuleGroup → Bool) : RuleGroupMatch where
  required := stateOf required
  satisfied := stateOf satisfied

/-- Every required group is satisfied. -/
def groupsDone (required satisfied : RuleGroup → Bool) : Bool :=
  RuleGroup.all.all fun group => !required group || satisfied group

theorem groupsDone_iff (required satisfied : RuleGroup → Bool) :
    groupsDone required satisfied = true ↔
      ∀ group, required group = true → satisfied group = true := by
  simp only [groupsDone, List.all_eq_true, Bool.or_eq_true, Bool.not_eq_true']
  constructor
  · intro each group needed
    rcases each group group.mem_all with absent | present
    · rw [needed] at absent
      cases absent
    · exact present
  · intro each group _
    cases needed : required group with
    | false => exact Or.inl rfl
    | true => exact Or.inr (each group needed)

namespace RuleGroupMatch

theorem done_ofGroups (required satisfied : RuleGroup → Bool) :
    (ofGroups required satisfied).done = groupsDone required satisfied := by
  rw [Bool.eq_iff_iff, groupsDone_iff, done, ofGroups, beq_iff_eq, stateOf_andNot, stateOf_eq_zero]
  refine forall_congr' fun group => ?_
  cases required group <;> cases satisfied group <;> simp

theorem stateHas_satisfied (required satisfied : RuleGroup → Bool) (group : RuleGroup) :
    stateHas (ofGroups required satisfied).satisfied group.bit = satisfied group :=
  stateHas_stateOf satisfied group

theorem mergeWith_ofGroups (required satisfied required' satisfied' : RuleGroup → Bool) :
    (ofGroups required satisfied).mergeWith (ofGroups required' satisfied') =
      ofGroups (fun group => required group || required' group)
        fun group => satisfied group || satisfied' group := by
  rw [mergeWith, ofGroups, ofGroups, ofGroups, stateOf_or, stateOf_or]

theorem record_ofGroups (required satisfied : RuleGroup → Bool) (group : RuleGroup)
    (matched : Bool) :
    (ofGroups required satisfied).record group.bit matched =
      ofGroups (fun other => required other || decide (other = group))
        fun other => satisfied other || (matched && decide (other = group)) := by
  rw [record, ofGroups, ofGroups, bit_eq_stateOf, stateOf_or, stateOf_or]
  cases matched <;> simp

end RuleGroupMatch

/-! ### The groups of a default rule -/

namespace AbstractDefaultRule

/-- The items of a group. Destination `ip_cidr` items count as source address items under
`rule_set_ip_cidr_match_source`, and as no items at all while the pre-match ignores them. -/
def groupItems (r : AbstractDefaultRule) (metadata : InboundContext) :
    RuleGroup → List RuleItem
  | .sourceAddress => r.sourceAddressItems ++
      if r.destinationIPCIDRMatchesSource metadata then r.destinationIPCIDRItems else []
  | .sourcePort => r.sourcePortItems
  | .destinationAddress => r.destinationAddressItems ++
      if r.destinationIPCIDRMatchesDestination metadata then r.destinationIPCIDRItems else []
  | .destinationPort => r.destinationPortItems

/-- The groups that have items. -/
def required (r : AbstractDefaultRule) (metadata : InboundContext) (group : RuleGroup) : Bool :=
  !(r.groupItems metadata group).isEmpty

/-- The groups that have a matching item. -/
def satisfied (r : AbstractDefaultRule) (metadata : InboundContext) (group : RuleGroup) :
    Bool :=
  matchAnyItem (r.groupItems metadata group) metadata

theorem isEmpty_append_if (first second : List RuleItem) (counted : Bool)
    (present : counted = true → second ≠ []) :
    (!(first ++ if counted then second else []).isEmpty) = (!first.isEmpty || counted) := by
  cases counted with
  | false => simp
  | true =>
    have nonempty := present rfl
    cases second with
    | nil => exact absurd rfl nonempty
    | cons item rest => simp

theorem matchAnyItem_append_if (first second : List RuleItem) (counted : Bool)
    (metadata : InboundContext) :
    matchAnyItem (first ++ if counted then second else []) metadata =
      (matchAnyItem first metadata || (counted && matchAnyItem second metadata)) := by
  cases counted <;> simp [matchAnyItem]

theorem matchAnyItem_of_isEmpty (items : List RuleItem) (metadata : InboundContext) :
    (!items.isEmpty && matchAnyItem items metadata) = matchAnyItem items metadata := by
  cases items <;> simp [matchAnyItem]

theorem ne_nil_of_destinationIPCIDRMatchesSource (r : AbstractDefaultRule)
    (metadata : InboundContext) (counted : r.destinationIPCIDRMatchesSource metadata = true) :
    r.destinationIPCIDRItems ≠ [] := by
  intro empty
  simp [destinationIPCIDRMatchesSource, empty] at counted

theorem ne_nil_of_destinationIPCIDRMatchesDestination (r : AbstractDefaultRule)
    (metadata : InboundContext)
    (counted : r.destinationIPCIDRMatchesDestination metadata = true) :
    r.destinationIPCIDRItems ≠ [] := by
  intro empty
  simp [destinationIPCIDRMatchesDestination, empty] at counted

/-- `evaluateGroups` requires the groups that have items and satisfies those that have a
matching item. -/
theorem groupMatch_eq (r : AbstractDefaultRule) (metadata : InboundContext) :
    r.groupMatch metadata = .ofGroups (r.required metadata) (r.satisfied metadata) := by
  have start : ({} : RuleGroupMatch) = .ofGroups (fun _ => false) (fun _ => false) := by decide
  have skip (required satisfied : RuleGroup → Bool) (empty : Bool) (group : RuleGroup)
      (matched : Bool) :
      (if empty = true then RuleGroupMatch.ofGroups required satisfied
        else (RuleGroupMatch.ofGroups required satisfied).record group.bit matched) =
      .ofGroups (fun other => required other || (!empty && decide (other = group)))
        fun other => satisfied other || (!empty && matched && decide (other = group)) := by
    cases empty <;> simp [RuleGroupMatch.record_ofGroups]
  have source : ruleMatchSourceAddress = RuleGroup.sourceAddress.bit := rfl
  have sourcePort : ruleMatchSourcePort = RuleGroup.sourcePort.bit := rfl
  have destination : ruleMatchDestinationAddress = RuleGroup.destinationAddress.bit := rfl
  have destinationPort : ruleMatchDestinationPort = RuleGroup.destinationPort.bit := rfl
  simp only [groupMatch, start, source, sourcePort, destination, destinationPort, skip,
    RuleGroupMatch.stateHas_satisfied]
  refine congrArg₂ RuleGroupMatch.ofGroups (funext fun group => ?_) (funext fun group => ?_)
  · cases group with
    | sourceAddress =>
      rw [required, groupItems, isEmpty_append_if _ _ _
        (r.ne_nil_of_destinationIPCIDRMatchesSource metadata)]
      simp
    | destinationAddress =>
      rw [required, groupItems, isEmpty_append_if _ _ _
        (r.ne_nil_of_destinationIPCIDRMatchesDestination metadata)]
      simp
    | sourcePort | destinationPort => simp [required, groupItems]
  · cases group with
    | sourceAddress | destinationAddress =>
      rw [satisfied, groupItems, matchAnyItem_append_if]
      simp only [matchAnyItem_of_isEmpty, Bool.false_or, Bool.not_not, decide_true, Bool.and_true,
        reduceCtorEq, decide_false, Bool.and_false, Bool.or_false]
      generalize matchAnyItem _ metadata = matched
      cases matched <;> simp
    | sourcePort | destinationPort => simp [satisfied, groupItems, matchAnyItem_of_isEmpty]

/-- Every group with items has a matching item. -/
def groupsHold (r : AbstractDefaultRule) (metadata : InboundContext) : Bool :=
  groupsDone (r.required metadata) (r.satisfied metadata)

/-- Every group with items in the outer rule or in the rule merged into it has a matching
item in one of the two. -/
def mergedGroupsHold (outer branch : AbstractDefaultRule)
    (metadata nestedMetadata : InboundContext) : Bool :=
  groupsDone (fun group => outer.required metadata group || branch.required nestedMetadata group)
    fun group => outer.satisfied metadata group || branch.satisfied nestedMetadata group

/-- One referenced rule-set together with the groups of the outer rule. -/
def setHolds (outer : AbstractDefaultRule) (metadata nestedMetadata : InboundContext)
    (ruleSet : RuleSet) : Bool :=
  match ruleSet.mergeableRule with
  | some branch => matchAllItems branch.items nestedMetadata &&
      outer.mergedGroupsHold branch metadata nestedMetadata
  | none => outer.groupsHold metadata && (ruleSet.matchOn nestedMetadata).1

/-- The groups of a rule, on their own or with one of the rule-sets it references. -/
def groupsHoldWith (r : AbstractDefaultRule) (ruleSetItem : Option (RuleSetItem RuleSet))
    (metadata : InboundContext) : Bool :=
  match ruleSetItem with
  | none => r.groupsHold metadata
  | some item => item.setList.any (r.setHolds metadata (item.nestedMetadata metadata))

/-- The value `matchInner` returns when nothing is deferred. -/
def holdsInner (r : AbstractDefaultRule) (ruleSetItem : Option (RuleSetItem RuleSet))
    (metadata : InboundContext) : Bool :=
  matchAllItems r.items metadata && r.groupsHoldWith ruleSetItem metadata

end AbstractDefaultRule

end SingBox
