/-
This file gives rule matching its pure meaning. Outside the legacy DNS pre-match
no group is ever deferred and the metadata comes back unchanged, so `Match` is a
Boolean function of the items.

`Rule.Formula` is the formula that the documentation of the DNS and route rules
states, for rules whose rule-set items set no option. `Match` decides it.
-/

import SingBox.RuleGroups

namespace SingBox

open List AbstractDefaultRule

/-! ### Matching without deferral -/

/-- The metadata of a match that defers nothing: destination `ip_cidr` items are matched and
no deferred group is pending. -/
structure Decided (metadata : InboundContext) : Prop where
  exact : metadata.ignoreDestinationIPCIDRMatch = false
  clear : metadata.deferredIPCIDRMatchGroups = 0

/-- A rule that leaves decided metadata as it found it. -/
def Pure (rule : HeadlessRule) : Prop :=
  ∀ metadata, Decided metadata → (rule metadata).2 = metadata

variable {Set : Type}

namespace Decided

variable {metadata : InboundContext} (decided : Decided metadata)

include decided

theorem reset : Decided metadata.resetRuleCache :=
  ⟨decided.exact, rfl⟩

theorem resetMatch : Decided metadata.resetRuleMatchCache :=
  ⟨decided.exact, rfl⟩

theorem nested (item : RuleSetItem Set) : Decided (item.nestedMetadata metadata) :=
  ⟨decided.exact, rfl⟩

theorem setDeferred_zero : metadata.setDeferred 0#8 = metadata := by
  have same := metadata.setDeferred_self
  rwa [decided.clear] at same

end Decided

theorem Pure.eq {rule : HeadlessRule} (pure : Pure rule) {metadata : InboundContext}
    (decided : Decided metadata) : rule metadata = ((rule metadata).1, metadata) :=
  Prod.ext rfl (pure metadata decided)

section

variable (rules : List HeadlessRule) (pure : ∀ rule ∈ rules, Pure rule)
  (metadata : InboundContext) (decided : Decided metadata)

include pure decided

theorem logicalAndLoop_of_pure : logicalAndLoop metadata 0 rules =
      (rules.all fun rule => (rule metadata.resetRuleCache).1, 0) := by
  induction rules with
  | nil => rfl
  | cons rule rest ih =>
    have later := ih fun other member => pure other (mem_cons_of_mem _ member)
    rw [logicalAndLoop, (pure rule mem_cons_self).eq decided.reset, all_cons]
    cases (rule metadata.resetRuleCache).1 with
    | false => rfl
    | true => simpa using later

theorem logicalOrLoop_of_pure : logicalOrLoop metadata false 0 rules =
      (rules.any fun rule => (rule metadata.resetRuleCache).1, 0) := by
  induction rules with
  | nil => rfl
  | cons rule rest ih =>
    have later := ih fun other member => pure other (mem_cons_of_mem _ member)
    rw [logicalOrLoop, (pure rule mem_cons_self).eq decided.reset, any_cons]
    cases (rule metadata.resetRuleCache).1 with
    | false => exact later
    | true => rfl

/-- The value of a logical rule when nothing is deferred. -/
def logicalHolds (mode : LogicalMode) (rules : List HeadlessRule) (metadata : InboundContext) :
    Bool :=
  match mode with
  | .and => rules.all fun rule => (rule metadata.resetRuleCache).1
  | .or => rules.any fun rule => (rule metadata.resetRuleCache).1

theorem logicalLoop_of_pure (mode : LogicalMode) :
    logicalLoop mode rules metadata = (logicalHolds mode rules metadata, 0) := by
  cases mode with
  | and => exact logicalAndLoop_of_pure rules pure metadata decided
  | or => exact logicalOrLoop_of_pure rules pure metadata decided

theorem logicalMatchOn_of_pure (mode : LogicalMode) (invert : Bool) :
    logicalMatchOn mode invert rules metadata =
      (logicalHolds mode rules metadata ^^ invert, metadata) := by
  rw [logicalMatchOn, logicalLoop_of_pure rules pure metadata decided]
  cases logicalHolds mode rules metadata <;> cases invert <;>
    simp [decided.clear, decided.setDeferred_zero]

theorem matchAnyHeadlessRule_of_pure : matchAnyHeadlessRule rules metadata =
      (rules.any fun rule => (rule metadata.resetRuleMatchCache).1, metadata) := by
  unfold matchAnyHeadlessRule
  induction rules with
  | nil => rfl
  | cons rule rest ih =>
    have later := ih fun other member => pure other (mem_cons_of_mem _ member)
    rw [matchAnyHeadlessRuleLoop, (pure rule mem_cons_self).eq decided.resetMatch, any_cons]
    cases (rule metadata.resetRuleMatchCache).1 with
    | false => exact later
    | true => rfl

end

namespace AbstractDefaultRule

section

variable (r : AbstractDefaultRule) (metadata : InboundContext) (decided : Decided metadata)

include decided

theorem evaluateGroups_of_decided : r.evaluateGroups metadata =
      (.ofGroups (r.required metadata) (r.satisfied metadata), metadata) := by
  rw [evaluateGroups, groupMatch_eq]
  simp [defersIPCIDR, decided.exact]

theorem evaluateForMerge_of_decided : r.evaluateForMerge metadata =
      (if matchAllItems r.items metadata then
        some (.ofGroups (r.required metadata) (r.satisfied metadata)) else none, metadata) := by
  rw [evaluateForMerge, r.evaluateGroups_of_decided metadata decided]
  dsimp only
  cases matchAllItems r.items metadata <;> rfl

end

end AbstractDefaultRule

theorem matchWithOuterGroups_of_pure (item : RuleSetItem RuleSet) (outer : AbstractDefaultRule)
    (pure : ∀ ruleSet ∈ item.setList, Pure ruleSet.matchOn) (metadata : InboundContext)
    (decided : Decided metadata) :
    item.matchWithOuterGroups metadata
        (.ofGroups (outer.required metadata) (outer.satisfied metadata)) =
      (item.setList.any (outer.setHolds metadata (item.nestedMetadata metadata)), metadata) := by
  unfold RuleSetItem.matchWithOuterGroups
  generalize item.setList = sets at pure
  have nested := decided.nested item
  induction sets with
  | nil => rfl
  | cons ruleSet rest ih =>
    have later := ih fun other member => pure other (mem_cons_of_mem _ member)
    rw [RuleSetItem.matchWithOuterGroupsLoop, any_cons, setHolds]
    cases ruleSet.mergeableRule with
    | none =>
      rw [(pure ruleSet mem_cons_self).eq nested]
      simp only [RuleGroupMatch.done_ofGroups, groupsHold]
      cases groupsDone (outer.required metadata) (outer.satisfied metadata) with
      | false => simpa using later
      | true =>
        cases (ruleSet.matchOn (item.nestedMetadata metadata)).1 with
        | false => simpa using later
        | true => simp [nested.clear]
    | some branch =>
      simp only [branch.evaluateForMerge_of_decided _ nested]
      cases matchAllItems branch.items (item.nestedMetadata metadata) with
      | false => simpa using later
      | true =>
        simp only [if_true, RuleGroupMatch.mergeWith_ofGroups, RuleGroupMatch.done_ofGroups,
          mergedGroupsHold, nested.clear, decided.clear]
        cases groupsDone
            (fun group => outer.required metadata group ||
              branch.required (item.nestedMetadata metadata) group)
            (fun group => outer.satisfied metadata group ||
              branch.satisfied (item.nestedMetadata metadata) group) with
        | false => simpa using later
        | true => simp [decided.setDeferred_zero]

namespace AbstractDefaultRule

section

variable (r : AbstractDefaultRule) (item : Option (RuleSetItem RuleSet))
  (pure : ∀ ruleSetItem ∈ item, ∀ ruleSet ∈ ruleSetItem.setList, Pure ruleSet.matchOn)
  (metadata : InboundContext) (decided : Decided metadata)

include r item pure metadata decided

theorem matchGroups_of_pure :
    matchGroups item metadata (.ofGroups (r.required metadata) (r.satisfied metadata)) =
      (r.groupsHoldWith item metadata, metadata) := by
  cases item with
  | none => exact Prod.ext (RuleGroupMatch.done_ofGroups _ _) rfl
  | some ruleSetItem =>
    exact matchWithOuterGroups_of_pure ruleSetItem r (pure ruleSetItem rfl) metadata decided

theorem matchInner_of_pure :
    r.matchInner item metadata = (r.holdsInner item metadata, metadata) := by
  rw [matchInner, r.evaluateGroups_of_decided metadata decided]
  simp only [r.matchGroups_of_pure item pure metadata decided, holdsInner]
  cases matchAllItems r.items metadata <;> cases r.groupsHoldWith item metadata <;>
    simp [decided.clear, decided.setDeferred_zero]

theorem matchOn_of_pure : r.matchOn item metadata =
      (r.allItemsEmpty item || (r.holdsInner item metadata ^^ r.invert), metadata) := by
  rw [matchOn, r.matchInner_of_pure item pure metadata decided]
  cases r.allItemsEmpty item <;> cases r.invert <;> cases r.holdsInner item metadata <;>
    simp [decided.clear, decided.setDeferred_zero]

end

end AbstractDefaultRule

/-- A DNS rule that binds a response gives the metadata back as it was. -/
theorem matchForMatch_pure (r : AbstractDefaultRule) (rule : HeadlessRule) (pure : Pure rule) :
    Pure (matchForMatch r rule) := by
  intro metadata decided
  unfold matchForMatch
  have bound : ∀ response, (matchForMatch.matchBound r rule metadata response).2 = metadata := by
    intro response
    cases response <;> rfl
  cases r.matchResponse with
  | disabled => exact pure metadata decided
  | anonymous | tagged tag => exact bound _

theorem toRuleSet_pure (rules : List Rule) (pure : ∀ rule ∈ rules, Pure rule.matchOn) :
    Pure (Rule.toRuleSet rules).matchOn := by
  intro metadata decided
  refine congrArg Prod.snd (matchAnyHeadlessRule_of_pure _ ?_ metadata decided)
  intro child member
  obtain ⟨rule, listed, rfl⟩ := mem_map.mp member
  exact pure rule listed

/-- Outside the legacy pre-match, matching a rule tree has no effect on the metadata. -/
theorem Rule.matchOn_pure (rule : Rule) : Pure rule.matchOn := by
  induction rule using Rule.induction with
  | default rule item ih =>
    rw [matchOn_default]
    refine matchForMatch_pure rule _ fun metadata decided => ?_
    rw [rule.matchOn_of_pure _ ?_ metadata decided]
    rintro _ present ruleSet member
    obtain ⟨ruleSetItem, same, rfl⟩ := Option.map_eq_some_iff.mp present
    obtain ⟨rules, listed, rfl⟩ := mem_map.mp member
    exact toRuleSet_pure rules (ih ruleSetItem same rules listed)
  | logical mode rules invert ih =>
    rw [matchOn_logical]
    intro metadata decided
    rw [logicalMatchOn_of_pure _ ?_ metadata decided]
    intro child member
    obtain ⟨rule, listed, rfl⟩ := mem_map.mp member
    exact ih rule listed

theorem Rule.toItem_pure (item : Option (RuleSetItem (List Rule))) :
    ∀ ruleSetItem ∈ item.map toItem, ∀ ruleSet ∈ ruleSetItem.setList, Pure ruleSet.matchOn := by
  simp only [Option.mem_def, Option.map_eq_some_iff]
  rintro _ ⟨ruleSetItem, _, rfl⟩ ruleSet member
  obtain ⟨rules, _, rfl⟩ := mem_map.mp member
  exact toRuleSet_pure rules fun child _ => child.matchOn_pure

/-! ### The documented formula -/

namespace AbstractDefaultRule

/-- The items that share a group in the documentation: `ip_cidr` stands with the domain
fields. -/
def documentedGroup (r : AbstractDefaultRule) : RuleGroup → List RuleItem
  | .sourceAddress => r.sourceAddressItems
  | .sourcePort => r.sourcePortItems
  | .destinationAddress => r.destinationAddressItems ++ r.destinationIPCIDRItems
  | .destinationPort => r.destinationPortItems

/-- The "other fields" all match. -/
def OtherFieldsMatch (r : AbstractDefaultRule) (metadata : InboundContext) : Prop :=
  ∀ item ∈ r.items, item metadata = true

def GroupMatches (r : AbstractDefaultRule) (metadata : InboundContext) (group : RuleGroup) :
    Prop :=
  ∃ item ∈ r.documentedGroup group, item metadata = true

/-- Every group the rule sets has a matching item. -/
def GroupsMatch (r : AbstractDefaultRule) (metadata : InboundContext) : Prop :=
  ∀ group, r.documentedGroup group ≠ [] → r.GroupMatches metadata group

/-- The groups of two rules whose fields are merged. -/
def MergedGroupsMatch (outer inner : AbstractDefaultRule)
    (metadata nestedMetadata : InboundContext) : Prop :=
  ∀ group, outer.documentedGroup group ≠ [] ∨ inner.documentedGroup group ≠ [] →
    outer.GroupMatches metadata group ∨ inner.GroupMatches nestedMetadata group

/-- The rule sets no field at all. -/
def HasNoItems (r : AbstractDefaultRule) : Prop :=
  r.items = [] ∧ ∀ group, r.documentedGroup group = []

end AbstractDefaultRule

/-- The rule-set contains only a single default rule without `invert` and `rule_set`. -/
def IsSingleDefaultRule (rules : List Rule) (inner : AbstractDefaultRule) : Prop :=
  rules = [.default inner none] ∧ inner.invert = false

/-- `invert` negates. -/
def Inverted (invert : Bool) (formula : Prop) : Prop :=
  if invert then ¬formula else formula

mutual

/-- The documented formula of a rule. The rules below a logical rule and in a rule-set are
matched on their own, without the `ip_cidr` options of the enclosing rule-set item. -/
def Rule.Formula : Rule → InboundContext → Prop
  | .default rule none, metadata => rule.HasNoItems ∨
      Inverted rule.invert (rule.OtherFieldsMatch metadata ∧ rule.GroupsMatch metadata)
  | .default rule (some item), metadata =>
      Inverted rule.invert (rule.OtherFieldsMatch metadata ∧
        SomeSetFormula rule item.setList metadata)
  | .logical .and rules invert, metadata =>
      Inverted invert (AllFormula rules metadata.resetRuleCache)
  | .logical .or rules invert, metadata =>
      Inverted invert (SomeFormula rules metadata.resetRuleCache)

def AllFormula : List Rule → InboundContext → Prop
  | [], _ => True
  | rule :: rest, metadata => rule.Formula metadata ∧ AllFormula rest metadata

def SomeFormula : List Rule → InboundContext → Prop
  | [], _ => False
  | rule :: rest, metadata => rule.Formula metadata ∨ SomeFormula rest metadata

/-- Some rule-set of the list holds together with the outer rule: merged into it when it is
a single default rule, as an "other field" next to it otherwise. -/
def SomeSetFormula (outer : AbstractDefaultRule) : List (List Rule) → InboundContext → Prop
  | [], _ => False
  | rules :: rest, metadata =>
      (∃ inner, IsSingleDefaultRule rules inner ∧
        inner.OtherFieldsMatch metadata.resetRuleCache ∧
        outer.MergedGroupsMatch inner metadata metadata.resetRuleCache) ∨
      ((∀ inner, ¬IsSingleDefaultRule rules inner) ∧ outer.GroupsMatch metadata ∧
        SomeFormula rules metadata.resetRuleCache) ∨
      SomeSetFormula outer rest metadata

end

theorem AllFormula_iff (rules : List Rule) (metadata : InboundContext) :
    AllFormula rules metadata ↔ ∀ rule ∈ rules, rule.Formula metadata := by
  induction rules with
  | nil => simp [AllFormula]
  | cons rule rest ih =>
    rw [AllFormula, ih, forall_mem_cons]

theorem SomeFormula_iff (rules : List Rule) (metadata : InboundContext) :
    SomeFormula rules metadata ↔ ∃ rule ∈ rules, rule.Formula metadata := by
  induction rules with
  | nil => simp [SomeFormula]
  | cons rule rest ih =>
    rw [SomeFormula, ih, exists_mem_cons_iff]

/-- One rule-set of `SomeSetFormula`. -/
def SetFormula (outer : AbstractDefaultRule) (rules : List Rule) (metadata : InboundContext) :
    Prop :=
  (∃ inner, IsSingleDefaultRule rules inner ∧
    inner.OtherFieldsMatch metadata.resetRuleCache ∧
    outer.MergedGroupsMatch inner metadata metadata.resetRuleCache) ∨
  ((∀ inner, ¬IsSingleDefaultRule rules inner) ∧ outer.GroupsMatch metadata ∧
    ∃ rule ∈ rules, rule.Formula metadata.resetRuleCache)

theorem SomeSetFormula_iff (outer : AbstractDefaultRule) (sets : List (List Rule))
    (metadata : InboundContext) :
    SomeSetFormula outer sets metadata ↔ ∃ rules ∈ sets, SetFormula outer rules metadata := by
  induction sets with
  | nil => simp [SomeSetFormula]
  | cons rules rest ih =>
    rw [SomeSetFormula, ih, exists_mem_cons_iff, SetFormula, SomeFormula_iff, or_assoc]

/-- The metadata of a match outside the legacy pre-match and outside
`rule_set_ip_cidr_match_source`. -/
structure Standard (metadata : InboundContext) : Prop extends Decided metadata where
  destination : metadata.ipCIDRMatchSource = false

namespace Standard

variable {metadata : InboundContext}

theorem reset (standard : Standard metadata) : Standard metadata.resetRuleCache :=
  ⟨standard.toDecided.reset, rfl⟩

end Standard

namespace AbstractDefaultRule

section

variable (r : AbstractDefaultRule) (metadata : InboundContext)

include r metadata

theorem matchAllItems_iff : matchAllItems r.items metadata = true ↔ r.OtherFieldsMatch metadata :=
  all_eq_true

variable (standard : Standard metadata)

include standard

theorem groupItems_of_standard : r.groupItems metadata = r.documentedGroup := by
  funext group
  cases group with
  | sourceAddress =>
    simp [groupItems, documentedGroup, destinationIPCIDRMatchesSource, standard.destination]
  | sourcePort => rfl
  | destinationAddress =>
    cases empty : r.destinationIPCIDRItems <;>
      simp [groupItems, documentedGroup, destinationIPCIDRMatchesDestination,
        standard.destination, standard.exact, empty]
  | destinationPort => rfl

theorem required_iff (group : RuleGroup) :
    r.required metadata group = true ↔ r.documentedGroup group ≠ [] := by
  rw [required, r.groupItems_of_standard metadata standard, Bool.not_eq_true', isEmpty_eq_false_iff]

theorem satisfied_iff (group : RuleGroup) :
    r.satisfied metadata group = true ↔ r.GroupMatches metadata group := by
  rw [satisfied, r.groupItems_of_standard metadata standard, matchAnyItem, any_eq_true]
  rfl

theorem groupsHold_iff : r.groupsHold metadata = true ↔ r.GroupsMatch metadata := by
  rw [groupsHold, groupsDone_iff]
  refine forall_congr' fun group => ?_
  rw [r.required_iff metadata standard, r.satisfied_iff metadata standard]

end

theorem mergedGroupsHold_iff (outer inner : AbstractDefaultRule)
    (metadata nestedMetadata : InboundContext) (standard : Standard metadata)
    (nested : Standard nestedMetadata) :
    outer.mergedGroupsHold inner metadata nestedMetadata = true ↔
      outer.MergedGroupsMatch inner metadata nestedMetadata := by
  rw [mergedGroupsHold, groupsDone_iff]
  refine forall_congr' fun group => ?_
  rw [Bool.or_eq_true, Bool.or_eq_true, outer.required_iff metadata standard,
    inner.required_iff nestedMetadata nested, outer.satisfied_iff metadata standard,
    inner.satisfied_iff nestedMetadata nested]

theorem allItemsEmpty_none_iff (r : AbstractDefaultRule) :
    r.allItemsEmpty (none : Option (RuleSetItem Set)) = true ↔ r.HasNoItems := by
  simp only [allItemsEmpty, HasNoItems, Bool.and_eq_true, List.isEmpty_iff, Option.isNone_none,
    and_true]
  constructor
  · rintro ⟨⟨⟨⟨⟨items, source⟩, sourcePort⟩, address⟩, ipCIDR⟩, port⟩
    refine ⟨items, fun group => ?_⟩
    cases group <;> simp [documentedGroup, source, sourcePort, address, ipCIDR, port]
  · rintro ⟨items, groups⟩
    have destination := append_eq_nil_iff.mp (groups .destinationAddress)
    exact ⟨⟨⟨⟨⟨items, groups .sourceAddress⟩, groups .sourcePort⟩, destination.1⟩,
      destination.2⟩, groups .destinationPort⟩

theorem allItemsEmpty_some (r : AbstractDefaultRule) (item : RuleSetItem Set) :
    r.allItemsEmpty (some item) = false := by
  simp [allItemsEmpty]

end AbstractDefaultRule

theorem xor_eq_true_iff_inverted (value invert : Bool) (formula : Prop)
    (same : value = true ↔ formula) : (value ^^ invert) = true ↔ Inverted invert formula := by
  unfold Inverted
  rw [← same]
  cases value <;> cases invert <;> decide

theorem mergeableRuleIn_eq_some_iff (rules : List Rule) (inner : AbstractDefaultRule) :
    mergeableRuleIn rules = some inner ↔
      IsSingleDefaultRule rules inner ∧ inner.matchResponse.isEnabled = false := by
  unfold IsSingleDefaultRule
  constructor
  · intro offered
    unfold mergeableRuleIn at offered
    split at offered
    next rule =>
      cases inverted : rule.invert <;> cases enabled : rule.matchResponse.isEnabled <;>
        simp_all
    · cases offered
  · rintro ⟨⟨rfl, plain⟩, disabled⟩
    simp [mergeableRuleIn, plain, disabled]

theorem mem_of_mergeableRuleIn {rules : List Rule} {branch : AbstractDefaultRule}
    (offered : branch ∈ mergeableRuleIn rules) : .default branch none ∈ rules := by
  obtain ⟨⟨rfl, _⟩, _⟩ := (mergeableRuleIn_eq_some_iff rules branch).mp offered
  exact mem_singleton.mpr rfl

/-- The rules the documented formula is about: no rule binds a DNS response and no rule-set
item sets an `ip_cidr` option. -/
def WithoutOptions (rule : AbstractDefaultRule) (item : Option (RuleSetItem (List Rule))) :
    Prop :=
  rule.matchResponse = .disabled ∧
    ∀ ruleSetItem ∈ item, ruleSetItem.ipCIDRMatchSource = false ∧
      ruleSetItem.ipCIDRAcceptEmpty = false

theorem toRuleSet_matchOn_iff (rules : List Rule) (metadata : InboundContext)
    (decided : Decided metadata) :
    ((Rule.toRuleSet rules).matchOn metadata).1 = true ↔
      ∃ rule ∈ rules, (rule.matchOn metadata.resetRuleMatchCache).1 = true := by
  have value := matchAnyHeadlessRule_of_pure (rules.map Rule.matchOn) (by simp [Rule.matchOn_pure])
    metadata decided
  rw [Rule.toRuleSet]
  simp only [value, any_map, any_eq_true, Function.comp_apply]

section

variable (rules : List Rule) (metadata : InboundContext) (same : ∀ child ∈ rules, (child.matchOn
    metadata.resetRuleCache).1 = true ↔ child.Formula metadata.resetRuleCache)

include same

theorem logicalHolds_iff (mode : LogicalMode) (invert : Bool) :
    (logicalHolds mode (rules.map Rule.matchOn) metadata ^^ invert) = true ↔
      (Rule.logical mode rules invert).Formula metadata := by
  cases mode with
  | and =>
    refine xor_eq_true_iff_inverted _ _ _ ?_
    rw [logicalHolds, AllFormula_iff, all_map, all_eq_true]
    exact forall₂_congr same
  | or =>
    refine xor_eq_true_iff_inverted _ _ _ ?_
    rw [logicalHolds, SomeFormula_iff, any_map, any_eq_true]
    exact exists_congr fun child => and_congr_right (same child)

theorem setHolds_iff (outer : AbstractDefaultRule) (standard : Standard metadata)
    (plain : ∀ child ∈ rules, child.Every WithoutOptions) :
    outer.setHolds metadata metadata.resetRuleCache (Rule.toRuleSet rules) = true ↔
      SetFormula outer rules metadata := by
  rw [setHolds, SetFormula]
  have offered : (Rule.toRuleSet rules).mergeableRule = mergeableRuleIn rules := rfl
  cases merging : mergeableRuleIn rules with
  | some inner =>
    obtain ⟨single, _⟩ := (mergeableRuleIn_eq_some_iff rules inner).mp merging
    rw [offered, merging]
    simp only [Bool.and_eq_true, inner.matchAllItems_iff,
      outer.mergedGroupsHold_iff inner _ _ standard standard.reset]
    constructor
    · exact fun both => Or.inl ⟨inner, single, both⟩
    · rintro (⟨other, otherSingle, both⟩ | ⟨none, _⟩)
      · obtain ⟨rfl⟩ : inner = other := by
          have := single.1.symm.trans otherSingle.1
          simpa using this
        exact both
      · exact absurd single (none inner)
  | none =>
    have notSingle : ∀ inner, ¬IsSingleDefaultRule rules inner := by
      intro inner single
      have every := plain (.default inner none) (by simp [single.1])
      have disabled : inner.matchResponse.isEnabled = false := by rw [every.here.1]; rfl
      rw [(mergeableRuleIn_eq_some_iff rules inner).mpr ⟨single, disabled⟩] at merging
      cases merging
    rw [offered, merging]
    simp only [Bool.and_eq_true, outer.groupsHold_iff metadata standard,
      toRuleSet_matchOn_iff rules _ standard.reset.toDecided]
    constructor
    · rintro ⟨groups, child, listed, matched⟩
      exact Or.inr ⟨notSingle, groups, child, listed, (same child listed).mp matched⟩
    · rintro (⟨inner, single, _⟩ | ⟨_, groups, child, listed, holds⟩)
      · exact absurd single (notSingle inner)
      · exact ⟨groups, child, listed, (same child listed).mpr holds⟩

end

/-- `Match` decides the documented formula. -/
theorem Rule.matchOn_iff_formula (rule : Rule) (plain : rule.Every WithoutOptions)
    (metadata : InboundContext) (exact : metadata.ignoreDestinationIPCIDRMatch = false)
    (destination : metadata.ipCIDRMatchSource = false)
    (clear : metadata.deferredIPCIDRMatchGroups = 0) :
    (rule.matchOn metadata).1 = true ↔ rule.Formula metadata := by
  have standard : Standard metadata := ⟨⟨exact, clear⟩, destination⟩
  clear exact destination clear
  induction rule using Rule.induction generalizing metadata with
  | default rule item ih =>
    rw [matchOn_default, matchForMatch]
    simp only [plain.here.1, rule.matchOn_of_pure _ (toItem_pure item) metadata standard.toDecided]
    cases item with
    | none =>
      rw [Formula, Option.map_none, Bool.or_eq_true, rule.allItemsEmpty_none_iff]
      refine or_congr_right (xor_eq_true_iff_inverted _ _ _ ?_)
      rw [AbstractDefaultRule.holdsInner, Bool.and_eq_true, rule.matchAllItems_iff]
      exact and_congr_right fun _ => rule.groupsHold_iff metadata standard
    | some item =>
      rw [Formula, Option.map_some, rule.allItemsEmpty_some, Bool.false_or]
      refine xor_eq_true_iff_inverted _ _ _ ?_
      rw [AbstractDefaultRule.holdsInner, Bool.and_eq_true, rule.matchAllItems_iff,
        SomeSetFormula_iff]
      refine and_congr_right fun _ => ?_
      obtain ⟨matchSource, acceptEmpty⟩ := plain.here.2 item rfl
      have nested : (toItem item).nestedMetadata metadata = metadata.resetRuleCache := by
        rw [RuleSetItem.nestedMetadata, toItem, matchSource, acceptEmpty]
        rfl
      rw [AbstractDefaultRule.groupsHoldWith, nested]
      simp only [toItem, any_map, any_eq_true, Function.comp_apply]
      refine exists_congr fun rules => and_congr_right fun listed => ?_
      have below := plain.inSets item rfl rules listed
      refine setHolds_iff rules metadata (fun child member => ?_) rule standard below
      exact ih item rfl rules listed child member (below child member) _ standard.reset
  | logical mode rules invert ih =>
    rw [matchOn_logical, logicalMatchOn_of_pure _ (by simp [matchOn_pure]) _
      standard.toDecided]
    refine logicalHolds_iff rules metadata (fun child listed => ?_) mode invert
    exact ih child listed (plain.inRules child listed) _ standard.reset

/-- An inverted rule that references a two-rule rule-set, on the empty metadata. -/
theorem Rule.matchOn_iff_formula_twoRules :
    let never : RuleItem := fun _ => false
    let always : RuleItem := fun _ => true
    let rule : Rule := .default { items := [always], destinationPortItems := [always], invert := true }
      (some { setList := [[.default { destinationAddressItems := [never] } none,
        .logical .and [.default { sourceAddressItems := [always] } none] true]] })
    (rule.matchOn {}).1 = true ∧ rule.Formula {} := by
  intro never always rule
  have matched : (rule.matchOn {}).1 = true := by decide
  refine ⟨matched, (rule.matchOn_iff_formula ?_ {} rfl rfl rfl).mp matched⟩
  refine .default _ _ ⟨rfl, by simp⟩ ?_
  simp only [Option.mem_def, Option.some.injEq, forall_eq', mem_cons, not_mem_nil,
    or_false, forall_eq, forall_eq_or_imp]
  refine ⟨.default _ _ ⟨rfl, by simp⟩ (by simp), .logical _ _ _ ?_⟩
  simp only [mem_cons, not_mem_nil, or_false, forall_eq]
  exact .default _ _ ⟨rfl, by simp⟩ (by simp)

end SingBox
