/-
This file compares the legacy DNS pre-match with the match of the response that
follows it. The lossless verdict admits the answer for every response, because
every connective of the pre-match is a Kleene connective. What the pre-match
really computes is the lossy verdict, which takes an open answer for a positive
one where `matchInner` clears the deferred groups of a rule-set. Below an even
number of inversions that error only sends a query too many. Below an odd
number it skips a rule whose address filter could still accept the response.
-/

import SingBox.RuleVerdict

namespace SingBox

open List Loop

open Kleene AbstractDefaultRule

/-! ### The match of a response -/

/-- The metadata that matches a response in the place where the pre-match has `metadata`. -/
def answered (metadata : InboundContext) (response : Option Msg) : InboundContext :=
  (metadata.setIgnore false).setResponse response

variable {item : RuleItem} {metadata nestedMetadata : InboundContext}

theorem ResponseBlind.answered (blind : ResponseBlind item) (metadata : InboundContext)
    (response : Option Msg) : item (answered metadata response) = item metadata := by
  rw [SingBox.answered, blind.response, blind.ignore]

theorem IsIPCIDRItem.answered (cidr : IsIPCIDRItem item) (metadata : InboundContext)
    (source : metadata.ipCIDRMatchSource = true) (response : Option Msg) :
    item (answered metadata response) = item metadata := by
  obtain ⟨cidr, rfl⟩ := cidr
  have same : (SingBox.answered metadata response).ipCIDRMatchSource = true := source
  simp only [IPCIDRItem.matchOn, source, same, Bool.or_true, if_true]
  rfl

theorem PreMatching.answered (pre : PreMatching metadata) (response : Option Msg) :
    Decided (answered metadata response) :=
  ⟨rfl, pre.clear⟩

namespace AbstractDefaultRule

/-- The items of the rule that the pre-match evaluates answer the same for the response. -/
structure Comparable (r : AbstractDefaultRule) (metadata : InboundContext) : Prop where
  blind : ∀ other ∈ r.items ++ r.sourceAddressItems ++ r.sourcePortItems ++
    r.destinationAddressItems ++ r.destinationPortItems, ResponseBlind other
  unmixed : r.Unmixed r
  source : metadata.ipCIDRMatchSource = true →
    ∀ other ∈ r.destinationIPCIDRItems, IsIPCIDRItem other

theorem matchAllItems_answered (r : AbstractDefaultRule) (comparable : r.Comparable metadata)
    (response : Option Msg) :
    matchAllItems r.items (answered metadata response) = matchAllItems r.items metadata := by
  rw [Bool.eq_iff_iff, matchAllItems, matchAllItems, all_eq_true, all_eq_true]
  refine forall₂_congr fun item member => ?_
  rw [(comparable.blind item (by simp [member])).answered]

section

variable (r : AbstractDefaultRule) (pre : PreMatching metadata) (comparable : r.Comparable metadata)
  (response : Option Msg) (group : RuleGroup)
  (fixed : group ≠ .destinationAddress ∨ r.defersIPCIDR metadata = false)

include r pre comparable response group fixed

/-- Outside the deferred group, the response does not change which items count. -/
theorem groupItems_answered :
    r.groupItems (answered metadata response) group = r.groupItems metadata group := by
  cases group with
  | sourceAddress | sourcePort | destinationPort => rfl
  | destinationAddress =>
    have closed : r.defersIPCIDR metadata = false := by
      rcases fixed with different | closed
      · exact absurd rfl different
      · exact closed
    have counted : r.destinationIPCIDRMatchesDestination (answered metadata response) =
        (!metadata.ipCIDRMatchSource && !r.destinationIPCIDRItems.isEmpty) := rfl
    have uncounted : r.destinationIPCIDRMatchesDestination metadata = false := by
      simp [destinationIPCIDRMatchesDestination, pre.ignored]
    rw [groupItems, groupItems, counted, uncounted]
    rcases comparable.unmixed with ⟨empty, _⟩ | ⟨empty, _⟩
    · simp only [defersIPCIDR, pre.ignored, empty, isEmpty_nil, Bool.and_true,
        Bool.true_and] at closed
      simp [closed]
    · simp [empty]

theorem satisfied_answered :
    r.satisfied (answered metadata response) group = r.satisfied metadata group := by
  rw [satisfied, satisfied, r.groupItems_answered pre comparable response group fixed,
    Bool.eq_iff_iff, matchAnyItem, matchAnyItem, any_eq_true, any_eq_true]
  refine exists_congr fun item => and_congr_right fun member => ?_
  have same : item (answered metadata response) = item metadata := by
    have other : item ∈ r.sourceAddressItems ++ r.sourcePortItems ++ r.destinationAddressItems ++
        r.destinationPortItems → item (answered metadata response) = item metadata := by
      intro listed
      refine (comparable.blind item ?_).answered metadata response
      simp only [mem_append] at listed ⊢
      tauto
    cases group with
    | sourceAddress =>
      rcases mem_append.mp member with listed | listed
      · exact other (by simp [listed])
      · cases counted : r.destinationIPCIDRMatchesSource metadata with
        | false => simp [counted] at listed
        | true =>
          rw [counted, if_pos rfl] at listed
          have source : metadata.ipCIDRMatchSource = true := by
            simp only [destinationIPCIDRMatchesSource, Bool.and_eq_true] at counted
            exact counted.1
          exact (comparable.source source item listed).answered metadata source response
    | sourcePort | destinationPort =>
      exact other (by simp only [groupItems] at member; simp [member])
    | destinationAddress =>
      refine other ?_
      simp only [groupItems, destinationIPCIDRMatchesDestination, pre.ignored] at member
      simp only [mem_append]
      simp at member
      tauto
  rw [same]

theorem required_answered :
    r.required (answered metadata response) group = r.required metadata group := by
  rw [required, required, r.groupItems_answered pre comparable response group fixed]

end

/-- No destination address item counts while a rule leaves its `ip_cidr` items for the
response. -/
theorem required_of_defersIPCIDR {first second : AbstractDefaultRule}
    (unmixed : first.Unmixed second) (pre : PreMatching metadata)
    (nested : PreMatching nestedMetadata)
    (deferring : first.defersIPCIDR metadata = true ∨ second.defersIPCIDR nestedMetadata = true) :
    first.required metadata .destinationAddress = false ∧
      second.required nestedMetadata .destinationAddress = false := by
  rcases unmixed with ⟨firstEmpty, secondEmpty⟩ | ⟨firstEmpty, secondEmpty⟩
  · simp [required, groupItems, firstEmpty, secondEmpty, destinationIPCIDRMatchesDestination,
      pre.ignored, nested.ignored]
  · simp [defersIPCIDR, firstEmpty, secondEmpty] at deferring

end AbstractDefaultRule

/-- Groups of which only the destination address group may change, and only while it is open
and not required yet. -/
theorem admits_groupsDone (isOpen : Bool)
    (required satisfied required' satisfied' : RuleGroup → Bool)
    (same : ∀ group, group ≠ .destinationAddress ∨ isOpen = false →
      required' group = required group ∧ satisfied' group = satisfied group)
    (unrequired : isOpen = true → required .destinationAddress = false) :
    ((Verdict.openIf isOpen).conj (.ofBool (groupsDone required satisfied))).Admits
      (groupsDone required' satisfied') := by
  refine Verdict.admits_openIf_conj isOpen _ _ (fun closed => ?_) fun isOpen refuted => ?_
  · have requiredSame : required' = required := funext fun group => (same group (Or.inr closed)).1
    have satisfiedSame : satisfied' = satisfied :=
      funext fun group => (same group (Or.inr closed)).2
    rw [requiredSame, satisfiedSame]
  · rw [← Bool.not_eq_true] at refuted ⊢
    refine fun done => refuted ?_
    rw [groupsDone_iff] at done ⊢
    intro group needed
    by_cases destination : group = .destinationAddress
    · subst destination
      rw [unrequired isOpen] at needed
      cases needed
    · obtain ⟨requiredSame, satisfiedSame⟩ := same group (Or.inl destination)
      rw [← satisfiedSame]
      exact done group (requiredSame.trans needed)

namespace AbstractDefaultRule

theorem admits_groupsHold (r : AbstractDefaultRule) (pre : PreMatching metadata)
    (comparable : r.Comparable metadata) (response : Option Msg) :
    ((Verdict.openIf (r.defersIPCIDR metadata)).conj (.ofBool (r.groupsHold metadata))).Admits
      (r.groupsHold (answered metadata response)) := by
  refine admits_groupsDone _ _ _ _ _ (fun group fixed => ?_) fun deferring => ?_
  · exact ⟨r.required_answered pre comparable response group fixed,
      r.satisfied_answered pre comparable response group fixed⟩
  · exact (required_of_defersIPCIDR comparable.unmixed pre pre (Or.inl deferring)).1

theorem admits_mergedGroupsHold (outer branch : AbstractDefaultRule) (pre : PreMatching metadata)
    (nested : PreMatching nestedMetadata) (comparable : outer.Comparable metadata)
    (branchComparable : branch.Comparable nestedMetadata) (unmixed : outer.Unmixed branch)
    (response : Option Msg) :
    ((Verdict.openIf (outer.defersIPCIDR metadata || branch.defersIPCIDR nestedMetadata)).conj
      (.ofBool (outer.mergedGroupsHold branch metadata nestedMetadata))).Admits
      (outer.mergedGroupsHold branch (answered metadata response)
        (answered nestedMetadata response)) := by
  refine admits_groupsDone _ _ _ _ _ (fun group fixed => ?_) fun deferring => ?_
  · have outerFixed : group ≠ .destinationAddress ∨ outer.defersIPCIDR metadata = false :=
      fixed.imp_right fun closed => (Bool.or_eq_false_iff.mp closed).1
    have branchFixed : group ≠ .destinationAddress ∨ branch.defersIPCIDR nestedMetadata = false :=
      fixed.imp_right fun closed => (Bool.or_eq_false_iff.mp closed).2
    rw [outer.required_answered pre comparable response group outerFixed,
      outer.satisfied_answered pre comparable response group outerFixed,
      branch.required_answered nested branchComparable response group branchFixed,
      branch.satisfied_answered nested branchComparable response group branchFixed]
    exact ⟨rfl, rfl⟩
  · obtain ⟨outerUnrequired, branchUnrequired⟩ :=
      required_of_defersIPCIDR unmixed pre nested (Bool.or_eq_true_iff.mp deferring)
    rw [outerUnrequired, branchUnrequired]
    rfl

end AbstractDefaultRule

theorem LegacyRule.comparable {rule : AbstractDefaultRule}
    {item : Option (RuleSetItem (List Rule))} (legacy : LegacyRule rule item)
    (metadata : InboundContext)
    (source : metadata.ipCIDRMatchSource = true → HeadlessRuleItems rule item) :
    rule.Comparable metadata :=
  ⟨legacy.blind, legacy.unmixed, source⟩

/-- One referenced rule-set, with what the outer rule leaves open. -/
theorem admits_setVerdict (outer : AbstractDefaultRule) (rules : List Rule)
    (pre : PreMatching metadata) (nested : PreMatching nestedMetadata)
    (comparable : outer.Comparable metadata)
    (branchComparable : ∀ branch ∈ mergeableRuleIn rules, branch.Comparable nestedMetadata)
    (unmixed : ∀ branch ∈ mergeableRuleIn rules, outer.Unmixed branch) (response : Option Msg)
    (each : ∀ child ∈ rules, ((child.verdict false) nestedMetadata.resetRuleMatchCache).Admits
      (child.matchOn (answered nestedMetadata.resetRuleMatchCache response)).1) :
    ((Verdict.openIf (outer.defersIPCIDR metadata)).conj
      (outer.setVerdict metadata nestedMetadata (Rule.setVerdict false rules))).Admits
      (outer.setHolds (answered metadata response) (answered nestedMetadata response)
        (Rule.toRuleSet rules)) := by
  have offered : (Rule.toRuleSet rules).mergeableRule = mergeableRuleIn rules := rfl
  have offeredVerdict : (Rule.setVerdict false rules).mergeableRule = mergeableRuleIn rules := rfl
  rw [setVerdict, setHolds, offered, offeredVerdict]
  cases merging : mergeableRuleIn rules with
  | some branch =>
    have arrange (first second : Bool) (items groups : Verdict) :
        (Verdict.openIf first).conj (items.conj ((Verdict.openIf second).conj groups)) =
          items.conj ((Verdict.openIf (first || second)).conj groups) := by
      cases first <;> cases second <;> cases items <;> cases groups <;> rfl
    have groups := outer.admits_mergedGroupsHold branch pre nested comparable
      (branchComparable branch merging) (unmixed branch merging) response
    dsimp only
    rw [arrange, branch.matchAllItems_answered (branchComparable branch merging) response]
    exact (Verdict.admits_ofBool _).conj groups
  | none =>
    have value := matchAnyHeadlessRule_of_pure (rules.map Rule.matchOn)
      (by simp [Rule.matchOn_pure]) _ (nested.answered response)
    have matched : ((Rule.toRuleSet rules).matchOn (answered nestedMetadata response)).1 =
        rules.any fun child =>
          (child.matchOn (answered nestedMetadata.resetRuleMatchCache response)).1 := by
      rw [Rule.toRuleSet]
      simp only [value, any_map]
      rfl
    rw [← Verdict.conj_assoc, matched]
    refine (outer.admits_groupsHold pre comparable response).conj ?_
    exact Verdict.admits_any _ _ rules each

/-- The lossless verdict of the pre-match admits the answer for every response. -/
theorem Rule.verdict_admits (rule : Rule) (legacy : rule.Every LegacyRule)
    (metadata : InboundContext) (pre : PreMatching metadata)
    (source : metadata.ipCIDRMatchSource = true → rule.Every HeadlessRuleItems)
    (response : Option Msg) :
    (rule.verdict false metadata).Admits (rule.matchOn (answered metadata response)).1 := by
  induction rule using Rule.induction generalizing metadata with
  | default rule item ih =>
    have comparable := legacy.here.comparable metadata fun matched => (source matched).here
    have value := rule.matchOn_of_pure (item.map toItem) (toItem_pure item) _ (pre.answered response)
    have direct : (Rule.default rule item).matchOn = rule.matchOn (item.map toItem) := by
      funext metadata
      rw [matchOn_default, matchForMatch, legacy.here.unbound]
    rw [direct, verdict_default, value, AbstractDefaultRule.verdict, rule.allItemsEmpty_map,
      rule.allItemsEmpty_map]
    cases rule.allItemsEmpty item with
    | true => exact Verdict.admits_ofBool true
    | false =>
      simp only [Bool.false_eq_true, if_false, Bool.false_or, holdsInner,
        rule.matchAllItems_answered comparable response]
      refine Verdict.Admits.invert ((Verdict.admits_ofBool _).conj ?_) rule.invert
      cases item with
      | none => exact rule.admits_groupsHold pre comparable response
      | some item =>
        simp only [Option.map_some, groupsVerdict, Bool.false_and,
          setsVerdict, groupsHoldWith,
          Verdict.settle_false, Verdict.conj_any, itemVerdict, toItem, Verdict.any_map, any_map]
        refine Verdict.admits_any _ _ item.setList fun rules listed => ?_
        have below := legacy.inSets item rfl rules listed
        have headless := legacy.here.headless item rfl rules listed
        have nested := pre.nested item
        refine admits_setVerdict rule rules pre nested comparable (fun branch offered => ?_)
          (legacy.here.unmixedSets item rfl rules listed) response fun child member => ?_
        · have listedBranch := mem_of_mergeableRuleIn offered
          exact (below _ listedBranch).here.comparable _ fun _ => (headless _ listedBranch).here
        · exact ih item rfl rules listed child member (below child member) _
            nested.resetMatch fun _ => headless child member
  | logical mode rules invert ih =>
    have value := logicalMatchOn_of_pure (rules.map matchOn) (by simp [matchOn_pure])
      _ (pre.answered response) mode invert
    have each : ∀ child ∈ rules, (child.verdict false metadata.resetRuleCache).Admits
        (child.matchOn (answered metadata.resetRuleCache response)).1 := fun child member =>
      ih child member (legacy.inRules child member) _ pre.reset
        fun source => Bool.noConfusion source
    rw [matchOn_logical, verdict_logical, value, logicalVerdict]
    refine Verdict.Admits.invert ?_ invert
    cases mode with
    | and =>
      simp only [logicalModeVerdict, logicalHolds, Verdict.all_map, all_map]
      exact Verdict.admits_all _ _ rules each
    | or =>
      simp only [logicalModeVerdict, logicalHolds, Verdict.any_map, any_map]
      exact Verdict.admits_any _ _ rules each

/-! ### Where a deferred group is lost -/

namespace Rule

/-- A referenced rule-set leaves the rule open, and a matching destination address item of the
rule makes `matchInner` forget it. -/
def LosesDeferral (rule : AbstractDefaultRule) (item : RuleSetItem (List Rule))
    (metadata : InboundContext) : Prop :=
  matchAllItems rule.items metadata = true ∧
    rule.satisfied metadata .destinationAddress = true ∧
    rule.setsVerdict (itemVerdict true item) metadata = .unknown

/-- The rules of a rule-set that are reached: the loop over them leaves at a match with nothing
deferred. -/
def reachedRules (rules : List Rule) (metadata : InboundContext) : List Rule :=
  reached (fun child => child.verdict true metadata = .yes) rules

/-- The rules of the rule-sets of a default rule that are reached and count. The loop over the sets
leaves at one that matches together with the groups of the rule with nothing deferred; a set that
is merged into the rule is not matched on its own, and the groups of the rule alone decide where
they do not hold. -/
def reachedBelow (rule : AbstractDefaultRule) (item : RuleSetItem (List Rule))
    (metadata : InboundContext) : List Rule :=
  if matchAllItems rule.items metadata ∧ rule.groupsHold metadata then
    let nested := item.nestedMetadata metadata
    ((reached (fun rules => rule.setVerdict metadata nested (setVerdict true rules) = .yes)
      item.setList).filter (mergeableRuleIn · = none)).flatMap (reachedRules · nested)
  else []

/-- The rules below a logical rule that are reached: a conjunction leaves at a rule that does not
match, a disjunction at a match with nothing deferred. -/
def reachedIn (mode : LogicalMode) (rules : List Rule) (metadata : InboundContext) : List Rule :=
  match mode with
  | .and => reached (fun child => child.verdict true metadata = .no) rules
  | .or => reachedRules rules metadata

/-- No default rule below an odd number of inversions, its own included, loses a deferred
group among those that are reached. The flag is the parity of the inversions above the rule. -/
inductive DeferralSafe : Bool → Rule → InboundContext → Prop where
  | default (inverted : Bool) (rule : AbstractDefaultRule)
      (item : Option (RuleSetItem (List Rule))) (metadata : InboundContext)
      (kept : (inverted ^^ rule.invert) = true → ∀ ruleSetItem ∈ item,
        ¬LosesDeferral rule ruleSetItem metadata)
      (below : ∀ ruleSetItem ∈ item, ∀ child ∈ reachedBelow rule ruleSetItem metadata,
        DeferralSafe (inverted ^^ rule.invert) child (ruleSetItem.nestedMetadata metadata)) :
      DeferralSafe inverted (.default rule item) metadata
  | logical (inverted : Bool) (mode : LogicalMode) (rules : List Rule) (invert : Bool)
      (metadata : InboundContext)
      (below : ∀ child ∈ reachedIn mode rules metadata.resetRuleCache,
        DeferralSafe (inverted ^^ invert) child metadata.resetRuleCache) :
      DeferralSafe inverted (.logical mode rules invert) metadata

theorem mem_reachedBelow {rule : AbstractDefaultRule} {item : RuleSetItem (List Rule)}
    {metadata : InboundContext} {rules : List Rule} {child : Rule}
    (items : matchAllItems rule.items metadata = true) (groups : rule.groupsHold metadata = true)
    (listed : rules ∈ reached (fun rules => rule.setVerdict metadata (item.nestedMetadata metadata)
      (setVerdict true rules) = .yes) item.setList)
    (unmerged : mergeableRuleIn rules = none)
    (member : child ∈ reachedRules rules (item.nestedMetadata metadata)) :
    child ∈ reachedBelow rule item metadata := by
  rw [reachedBelow, if_pos ⟨items, groups⟩]
  exact mem_flatMap.mpr ⟨rules, mem_filter.mpr ⟨listed, decide_eq_true unmerged⟩, member⟩

theorem leUnder_setVerdict (outer : AbstractDefaultRule) (rules : List Rule)
    (metadata nestedMetadata : InboundContext) {inverted : Bool}
    (each : mergeableRuleIn rules = none → outer.groupsHold metadata = true →
      ∀ child ∈ reachedRules rules nestedMetadata.resetRuleMatchCache, Verdict.LeUnder inverted
        (child.verdict false nestedMetadata.resetRuleMatchCache)
        (child.verdict true nestedMetadata.resetRuleMatchCache)) :
    Verdict.LeUnder inverted
      (outer.setVerdict metadata nestedMetadata (setVerdict false rules))
      (outer.setVerdict metadata nestedMetadata (setVerdict true rules)) := by
  have offered (lossy : Bool) : (setVerdict lossy rules).mergeableRule = mergeableRuleIn rules :=
    rfl
  rw [AbstractDefaultRule.setVerdict, AbstractDefaultRule.setVerdict, offered, offered]
  cases merging : mergeableRuleIn rules with
  | some branch => exact Verdict.LeUnder.refl _ _
  | none =>
    cases groups : outer.groupsHold metadata with
    | false => exact Verdict.LeUnder.refl _ _
    | true => exact Verdict.LeUnder.any _ _ rules (each merging groups)

/-- Where the deferrals are kept, the computed verdict errs on the harmless side only. -/
theorem leUnder_verdict (rule : Rule) (inverted : Bool) (metadata : InboundContext)
    (safe : DeferralSafe inverted rule metadata) :
    Verdict.LeUnder inverted (rule.verdict false metadata) (rule.verdict true metadata) := by
  induction rule using Rule.induction generalizing inverted metadata with
  | default rule item ih =>
    cases safe with
    | default _ _ _ _ kept below =>
      rw [verdict_default, verdict_default, AbstractDefaultRule.verdict,
        AbstractDefaultRule.verdict, rule.allItemsEmpty_map, rule.allItemsEmpty_map]
      cases rule.allItemsEmpty item with
      | true => exact Verdict.LeUnder.refl inverted _
      | false =>
        refine Verdict.LeUnder.invert ?_
        cases items : matchAllItems rule.items metadata with
        | false => exact Verdict.LeUnder.refl _ _
        | true =>
          refine (Verdict.LeUnder.refl _ _).conj ((Verdict.LeUnder.refl _ _).conj ?_)
          cases item with
          | none => exact Verdict.LeUnder.refl _ _
          | some item =>
            simp only [Option.map_some, groupsVerdict, Bool.false_and,
              Verdict.settle_false, Bool.true_and]
            refine Verdict.LeUnder.settle ?_ fun odd satisfied isOpen =>
              kept odd item rfl ⟨items, satisfied, isOpen⟩
            simp only [setsVerdict, itemVerdict, Verdict.any_map]
            refine Verdict.LeUnder.any _ _ item.setList fun rules listed => ?_
            refine leUnder_setVerdict rule rules metadata _ fun unmerged groups child member => ?_
            have counts := mem_reachedBelow items groups listed unmerged member
            exact ih item rfl rules (mem_of_mem_reached listed) child (mem_of_mem_reached member)
              _ _ (below item rfl child counts)
  | logical mode rules invert ih =>
    cases safe with
    | logical _ _ _ _ _ below =>
      rw [verdict_logical, verdict_logical, logicalVerdict, logicalVerdict]
      refine Verdict.LeUnder.invert ?_
      cases mode with
      | and =>
        simp only [logicalModeVerdict, Verdict.all_map]
        exact Verdict.LeUnder.all _ _ rules fun child member =>
          ih child (mem_of_mem_reached member) _ _ (below child member)
      | or =>
        simp only [logicalModeVerdict, Verdict.any_map]
        exact Verdict.LeUnder.any _ _ rules fun child member =>
          ih child (mem_of_mem_reached member) _ _ (below child member)

/-! ### Soundness of the pre-match -/

variable {rule : Rule}

theorem matchOn_eq_abstractMatchOn (legacy : rule.Every LegacyRule) :
    rule.matchOn = rule.abstractMatchOn := by
  cases rule with
  | default rule item =>
    funext metadata
    rw [matchOn, asHeadless, matchForMatch, legacy.here.unbound]
  | logical mode rules invert => rfl

/-- The metadata `matchDNS` passes to the pre-match of a rule. -/
structure Fresh (metadata : InboundContext) : Prop where
  reset : metadata.resetRuleCache = metadata
  exact : metadata.ignoreDestinationIPCIDRMatch = false

theorem Fresh.preMatching (fresh : Fresh metadata) : PreMatching (metadata.setIgnore true) :=
  ⟨rfl, congrArg InboundContext.deferredIPCIDRMatchGroups fresh.reset.symm⟩

/-- The pre-match reports the lossy verdict. -/
theorem legacyPreMatch_reports (legacy : rule.Every LegacyRule) (fresh : Fresh metadata) :
    Reports (rule.legacyPreMatch metadata).1
      (rule.legacyPreMatch metadata).2.deferredIPCIDRMatchGroups
      (rule.verdict true (metadata.setIgnore true)) := by
  have report := rule.matchOn_evaluates legacy _ fresh.preMatching
  have unbound : rule.matchResponse.isEnabled = false := by
    cases rule with
    | default rule item =>
      rw [matchResponse, legacy.here.unbound]
      rfl
    | logical mode rules invert => rfl
  rw [matchOn_eq_abstractMatchOn legacy] at report
  rw [legacyPreMatch, unbound]
  exact report

/-- The lossless verdict of the pre-match admits what `MatchAddressLimit` answers. -/
theorem matchAddressLimit_admitted (legacy : rule.Every LegacyRule) (fresh : Fresh metadata)
    (response : Option Msg) : (rule.verdict false (metadata.setIgnore true)).Admits
      (rule.matchAddressLimit metadata response) := by
  have admitted := rule.verdict_admits legacy _ fresh.preMatching
    (fun source => by
      rw [← fresh.reset] at source
      cases source) response
  have same : answered (metadata.setIgnore true) response =
      addressLimitMetadata metadata response := by
    have unchanged : metadata.setIgnore false = metadata := by
      rw [← fresh.exact]
      rfl
    rw [addressLimitMetadata, fresh.reset]
    exact congrArg (InboundContext.setResponse · response) unchanged
  rw [matchOn_eq_abstractMatchOn legacy, same] at admitted
  exact admitted

/-- A rule that loses no deferred group under an inversion is skipped only when no response
could satisfy its address filter. -/
theorem matchAddressLimit_of_legacyPreMatch (rule : Rule) (legacy : rule.Every LegacyRule)
    (metadata : InboundContext) (fresh : Fresh metadata)
    (safe : DeferralSafe false rule (metadata.setIgnore true)) (response : Option Msg)
    (skipped : (rule.legacyPreMatch metadata).1 = false) :
    rule.matchAddressLimit metadata response = false := by
  have below := rule.leUnder_verdict false _ safe
  rw [(legacyPreMatch_reports legacy fresh).eq_no skipped] at below
  exact (matchAddressLimit_admitted legacy fresh response).eq_false_of_no
    (Verdict.eq_no_of_le below)

/-- A rule that applies unless the domain matches and is listed. -/
def unlessListedRule : Rule :=
  .default { destinationAddressItems := [(DomainItem.mk fun _ => true).matchOn], invert := true }
    (some { setList := [[
      .default { destinationAddressItems := [(DomainItem.mk fun _ => true).matchOn] } none,
      .logical .or [] false]] })

/-- A rule with domain items only keeps the promises of the legacy mode, whatever rule-sets
without mergeable rules it references. -/
theorem legacyRule_of_domains (domains : List DomainItem) (invert : Bool)
    (item : Option (RuleSetItem (List Rule)))
    (unmerged : ∀ ruleSetItem ∈ item, ∀ rules ∈ ruleSetItem.setList, mergeableRuleIn rules = none)
    (headless : ∀ ruleSetItem ∈ item, ∀ rules ∈ ruleSetItem.setList, ∀ child ∈ rules,
      child.Every HeadlessRuleItems) :
    LegacyRule { destinationAddressItems := domains.map DomainItem.matchOn, invert } item := by
  refine ⟨rfl, ?_, .inr ⟨rfl, rfl⟩, ?_, headless⟩
  · intro other member
    simp only [nil_append, append_nil] at member
    obtain ⟨domain, _, rfl⟩ := mem_map.mp member
    exact domain.blind
  · intro ruleSetItem same rules listed branch offered
    rw [unmerged ruleSetItem same rules listed] at offered
    cases offered

/-- Two networks, and a server outside both. -/
def privateRuleSet : List Rule :=
  [.default { destinationIPCIDRItems := [(IPCIDRItem.mk (· == .v4 0x0a000001) false).matchOn] } none,
    .default { destinationIPCIDRItems := [(IPCIDRItem.mk (· == .v4 0xc0a80001) false).matchOn] } none]

/-- A rule that applies unless the domain matches and the response is in the rule-set. -/
def unlessPrivateRule : Rule :=
  .default { destinationAddressItems := [(DomainItem.mk fun _ => true).matchOn], invert := true }
    (some { setList := [privateRuleSet] })

def publicResponse : Msg := { response := true, answer := [.a (.v4 0x08080808)] }

theorem privateRuleSet_legacy : ∀ child ∈ privateRuleSet,
    child.Every LegacyRule ∧ child.Every HeadlessRuleItems := by
  simp only [privateRuleSet, forall_mem_cons]
  refine ⟨⟨.default _ _ ⟨rfl, by simp, .inl ⟨rfl, rfl⟩, by simp, by simp⟩ (by simp),
    .default _ _ ?_ (by simp)⟩, ⟨.default _ _ ⟨rfl, by simp, .inl ⟨rfl, rfl⟩, by simp, by simp⟩
      (by simp), .default _ _ ?_ (by simp)⟩, by simp⟩ <;>
  · intro other member
    exact ⟨_, mem_singleton.mp member⟩

theorem unlessPrivateRule_legacy : unlessPrivateRule.Every LegacyRule := by
  refine .default _ _ (legacyRule_of_domains [DomainItem.mk fun _ => true] true _ ?_ ?_) ?_ <;>
    simp only [Option.mem_def, Option.some.injEq, forall_eq', mem_singleton, forall_eq]
  · rfl
  · exact fun child member => (privateRuleSet_legacy child member).2
  · exact fun child member => (privateRuleSet_legacy child member).1

/-- A conjunction that fails before it reaches the rule that loses a deferred group. -/
def guardedRule : Rule :=
  .logical .and [.default { items := [fun _ => false] } none, unlessPrivateRule] false

/-- The rule-set of the first rule matches with nothing deferred, and the second rule never reaches
the one that would lose its deferred group. -/
theorem matchAddressLimit_of_legacyPreMatch_unlessListedRule :
    unlessListedRule.matchAddressLimit { domain := "example.org" } (some {}) = false ∧
      guardedRule.matchAddressLimit { domain := "example.org" } (some publicResponse) = false := by
  have domain : ∀ invert item, _ := legacyRule_of_domains [DomainItem.mk fun _ => true]
  have listed : (Rule.default { destinationAddressItems :=
      [(DomainItem.mk fun _ => true).matchOn] } none).Every LegacyRule :=
    .default _ _ (domain false none (by simp) (by simp)) (by simp)
  constructor
  · refine matchAddressLimit_of_legacyPreMatch unlessListedRule ?_ _ ⟨rfl, rfl⟩ ?_ _ (by decide)
    · refine .default _ _ (domain true _ ?_ ?_) ?_ <;>
        simp only [Option.mem_def, Option.some.injEq, forall_eq', mem_singleton, forall_eq,
          forall_mem_cons]
      · rfl
      · exact ⟨.default _ _ (by simp [HeadlessRuleItems]) (by simp), .logical _ _ _ (by simp)⟩
      · exact ⟨listed, .logical _ _ _ (by simp)⟩
    · refine .default _ _ _ _ (fun _ ruleSetItem same lost => ?_) fun ruleSetItem same child below => ?_
      · cases same
        exact absurd lost.2.2 (by decide)
      · cases same
        cases mem_singleton.mp below
        exact .default _ _ _ _ (by simp) (by simp)
  · refine matchAddressLimit_of_legacyPreMatch guardedRule ?_ _ ⟨rfl, rfl⟩ ?_ _ (by decide)
    · refine .logical _ _ _ (forall_mem_cons.mpr ⟨.default _ _ ?_ (by simp),
        forall_mem_singleton.mpr unlessPrivateRule_legacy⟩)
      refine ⟨rfl, fun other member => ?_, .inl ⟨rfl, rfl⟩, by simp, by simp⟩
      cases mem_singleton.mp member
      exact ⟨fun _ _ => rfl, fun _ _ => rfl, fun _ _ => rfl⟩
    · refine .logical _ _ _ _ _ fun child reached => ?_
      cases mem_singleton.mp reached
      exact .default _ _ _ _ (by simp) (by simp)

/-- The pre-match skips a rule that the response would satisfy: the two `ip_cidr` rules leave
the rule-set open, and the matching domain clears the deferred group. -/
theorem legacyPreMatch_skips_unlessPrivateRule :
    let metadata : InboundContext := { domain := "example.org" }
    unlessPrivateRule.Every LegacyRule ∧ Fresh metadata ∧
      (unlessPrivateRule.legacyPreMatch metadata).1 = false ∧
      unlessPrivateRule.matchAddressLimit metadata (some publicResponse) = true :=
  ⟨unlessPrivateRule_legacy, ⟨rfl, rfl⟩, by decide, by decide⟩

/-! ### Rules without rule-sets -/

end Rule

end SingBox
