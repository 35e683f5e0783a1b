/-
This file models rule matching: `route/rule/match_state.go`, `rule_abstract.go`,
`rule_item_rule_set.go`, `rule_item_cidr.go`, `rule_item_domain.go` and the DNS
wrappers of `rule_dns.go`.

The source dispatches through two interfaces. An `adapter.HeadlessRule` is
anything that matches a metadata pointer, so it is a function that returns the
verdict and the metadata it leaves behind; an `adapter.RuleSet` is such a
function together with the rule it offers for merging. The matching functions
below are written over these interfaces. `Rule` is the syntax of the rule trees
a configuration builds, and `Rule.abstractMatchOn` sends a tree to the interface
value it implements.
-/

import SingBox.InboundContext

namespace SingBox

/-! ### Match groups -/

/-- `ruleMatchState`, a set of match groups. -/
abbrev RuleMatchState := BitVec 8

def ruleMatchSourceAddress : RuleMatchState := 1

def ruleMatchSourcePort : RuleMatchState := 2

def ruleMatchDestinationAddress : RuleMatchState := 4

def ruleMatchDestinationPort : RuleMatchState := 8

/-- `ruleMatchState.has`. -/
def stateHas (state target : RuleMatchState) : Bool := state &&& target != 0

/-- `ruleGroupMatch`: the groups a rule constrains and those an item satisfied. -/
structure RuleGroupMatch where
  required : RuleMatchState := 0
  satisfied : RuleMatchState := 0
  deriving DecidableEq, Repr

namespace RuleGroupMatch

def done (groups : RuleGroupMatch) : Bool := groups.required &&& ~~~groups.satisfied == 0

def mergeWith (groups other : RuleGroupMatch) : RuleGroupMatch where
  required := groups.required ||| other.required
  satisfied := groups.satisfied ||| other.satisfied

/-- The two updates `evaluateGroups` makes for a group that has items: the group becomes
required, and satisfied when an item matched. -/
def record (groups : RuleGroupMatch) (group : RuleMatchState) (matched : Bool) :
    RuleGroupMatch where
  required := groups.required ||| group
  satisfied := if matched then groups.satisfied ||| group else groups.satisfied

end RuleGroupMatch

/-! ### Items and interfaces -/

/-- A `RuleItem`, as the predicate it matches by. -/
abbrev RuleItem := InboundContext → Bool

/-- An `adapter.HeadlessRule`: `Match` reads and updates the metadata it points to. -/
abbrev HeadlessRule := InboundContext → Bool × InboundContext

def matchAnyItem (items : List RuleItem) (metadata : InboundContext) : Bool :=
  items.any fun item => item metadata

/-- The loop over `r.items`, whose items must all match. -/
def matchAllItems (items : List RuleItem) (metadata : InboundContext) : Bool :=
  items.all fun item => item metadata

/-- An `IPCIDRItem`; the IP set is its membership function. -/
structure IPCIDRItem where
  ipSet : Addr → Bool
  isSource : Bool := false

/-- `IPCIDRItem.Match`. -/
def IPCIDRItem.matchOn (item : IPCIDRItem) : RuleItem := fun metadata =>
  if item.isSource || metadata.ipCIDRMatchSource then item.ipSet metadata.source.addr
  else if metadata.destinationAddressMatchFromResponse then
    let addresses := metadata.dnsResponseAddressesForMatch
    if addresses.isEmpty then metadata.ipCIDRAcceptEmpty else addresses.any item.ipSet
  else if metadata.destination.isIP then item.ipSet metadata.destination.addr
  else if !metadata.destinationAddresses.isEmpty then
    metadata.destinationAddresses.any item.ipSet
  else metadata.ipCIDRAcceptEmpty

/-- A `DomainItem`; the matcher is its predicate on lower-case names. -/
structure DomainItem where
  matcher : String → Bool

/-- `DomainItem.Match`. -/
def DomainItem.matchOn (item : DomainItem) : RuleItem := fun metadata =>
  let domainHost := if metadata.domain ≠ "" then metadata.domain else metadata.destination.fqdn
  if domainHost = "" then false else item.matcher domainHost.toLower

/-- The `match_response` option of a DNS rule. Route and headless rules never set it. -/
inductive MatchResponse where
  | disabled
  | anonymous
  | tagged (tag : String)
  deriving DecidableEq, Repr

def MatchResponse.isEnabled : MatchResponse → Bool
  | disabled => false
  | anonymous | tagged _ => true

/-- The item lists of an `abstractDefaultRule`, with its `invert` flag and, for a
`DefaultDNSRule`, its `match_response` option. `allItems` is not stored: every constructor
of the source appends an item to exactly one list and to `allItems`. -/
structure AbstractDefaultRule where
  items : List RuleItem := []
  sourceAddressItems : List RuleItem := []
  sourcePortItems : List RuleItem := []
  destinationAddressItems : List RuleItem := []
  destinationIPCIDRItems : List RuleItem := []
  destinationPortItems : List RuleItem := []
  invert : Bool := false
  matchResponse : MatchResponse := .disabled

/-- An `adapter.RuleSet`: a headless rule that may offer its only rule for merging. -/
structure RuleSet where
  matchOn : HeadlessRule
  mergeableRule : Option AbstractDefaultRule

/-- A `RuleSetItem` over the rule-sets `Set`. -/
structure RuleSetItem (Set : Type) where
  setList : List Set
  ipCIDRMatchSource : Bool := false
  ipCIDRAcceptEmpty : Bool := false

/-! ### Default rules -/

namespace AbstractDefaultRule

/-- `len(r.allItems) == 0`. -/
def allItemsEmpty {Set : Type} (r : AbstractDefaultRule)
    (ruleSetItem : Option (RuleSetItem Set)) : Bool :=
  r.items.isEmpty && r.sourceAddressItems.isEmpty && r.sourcePortItems.isEmpty &&
    r.destinationAddressItems.isEmpty && r.destinationIPCIDRItems.isEmpty &&
    r.destinationPortItems.isEmpty && ruleSetItem.isNone

def destinationIPCIDRMatchesSource (r : AbstractDefaultRule) (metadata : InboundContext) :
    Bool :=
  metadata.ipCIDRMatchSource && !r.destinationIPCIDRItems.isEmpty

def destinationIPCIDRMatchesDestination (r : AbstractDefaultRule)
    (metadata : InboundContext) : Bool :=
  !metadata.ignoreDestinationIPCIDRMatch && !metadata.ipCIDRMatchSource &&
    !r.destinationIPCIDRItems.isEmpty

/-- The groups that `evaluateGroups` computes, before its last statement. -/
def groupMatch (r : AbstractDefaultRule) (metadata : InboundContext) : RuleGroupMatch :=
  let groups : RuleGroupMatch := {}
  let groups := if r.sourceAddressItems.isEmpty then groups else
    groups.record ruleMatchSourceAddress (matchAnyItem r.sourceAddressItems metadata)
  let groups := if !r.destinationIPCIDRMatchesSource metadata then groups else
    groups.record ruleMatchSourceAddress
      (!stateHas groups.satisfied ruleMatchSourceAddress &&
        matchAnyItem r.destinationIPCIDRItems metadata)
  let groups := if r.sourcePortItems.isEmpty then groups else
    groups.record ruleMatchSourcePort (matchAnyItem r.sourcePortItems metadata)
  let groups := if r.destinationAddressItems.isEmpty then groups else
    groups.record ruleMatchDestinationAddress (matchAnyItem r.destinationAddressItems metadata)
  let groups := if !r.destinationIPCIDRMatchesDestination metadata then groups else
    groups.record ruleMatchDestinationAddress
      (!stateHas groups.satisfied ruleMatchDestinationAddress &&
        matchAnyItem r.destinationIPCIDRItems metadata)
  if r.destinationPortItems.isEmpty then groups else
    groups.record ruleMatchDestinationPort (matchAnyItem r.destinationPortItems metadata)

/-- The condition of the last statement of `evaluateGroups`: destination `ip_cidr` items
that the pre-match leaves for the response. -/
def defersIPCIDR (r : AbstractDefaultRule) (metadata : InboundContext) : Bool :=
  metadata.ignoreDestinationIPCIDRMatch && !metadata.ipCIDRMatchSource &&
    !r.destinationIPCIDRItems.isEmpty && r.destinationAddressItems.isEmpty

def evaluateGroups (r : AbstractDefaultRule) (metadata : InboundContext) :
    RuleGroupMatch × InboundContext :=
  let groups := r.groupMatch metadata
  if r.defersIPCIDR metadata then
    (groups, metadata.setDeferred
      (metadata.deferredIPCIDRMatchGroups ||| ruleMatchDestinationAddress))
  else (groups, metadata)

def evaluateForMerge (r : AbstractDefaultRule) (metadata : InboundContext) :
    Option RuleGroupMatch × InboundContext :=
  let (groups, metadata) := r.evaluateGroups metadata
  if matchAllItems r.items metadata then (some groups, metadata) else (none, metadata)

end AbstractDefaultRule

/-! ### Rule-set items -/

namespace RuleSetItem

def nestedMetadata {Set : Type} (r : RuleSetItem Set) (metadata : InboundContext) :
    InboundContext :=
  metadata.resetRuleMatchCache.setIPCIDRFlags r.ipCIDRMatchSource r.ipCIDRAcceptEmpty

/-- `RuleSetItem.Match`. -/
def matchOn (r : RuleSetItem RuleSet) (metadata : InboundContext) : Bool :=
  r.setList.any fun ruleSet => (ruleSet.matchOn (r.nestedMetadata metadata)).1

/-- The loop of `RuleSetItem.matchWithOuterGroups`, with its locals `matched` and
`deferredGroups`. -/
def matchWithOuterGroupsLoop (r : RuleSetItem RuleSet) (metadata : InboundContext)
    (outerGroups : RuleGroupMatch) (matched : Bool) (deferredGroups : BitVec 8) :
    List RuleSet → Bool × InboundContext
  | [] =>
    if matched then
      (true, metadata.setDeferred (metadata.deferredIPCIDRMatchGroups ||| deferredGroups))
    else (false, metadata)
  | ruleSet :: rest =>
    match ruleSet.mergeableRule with
    | some branch =>
      match branch.evaluateForMerge (r.nestedMetadata metadata) with
      | (some branchGroups, nestedMetadata) =>
        let merged := outerGroups.mergeWith branchGroups
        if merged.done then
          let branchDeferredGroups :=
            nestedMetadata.deferredIPCIDRMatchGroups &&& ~~~merged.satisfied
          if branchDeferredGroups = 0 then
            (true, metadata.setDeferred
              (metadata.deferredIPCIDRMatchGroups &&& ~~~merged.satisfied))
          else
            r.matchWithOuterGroupsLoop metadata outerGroups true
              (deferredGroups ||| branchDeferredGroups) rest
        else r.matchWithOuterGroupsLoop metadata outerGroups matched deferredGroups rest
      | (none, _) =>
        r.matchWithOuterGroupsLoop metadata outerGroups matched deferredGroups rest
    | none =>
      if outerGroups.done then
        match ruleSet.matchOn (r.nestedMetadata metadata) with
        | (true, nestedMetadata) =>
          if nestedMetadata.deferredIPCIDRMatchGroups = 0 then (true, metadata)
          else
            r.matchWithOuterGroupsLoop metadata outerGroups true
              (deferredGroups ||| nestedMetadata.deferredIPCIDRMatchGroups) rest
        | (false, _) =>
          r.matchWithOuterGroupsLoop metadata outerGroups matched deferredGroups rest
      else r.matchWithOuterGroupsLoop metadata outerGroups matched deferredGroups rest

def matchWithOuterGroups (r : RuleSetItem RuleSet) (metadata : InboundContext)
    (outerGroups : RuleGroupMatch) : Bool × InboundContext :=
  r.matchWithOuterGroupsLoop metadata outerGroups false 0 r.setList

end RuleSetItem

namespace AbstractDefaultRule

/-- The branch of `matchInner` on `r.ruleSetItem`. -/
def matchGroups (ruleSetItem : Option (RuleSetItem RuleSet)) (metadata : InboundContext)
    (groups : RuleGroupMatch) : Bool × InboundContext :=
  match ruleSetItem with
  | some item => item.matchWithOuterGroups metadata groups
  | none => (groups.done, metadata)

def matchInner (r : AbstractDefaultRule) (ruleSetItem : Option (RuleSetItem RuleSet)) :
    HeadlessRule := fun metadata =>
  let (groups, metadata) := r.evaluateGroups metadata
  if !matchAllItems r.items metadata then (false, metadata)
  else
    let (matched, metadata) := matchGroups ruleSetItem metadata groups
    if matched then
      (true, metadata.setDeferred (metadata.deferredIPCIDRMatchGroups &&& ~~~groups.satisfied))
    else (false, metadata)

/-- `abstractDefaultRule.Match`. -/
def matchOn (r : AbstractDefaultRule) (ruleSetItem : Option (RuleSetItem RuleSet)) :
    HeadlessRule := fun metadata =>
  if r.allItemsEmpty ruleSetItem then (true, metadata)
  else
    let (matched, metadata) := r.matchInner ruleSetItem metadata
    if r.invert then
      if !matched then (true, metadata.setDeferred 0)
      else (metadata.deferredIPCIDRMatchGroups != 0, metadata)
    else (matched, metadata)

end AbstractDefaultRule

/-! ### Logical rules and rule-sets -/

inductive LogicalMode where
  | and
  | or
  deriving DecidableEq, Repr

/-- The conjunction loop of `abstractLogicalRule.Match`: its locals `matched` and
`deferredGroups` after the loop. -/
def logicalAndLoop (metadata : InboundContext) (deferredGroups : BitVec 8) :
    List HeadlessRule → Bool × BitVec 8
  | [] => (true, deferredGroups)
  | rule :: rest =>
    match rule metadata.resetRuleCache with
    | (false, _) => (false, 0)
    | (true, nestedMetadata) =>
      logicalAndLoop metadata (deferredGroups ||| nestedMetadata.deferredIPCIDRMatchGroups) rest

/-- The disjunction loop of `abstractLogicalRule.Match`. -/
def logicalOrLoop (metadata : InboundContext) (matched : Bool) (deferredGroups : BitVec 8) :
    List HeadlessRule → Bool × BitVec 8
  | [] => (matched, deferredGroups)
  | rule :: rest =>
    match rule metadata.resetRuleCache with
    | (false, _) => logicalOrLoop metadata matched deferredGroups rest
    | (true, nestedMetadata) =>
      if nestedMetadata.deferredIPCIDRMatchGroups = 0 then (true, 0)
      else
        logicalOrLoop metadata true
          (deferredGroups ||| nestedMetadata.deferredIPCIDRMatchGroups) rest

/-- The loop `abstractLogicalRule.Match` runs for its mode. -/
def logicalLoop (mode : LogicalMode) (rules : List HeadlessRule) (metadata : InboundContext) :
    Bool × BitVec 8 :=
  match mode with
  | .and => logicalAndLoop metadata 0 rules
  | .or => logicalOrLoop metadata false 0 rules

/-- `abstractLogicalRule.Match`. -/
def logicalMatchOn (mode : LogicalMode) (invert : Bool) (rules : List HeadlessRule) :
    HeadlessRule := fun metadata =>
  let (matched, deferredGroups) := logicalLoop mode rules metadata
  let metadata := if matched then
      metadata.setDeferred (metadata.deferredIPCIDRMatchGroups ||| deferredGroups)
    else metadata
  if invert then
    if !matched then (true, metadata) else (deferredGroups != 0, metadata)
  else (matched, metadata)

/-- The loop of `matchAnyHeadlessRule`. -/
def matchAnyHeadlessRuleLoop (metadata : InboundContext) (matched : Bool)
    (deferredGroups : BitVec 8) : List HeadlessRule → Bool × InboundContext
  | [] =>
    if matched then
      (true, metadata.setDeferred (metadata.deferredIPCIDRMatchGroups ||| deferredGroups))
    else (false, metadata)
  | rule :: rest =>
    match rule metadata.resetRuleMatchCache with
    | (true, nestedMetadata) =>
      if nestedMetadata.deferredIPCIDRMatchGroups = 0 then (true, metadata)
      else
        matchAnyHeadlessRuleLoop metadata true
          (deferredGroups ||| nestedMetadata.deferredIPCIDRMatchGroups) rest
    | (false, _) => matchAnyHeadlessRuleLoop metadata matched deferredGroups rest

def matchAnyHeadlessRule (rules : List HeadlessRule) : HeadlessRule := fun metadata =>
  matchAnyHeadlessRuleLoop metadata false 0 rules

/-- `DefaultDNSRule.matchForMatch` around the rule's own match: a rule with
`match_response` matches a copy of the metadata that holds the response it names. -/
def matchForMatch (r : AbstractDefaultRule) (rule : HeadlessRule) : HeadlessRule :=
  fun metadata =>
    match r.matchResponse with
    | .disabled => rule metadata
    | .anonymous => matchBound metadata metadata.dnsResponse
    | .tagged tag => matchBound metadata (metadata.namedDNSResponses tag)
where
  matchBound (metadata : InboundContext) : Option Msg → Bool × InboundContext
    | none => (r.invert, metadata)
    | some response => ((rule (metadata.setResponse (some response))).1, metadata)

/-! ### Rule trees -/

/-- The rules a configuration builds. A rule-set is the list of its headless rules. -/
inductive Rule where
  | default (rule : AbstractDefaultRule) (ruleSetItem : Option (RuleSetItem (List Rule)))
  | logical (mode : LogicalMode) (rules : List Rule) (invert : Bool)

/-- `mergeableRuleIn`. A rule with `match_response` is a DNS rule, not a
`DefaultHeadlessRule`. -/
def mergeableRuleIn : List Rule → Option AbstractDefaultRule
  | [.default rule none] => if rule.invert || rule.matchResponse.isEnabled then none else some rule
  | _ => none

/-- The `Match` method a rule has as a child or as a member of a rule-set: DNS rules go
through `matchForMatch`, all other rules match directly. -/
def Rule.asHeadless (rule : Rule) (abstractMatchOn : HeadlessRule) : HeadlessRule :=
  match rule with
  | .default rule _ => matchForMatch rule abstractMatchOn
  | .logical _ _ _ => abstractMatchOn

mutual

/-- `abstractDefaultRule.Match` and `abstractLogicalRule.Match` of a rule tree. -/
def Rule.abstractMatchOn : Rule → HeadlessRule
  | .default rule none => rule.matchOn none
  | .default rule (some item) =>
    rule.matchOn (some { setList := ruleSets item.setList,
                         ipCIDRMatchSource := item.ipCIDRMatchSource,
                         ipCIDRAcceptEmpty := item.ipCIDRAcceptEmpty })
  | .logical mode rules invert => logicalMatchOn mode invert (headlessRules rules)

/-- The interface values of a list of rules. -/
def headlessRules : List Rule → List HeadlessRule
  | [] => []
  | rule :: rest => rule.asHeadless rule.abstractMatchOn :: headlessRules rest

/-- `LocalRuleSet.Match` and `LocalRuleSet.mergeableRule` of each referenced rule-set. -/
def ruleSets : List (List Rule) → List RuleSet
  | [] => []
  | rules :: rest =>
    { matchOn := matchAnyHeadlessRule (headlessRules rules)
      mergeableRule := mergeableRuleIn rules } :: ruleSets rest

end

namespace Rule

/-- `Match` of a rule: `DefaultRule.Match`, `DefaultDNSRule.Match`, `LogicalRule.Match` and
the headless variants. -/
def matchOn (rule : Rule) : HeadlessRule := rule.asHeadless rule.abstractMatchOn

/-- The interface value of one rule-set. -/
def toRuleSet (rules : List Rule) : RuleSet where
  matchOn := matchAnyHeadlessRule (rules.map matchOn)
  mergeableRule := mergeableRuleIn rules

/-- `matchResponse` of a `DefaultDNSRule`; a logical rule has none. -/
def matchResponse : Rule → MatchResponse
  | .default rule _ => rule.matchResponse
  | .logical _ _ _ => .disabled

/-- `DefaultDNSRule.LegacyPreMatch` and `LogicalDNSRule.LegacyPreMatch`. -/
def legacyPreMatch (rule : Rule) : HeadlessRule := fun metadata =>
  if rule.matchResponse.isEnabled then (false, metadata)
  else
    let (matched, metadata) := rule.abstractMatchOn (metadata.setIgnore true)
    (matched, metadata.setIgnore false)

/-- The metadata `MatchAddressLimit` matches a response with. -/
def addressLimitMetadata (metadata : InboundContext) (response : Option Msg) :
    InboundContext :=
  metadata.resetRuleCache.setResponse response

/-- `DefaultDNSRule.MatchAddressLimit` and `LogicalDNSRule.MatchAddressLimit`. -/
def matchAddressLimit (rule : Rule) (metadata : InboundContext) (response : Option Msg) :
    Bool :=
  (rule.abstractMatchOn (addressLimitMetadata metadata response)).1

end Rule

/-! ### The interface value of a tree -/

theorem headlessRules_eq_map (rules : List Rule) : headlessRules rules = rules.map Rule.matchOn := by
  induction rules with
  | nil => rfl
  | cons rule rest ih =>
    rw [headlessRules, ih]
    rfl

theorem ruleSets_eq_map (sets : List (List Rule)) : ruleSets sets = sets.map Rule.toRuleSet := by
  induction sets with
  | nil => rfl
  | cons rules rest ih =>
    rw [ruleSets, ih, headlessRules_eq_map]
    rfl

namespace Rule

/-- The rule-set item a default rule of a tree matches through. -/
def toItem (item : RuleSetItem (List Rule)) : RuleSetItem RuleSet where
  setList := item.setList.map toRuleSet
  ipCIDRMatchSource := item.ipCIDRMatchSource
  ipCIDRAcceptEmpty := item.ipCIDRAcceptEmpty

theorem abstractMatchOn_default (rule : AbstractDefaultRule)
    (item : Option (RuleSetItem (List Rule))) :
    (Rule.default rule item).abstractMatchOn = rule.matchOn (item.map toItem) := by
  cases item with
  | none => rw [abstractMatchOn, Option.map_none]
  | some item =>
    rw [abstractMatchOn, ruleSets_eq_map]
    rfl

theorem abstractMatchOn_logical (mode : LogicalMode) (rules : List Rule) (invert : Bool) :
    (Rule.logical mode rules invert).abstractMatchOn =
      logicalMatchOn mode invert (rules.map matchOn) := by
  rw [abstractMatchOn, headlessRules_eq_map]

theorem matchOn_default (rule : AbstractDefaultRule)
    (item : Option (RuleSetItem (List Rule))) :
    (Rule.default rule item).matchOn = matchForMatch rule (rule.matchOn (item.map toItem)) := by
  rw [matchOn, abstractMatchOn_default]
  rfl

theorem matchOn_logical (mode : LogicalMode) (rules : List Rule) (invert : Bool) :
    (Rule.logical mode rules invert).matchOn = logicalMatchOn mode invert (rules.map matchOn) := by
  rw [matchOn, abstractMatchOn_logical]
  rfl

end Rule

/-! ### Induction over rule trees -/

mutual

/-- Induction over a rule tree: a default rule may use the rules of every rule-set it
references, a logical rule its children. -/
theorem Rule.induction {motive : Rule → Prop}
    (default : ∀ rule item, (∀ ruleSetItem ∈ item, ∀ rules ∈ ruleSetItem.setList,
      ∀ child ∈ rules, motive child) → motive (.default rule item))
    (logical : ∀ mode rules invert, (∀ child ∈ rules, motive child) →
      motive (.logical mode rules invert)) : ∀ rule : Rule, motive rule
  | .default rule none => default rule none fun _ absent => absurd absent (by simp)
  | .default rule (some item) => default rule (some item) fun _ same rules member => by
    rw [Option.mem_some_iff] at same
    subst same
    exact Rule.inductionSets default logical item.setList rules member
  | .logical mode rules invert =>
    logical mode rules invert (Rule.inductionList default logical rules)

theorem Rule.inductionList {motive : Rule → Prop}
    (default : ∀ rule item, (∀ ruleSetItem ∈ item, ∀ rules ∈ ruleSetItem.setList,
      ∀ child ∈ rules, motive child) → motive (.default rule item))
    (logical : ∀ mode rules invert, (∀ child ∈ rules, motive child) →
      motive (.logical mode rules invert)) :
    ∀ rules : List Rule, ∀ child ∈ rules, motive child
  | [] => fun _ member => absurd member List.not_mem_nil
  | rule :: rest => fun child member => by
    rcases List.mem_cons.mp member with same | later
    · exact same ▸ Rule.induction default logical rule
    · exact Rule.inductionList default logical rest child later

theorem Rule.inductionSets {motive : Rule → Prop}
    (default : ∀ rule item, (∀ ruleSetItem ∈ item, ∀ rules ∈ ruleSetItem.setList,
      ∀ child ∈ rules, motive child) → motive (.default rule item))
    (logical : ∀ mode rules invert, (∀ child ∈ rules, motive child) →
      motive (.logical mode rules invert)) :
    ∀ sets : List (List Rule), ∀ rules ∈ sets, ∀ child ∈ rules, motive child
  | [] => fun _ member => absurd member List.not_mem_nil
  | rules :: rest => fun chosen member => by
    rcases List.mem_cons.mp member with same | later
    · exact same ▸ Rule.inductionList default logical rules
    · exact Rule.inductionSets default logical rest chosen later

end

/-- `condition` holds of every default rule of the tree, in the rule-sets it references too. -/
inductive Rule.Every (condition : AbstractDefaultRule → Option (RuleSetItem (List Rule)) → Prop) :
    Rule → Prop where
  | default (rule : AbstractDefaultRule) (item : Option (RuleSetItem (List Rule)))
      (here : condition rule item)
      (below : ∀ ruleSetItem ∈ item, ∀ rules ∈ ruleSetItem.setList, ∀ child ∈ rules,
        Every condition child) :
      Every condition (.default rule item)
  | logical (mode : LogicalMode) (rules : List Rule) (invert : Bool)
      (below : ∀ child ∈ rules, Every condition child) :
      Every condition (.logical mode rules invert)

namespace Rule.Every

variable {condition : AbstractDefaultRule → Option (RuleSetItem (List Rule)) → Prop}

section

variable {rule : AbstractDefaultRule} {item : Option (RuleSetItem (List Rule))}
  (every : Every condition (.default rule item))

include every

theorem here : condition rule item := by
  cases every with
  | default _ _ here below => exact here

theorem inSets : ∀ ruleSetItem ∈ item, ∀ rules ∈ ruleSetItem.setList, ∀ child ∈ rules,
      Every condition child := by
  cases every with
  | default _ _ here below => exact below

end

theorem inRules {mode : LogicalMode} {rules : List Rule} {invert : Bool}
    (every : Every condition (.logical mode rules invert)) :
    ∀ child ∈ rules, Every condition child := by
  cases every with
  | logical _ _ _ below => exact below

end Rule.Every

/-! ### The action that route and DNS rules share -/

inductive RejectMethod where
  | default
  | drop
  | reply
  deriving DecidableEq, Repr

structure RuleActionReject where
  method : RejectMethod := .default
  noDrop : Bool := false
  deriving DecidableEq, Repr

end SingBox
