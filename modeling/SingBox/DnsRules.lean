/-
This file models the checks that a list of DNS rules passes before it is walked:
those of `NewDNSRule` on a rule and its action, and
`validateLegacyDNSModeDisabledRules` on the list. The warnings of the latter
change nothing and are left out.

Two facts come out of it. The tags of an accepted list are defined once and
before they are used. And a rule reads the evaluated responses only through what
it binds, because the checks allow response items on rules with `match_response`
only.
-/

import SingBox.DnsWalk
import SingBox.RuleFrame

namespace SingBox

open InboundContext AbstractDefaultRule

/-! ### The checks -/

namespace DNSRuleAction

def dnsRouteOptions : DNSRuleAction → RuleActionDNSRouteOptions
  | .routeOptions options | .evaluate _ _ _ options | .route _ _ options => options
  | .respond | .reject _ | .predefined _ => {}

/-- Whether an action may end a walk. -/
def isFinal : DNSRuleAction → Bool
  | .respond | .route _ _ _ | .reject _ | .predefined _ => true
  | .routeOptions _ | .evaluate _ _ _ _ => false

/-- `RouteOptions.Speculative`. -/
def routeSpeculative : DNSRuleAction → Bool
  | .route _ speculative _ => speculative
  | .routeOptions _ | .evaluate _ _ _ _ | .respond | .reject _ | .predefined _ => false

/-- Whether the action is a reject with the method `reply`. -/
def isReply : DNSRuleAction → Bool
  | .reject action => action.method = .reply
  | .routeOptions _ | .evaluate _ _ _ _ | .respond | .route _ _ _ | .predefined _ => false

end DNSRuleAction

def validateDNSRuleAction (rule : DNSRule) : Except String Unit :=
  if rule.action.isReply then .error "reject method `reply` is not supported for DNS rules"
  else if rule.action.dnsRouteOptions.removeClientSubnet &&
      rule.action.dnsRouteOptions.clientSubnet.isSome then
    .error "`client_subnet` and `remove_client_subnet` are mutually exclusive"
  else if rule.race && !rule.action.isFinal then .error "`race` requires a final action"
  else if rule.race && rule.action.routeSpeculative then
    .error "`race` and `speculative` cannot be combined on the same rule"
  else .ok ()

/-- The checks of `NewDNSRule` and `NewLogicalDNSRule`, without those on fields that the
model of a rule does not have. -/
def newDNSRule (rule : DNSRule) : Except String Unit :=
  match validateDNSRuleAction rule with
  | .error message => .error message
  | .ok () =>
    if rule.race && !rule.hasBindings then
      match rule.rule with
      | .default _ _ => .error "`race` requires `match_response`"
      | .logical _ _ _ => .error "`race` requires `match_response` in sub-rules"
    else .ok ()

structure DNSRuleResponseUse where
  needsAnonymous : Bool
  referencedTags : List String

/-- `validateLegacyDNSModeDisabledRuleTree`. Nested rules have no action, so their use is what
they bind. -/
def validateLegacyDNSModeDisabledRuleTree (rule : DNSRule) : Except String DNSRuleResponseUse :=
  let use : DNSRuleResponseUse :=
    { needsAnonymous := rule.matchResponseAnonymous, referencedTags := rule.matchResponseTags }
  match rule.action, rule.rule with
  | .respond, .default _ _ =>
    .ok { use with needsAnonymous := use.needsAnonymous || rule.matchResponseTag.isNone }
  | .respond, .logical _ _ _ =>
    if !use.referencedTags.isEmpty then
      .error ("respond on a logical rule cannot bind a `match_response` tag from its sub rules; " ++
        "use a non-logical rule")
    else .ok { use with needsAnonymous := true }
  | _, _ => .ok use

/-- The locals of `validateLegacyDNSModeDisabledRules` that its errors depend on. -/
structure SeenRules where
  seenAnonymousEvaluate : Bool := false
  definedTags : List String := []

/-- One turn of the loop of `validateLegacyDNSModeDisabledRules`. -/
def validateRule (seen : SeenRules) (index : Nat) (rule : DNSRule) : Except String SeenRules :=
  match validateLegacyDNSModeDisabledRuleTree rule with
  | .error message => .error s!"validate dns rule[{index}]: {message}"
  | .ok use =>
    if use.needsAnonymous && !seen.seenAnonymousEvaluate then
      if !seen.definedTags.isEmpty then
        .error (s!"dns rule[{index}]: response-based matching requires a preceding evaluate " ++
          "action without `tag`; use `match_response` with an evaluate tag to reference a " ++
          "tagged result")
      else
        .error (s!"dns rule[{index}]: response-based matching requires a preceding evaluate " ++
          "action")
    else match use.referencedTags.find? fun tag => !seen.definedTags.contains tag with
      | some tag => .error s!"dns rule[{index}]: undefined evaluate tag: {tag}"
      | none => match rule.action with
        | .evaluate _ tag _ _ =>
          if tag = "" then .ok { seen with seenAnonymousEvaluate := true }
          else if seen.definedTags.contains tag then
            .error s!"dns rule[{index}]: duplicate evaluate tag: {tag}"
          else .ok { seen with definedTags := seen.definedTags ++ [tag] }
        | _ => .ok seen

/-- The loop of `validateLegacyDNSModeDisabledRules`. -/
def validateRules (seen : SeenRules) (index : Nat) : List DNSRule → Except String SeenRules
  | [] => .ok seen
  | rule :: rest => match validateRule seen index rule with
    | .error message => .error message
    | .ok seen => validateRules seen (index + 1) rest

def validateLegacyDNSModeDisabledRules (rules : List DNSRule) : Except String SeenRules :=
  validateRules {} 0 rules

/-! ### Tags -/

/-- The tag that a rule defines. -/
def DNSRule.evaluateTag (rule : DNSRule) : Option String :=
  match rule.action with
  | .evaluate _ tag _ _ => if tag = "" then none else some tag
  | _ => none

variable {rule : DNSRule} {tag : String} {index : Nat} {seen : SeenRules}
  {metadata : InboundContext}

theorem DNSRule.mem_matchResponseTags (tagged : rule.matchResponseTag = some tag) :
    tag ∈ rule.matchResponseTags := by
  rcases rule with ⟨tree, action, race⟩
  cases tree with
  | default inner item =>
    cases bound : inner.matchResponse <;>
      simp_all [matchResponseTag, matchResponseTags, Rule.matchResponseTags]
  | logical mode children invert => cases tagged

/-- What an accepted rule does with tags, when the rules before it defined the given ones. -/
structure TagsUsed (definedTags : List String) (rule : DNSRule) : Prop where
  defined : ∀ tag ∈ rule.matchResponseTags, tag ∈ definedTags
  fresh : ∀ tag ∈ rule.evaluateTag, tag ∉ definedTags
  respond : rule.action = .respond → rule.matchResponseTag = none → rule.matchResponseTags = []

theorem validateRuleTree_ok {use : DNSRuleResponseUse}
    (accepted : validateLegacyDNSModeDisabledRuleTree rule = .ok use) :
    use.referencedTags = rule.matchResponseTags ∧
      (rule.action = .respond → rule.matchResponseTag = none → rule.matchResponseTags = []) := by
  rcases rule with ⟨tree, action, race⟩
  unfold validateLegacyDNSModeDisabledRuleTree at accepted
  cases action with
  | respond =>
    cases tree with
    | default inner item =>
      cases accepted
      refine ⟨rfl, fun _ untagged => ?_⟩
      cases bound : inner.matchResponse <;>
        simp_all [DNSRule.matchResponseTag, DNSRule.matchResponseTags, Rule.matchResponseTags]
    | logical mode children invert =>
      dsimp only at accepted
      split at accepted
      · cases accepted
      next unbound =>
        cases accepted
        exact ⟨rfl, fun _ _ => by simpa using unbound⟩
  | routeOptions | evaluate | route | reject | predefined =>
    cases accepted
    exact ⟨rfl, nofun⟩

theorem validateRule_ok {next : SeenRules} (accepted : validateRule seen index rule = .ok next) :
    TagsUsed seen.definedTags rule ∧
      next.definedTags = seen.definedTags ++ rule.evaluateTag.toList := by
  have used {use : DNSRuleResponseUse}
      (checked : validateLegacyDNSModeDisabledRuleTree rule = .ok use)
      (referenced : use.referencedTags.find? (fun tag => !seen.definedTags.contains tag) = none)
      (fresh : ∀ tag ∈ rule.evaluateTag, tag ∉ seen.definedTags) :
      TagsUsed seen.definedTags rule := by
    obtain ⟨same, respond⟩ := validateRuleTree_ok checked
    refine ⟨fun tag member => ?_, fresh, respond⟩
    have := List.find?_eq_none.mp referenced tag (same ▸ member)
    simpa using this
  revert accepted
  fun_cases validateRule seen index rule with
  | case5 use checked _ referenced server speculative options act =>
    rintro ⟨⟩
    have none : rule.evaluateTag = none := by simp [DNSRule.evaluateTag, act]
    exact ⟨used checked referenced (by simp [none]), by simp [none]⟩
  | case7 use checked _ referenced server tag speculative options act named unseen =>
    rintro ⟨⟩
    have some : rule.evaluateTag = some tag := by simp [DNSRule.evaluateTag, act, named]
    exact ⟨used checked referenced (by simpa [some] using unseen), by simp [some]⟩
  | case8 use checked _ referenced other =>
    rintro ⟨⟩
    have none : rule.evaluateTag = none := by
      unfold DNSRule.evaluateTag
      split
      next act => exact (other _ _ _ _ act).elim
      · rfl
    exact ⟨used checked referenced (by simp [none]), by simp [none]⟩
  | _ => nofun

theorem validateRules_ok {last : SeenRules} {rules : List DNSRule}
    (accepted : validateRules seen index rules = .ok last) (position : Nat) (rule : DNSRule)
    (listed : rules[position]? = some rule) :
    TagsUsed (seen.definedTags ++ (rules.take position).filterMap DNSRule.evaluateTag) rule := by
  induction rules generalizing seen index position with
  | nil => simp at listed
  | cons first rest ih =>
    rw [validateRules] at accepted
    cases checked : validateRule seen index first with
    | error message =>
      rw [checked] at accepted
      cases accepted
    | ok next =>
      rw [checked] at accepted
      obtain ⟨used, extended⟩ := validateRule_ok checked
      cases position with
      | zero =>
        obtain rfl : first = rule := by simpa using listed
        simpa using used
      | succ position =>
        have later := ih accepted position (by simpa using listed)
        rw [extended] at later
        cases tagged : first.evaluateTag <;> simpa [tagged] using later

/-! ### What a rule reads of the responses -/

namespace InboundContext

/-- Other evaluated responses. What a rule with `match_response` has bound stays. -/
def rebind (metadata : InboundContext) (anonymous : Option Msg)
    (named : String → Option Msg) : InboundContext :=
  (metadata.setDNSResponse (if metadata.destinationAddressMatchFromResponse then
    metadata.dnsResponse else anonymous)).setNamedDNSResponses named

theorem rebind_of_bound (anonymous : Option Msg) (named : String → Option Msg)
    (bound : metadata.destinationAddressMatchFromResponse = true) :
    metadata.rebind anonymous named = metadata.setNamedDNSResponses named := by
  rw [rebind, if_pos bound]
  rfl

theorem rebind_of_unbound (anonymous : Option Msg) (named : String → Option Msg)
    (unbound : metadata.destinationAddressMatchFromResponse = false) :
    metadata.rebind anonymous named =
      (metadata.setNamedDNSResponses named).setDNSResponse anonymous := by
  rw [rebind, if_neg (by simp [unbound])]
  rfl

end InboundContext

/-- The items of a default rule, without the rule-set item. -/
def AbstractDefaultRule.allItems (rule : AbstractDefaultRule) : List RuleItem :=
  rule.items ++ rule.sourceAddressItems ++ rule.sourcePortItems ++ rule.destinationAddressItems ++
    rule.destinationPortItems ++ rule.destinationIPCIDRItems

/-- The items of a rule read the responses as the rule says: none looks for a named response,
and without `match_response` none looks at the anonymous one, except as the destination
addresses. The rules of a rule-set have no `match_response`. -/
structure ReadsBound (rule : AbstractDefaultRule) (item : Option (RuleSetItem (List Rule))) :
    Prop where
  named : ∀ other ∈ rule.allItems, ∀ (metadata : InboundContext) (named : String → Option Msg),
    other (metadata.setNamedDNSResponses named) = other metadata
  anonymous : rule.matchResponse = .disabled → ∀ other ∈ rule.allItems,
    ∀ (metadata : InboundContext) (response : Option Msg),
      metadata.destinationAddressMatchFromResponse = false →
        other (metadata.setDNSResponse response) = other metadata
  headless : ∀ ruleSetItem ∈ item, ∀ rules ∈ ruleSetItem.setList, ∀ child ∈ rules,
    child.Every fun rule _ => rule.matchResponse = .disabled

section Rebind

variable {anonymous : Option Msg} {named : String → Option Msg}

/-- Other responses are a frame for rule matching. -/
theorem frame_rebind : Frame (rebind · anonymous named) :=
  ⟨fun _ _ => rfl, fun _ _ _ => rfl, fun _ => rfl, fun _ => rfl, fun _ => rfl⟩

namespace ReadsBound

variable {rule : AbstractDefaultRule} {item : Option (RuleSetItem (List Rule))}

section

variable (reads : ReadsBound rule item)
  (bound : rule.matchResponse = .disabled ∨ metadata.destinationAddressMatchFromResponse = true)

include reads bound

theorem rebind {other : RuleItem} (member : other ∈ rule.allItems) :
    other (metadata.rebind anonymous named) = other metadata := by
  cases flag : metadata.destinationAddressMatchFromResponse with
  | true =>
    rw [rebind_of_bound _ _ flag]
    exact reads.named other member metadata named
  | false =>
    have unbound := bound.resolve_right (by simp [flag])
    rw [rebind_of_unbound _ _ flag,
      reads.anonymous unbound other member (metadata.setNamedDNSResponses named) _ flag]
    exact reads.named other member metadata named

theorem sameItems : SameItems (InboundContext.rebind · anonymous named) metadata rule := by
  refine ⟨fun other member groups => ?_, fun other member => ?_, fun other member => ?_⟩
  · refine reads.rebind ?_ (by simp [AbstractDefaultRule.allItems, member])
    exact bound
  · refine reads.rebind bound ?_
    simp only [allItems, List.mem_append] at member ⊢
    tauto
  · exact reads.rebind bound (by simp [AbstractDefaultRule.allItems, member])

end

end ReadsBound

namespace Rule

/-- A rule of a rule-set sees no other responses. -/
theorem unseen_rebind (rule : Rule) (reads : rule.Every ReadsBound)
    (unbound : rule.Every fun rule _ => rule.matchResponse = .disabled)
    (metadata : InboundContext) :
    rule.Unseen (rebind · anonymous named) metadata := by
  induction rule using Rule.induction generalizing metadata with
  | default rule item ih =>
    refine .default _ _ _ unbound.here (reads.here.sameItems (.inl unbound.here)) ?_
    intro ruleSetItem same rules listed child inside
    exact ih ruleSetItem same rules listed child inside
      (reads.inSets ruleSetItem same rules listed child inside)
      (unbound.inSets ruleSetItem same rules listed child inside) _
  | logical mode rules invert ih =>
    refine .logical _ _ _ _ fun child member => ?_
    exact ih child member (reads.inRules child member) (unbound.inRules child member) _

/-- A bound response stays when the others change. -/
theorem matchBound_rebind {rule : AbstractDefaultRule} {item : Option (RuleSetItem (List Rule))}
    (reads : (Rule.default rule item).Every ReadsBound) (metadata : InboundContext)
    (response : Option Msg) :
    matchForMatch.matchBound rule (rule.matchOn (item.map toItem))
        (metadata.rebind anonymous named) response =
      ((matchForMatch.matchBound rule (rule.matchOn (item.map toItem)) metadata response).1,
        metadata.rebind anonymous named) := by
  cases response with
  | none => rfl
  | some response =>
    have unmoved : Unmoved (rebind · anonymous named)
        (rule.matchOn (item.map toItem)) (metadata.setResponse (some response)) := by
      refine AbstractDefaultRule.matchOn_unmoved frame_rebind (reads.here.sameItems (.inr rfl)) _ ?_
      rintro _ present ruleSet member outerGroups
      obtain ⟨ruleSetItem, same, rfl⟩ := Option.map_eq_some_iff.mp present
      obtain ⟨rules, listed, rfl⟩ := List.mem_map.mp member
      have unseen (child : Rule) (inside : child ∈ rules) (metadata : InboundContext) :
          child.Unseen (rebind · anonymous named) metadata :=
        child.unseen_rebind (reads.inSets ruleSetItem same rules listed child inside)
          (reads.here.headless ruleSetItem same rules listed child inside) metadata
      refine toRuleSet_unmoved frame_rebind (fun child inside => ?_) fun branch offered => ?_
      · exact child.matchOn_unmoved frame_rebind _ (unseen child inside _)
      · cases unseen _ (mem_of_mergeableRuleIn offered) _ with
        | default _ _ _ _ inside _ => exact inside
    have kept : (metadata.rebind anonymous named).setResponse (some response) =
        (metadata.setResponse (some response)).rebind anonymous named := by
      rfl
    rw [matchForMatch.matchBound, matchForMatch.matchBound, kept]
    rw [unmoved]

theorem matchResponseTagsOf_eq (rules : List Rule) :
    matchResponseTagsOf rules = rules.flatMap matchResponseTags := by
  induction rules with
  | nil => rfl
  | cons rule rest ih => rw [matchResponseTagsOf, ih]; rfl

theorem matchResponseAnonymousOf_eq (rules : List Rule) :
    matchResponseAnonymousOf rules = rules.any matchResponseAnonymous := by
  induction rules with
  | nil => rfl
  | cons rule rest ih => rw [matchResponseAnonymousOf, ih]; rfl

/-- A rule answers the same with other responses that agree on what it binds. -/
theorem matchOn_rebind (rule : Rule) (reads : rule.Every ReadsBound) (metadata : InboundContext)
    (unbound : metadata.destinationAddressMatchFromResponse = false)
    (sameAnonymous : rule.matchResponseAnonymous = true → metadata.dnsResponse = anonymous)
    (sameNamed : ∀ tag ∈ rule.matchResponseTags, metadata.namedDNSResponses tag = named tag) :
    Unmoved (rebind · anonymous named) rule.matchOn metadata := by
  induction rule using Rule.induction generalizing metadata with
  | default rule item ih =>
    have response : (metadata.rebind anonymous named).dnsResponse = anonymous := by
      rw [rebind_of_unbound _ _ unbound]
      rfl
    cases bound : rule.matchResponse with
    | disabled =>
      refine matchOn_unmoved frame_rebind _ _ (.default _ _ _ bound
        (reads.here.sameItems (.inl bound)) ?_)
      intro ruleSetItem same rules listed child inside
      exact child.unseen_rebind (reads.inSets ruleSetItem same rules listed child inside)
        (reads.here.headless ruleSetItem same rules listed child inside) _
    | anonymous =>
      have same := sameAnonymous (by simp [matchResponseAnonymous, bound])
      simp only [Unmoved, matchOn_default, matchForMatch, bound]
      rw [response, same, matchBound_rebind reads]
      cases anonymous <;> rfl
    | tagged tag =>
      have same : metadata.namedDNSResponses tag =
        (metadata.rebind anonymous named).namedDNSResponses tag :=
          sameNamed tag (by simp [matchResponseTags, bound])
      simp only [Unmoved, matchOn_default, matchForMatch, bound]
      rw [← same, matchBound_rebind reads]
      cases metadata.namedDNSResponses tag <;> rfl
  | logical mode rules invert ih =>
    rw [matchOn_logical]
    refine logicalMatchOn_unmoved frame_rebind mode invert fun child member => ?_
    obtain ⟨rule, listed, rfl⟩ := List.mem_map.mp (Loop.mem_of_mem_reached member)
    refine ih rule listed (reads.inRules rule listed) _ unbound ?_ ?_
    · intro bound
      refine sameAnonymous ?_
      rw [matchResponseAnonymous, matchResponseAnonymousOf_eq]
      exact List.any_eq_true.mpr ⟨rule, listed, bound⟩
    · intro tag bound
      refine sameNamed tag ?_
      rw [matchResponseTags, matchResponseTagsOf_eq]
      exact List.mem_eraseDups.mpr (List.mem_flatMap.mpr ⟨rule, listed, bound⟩)

end Rule

end Rebind

/-- In a walk, a rule answers the same with other responses that agree on what it binds. -/
theorem DNSRule.matchOn_congr (rule : DNSRule) (reads : rule.rule.Every ReadsBound)
    (router : WalkContext) {anonymous anonymous' : Option Msg} {named named' : String → Option Msg}
    (sameAnonymous : rule.matchResponseAnonymous = true → anonymous = anonymous')
    (sameNamed : ∀ tag ∈ rule.matchResponseTags, named tag = named' tag) :
    (rule.rule.matchOn (router.matchMetadata anonymous named)).1 =
      (rule.rule.matchOn (router.matchMetadata anonymous' named')).1 := by
  have unmoved := rule.rule.matchOn_rebind reads (router.matchMetadata anonymous named) rfl
    sameAnonymous sameNamed
  exact (congrArg Prod.fst unmoved).symm

/-! ### Accepted lists -/

/-- A list of rules that the checks accept. The checks on response fields say that the items
read what their rule binds. -/
structure Accepted (rules : List DNSRule) : Prop where
  built : ∀ rule ∈ rules, newDNSRule rule = .ok ()
  validated : ∃ seen, validateLegacyDNSModeDisabledRules rules = .ok seen
  reads : ∀ rule ∈ rules, rule.rule.Every ReadsBound

namespace Accepted

variable {rules : List DNSRule}

theorem tagsUsed (accepted : Accepted rules) (listed : rules[index]? = some rule) :
    TagsUsed ((rules.take index).filterMap DNSRule.evaluateTag) rule := by
  obtain ⟨seen, validated⟩ := accepted.validated
  simpa using validateRules_ok validated index rule listed

variable {other : DNSRule}

section

variable (accepted : Accepted rules) {first second : Nat} (listed : rules[first]? = some rule)
  (listed' : rules[second]? = some other)

include accepted listed listed'

/-- No two rules define one tag. -/
theorem evaluateTag_ne (before : first < second) (defines : rule.evaluateTag = some tag) :
    other.evaluateTag ≠ some tag := by
  intro again
  refine (accepted.tagsUsed listed').fresh tag again (List.mem_filterMap.mpr ⟨rule, ?_, defines⟩)
  exact List.mem_of_getElem? (by rw [List.getElem?_take_of_lt before]; exact listed)

/-- A tag that a rule binds is not defined by the rule or later. -/
theorem evaluateTag_ne_of_bound (before : first ≤ second) (bound : tag ∈ rule.matchResponseTags) :
    other.evaluateTag ≠ some tag := by
  intro again
  refine (accepted.tagsUsed listed').fresh tag again ?_
  have member := (accepted.tagsUsed listed).defined tag bound
  obtain ⟨definer, inside, defines⟩ := List.mem_filterMap.mp member
  refine List.mem_filterMap.mpr ⟨definer, ?_, defines⟩
  exact (List.take_sublist_take_left before).mem inside

end

section

variable (accepted : Accepted rules) (listed : rules[index]? = some rule)
  (responds : rule.action = .respond) (untagged : rule.matchResponseTag = none)

include accepted listed responds untagged

theorem respond_unbound : rule.matchResponseTags = [] :=
  (accepted.tagsUsed listed).respond responds untagged

/-- A respond action without a tag binds the anonymous response, if it binds anything. -/
theorem respond_anonymous (binds : rule.hasBindings = true) :
    rule.matchResponseAnonymous = true := by
  simpa [DNSRule.hasBindings, accepted.respond_unbound listed responds untagged] using binds

end

/-- A race rule ends the walk, and not with a speculative query. -/
theorem race (accepted : Accepted rules) (listed : rule ∈ rules) (races : rule.race = true) :
    rule.action.isFinal = true ∧ rule.action.routeSpeculative = false ∧
      rule.hasBindings = true := by
  have built := accepted.built rule listed
  unfold newDNSRule validateDNSRuleAction at built
  grind

end Accepted

end SingBox
