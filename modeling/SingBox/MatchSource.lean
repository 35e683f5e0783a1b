/-
This file is about `rule_set_ip_cidr_match_source`, which makes the `ip_cidr`
items of a referenced rule-set match the source address. The option travels as a
flag in the metadata. A default rule of the rule-set reads it; a logical rule
clears it with the rest of the rule cache before it matches its children, so the
`ip_cidr` items below a logical rule still match the destination.

Changing the destination addresses is a frame for rule matching, so a rule-set
item sees the change only through the `ip_cidr` items of a default rule below a
logical rule, and only if the loops reach that rule.
-/

import SingBox.RuleFrame
import SingBox.RuleVerdict

namespace SingBox

open List Loop Rule InboundContext

/-- The metadata with other destination addresses. -/
def InboundContext.setDestinationIP (metadata : InboundContext) (addr : Addr)
    (addresses : List Addr) : InboundContext :=
  { metadata with
    destination := { metadata.destination with addr := addr }
    destinationAddresses := addresses }

/-- An item that does not read the destination addresses. -/
def DestinationBlind (item : RuleItem) : Prop :=
  ∀ metadata addr addresses, item (metadata.setDestinationIP addr addresses) = item metadata

/-- What the rules of a rule-set promise: they reference no rule-set and bind no response,
their `ip_cidr` items are `IPCIDRItem`s, and their other items do not read the destination
addresses. -/
structure HeadlessTree (rule : AbstractDefaultRule) (item : Option (RuleSetItem (List Rule))) :
    Prop where
  alone : item = none
  unbound : rule.matchResponse = .disabled
  cidr : ∀ other ∈ rule.destinationIPCIDRItems, IsIPCIDRItem other
  blind : ∀ other ∈ rule.items ++ rule.sourceAddressItems ++ rule.sourcePortItems ++
    rule.destinationAddressItems ++ rule.destinationPortItems, DestinationBlind other

/-- Other destination addresses are a frame for rule matching. -/
theorem frame_setDestinationIP (addr : Addr) (addresses : List Addr) :
    Frame (setDestinationIP · addr addresses) :=
  ⟨fun _ _ => rfl, fun _ _ _ => rfl, fun _ => rfl, fun _ => rfl, fun _ => rfl⟩

variable {addr : Addr} {addresses : List Addr}

variable {item : Option (RuleSetItem (List Rule))} {metadata : InboundContext}
  {rule : AbstractDefaultRule}

/-- Under the flag the items of a headless rule read the source address only. -/
theorem HeadlessTree.sameItems (headless : HeadlessTree rule item)
    (source : metadata.ipCIDRMatchSource = true) :
    SameItems (setDestinationIP · addr addresses) metadata rule := by
  refine ⟨fun other member groups => ?_, fun other member => ?_, fun other member => ?_⟩
  · exact headless.blind other (by simp [member]) _ addr addresses
  · refine headless.blind other ?_ _ addr addresses
    simp only [mem_append] at member ⊢
    tauto
  · obtain ⟨cidr, rfl⟩ := headless.cidr other member
    have moved : (metadata.setDestinationIP addr addresses).ipCIDRMatchSource = true := source
    simp only [IPCIDRItem.matchOn, source, moved, Bool.or_true, if_true]
    rfl

theorem HeadlessTree.matchOn_eq (headless : HeadlessTree rule item) :
    (Rule.default rule item).matchOn = rule.matchOn none := by
  funext metadata
  rw [matchOn_default, matchForMatch, headless.unbound, headless.alone]
  rfl

/-- No default rule that is reached and whose plain items match has groups that hold for one of the
two destinations only. The groups of a headless rule see the destination through `ip_cidr`. -/
inductive Rule.SameGroups (addr : Addr) (addresses : List Addr) :
    Rule → InboundContext → Prop where
  | default (rule : AbstractDefaultRule) (item : Option (RuleSetItem (List Rule)))
      (metadata : InboundContext)
      (same : matchAllItems rule.items (rule.evaluateGroups metadata).2 = true →
        rule.groupsHold (metadata.setDestinationIP addr addresses) = rule.groupsHold metadata) :
      SameGroups addr addresses (.default rule item) metadata
  | logical (mode : LogicalMode) (rules : List Rule) (invert : Bool) (metadata : InboundContext)
      (below : ∀ child ∈ reached
        (fun child => mode.leaves (child.matchOn metadata.resetRuleCache)) rules,
        SameGroups addr addresses child metadata.resetRuleCache) :
      SameGroups addr addresses (.logical mode rules invert) metadata

theorem Rule.SameGroups.unmoved (rule : Rule) (headless : rule.Every HeadlessTree)
    (metadata : InboundContext) (same : rule.SameGroups addr addresses metadata) :
    Unmoved (setDestinationIP · addr addresses) rule.matchOn metadata := by
  have frame := frame_setDestinationIP addr addresses
  induction rule using induction generalizing metadata with
  | default rule item ih =>
    cases same with
    | default _ _ _ same =>
      rw [headless.here.matchOn_eq]
      refine AbstractDefaultRule.matchOn_none_unmoved frame ?_ same
      exact @matchAllItems_unmoved (setDestinationIP · addr addresses) _ _ fun other member =>
        headless.here.blind other (by simp [member]) _ addr addresses
  | logical mode rules invert ih =>
    cases same with
    | logical _ _ _ _ below =>
      rw [matchOn_logical]
      refine logicalMatchOn_unmoved frame mode invert fun child member => ?_
      rw [reached_map] at member
      obtain ⟨rule, listed, rfl⟩ := mem_map.mp member
      have inside := mem_of_mem_reached listed
      exact ih rule inside (headless.inRules rule inside) _ (below rule listed)

namespace RuleSetItem

variable (item : RuleSetItem (List Rule))

section

variable {item} (source : item.ipCIDRMatchSource = true) {rules : List Rule}
  (headless : ∀ rule ∈ rules, rule.Every HeadlessTree)

include source headless

end

end RuleSetItem

end SingBox
