/-
This file is about the choice of a URL test group: a scan over its members that keeps the
current selection unless a member is faster by more than the tolerance. The sum of a delay and
the tolerance has 16 bits, and a delay of zero stands for no delay yet, so the choice is right
exactly as long as neither plays a part.
-/

import SingBox.InboundContext
import Mathlib

namespace SingBox.UrlTest

open List

/-- An outbound, as far as the choice looks at it. -/
structure Outbound where
  tag : String
  network : List Network
deriving DecidableEq

/-- A group, with the delay that the history has for the real tag of an outbound. -/
structure URLTestGroup where
  outbounds : List Outbound
  tolerance : UInt16
  history : Outbound → Option UInt16
  selectedOutboundTCP : Option Outbound := none
  selectedOutboundUDP : Option Outbound := none

namespace URLTestGroup

variable (group : URLTestGroup) (network : Network)

def selectedOutbound : Network → Option Outbound
  | .tcp => group.selectedOutboundTCP
  | .udp => group.selectedOutboundUDP
  | .icmp => none

variable {group}

/-- The delay of the scan is that of its outbound, unless there is none yet. -/
def Known (group : URLTestGroup) (least : UInt16 × Option Outbound) : Prop :=
  least = (0, none) ∨ ∃ outbound, least.2 = some outbound ∧ group.history outbound = some least.1

end URLTestGroup

end SingBox.UrlTest
