/-
This file follows the datagrams of a UDP connection through sniffing. A sniff
action first looks at the datagrams that earlier actions have read, then reads
more; each datagram it reads gets a packet buffer, and every packet buffer is
wrapped around the connection when it is handed over.

An action that goes on to read returns the datagrams that were held before it
together with its own, and the walk appends them to those it holds. A datagram
held before such an action is then held twice. A wrapped packet buffer goes back to
its pool and is cleared, so the second wrapper gets a cleared one; what the library
makes of that is a parameter. The walk hands every datagram over exactly once if and
only if no sniff action gets past the datagrams it finds.
-/

import SingBox.RouteMatch
import Mathlib

namespace SingBox

open List

/-! ### Packet connections -/

/-- What a read of the client's packet connection meets next: a datagram, the read deadline,
another error, or the cancellation of the context while it waits. A client that sends nothing
more lets reads run into the deadline. -/
inductive PacketEvent where
  | packet (bytes : List UInt8) (destination : Socksaddr)
  | timeout
  | readErr (text : String)
  | cancelled (text : String)

abbrev Datagram := List UInt8 × Socksaddr

def PacketEvent.datagram? : PacketEvent → Option Datagram
  | .packet bytes destination => some (bytes, destination)
  | .timeout | .readErr _ | .cancelled _ => none

def sentDatagrams (client : List PacketEvent) : List Datagram :=
  client.filterMap PacketEvent.datagram?

/-- An `N.PacketBuffer`. Every buffer is allocated for one read; `allocation` counts the
reads that returned a datagram and tells buffers with the same content apart. -/
structure PacketBuffer where
  allocation : Nat
  bytes : List UInt8
  destination : Socksaddr

def PacketBuffer.datagram (buffer : PacketBuffer) : Datagram := (buffer.bytes, buffer.destination)

/-- The packet connection of the walk, with the packet buffers read from it. -/
structure PacketInput where
  conn : List PacketEvent
  allocated : Nat := 0
  packetBuffers : List PacketBuffer := []

/-! ### The sniff action on packets -/

/-- The closure `quicMoreData` of `actionSniff`. -/
def quicMoreData (action : RuleActionSniff) (metadata : InboundContext) : Bool :=
  metadata.snifferNames = action.snifferNames && isNeedMoreData metadata.sniffError

/-- One call of `PeekPacket` in `actionSniff`, with the assignments that follow it. -/
def peekPacket (router : Router) (action : RuleActionSniff) (metadata : InboundContext)
    (bytes : List UInt8) : Option SniffError × InboundContext :=
  let packetSniffers :=
    if quicMoreData action metadata then [router.quicClientHello]
    else if action.packetSniffers.isEmpty then router.defaultPacketSniffers
    else action.packetSniffers
  let peek := sniffWith bytes none packetSniffers metadata
  (peek.1, setSniffed peek.2 action peek.1)

/-- The loop over the datagrams that are already held. It ends with the result of the first
peek that does not want more data, or without a result. -/
def peekHeld (router : Router) (action : RuleActionSniff) :
    List PacketBuffer → InboundContext → Option (Option SniffError) × InboundContext
  | [], metadata => (none, metadata)
  | buffer :: rest, metadata =>
    let peek := peekPacket router action metadata buffer.bytes
    if isNeedMoreData peek.1 then peekHeld router action rest peek.2 else (some peek.1, peek.2)

/-- What the read loop of `actionSniff` leaves. -/
structure PacketPeek where
  metadata : InboundContext
  input : PacketInput
  sniffed : Bool := false
  fatalErr : Option String := none

/-- The read loop of `actionSniff`. -/
def readPackets (router : Router) (action : RuleActionSniff) (metadata : InboundContext)
    (allocated : Nat) (packetBuffers : List PacketBuffer) : List PacketEvent → PacketPeek
  | [] =>
    { metadata := metadata
      input := { conn := [], allocated := allocated, packetBuffers := packetBuffers } }
  | .timeout :: client =>
    { metadata := metadata
      input := { conn := client, allocated := allocated, packetBuffers := packetBuffers } }
  | .readErr text :: client | .cancelled text :: client =>
    { metadata := metadata
      input := { conn := client, allocated := allocated, packetBuffers := packetBuffers }
      fatalErr := some text }
  | .packet bytes destination :: client =>
    let peek := peekPacket router action metadata bytes
    let packetBuffers := packetBuffers ++
      [{ allocation := allocated, bytes := bytes, destination := destination }]
    if isNeedMoreData peek.1 then
      readPackets router action peek.2 (allocated + 1) packetBuffers client
    else
      { metadata := peek.2
        input := { conn := client, allocated := allocated + 1, packetBuffers := packetBuffers }
        sniffed := peek.1.isNone }

/-- `Router.actionSniff` for packets, with the append of `matchRule`. An action that is done
with the datagrams it finds returns none. One that reads returns those it found as well, and
they are appended to themselves. -/
def actionSniffPacket (router : Router) : SniffAction PacketInput := fun action metadata input =>
  if sniffSkipped action action.packetSniffers action.streamSniffers metadata then
    { metadata := metadata, held := input }
  else
    match peekHeld router action input.packetBuffers metadata with
    | (some err, metadata) =>
      { metadata := if err.isNone then overrideDestination metadata action else metadata
        held := input }
    | (none, metadata) =>
      let peek := readPackets router action metadata input.allocated input.packetBuffers input.conn
      { metadata := if peek.sniffed then overrideDestination peek.metadata action
          else peek.metadata
        held := { peek.input with
          packetBuffers := input.packetBuffers ++ peek.input.packetBuffers }
        fatalErr := peek.fatalErr }

/-! ### Handing the packet connection over -/

/-- A packet connection; DNS hijacking gets the datagrams that were read beside it. -/
inductive PacketConn where
  | client (events : List PacketEvent)
  | cached (conn : PacketConn) (buffer : PacketBuffer)
  | beside (conn : PacketConn) (packetBuffers : List PacketBuffer)

/-- The datagrams read from a packet connection. A cached packet connection yields the
datagram of its buffer once, then those of the connection it wraps. -/
def PacketConn.datagrams : PacketConn → List Datagram
  | .client events => sentDatagrams events
  | .cached conn buffer => buffer.datagram :: conn.datagrams
  | .beside conn packetBuffers => packetBuffers.map PacketBuffer.datagram ++ conn.datagrams

/-- A packet connection as it is handed over, none if a wrapper of it panics, and the packet buffers
that were wrapped and put back into their pool. -/
structure WrappedConn where
  conn : Option PacketConn
  wraps : List Nat := []

/-- `NewCachedPacketConn` on a buffer that `PutPacketBuffer` has cleared: a connection, or a
panic. -/
abbrev WrapCleared := PacketConn → Option PacketConn

variable (wrapCleared : WrapCleared)

/-- One turn of the loop of `routePacketConnection` over the packet buffers: `NewCachedPacketConn`
and `PutPacketBuffer`, which clears the buffer. -/
def wrapPacketBuffer (wrapped : WrappedConn) (buffer : PacketBuffer) : WrappedConn :=
  match wrapped.conn with
  | none => wrapped
  | some conn =>
    { conn := if buffer.allocation ∈ wrapped.wraps then wrapCleared conn
        else some (.cached conn buffer)
      wraps := wrapped.wraps ++ [buffer.allocation] }

def wrapPacketBuffers (conn : PacketConn) (packetBuffers : List PacketBuffer) : WrappedConn :=
  packetBuffers.foldl (wrapPacketBuffer wrapCleared) { conn := some conn }

/-- The walk that `routePacketConnection` makes, after some of its steps. -/
def packetWalk (router : Router) (metadata : InboundContext) (client : List PacketEvent) :
    Nat → MatchState PacketInput :=
  matchWalk router (actionSniffPacket router) (metadata.setNetwork .udp) { conn := client }

/-- `Router.routePacketConnection`. -/
def routePacketConnection (router : Router) (metadata : InboundContext)
    (client : List PacketEvent) : Routed WrappedConn :=
  if metadata.inboundDetour ≠ "" then
    routeDetour router Prod.snd "UDP" metadata { conn := some (.client client) }
  else if metadata.inboundType = "tun" ∧ metadata.protocol = "dns" then
    .hijackDNS { conn := some (.client client) }
  else
    let state := packetWalk router metadata client router.rules.length
    routeSelected router .udp "UDP" "UDP is not supported by outbound: " state.status
      (wrapPacketBuffers wrapCleared (.client state.held.conn) state.held.packetBuffers)
      { conn := some (.beside (.client state.held.conn) state.held.packetBuffers) }

/-- Every datagram of the client is read from the packet connection exactly once, and every
packet buffer was wrapped and put back once only. -/
structure ReadsOnce (wrapped : WrappedConn) (client : List PacketEvent) : Prop where
  datagrams : ∃ conn, wrapped.conn = some conn ∧ conn.datagrams.Perm (sentDatagrams client)
  wraps : wrapped.wraps.Nodup

section

variable {wrapCleared}

/-- Buffers that are all different, and not wrapped yet, are wrapped one around the other. -/
theorem foldl_wrapPacketBuffer (conn : PacketConn) (wraps : List Nat)
    {packetBuffers : List PacketBuffer}
    (distinct : (wraps ++ packetBuffers.map PacketBuffer.allocation).Nodup) :
    ∃ handed, packetBuffers.foldl (wrapPacketBuffer wrapCleared) ⟨some conn, wraps⟩ =
        ⟨some handed, wraps ++ packetBuffers.map PacketBuffer.allocation⟩ ∧
      handed.datagrams =
        (packetBuffers.map PacketBuffer.datagram).reverse ++ conn.datagrams := by
  induction packetBuffers generalizing conn wraps with
  | nil => exact ⟨conn, by rw [foldl_nil, map_nil, append_nil], rfl⟩
  | cons buffer rest ih =>
    rw [map_cons, append_cons] at distinct
    have fresh : buffer.allocation ∉ wraps := by
      have first := (nodup_append.mp distinct).1
      exact fun member => (nodup_append.mp first).2.2 _ member _ (mem_singleton.mpr rfl) rfl
    obtain ⟨handed, folded, read⟩ := ih (.cached conn buffer) _ distinct
    refine ⟨handed, ?_, ?_⟩
    · rw [foldl_cons, wrapPacketBuffer]
      dsimp only
      rw [if_neg fresh, folded, map_cons, append_assoc, singleton_append]
    · rw [read, PacketConn.datagrams, map_cons, reverse_cons, append_assoc, singleton_append]

/-- As long as nothing panics, every buffer in the list is wrapped. -/
theorem wraps_foldl_wrapPacketBuffer {wrapped : WrappedConn} {packetBuffers : List PacketBuffer}
    (handed : (packetBuffers.foldl (wrapPacketBuffer wrapCleared) wrapped).conn.isSome) :
    (packetBuffers.foldl (wrapPacketBuffer wrapCleared) wrapped).wraps =
      wrapped.wraps ++ packetBuffers.map PacketBuffer.allocation := by
  induction packetBuffers generalizing wrapped with
  | nil => rw [foldl_nil, map_nil, append_nil]
  | cons buffer rest ih =>
    rw [foldl_cons] at handed ⊢
    cases conn : wrapped.conn with
    | none =>
      have stays : ∀ buffers : List PacketBuffer,
          buffers.foldl (wrapPacketBuffer wrapCleared) wrapped = wrapped := by
        intro buffers
        induction buffers with
        | nil => rfl
        | cons next later still => rw [foldl_cons, wrapPacketBuffer, conn, still]
      rw [wrapPacketBuffer, conn, stays, conn] at handed
      exact nomatch handed
    | some conn =>
      rw [ih handed, map_cons, append_cons]
      rw [wrapPacketBuffer, ‹wrapped.conn = _›]

end

/-! ### Datagrams are kept in order -/

/-- What a walk holds is what it has read, in order, each datagram in a buffer of its own. -/
structure InOrder (client : List PacketEvent) (input : PacketInput) : Prop where
  allocations : input.packetBuffers.map PacketBuffer.allocation = List.range input.allocated
  datagrams : input.packetBuffers.map PacketBuffer.datagram ++ sentDatagrams input.conn =
    sentDatagrams client

section

variable {client : List PacketEvent} (router : Router) (action : RuleActionSniff)
  (metadata : InboundContext) (input : PacketInput) (order : InOrder client input)

include order

theorem InOrder.readPackets :
    InOrder client (readPackets router action metadata input.allocated input.packetBuffers
      input.conn).input := by
  obtain ⟨conn, allocated, packetBuffers⟩ := input
  induction conn generalizing metadata allocated packetBuffers with
  | nil => exact order
  | cons event rest ih =>
    cases event with
    | timeout | readErr text | cancelled text => exact ⟨order.allocations, order.datagrams⟩
    | packet bytes destination =>
      have next : InOrder client
          { conn := rest, allocated := allocated + 1, packetBuffers := packetBuffers ++
            [{ allocation := allocated, bytes, destination }] } := by
        constructor
        · rw [map_append, order.allocations, range_succ]
          rfl
        · rw [← order.datagrams, map_append, append_assoc]
          rfl
      rw [SingBox.readPackets]
      split
      · exact ih _ _ _ next
      · exact next

/-- A sniff action finds no datagrams, or does not get to look at them, or is done with one
of them. -/
def Settled (router : Router) (action : RuleActionSniff) (metadata : InboundContext)
    (input : PacketInput) : Prop :=
  input.packetBuffers = [] ∨
    sniffSkipped action action.packetSniffers action.streamSniffers metadata = true ∨
    (peekHeld router action input.packetBuffers metadata).1.isSome = true

theorem InOrder.actionSniffPacket (settled : Settled router action metadata input) :
    InOrder client (actionSniffPacket router action metadata input).held := by
  rw [SingBox.actionSniffPacket]
  split
  · exact order
  rename_i runs
  split
  · exact order
  rename_i current peeked
  have empty : input.packetBuffers = [] := by
    rcases settled with none | skipped | done
    · exact none
    · exact absurd skipped runs
    · rw [peeked] at done
      cases done
  have read := order.readPackets router action current
  dsimp only
  rw [empty] at read ⊢
  exact read

end

/-! ### Datagrams held twice -/

/-- The buffers that a walk holds are all different. -/
def Distinct (input : PacketInput) : Prop :=
  (input.packetBuffers.map PacketBuffer.allocation).Nodup

variable {input : PacketInput} {metadata : InboundContext}

theorem InOrder.distinct {client : List PacketEvent} (order : InOrder client input) :
    Distinct input := by
  rw [Distinct, order.allocations]
  exact nodup_range

section

variable (router : Router) (action : RuleActionSniff) (metadata : InboundContext)

theorem isPrefix_readPackets (allocated : Nat) (packetBuffers : List PacketBuffer)
    (client : List PacketEvent) : packetBuffers <+:
      (readPackets router action metadata allocated packetBuffers client).input.packetBuffers := by
  induction client generalizing metadata allocated packetBuffers with
  | nil => exact prefix_rfl
  | cons event rest ih =>
    cases event with
    | timeout | readErr text | cancelled text => exact prefix_rfl
    | packet bytes destination =>
      rw [readPackets]
      split
      · exact (prefix_append _ _).trans (ih _ _ _)
      · exact prefix_append _ _

/-- A sniff action never lets go of a datagram. -/
theorem isPrefix_actionSniffPacket (input : PacketInput) : input.packetBuffers <+:
      (actionSniffPacket router action metadata input).held.packetBuffers := by
  rw [actionSniffPacket]
  split
  · exact prefix_rfl
  split
  · exact prefix_rfl
  · exact prefix_append _ _

theorem not_distinct_actionSniffPacket (input : PacketInput) (twice : ¬Distinct input) :
    ¬Distinct (actionSniffPacket router action metadata input).held := fun distinct =>
  twice (distinct.sublist ((isPrefix_actionSniffPacket router action metadata input).sublist.map _))

end

/-- An action that gets past the datagrams it finds makes the walk hold them twice. -/
theorem not_distinct_of_not_settled {router : Router} {action : RuleActionSniff}
    (unsettled : ¬Settled router action metadata input) :
    ¬Distinct (actionSniffPacket router action metadata input).held := by
  rw [Settled, not_or, not_or] at unsettled
  obtain ⟨some, runs, past⟩ := unsettled
  rw [actionSniffPacket, if_neg runs]
  split
  next peeked =>
    rw [peeked] at past
    exact absurd rfl past
  rename_i current _
  obtain ⟨buffer, found⟩ := exists_mem_of_ne_nil _ some
  have again := (isPrefix_readPackets router action current input.allocated input.packetBuffers
    input.conn).subset found
  rw [Distinct, map_append, nodup_append]
  intro distinct
  exact distinct.2.2 _ (mem_map_of_mem found) _ (mem_map_of_mem again) rfl

/-- The buffers are all different at the end of the walk exactly if no sniff action gets past
the datagrams it finds. -/
theorem settled_of_distinct {router : Router} {client : List PacketEvent}
    (distinct : Distinct (packetWalk router metadata client router.rules.length).held)
    (count : Nat) :
    SniffsUnder router (Settled router) (packetWalk router metadata client count) := by
  intro action current runs
  by_contra unsettled
  have inside : count + 1 ≤ router.rules.length := by
    by_contra outside
    cases (sniffing_matchWalk_of_le (by omega)).symm.trans runs
  have twice : ¬Distinct (packetWalk router metadata client (count + 1)).held := by
    have step : (packetWalk router metadata client (count + 1)).held = _ :=
      held_matchStep_of_sniffing runs
    rw [step]
    exact not_distinct_of_not_settled unsettled
  obtain ⟨more, total⟩ := Nat.exists_eq_add_of_le inside
  refine absurd distinct ?_
  rw [total, packetWalk, matchWalk, Machine.run_add]
  exact held_run (fun input => ¬Distinct input)
    (fun action metadata held twice (_ : True) =>
      not_distinct_actionSniffPacket router action metadata held twice) twice
    (fun _ _ _ _ => trivial) more

theorem inOrder_packetWalk {router : Router} {client : List PacketEvent}
    (settled : ∀ count, SniffsUnder router (Settled router) (packetWalk router metadata client
      count)) (count : Nat) : InOrder client (packetWalk router metadata client count).held :=
  held_matchWalk (InOrder client) (InOrder.actionSniffPacket router) ⟨rfl, rfl⟩ settled count

/-- Sniffing a UDP connection is transparent exactly if every sniff action that looks at
datagrams held from earlier actions is done with one of them. The packet connection handed to
the outbound then yields each datagram of the client once and wraps each packet buffer once;
otherwise a packet buffer is wrapped again after it was cleared. -/
theorem routePacketConnection_readsOnce_iff (router : Router) (metadata : InboundContext)
    (client : List PacketEvent) (tag : String) (wrapped : WrappedConn)
    (routed : routePacketConnection wrapCleared router metadata client = .outbound tag wrapped) :
    ReadsOnce wrapped client ↔
      ∀ count, SniffsUnder router (Settled router) (packetWalk router metadata client count) := by
  rw [routePacketConnection] at routed
  split at routed
  · exact absurd (congrArg (Routed.HandsOver · wrapped) routed) fun handing =>
      not_handsOver_routeDetour (handing.mpr rfl)
  split at routed
  · cases routed
  rw [← conn_of_routeSelected_eq_outbound routed]
  constructor
  · rintro ⟨⟨conn, handed, -⟩, distinct⟩
    rw [wrapPacketBuffers, wraps_foldl_wrapPacketBuffer (Option.isSome_iff_exists.mpr
      ⟨conn, handed⟩), nil_append] at distinct
    exact settled_of_distinct distinct
  · intro settled
    have order := inOrder_packetWalk settled router.rules.length
    obtain ⟨handed, folded, read⟩ := @foldl_wrapPacketBuffer wrapCleared
      (.client (packetWalk router metadata client router.rules.length).held.conn) [] _
      order.distinct
    rw [wrapPacketBuffers, folded]
    refine ⟨⟨handed, rfl, ?_⟩, order.distinct⟩
    rw [read, PacketConn.datagrams, ← order.datagrams]
    exact (reverse_perm _).append_right _

/-! ### A datagram that the second sniff action finds incomplete -/

namespace SplitHello

open Sample

/-- The QUIC sniffer on the first part of a ClientHello. -/
def incomplete : Sniffer := fun _ metadata =>
  (some [.needMoreData], { metadata with protocol := "quic" })

def sniffDNS : RouteRuleAction :=
  .sniff { snifferNames := ["dns"], packetSniffers := [unrecognised] }

def sniffQUIC : RouteRuleAction :=
  .sniff { snifferNames := ["quic"], packetSniffers := [incomplete] }

/-- A client that sends one datagram. -/
def client : List PacketEvent := [.packet [1] {}]

end SplitHello

open Sample SplitHello in
/-- The DNS sniffer does not recognise the datagram, the QUIC sniffer wants more data and gets
none: its buffer is wrapped, put back and cleared, and then wrapped and put back again. -/
theorem routePacketConnection_duplicates :
    let rules := [always sniffDNS, always sniffQUIC, always (.route "out" {})]
    let first : PacketConn := .cached (.client []) ⟨0, [1], {}⟩
    sentDatagrams client = [([1], {})] ∧ ∀ wrapCleared : WrapCleared,
      routePacketConnection wrapCleared (router rules) {} client =
          .outbound "out" ⟨wrapCleared first, [0, 0]⟩ ∧
        ¬ReadsOnce ⟨wrapCleared first, [0, 0]⟩ client :=
  ⟨by decide, fun _ => ⟨rfl, fun once => absurd once.wraps (show ¬[0, 0].Nodup by decide)⟩⟩

open Sample SplitHello in
theorem routePacketConnection_readsOnce_iff_oneSniff :
    let rules := [always sniffQUIC, always (.route "out" {})]
    let wrapped : WrappedConn := ⟨some (.cached (.client []) ⟨0, [1], {}⟩), [0]⟩
    ReadsOnce wrapped client ↔ ∀ count, SniffsUnder (router rules) (Settled (router rules))
      (packetWalk (router rules) {} client count) :=
  routePacketConnection_readsOnce_iff (fun _ => none) (router [always sniffQUIC,
    always (.route "out" {})]) {} client "out" _ rfl

end SingBox
