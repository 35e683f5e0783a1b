/-
This file follows the bytes of a TCP connection through sniffing. Each sniff
action reads into a buffer of its own, and when the connection is handed over the
buffers are put back in front of it one after the other.

The walk keeps the bytes in order: the buffers in the order of their reads, then
what is left of the connection, is always what the client sent. Putting the
buffers back in that order, however, lets the last one be read first, so the
connection that is handed over starts with its latest bytes as soon as two sniff
actions have read something. A connection read by one sniff action only is
handed over as it was.
-/

import SingBox.RouteMatch

namespace SingBox

open List

/-! ### Connections -/

/-- One `Read` of a connection: the bytes it returns, and its error. A read that returns
nothing returns an error. -/
structure Chunk where
  bytes : List UInt8
  err : Option String := none
  progress : bytes ≠ [] ∨ err.isSome

/-- What a call on the client's connection meets next. Once the client is silent for good,
reads report the end of the stream. -/
inductive ConnEvent where
  | read (chunk : Chunk)
  | deadlineErr (text : String)

def ConnEvent.bytes : ConnEvent → List UInt8
  | .read chunk => chunk.bytes
  | .deadlineErr _ => []

def sentBytes (client : List ConnEvent) : List UInt8 := client.flatMap ConnEvent.bytes

/-- What is left of a read that did not fit. -/
def Chunk.rest (chunk : Chunk) (room : Nat) (more : room < chunk.bytes.length) : Chunk where
  bytes := chunk.bytes.drop room
  err := chunk.err
  progress := .inl (by rw [ne_eq, List.drop_eq_nil_iff]; omega)

/-! ### Peeking at a stream -/

/-- What `PeekStream` leaves. -/
structure StreamPeek where
  err : Option SniffError
  metadata : InboundContext
  conn : List ConnEvent
  buffer : List UInt8

/-- The exits of `PeekStream` on a failed read. -/
def readPayloadErr (first : Bool) (sniffError : Option SniffError) (text : String) :
    Option SniffError :=
  if first then some [.other ("read payload: " ++ text)] else sniffError

/-- The loop of `PeekStream`: `buffers` are the bytes held from earlier actions, `buffer` the
one this action reads into, `first` tells whether this is the first iteration. -/
def peekStreamLoop (packetSize : Nat) (sniffers : List Sniffer) (buffers : List (List UInt8))
    (first : Bool) (sniffError : Option SniffError) (metadata : InboundContext)
    (buffer : List UInt8) : List ConnEvent → StreamPeek
  | [] =>
    { err := readPayloadErr first sniffError "EOF"
      metadata := metadata, conn := [], buffer := buffer }
  | .deadlineErr text :: client =>
    { err := some [.other ("set read deadline: " ++ text)]
      metadata := metadata, conn := client, buffer := buffer }
  | .read chunk :: client =>
    if packetSize ≤ buffer.length then
      { err := readPayloadErr first sniffError "short buffer"
        metadata := metadata, conn := .read chunk :: client, buffer := buffer }
    else if more : packetSize - buffer.length < chunk.bytes.length then
      -- The buffer is full now. If more data is needed, the next read fails for want of room
      -- and the error of this round stands.
      let room := packetSize - buffer.length
      let buffer := buffer ++ chunk.bytes.take room
      let sniffed := sniffWith (buffers.flatten ++ buffer) none sniffers metadata
      { err := sniffed.1, metadata := sniffed.2
        conn := .read (chunk.rest room more) :: client, buffer := buffer }
    else
      let buffer := buffer ++ chunk.bytes
      match chunk.err with
      | some text =>
        { err := readPayloadErr first sniffError text
          metadata := metadata, conn := client, buffer := buffer }
      | none =>
        let sniffed := sniffWith (buffers.flatten ++ buffer) none sniffers metadata
        if isNeedMoreData sniffed.1 then
          peekStreamLoop packetSize sniffers buffers false sniffed.1 sniffed.2 buffer client
        else { err := sniffed.1, metadata := sniffed.2, conn := client, buffer := buffer }

/-- `sniff.PeekStream`. -/
def peekStream (packetSize : Nat) (sniffers : List Sniffer) (buffers : List (List UInt8))
    (metadata : InboundContext) (conn : List ConnEvent) : StreamPeek :=
  peekStreamLoop packetSize sniffers buffers true none metadata [] conn

/-! ### The sniff action on a stream -/

/-- The connection of the walk and the buffers read from it. -/
structure StreamInput where
  conn : List ConnEvent
  buffers : List (List UInt8) := []

/-- `Router.actionSniff` for a stream, with the append of `matchRule`. -/
def actionSniffStream (router : Router) : SniffAction StreamInput := fun action metadata input =>
  if sniffSkipped action action.streamSniffers action.packetSniffers metadata then
    { metadata := metadata, held := input }
  else
    let streamSniffers :=
      if action.streamSniffers.isEmpty then router.defaultStreamSniffers
      else action.streamSniffers
    let peek := peekStream router.packetSize streamSniffers input.buffers metadata input.conn
    let metadata := setSniffed peek.metadata action peek.err
    { metadata := if peek.err.isNone then overrideDestination metadata action else metadata
      held :=
        { conn := peek.conn
          buffers :=
            if peek.buffer.isEmpty then input.buffers else input.buffers ++ [peek.buffer] } }

/-- A connection as it is handed over. -/
inductive StreamConn where
  | client (events : List ConnEvent)
  | cached (conn : StreamConn) (buffer : List UInt8)

/-- The bytes obtained by reading a connection to its end. A cached connection yields the
bytes of its buffer, then those of the connection it wraps. -/
def StreamConn.bytes : StreamConn → List UInt8
  | .client events => sentBytes events
  | .cached conn buffer => buffer ++ conn.bytes

/-- The loop of `routeConnection` that puts the buffers back. -/
def wrapBuffers (conn : StreamConn) (buffers : List (List UInt8)) : StreamConn :=
  buffers.foldl StreamConn.cached conn

def StreamInput.wrapped (input : StreamInput) : StreamConn :=
  wrapBuffers (.client input.conn) input.buffers

/-- The destinations that `routeConnection` refuses. -/
def muxError (names : MuxDestinations) (fqdn : String) : Option String :=
  if fqdn = names.mux then
    some ("global multiplex is deprecated since sing-box v1.7.0, " ++
      "enable multiplex in Inbound fields instead.")
  else if fqdn = names.vmessMux then
    some "global multiplex (v2ray legacy) not supported since sing-box v1.7.0."
  else if fqdn = names.uotMagicAddress then
    some "global UoT not supported since sing-box v1.7.0."
  else if fqdn = names.uotLegacyMagicAddress then
    some "global UoT (legacy) not supported since sing-box v1.7.0."
  else none

/-- The walk that `routeConnection` makes for a connection, after some of its steps. -/
def streamWalk (router : Router) (metadata : InboundContext) (client : List ConnEvent) :
    Nat → MatchState StreamInput :=
  matchWalk router (actionSniffStream router) (metadata.setNetwork .tcp) { conn := client }

/-- `Router.routeConnection`. -/
def routeConnection (router : Router) (metadata : InboundContext) (client : List ConnEvent) :
    Routed StreamConn :=
  if metadata.inboundDetour ≠ "" then
    routeDetour router Prod.fst "TCP" metadata (.client client)
  else
    match muxError router.muxDestinations metadata.destination.fqdn with
    | some err => .failed err
    | none =>
      if metadata.inboundType = "tun" ∧ metadata.protocol = "dns" then
        .hijackDNS (.client client)
      else
        let state := streamWalk router metadata client router.rules.length
        routeSelected router .tcp "TCP" "TCP is not supported by default outbound: " state.status
          state.held.wrapped state.held.wrapped

/-! ### Bytes are kept in order -/

/-- What a peek reads into its buffer is what the connection loses. -/
theorem bytes_peekStreamLoop (packetSize : Nat) (sniffers : List Sniffer)
    (buffers : List (List UInt8)) (first : Bool) (sniffError : Option SniffError)
    (metadata : InboundContext) (buffer : List UInt8) (client : List ConnEvent) :
    (peekStreamLoop packetSize sniffers buffers first sniffError metadata buffer client).buffer ++
        sentBytes
          (peekStreamLoop packetSize sniffers buffers first sniffError metadata buffer client).conn =
      buffer ++ sentBytes client := by
  induction client generalizing first sniffError metadata buffer with
  | nil => rfl
  | cons event client ih =>
    cases event with
    | deadlineErr text => rfl
    | read chunk =>
      rw [peekStreamLoop]
      split
      · rfl
      split
      next more =>
        have joined := take_append_drop (packetSize - buffer.length) chunk.bytes
        show (buffer ++ chunk.bytes.take _) ++ (chunk.bytes.drop _ ++ sentBytes client) = _
        rw [append_assoc, ← append_assoc (List.take _ _), joined]
        rfl
      · show _ = buffer ++ (chunk.bytes ++ sentBytes client)
        rw [← append_assoc]
        dsimp only
        split
        · rfl
        split
        · exact ih false _ _ _
        · rfl

/-- The bytes that a walk has read and those still to come. -/
def StreamInput.bytes (input : StreamInput) : List UInt8 :=
  input.buffers.flatten ++ sentBytes input.conn

theorem bytes_actionSniffStream (router : Router) (action : RuleActionSniff)
    (metadata : InboundContext) (input : StreamInput) :
    (actionSniffStream router action metadata input).held.bytes = input.bytes := by
  rw [actionSniffStream]
  split
  · rfl
  dsimp only [StreamInput.bytes, peekStream]
  generalize (if action.streamSniffers.isEmpty then router.defaultStreamSniffers
    else action.streamSniffers) = sniffers
  have kept := bytes_peekStreamLoop router.packetSize sniffers input.buffers true none metadata []
    input.conn
  generalize peekStreamLoop router.packetSize sniffers input.buffers true none metadata []
    input.conn = peek at kept ⊢
  rw [nil_append] at kept
  split
  next empty => rw [← kept, List.isEmpty_iff.mp empty, nil_append]
  · rw [flatten_append, flatten_singleton, append_assoc, kept]

/-- Along the walk, the buffers in the order of their reads and the rest of the connection
are what the client sent. -/
theorem bytes_streamWalk (router : Router) (metadata : InboundContext) (client : List ConnEvent)
    (count : Nat) : (streamWalk router metadata client count).held.bytes = sentBytes client := by
  refine held_matchWalk (fun input : StreamInput => input.bytes = sentBytes client)
    (fun action current held holds (_ : True) => ?_) (nil_append _)
    (fun _ _ _ _ => trivial) count
  exact (bytes_actionSniffStream router action current held).trans holds

/-! ### Buffers are put back in reverse -/

theorem bytes_wrapBuffers (conn : StreamConn) (buffers : List (List UInt8)) :
    (wrapBuffers conn buffers).bytes = buffers.reverse.flatten ++ conn.bytes := by
  rw [wrapBuffers]
  induction buffers generalizing conn with
  | nil => rfl
  | cons buffer rest ih =>
    rw [foldl_cons, ih, StreamConn.bytes, reverse_cons,
      flatten_append, flatten_singleton, append_assoc]

/-- The connection that is handed over reads as the client sent it exactly if the buffers
read the same in both orders. -/
theorem bytes_wrapped_eq_iff (input : StreamInput) :
    input.wrapped.bytes = input.bytes ↔ input.buffers.reverse.flatten = input.buffers.flatten := by
  rw [StreamInput.wrapped, bytes_wrapBuffers, StreamInput.bytes, StreamConn.bytes, append_left_inj]

/-- The next read of the connection fails without bringing any bytes. -/
def silent : List ConnEvent → Bool
  | [] => true
  | event :: _ => event.bytes.isEmpty

/-- A sniff action finds no buffer, or does not get to read, or gets nothing to read. -/
def ReadsAlone (action : RuleActionSniff) (metadata : InboundContext) (input : StreamInput) :
    Prop :=
  input.buffers = [] ∨
    sniffSkipped action action.streamSniffers action.packetSniffers metadata = true ∨
    silent input.conn = true

instance (action : RuleActionSniff) (metadata : InboundContext) (input : StreamInput) :
    Decidable (ReadsAlone action metadata input) :=
  inferInstanceAs (Decidable (_ ∨ _))

theorem buffer_peekStream_of_silent {client : List ConnEvent} (quiet : silent client = true)
    (packetSize : Nat) (sniffers : List Sniffer) (buffers : List (List UInt8))
    (metadata : InboundContext) :
    (peekStream packetSize sniffers buffers metadata client).buffer = [] := by
  rw [peekStream]
  cases client with
  | nil => rfl
  | cons event client =>
    cases event with
    | deadlineErr text => rfl
    | read chunk =>
      have none : chunk.bytes = [] := List.isEmpty_iff.mp quiet
      rw [peekStreamLoop]
      split
      · rfl
      split
      next more =>
        rw [none] at more
        exact absurd more (Nat.not_lt_zero _)
      · obtain ⟨text, failed⟩ := Option.isSome_iff_exists.mp (chunk.progress.resolve_left (· none))
        rw [failed]
        exact none

theorem length_buffers_actionSniffStream (router : Router) (action : RuleActionSniff)
    (metadata : InboundContext) (input : StreamInput) (few : input.buffers.length ≤ 1)
    (alone : ReadsAlone action metadata input) :
    (actionSniffStream router action metadata input).held.buffers.length ≤ 1 := by
  rw [actionSniffStream]
  split
  · exact few
  rename_i runs
  dsimp only
  rcases alone with unread | skipped | quiet
  · rw [unread, nil_append]
    generalize (peekStream _ _ _ _ _).buffer = buffer
    split
    · exact Nat.zero_le 1
    · exact Nat.le_refl 1
  · exact absurd skipped runs
  · rw [if_pos (List.isEmpty_iff.mpr (buffer_peekStream_of_silent quiet _ _ _ _))]
    exact few

/-- Sniffing a TCP connection is transparent as long as every sniff action that gets to read
while bytes are held finds nothing to read: the connection handed to the outbound, or to
DNS hijacking, then reads to its end as the bytes the client sent. -/
theorem routeConnection_bytes (router : Router) (metadata : InboundContext)
    (client : List ConnEvent)
    (alone : ∀ count, SniffsUnder router ReadsAlone (streamWalk router metadata client count))
    (conn : StreamConn) (handing : (routeConnection router metadata client).HandsOver conn) :
    conn.bytes = sentBytes client := by
  rw [routeConnection] at handing
  split at handing
  · exact absurd handing not_handsOver_routeDetour
  split at handing
  · exact handing.elim
  split at handing
  · exact congrArg StreamConn.bytes handing.symm
  have few : (streamWalk router metadata client router.rules.length).held.buffers.length ≤ 1 := by
    refine held_matchWalk (fun input : StreamInput => input.buffers.length ≤ 1)
      (length_buffers_actionSniffStream router) ?_ alone router.rules.length
    exact Nat.zero_le 1
  rw [← (conn_of_routeSelected handing).elim id id,
    ← bytes_streamWalk router metadata client router.rules.length,
    bytes_wrapped_eq_iff]
  generalize (streamWalk router metadata client router.rules.length).held.buffers = buffers at few
  cases buffers with
  | nil => rfl
  | cons buffer rest =>
    rw [length_eq_zero_iff.mp (Nat.le_zero.mp (Nat.le_of_succ_le_succ few))]
    rfl

/-! ### Two sniff actions that both read -/

namespace TwoSniffs

open Sample

def sniffOf (name : String) : RouteRuleAction :=
  .sniff { snifferNames := [name], streamSniffers := [unrecognised] }

/-- A client that sends two segments of one byte each. -/
def client : List ConnEvent :=
  [.read { bytes := [1], progress := .inl (by decide) },
    .read { bytes := [2], progress := .inl (by decide) }]

end TwoSniffs

open Sample TwoSniffs in
/-- Two sniff actions, each reading one segment, and the outbound gets the second segment
before the first. -/
theorem routeConnection_reverses :
    ∃ conn, (routeConnection (router [always (sniffOf "tls"), always (sniffOf "http"),
        always (.route "out" {})]) {} client).HandsOver conn ∧
      sentBytes client = [1, 2] ∧ conn.bytes = [2, 1] :=
  ⟨_, rfl, by decide, by decide⟩

open Sample TwoSniffs in
/-- Of three sniff actions the first one reads the only segment; the second one is skipped, since
its sniffers are the same, and the third one finds nothing to read. -/
theorem routeConnection_bytes_threeSniffs :
    ∃ conn, (routeConnection (router [always (sniffOf "tls"), always (sniffOf "tls"),
        always (sniffOf "http"), always (.route "out" {})])
        {} [.read { bytes := [1, 2], progress := .inl (by decide) }]).HandsOver conn ∧
      conn.bytes = [1, 2] :=
  ⟨_, rfl, routeConnection_bytes (router [always (sniffOf "tls"), always (sniffOf "tls"),
    always (sniffOf "http"), always (.route "out" {})]) {}
    [.read { bytes := [1, 2], progress := .inl (by decide) }] (sniffsUnder_matchWalk (by decide))
    _ rfl⟩

end SingBox
