/-
This file is the second half of `QUICClientHello`: the CRYPTO fragments of the
packet and of the packets before it are chained by their offsets, and the
ClientHello they carry is parsed.

Whatever packets are passed to it one after the other, a call returns unless one of
three things goes wrong, each of them in reach of a sender: a CRYPTO frame claims
more than the rest of the packet; the chain gets to an offset whose first
fragment is empty, and stays there; a list in the ClientHello claims more than
its extension.
-/

import SingBox.QuicPacket

namespace SingBox

open List

namespace Quic

open Outcome

/-! ### Chaining the fragments -/

def fragmentAt (fragments : List QCryptoFragment) (index : Nat) : Option QCryptoFragment :=
  fragments.find? fun fragment => fragment.offset = index

/-- The loop `find` of `QUICClientHello`, which writes to a buffer of fixed capacity. -/
def findLoop (fragments : List QCryptoFragment) (capacity : Nat) :
    Nat → Nat → List UInt8 → Outcome Empty (List UInt8)
  | 0, _, _ => .unfinished
  | fuel + 1, index, buffer =>
    match fragmentAt fragments index with
    | none => pure buffer
    | some fragment =>
      findLoop fragments capacity fuel ((fragment.offset + fragment.length) % 2 ^ 64)
        ((buffer ++ fragment.payload).take capacity)

/-- The record header that is put in front of the fragments. -/
def recordHeader (frameLen : Nat) : List UInt8 :=
  [0x16, 0x03, 0x03, UInt8.ofNat (frameLen / 256), UInt8.ofNat frameLen]

/-- The buffer of `QUICClientHello`. Allocating it fails if it does not fit the memory. -/
def assemble (memory fuel : Nat) (fragments : List QCryptoFragment) :
    Outcome Empty (List UInt8) :=
  let frameLen := totalLength fragments % 2 ^ 64
  if memory < 5 + frameLen then .panicked
  else findLoop fragments (5 + frameLen) fuel 0 (recordHeader frameLen)

/-! ### Recognising the client -/

def greaseBitmask : Nat := 0x0F0F

def isZero (bytes : List UInt8) : Bool := bytes.all (· = 0)

def isQUICGo (fingerprint : Ja3.ClientHello) : Bool :=
  fingerprint.ellipticCurves.contains 0x11EC || fingerprint.extensions.contains 0xFF01

/-- The two fingerprints of Safari. The elements that are looked at exist by the lengths. -/
def isSafari (fingerprint : Ja3.ClientHello) : Bool :=
  (fingerprint.versions.length = 2 &&
      fingerprint.versions.headD 0 &&& greaseBitmask = 0x0A0A &&
      fingerprint.ellipticCurves.length = 5 &&
      fingerprint.ellipticCurves.headD 0 &&& greaseBitmask = 0x0A0A) ||
    (fingerprint.cipherSuites = [0x1302] && fingerprint.ellipticCurves = [29] &&
      fingerprint.signatureAlgorithms = [0x0403])

/-- The loop over `metadata.Client`, all of whose paths leave it. -/
def recogniseClient (frameTypeList : List UInt8) (fingerprint : Ja3.ClientHello) :
    Outcome Empty String :=
  if frameTypeList.length = 1 then pure "firefox"
  else do
    let first ← index frameTypeList 0
    let cryptoFirst ← (if first = 0x06 then do
      let rest ← sliceFrom frameTypeList 1
      pure (isZero rest)
    else pure false)
    if cryptoFirst && isSafari fingerprint then pure "safari"
    else do
      let last ← index frameTypeList (frameTypeList.length - 1)
      let cryptoLast ← (if last = 0x06 then do
        let rest ← slice frameTypeList 0 (frameTypeList.length - 1)
        pure (isZero rest)
      else pure false)
      if cryptoLast then pure "quic-go"
      else if frameTypeList.count 0x06 > 1 || frameTypeList.count 0x01 > 0 then
        pure (if isQUICGo fingerprint then "quic-go" else "chromium")
      else pure "unknown"

/-! ### The sniffer -/

/-- The machine that sniffs: its cryptography, and the memory it can address. -/
structure Host where
  keys : Keys
  memory : Nat
  addressable : memory < 2 ^ 64

/-- The bytes of a server name, one character each. -/
def nameOf (bytes : List UInt8) : String := String.ofList (bytes.map fun byte => Char.ofNat byte.toNat)

/-- The fragments of a packet, followed by those of the packets before it. -/
def allFragments (metadata : InboundContext) (fragments : List QCryptoFragment) :
    List QCryptoFragment :=
  fragments ++ metadata.sniffContext.getD []

/-- What `QUICClientHello` does once it has a fingerprint. -/
def recognise (metadata : InboundContext) (frameTypeList : List UInt8)
    (fingerprint : Ja3.ClientHello) : Outcome Empty (Option SniffError × InboundContext) := do
  let client ← (if metadata.client = "" then recogniseClient frameTypeList fingerprint
    else pure metadata.client)
  pure (none, { metadata with
    protocol := "quic"
    sniffContext := none
    domain := nameOf fingerprint.serverName
    client := client })

/-- `QUICClientHello` from the fragments on. -/
def sniffFragments (host : Host) (fuel : Nat) (metadata : InboundContext)
    (frameTypeList : List UInt8) (fragments : List QCryptoFragment) :
    Outcome Empty (Option SniffError × InboundContext) := do
  let buffer ← assemble host.memory fuel fragments
  (Ja3.compute fuel buffer).handle (recognise metadata frameTypeList) fun _ =>
    pure (some [.needMoreData],
      { metadata with protocol := "quic", sniffContext := some fragments })

/-- `sniff.QUICClientHello`: the error it returns and the metadata it leaves. -/
def quicClientHello (host : Host) (fuel : Nat) (packet : List UInt8) (metadata : InboundContext) :
    Outcome Empty (Option SniffError × InboundContext) :=
  (decryptInitial host.keys packet).handle
    (fun initial =>
      (readFrames initial.memory fuel { bytes := initial.decrypted } [] []).handle
        (fun (frameTypeList, fragments) =>
          sniffFragments host fuel metadata frameTypeList (allFragments metadata fragments))
        fun err => pure (some err, metadata))
    fun err => pure (some err, metadata)

/-! ### Where the chain leads -/

/-- The offsets that the chain gets to. -/
inductive Reached (fragments : List QCryptoFragment) : Nat → Prop where
  | start : Reached fragments 0
  | next {index : Nat} {fragment : QCryptoFragment} (reached : Reached fragments index)
      (found : fragmentAt fragments index = some fragment) :
      Reached fragments (index + fragment.length)

/-- Every fragment that the chain gets to leads it further. -/
def Advancing (fragments : List QCryptoFragment) : Prop :=
  ∀ index fragment, Reached fragments index → fragmentAt fragments index = some fragment →
    0 < fragment.length

/-- The bytes that the chain collects from an offset on. -/
inductive Carries (fragments : List QCryptoFragment) : Nat → List UInt8 → Prop where
  | done {index : Nat} (none : fragmentAt fragments index = none) : Carries fragments index []
  | next {index : Nat} {fragment : QCryptoFragment} {bytes : List UInt8}
      (found : fragmentAt fragments index = some fragment)
      (rest : Carries fragments (index + fragment.length) bytes) :
      Carries fragments index (fragment.payload ++ bytes)

variable {fragment : QCryptoFragment} {fragments : List QCryptoFragment}
  {bytes buffer frameTypeList packet : List UInt8} {fuel : Nat}

theorem offset_of_fragmentAt {index : Nat} (found : fragmentAt fragments index = some fragment) :
    fragment ∈ fragments ∧ fragment.offset = index := by
  refine ⟨mem_of_find?_eq_some found, ?_⟩
  have := find?_some found
  exact of_decide_eq_true this

/-- A chain that ends gets to no empty fragment. -/
theorem Carries.advances {index : Nat} (carries : Carries fragments index bytes)
    (found : fragmentAt fragments index = some fragment) : 0 < fragment.length := by
  induction carries generalizing fragment with
  | done none => cases none.symm.trans found
  | next here rest ih =>
    cases here.symm.trans found
    rcases Nat.eq_zero_or_pos (QCryptoFragment.length _) with empty | positive
    · refine ih ?_
      rwa [empty, Nat.add_zero]
    · exact positive

theorem Carries.advancing (carries : Carries fragments 0 bytes) : Advancing fragments := by
  have reachable {index : Nat} (reached : Reached fragments index) :
      ∃ bytes, Carries fragments index bytes := by
    induction reached with
    | start => exact ⟨bytes, carries⟩
    | next _ found ih =>
      obtain ⟨bytes, carries⟩ := ih
      cases carries with
      | done none => cases none.symm.trans found
      | next here rest =>
        cases here.symm.trans found
        exact ⟨_, rest⟩
  intro index fragment reached found
  obtain ⟨_, carries⟩ := reachable reached
  exact carries.advances found

theorem Carries.unique {index : Nat} {bytes' : List UInt8}
    (carries : Carries fragments index bytes) (also : Carries fragments index bytes') :
    bytes = bytes' := by
  induction carries generalizing bytes' with
  | done none =>
    cases also with
    | done => rfl
    | next found => cases none.symm.trans found
  | next found rest ih =>
    cases also with
    | done none => cases none.symm.trans found
    | next here later =>
      cases here.symm.trans found
      rw [ih later]

/-! ### The chain collects every fragment at most once -/

def fragmentsFrom (fragments : List QCryptoFragment) (index : Nat) : List QCryptoFragment :=
  fragments.filter fun fragment => index ≤ fragment.offset

theorem fragmentsFrom_cons (fragment : QCryptoFragment) (fragments : List QCryptoFragment)
    (index : Nat) : fragmentsFrom (fragment :: fragments) index =
      if index ≤ fragment.offset then fragment :: fragmentsFrom fragments index
      else fragmentsFrom fragments index := by
  rw [fragmentsFrom, filter_cons]
  simp only [decide_eq_true_eq]
  rfl

theorem totalLength_cons (fragment : QCryptoFragment) (fragments : List QCryptoFragment) :
    totalLength (fragment :: fragments) = fragment.length + totalLength fragments :=
  sum_cons

theorem totalLength_append (first second : List QCryptoFragment) :
    totalLength (first ++ second) = totalLength first + totalLength second := by
  rw [totalLength, map_append, sum_append]
  rfl

theorem fragmentsFrom_le (fragments : List QCryptoFragment) {index next : Nat}
    (later : index ≤ next) :
    (fragmentsFrom fragments next).length ≤ (fragmentsFrom fragments index).length ∧
      totalLength (fragmentsFrom fragments next) ≤ totalLength (fragmentsFrom fragments index) := by
  induction fragments with
  | nil => exact ⟨Nat.le_refl _, Nat.le_refl _⟩
  | cons fragment fragments ih =>
    rw [fragmentsFrom_cons, fragmentsFrom_cons]
    split <;> split <;> first | omega | (simp only [length_cons, totalLength_cons]; omega)

/-- A fragment at an offset is not among those from a later offset on. -/
theorem fragmentsFrom_lt {index next : Nat} (member : fragment ∈ fragments)
    (here : fragment.offset = index) (later : index < next) :
    (fragmentsFrom fragments next).length < (fragmentsFrom fragments index).length ∧
      fragment.length + totalLength (fragmentsFrom fragments next) ≤
        totalLength (fragmentsFrom fragments index) := by
  induction fragments with
  | nil => cases member
  | cons first fragments ih =>
    rw [fragmentsFrom_cons, fragmentsFrom_cons]
    rcases mem_cons.mp member with rfl | among
    · have rest := fragmentsFrom_le fragments later.le
      rw [if_neg (by omega), if_pos (by omega), length_cons, totalLength_cons]
      omega
    · have rest := ih among
      split <;> split <;> first | omega | (simp only [length_cons, totalLength_cons]; omega)

theorem Carries.length_le {index : Nat} (sound : ∀ fragment ∈ fragments, Sound fragment)
    (carries : Carries fragments index bytes) :
    bytes.length ≤ totalLength (fragmentsFrom fragments index) := by
  induction carries with
  | done => exact Nat.zero_le _
  | next found rest ih =>
    have positive := (Carries.next found rest).advances found
    obtain ⟨member, here⟩ := offset_of_fragmentAt found
    have drops := (fragmentsFrom_lt member here (Nat.lt_add_of_pos_right positive)).2
    rw [length_append, (sound _ member).payload]
    omega

theorem Carries.length_le_total (sound : ∀ fragment ∈ fragments, Sound fragment)
    (carries : Carries fragments 0 bytes) : bytes.length ≤ totalLength fragments := by
  have all : fragmentsFrom fragments 0 = fragments :=
    filter_eq_self.mpr fun _ _ => decide_eq_true (Nat.zero_le _)
  have length := carries.length_le sound
  rwa [all] at length

/-! ### The loop follows the chain -/

theorem Sound.next_eq (sound : Sound fragment) :
    (fragment.offset + fragment.length) % 2 ^ 64 = fragment.offset + fragment.length := by
  have := sound.offset
  have := sound.length
  omega

/-- The loop ends if the chain advances, with one iteration for each fragment at most. -/
theorem returns_findLoop (sound : ∀ fragment ∈ fragments, Sound fragment)
    (advancing : Advancing fragments) (capacity : Nat) {index : Nat}
    (reached : Reached fragments index) (enough : (fragmentsFrom fragments index).length < fuel)
    (buffer : List UInt8) : (findLoop fragments capacity fuel index buffer).Returns := by
  induction fuel generalizing index buffer with
  | zero => exact absurd enough (Nat.not_lt_zero _)
  | succ fuel ih =>
    rw [findLoop]
    split
    · trivial
    next fragment found =>
      obtain ⟨member, here⟩ := offset_of_fragmentAt found
      have positive := advancing index fragment reached found
      have drops := (fragmentsFrom_lt member here (Nat.lt_add_of_pos_right positive)).1
      rw [(sound fragment member).next_eq, here]
      exact ih (.next reached found) (by omega) _

/-- Writing to a full buffer piece by piece. -/
theorem take_append_take (capacity : Nat) (written bytes : List UInt8) :
    (written.take capacity ++ bytes).take capacity = (written ++ bytes).take capacity := by
  have room : capacity - min capacity written.length = capacity - written.length := by omega
  rw [take_append, take_append, take_take, Nat.min_self, length_take, room]

/-- What the loop ends with is what the chain carries, as far as it fits. -/
theorem carries_of_findLoop (sound : ∀ fragment ∈ fragments, Sound fragment)
    {capacity index : Nat} {result : List UInt8} (room : buffer.length ≤ capacity)
    (ends : findLoop fragments capacity fuel index buffer = .value result) :
    ∃ bytes, Carries fragments index bytes ∧ result = (buffer ++ bytes).take capacity := by
  induction fuel generalizing index buffer with
  | zero => cases ends
  | succ fuel ih =>
    rw [findLoop] at ends
    split at ends
    next none =>
      cases ends
      refine ⟨[], .done none, ?_⟩
      rw [append_nil, take_of_length_le room]
    next fragment found =>
      obtain ⟨member, here⟩ := offset_of_fragmentAt found
      rw [(sound fragment member).next_eq, here] at ends
      obtain ⟨bytes, carries, same⟩ := ih (by rw [length_take]; omega) ends
      refine ⟨fragment.payload ++ bytes, .next found carries, ?_⟩
      rw [same, ← append_assoc]
      exact take_append_take capacity _ _

/-- The record that fragments carry. -/
def record (fragments : List QCryptoFragment) (bytes : List UInt8) : List UInt8 :=
  recordHeader (totalLength fragments) ++ bytes

theorem length_recordHeader (frameLen : Nat) :
    (recordHeader frameLen).length ≤ 5 + frameLen := Nat.le_add_right 5 _

section Assemble

variable {memory fuel : Nat} {fragments : List QCryptoFragment}
  (sound : ∀ fragment ∈ fragments, Sound fragment)
  (fits : 5 + totalLength fragments ≤ memory) (addressable : memory < 2 ^ 64)

include fits addressable

theorem assemble_of_fits :
    assemble memory fuel fragments = findLoop fragments (5 + totalLength fragments) fuel 0
      (recordHeader (totalLength fragments)) := by
  have small : totalLength fragments % 2 ^ 64 = totalLength fragments :=
    Nat.mod_eq_of_lt (by omega)
  rw [assemble, small, if_neg (by omega)]

include sound

/-- Assembling the fragments returns if the chain advances. -/
theorem returns_assemble (advancing : Advancing fragments) (enough : fragments.length < fuel) :
    (assemble memory fuel fragments).Returns := by
  rw [assemble_of_fits fits addressable]
  exact returns_findLoop sound advancing _ .start
    (Nat.lt_of_le_of_lt (length_filter_le _ _) enough) _

/-- The buffer is the record that the fragments carry, all of it. -/
theorem carries_of_assemble (ends : assemble memory fuel fragments = .value buffer) :
    ∃ bytes, Carries fragments 0 bytes ∧ buffer = record fragments bytes := by
  rw [assemble_of_fits fits addressable] at ends
  obtain ⟨bytes, carries, same⟩ := carries_of_findLoop sound (length_recordHeader _) ends
  refine ⟨bytes, carries, same.trans (take_of_length_le ?_)⟩
  rw [length_append]
  exact Nat.add_le_add_left (carries.length_le_total sound) 5

end Assemble

/-! ### Calls that return -/

/-- The types of the frames of a packet and its CRYPTO fragments, if it can be decrypted and
has only well-formed frames. -/
def Frames (keys : Keys) (packet frameTypeList : List UInt8) (fragments : List QCryptoFragment) :
    Prop :=
  ∃ initial fuel, decryptInitial keys packet = .value initial ∧
    readFrames initial.memory fuel { bytes := initial.decrypted } [] [] =
      .value (frameTypeList, fragments)

/-- The conditions under which a call returns: the CRYPTO frames of the packet end inside it,
the chain of all fragments gets to no empty one, and the lists of the ClientHello that they
carry end inside their extensions. -/
structure InRange (keys : Keys) (packet : List UInt8) (metadata : InboundContext) : Prop where
  crypto : ∀ initial, decryptInitial keys packet = .value initial →
    ∀ index length, Declares { bytes := initial.decrypted } index length →
      index + length ≤ initial.memory.length
  chain : ∀ frameTypeList fragments, Frames keys packet frameTypeList fragments →
    Advancing (allFragments metadata fragments)
  hello : ∀ frameTypeList fragments bytes, Frames keys packet frameTypeList fragments →
    Carries (allFragments metadata fragments) 0 bytes →
      Ja3.InRange (record (allFragments metadata fragments) bytes)

/-- What earlier calls leave in the sniff context: sound fragments, no more bytes than were in
their packets, and no ClientHello that parses. -/
structure Pending (fragments : List QCryptoFragment) (received : Nat) : Prop where
  sound : ∀ fragment ∈ fragments, Sound fragment
  total : totalLength fragments ≤ received
  unparsed : ∀ bytes fuel hello, Carries fragments 0 bytes →
    Ja3.compute fuel (record fragments bytes) ≠ .value hello

/-- Without fragments there is no ClientHello. -/
theorem compute_record_nil (fuel : Nat) :
    Ja3.compute fuel (record [] []) = .error ⟨.lengthErr, 3⟩ := by
  have empty : Ja3.segmentHandshake (record [] []) = .value [] := by decide
  rw [Ja3.compute, empty]
  rfl

theorem Pending.nil (received : Nat) : Pending [] received where
  sound _ member := nomatch member
  total := Nat.zero_le _
  unparsed bytes fuel hello carries parsed := by
    cases carries with
    | done => cases (compute_record_nil fuel).symm.trans parsed
    | next found => cases found

theorem Pending.mono {received more : Nat} (pending : Pending fragments received)
    (less : received ≤ more) : Pending fragments more :=
  ⟨pending.sound, pending.total.trans less, pending.unparsed⟩

/-- What is known about the frames of a packet. -/
theorem Frames.collected {keys : Keys} (frames : Frames keys packet frameTypeList fragments) :
    (∀ fragment ∈ fragments, Sound fragment) ∧ totalLength fragments ≤ packet.length ∧
      (frameTypeList = [] → fragments = []) := by
  obtain ⟨initial, fuel, opened, read⟩ := frames
  have bounds := (ensures_decryptInitial keys packet).of_eq opened
  have start : Collected initial.memory { bytes := initial.decrypted } [] [] :=
    ⟨fun _ member => (nomatch member), Nat.zero_le _, Nat.zero_le _, fun _ => rfl⟩
  obtain ⟨_, collected⟩ := collected_readFrames start read
  exact ⟨collected.sound, collected.memory.trans bounds.2, collected.typed⟩

theorem Frames.of_returns {keys : Keys} (frames : Frames keys packet frameTypeList fragments)
    {initial : Initial} (opened : decryptInitial keys packet = .value initial)
    (returns : (readFrames initial.memory fuel { bytes := initial.decrypted } [] []).Returns) :
    readFrames initial.memory fuel { bytes := initial.decrypted } [] [] =
      .value (frameTypeList, fragments) := by
  obtain ⟨initial', fuel', opened', read⟩ := frames
  cases opened'.symm.trans opened
  exact (eq_of_continues (readFrames initial.memory · { bytes := initial.decrypted } [] [])
    (fun _ _ less => continues_readFrames _ less _ _ _) returns.ne_unfinished
    (ne_unfinished_of_value read)).trans read

section Call

variable {host : Host} {packet : List UInt8} {metadata : InboundContext} {received : Nat}
  (pending : Pending (metadata.sniffContext.getD []) received)
  (fits : 5 + (received + packet.length) ≤ host.memory)

include pending in
theorem Frames.all_sound (frames : Frames host.keys packet frameTypeList fragments) :
    ∀ fragment ∈ allFragments metadata fragments, Sound fragment := fun fragment member =>
  (mem_append.mp member).elim (frames.collected.1 fragment) (pending.sound fragment)

include pending fits in
theorem Frames.all_fit (frames : Frames host.keys packet frameTypeList fragments) :
    5 + totalLength (allFragments metadata fragments) ≤ host.memory := by
  have := frames.collected.2.1
  have := pending.total
  rw [allFragments, totalLength_append]
  omega

theorem returns_recogniseClient (some : frameTypeList ≠ []) (fingerprint : Ja3.ClientHello) :
    (recogniseClient frameTypeList fingerprint).Returns := by
  have long := length_pos_iff.mpr some
  rw [recogniseClient]
  split
  · trivial
  refine returns_bind.mpr ⟨returns_index.mpr long, fun first _ => ?_⟩
  refine returns_bind.mpr ⟨?_, fun cryptoFirst _ => ?_⟩
  · split
    · exact returns_bind.mpr ⟨returns_sliceFrom.mpr long, fun _ _ => trivial⟩
    · trivial
  split
  · trivial
  refine returns_bind.mpr ⟨returns_index.mpr (by omega), fun last _ => ?_⟩
  refine returns_bind.mpr ⟨?_, fun cryptoLast _ => ?_⟩
  · split
    · exact returns_bind.mpr
        ⟨(returns_slice (Nat.zero_le _)).mpr (Nat.sub_le _ _), fun _ _ => trivial⟩
    · trivial
  split
  · trivial
  split <;> trivial

/-- The stages of a call. -/
theorem returns_quicClientHello_iff : (quicClientHello host fuel packet metadata).Returns ↔
      ∀ initial, decryptInitial host.keys packet = .value initial →
        (readFrames initial.memory fuel { bytes := initial.decrypted } [] []).Returns ∧
          ∀ frameTypeList fragments,
            readFrames initial.memory fuel { bytes := initial.decrypted } [] [] =
              .value (frameTypeList, fragments) →
            (sniffFragments host fuel metadata frameTypeList
              (allFragments metadata fragments)).Returns := by
  refine (returns_handle fun _ => returns_value _).trans ?_
  constructor
  · rintro ⟨_, continues⟩ initial opened
    obtain ⟨read, rest⟩ := (returns_handle fun _ => returns_value _).mp (continues initial opened)
    exact ⟨read, fun frameTypeList fragments same => rest (frameTypeList, fragments) same⟩
  · intro stages
    refine ⟨(ensures_decryptInitial _ _).returns, fun initial opened => ?_⟩
    obtain ⟨read, rest⟩ := stages initial opened
    refine (returns_handle fun _ => returns_value _).mpr ⟨read, ?_⟩
    rintro ⟨frameTypeList, fragments⟩ same
    exact rest frameTypeList fragments same

include pending fits

/-- What `sniffFragments` assembles and parses. -/
theorem Frames.record_of_returns (frames : Frames host.keys packet frameTypeList fragments)
    (returns : (sniffFragments host fuel metadata frameTypeList
      (allFragments metadata fragments)).Returns) :
    ∃ bytes, Carries (allFragments metadata fragments) 0 bytes ∧
      (Ja3.compute fuel (record (allFragments metadata fragments) bytes)).Returns := by
  obtain ⟨assembled, parses⟩ := returns_bind.mp returns
  cases ends : assemble host.memory fuel (allFragments metadata fragments) with
  | error err => exact err.elim
  | panicked | unfinished =>
    rw [ends] at assembled
    exact assembled.elim
  | value buffer =>
    obtain ⟨bytes, carries, same⟩ := carries_of_assemble (frames.all_sound pending)
      (frames.all_fit pending fits) host.addressable ends
    refine ⟨bytes, carries, ?_⟩
    rw [← same]
    exact ((returns_handle fun _ => returns_value _).mp (parses buffer ends)).1

theorem inRange_of_returns (fuel : Nat)
    (returns : (quicClientHello host fuel packet metadata).Returns) :
    InRange host.keys packet metadata := by
  have stages := returns_quicClientHello_iff.mp returns
  have carried {frameTypeList : List UInt8} {fragments : List QCryptoFragment}
      (frames : Frames host.keys packet frameTypeList fragments) :
      ∃ bytes, Carries (allFragments metadata fragments) 0 bytes ∧
        (Ja3.compute fuel (record (allFragments metadata fragments) bytes)).Returns := by
    have ⟨initial, _, opened, _⟩ := frames
    obtain ⟨read, rest⟩ := stages initial opened
    exact frames.record_of_returns pending fits (rest _ _ (frames.of_returns opened read))
  constructor
  · intro initial opened
    have read := (stages initial opened).1
    have more := continues_readFrames initial.memory (Nat.le_max_left fuel
      (initial.decrypted.length + 1)) { bytes := initial.decrypted } [] [] read.ne_unfinished
    rw [← more] at read
    exact (returns_readFrames (by dsimp only; omega) [] []).mp read
  · intro frameTypeList fragments frames
    obtain ⟨bytes, carries, _⟩ := carried frames
    exact carries.advancing
  · intro frameTypeList fragments bytes frames carries
    obtain ⟨bytes', carries', parses⟩ := carried frames
    rw [carries.unique carries']
    have more := Ja3.continues_compute (Nat.le_max_left fuel
      ((record (allFragments metadata fragments) bytes').length + 1)) _ parses.ne_unfinished
    rw [← more] at parses
    exact (Ja3.returns_compute (by omega)).mp parses

/-- With enough fuel, the fragments of a packet in range are assembled, parsed and
recognised. -/
theorem returns_sniffFragments (frames : Frames host.keys packet frameTypeList fragments)
    (inRange : InRange host.keys packet metadata) : ∃ fuel, ∀ more, fuel ≤ more →
      (sniffFragments host more metadata frameTypeList (allFragments metadata fragments)).Returns := by
  have sound := frames.all_sound pending
  have fit := frames.all_fit pending fits
  refine ⟨(allFragments metadata fragments).length + host.memory + 1, fun fuel enough => ?_⟩
  refine returns_bind.mpr ⟨returns_assemble sound fit host.addressable
    (inRange.chain _ _ frames) (by omega), fun buffer ends => ?_⟩
  obtain ⟨bytes, carries, same⟩ := carries_of_assemble sound fit host.addressable ends
  have length : (record (allFragments metadata fragments) bytes).length ≤ host.memory := by
    rw [record, length_append]
    exact (Nat.add_le_add_left (carries.length_le_total sound) 5).trans fit
  rw [same]
  refine (returns_handle fun _ => returns_value _).mpr
    ⟨(Ja3.returns_compute (by omega)).mpr (inRange.hello _ _ _ frames carries),
      fun hello parsed => returns_bind.mpr ⟨?_, fun _ _ => returns_value _⟩⟩
  split
  · refine returns_recogniseClient (fun empty => ?_) hello
    -- Without a frame the fragments are those that did not parse before.
    rw [frames.collected.2.2 empty] at carries parsed
    exact pending.unparsed bytes fuel hello carries parsed
  · trivial

theorem returns_of_inRange (inRange : InRange host.keys packet metadata) :
    ∃ fuel, (quicClientHello host fuel packet metadata).Returns := by
  cases opened : decryptInitial host.keys packet with
  | error _ | panicked | unfinished =>
    refine ⟨0, returns_quicClientHello_iff.mpr fun initial same => ?_⟩
    cases opened.symm.trans same
  | value initial =>
    have enough : initial.decrypted.length - 0 < initial.decrypted.length + 1 := by omega
    have read : (readFrames initial.memory (initial.decrypted.length + 1)
        { bytes := initial.decrypted } [] []).Returns :=
      (returns_readFrames enough [] []).mpr (inRange.crypto initial opened)
    cases result : readFrames initial.memory (initial.decrypted.length + 1)
        { bytes := initial.decrypted } [] [] with
    | panicked | unfinished =>
      rw [result] at read
      exact read.elim
    | error err =>
      refine ⟨initial.decrypted.length + 1, returns_quicClientHello_iff.mpr fun initial' same => ?_⟩
      cases opened.symm.trans same
      refine ⟨read, fun _ _ same => ?_⟩
      cases result.symm.trans same
    | value frames =>
      obtain ⟨fuel, sniffs⟩ := returns_sniffFragments pending fits ⟨initial, _, opened, result⟩
        inRange
      have more := continues_readFrames initial.memory
        (Nat.le_max_left (initial.decrypted.length + 1) fuel) { bytes := initial.decrypted } [] []
        read.ne_unfinished
      refine ⟨max (initial.decrypted.length + 1) fuel,
        returns_quicClientHello_iff.mpr fun initial' same => ?_⟩
      cases opened.symm.trans same
      refine ⟨more ▸ read, fun _ _ same => ?_⟩
      cases (more.trans result).symm.trans same
      exact sniffs _ (Nat.le_max_right _ _)

/-- A call keeps what is known about the sniff context. -/
theorem Pending.after {err : Option SniffError} {after : InboundContext}
    (returned : quicClientHello host fuel packet metadata = .value (err, after)) :
    Pending (after.sniffContext.getD []) (received + packet.length) := by
  have unchanged := pending.mono (Nat.le_add_right received packet.length)
  rcases handle_eq_value returned with ⟨initial, opened, returned⟩ | ⟨_, _, returned⟩
  · rcases handle_eq_value returned with ⟨⟨frameTypeList, fragments⟩, read, returned⟩ |
      ⟨_, _, returned⟩
    · have frames : Frames host.keys packet frameTypeList fragments :=
        ⟨initial, fuel, opened, read⟩
      have sound := frames.all_sound pending
      have fit := frames.all_fit pending fits
      obtain ⟨buffer, assembled, returned⟩ := bind_eq_value.mp returned
      obtain ⟨bytes, carries, same⟩ := carries_of_assemble sound fit host.addressable assembled
      rcases handle_eq_value returned with ⟨hello, parsed, returned⟩ | ⟨_, failed, returned⟩
      · obtain ⟨client, _, returned⟩ := bind_eq_value.mp returned
        cases returned
        exact .nil _
      · cases returned
        refine ⟨sound, ?_, fun bytes' fuel' hello carries' parsed => ?_⟩
        · have := frames.collected.2.1
          have := pending.total
          show totalLength (allFragments metadata fragments) ≤ _
          rw [allFragments, totalLength_append]
          omega
        · rw [same] at failed
          rw [carries'.unique carries] at parsed
          have agree := eq_of_continues
            (Ja3.compute · (record (allFragments metadata fragments) bytes))
            (fun _ _ less => Ja3.continues_compute less _)
            (ne_unfinished_of_error failed) (ne_unfinished_of_value parsed)
          cases failed.symm.trans (agree.trans parsed)
    · cases returned
      exact unchanged
  · cases returned
    exact unchanged

end Call

/-! ### Sequences of calls -/

/-- Calls with the same metadata, all of which have returned. -/
inductive Calls (host : Host) (start : InboundContext) : List (List UInt8) → InboundContext → Prop
  | nil : Calls host start [] start
  | call {packets : List (List UInt8)} {packet : List UInt8} {current after : InboundContext}
      {fuel : Nat} {err : Option SniffError} (before : Calls host start packets current)
      (returned : quicClientHello host fuel packet current = .value (err, after)) :
      Calls host start (packets ++ [packet]) after

theorem Calls.pending {host : Host} {start current : InboundContext}
    {packets : List (List UInt8)} (fresh : start.sniffContext = none)
    (calls : Calls host start packets current)
    (fits : 5 + (packets.map List.length).sum ≤ host.memory) :
    Pending (current.sniffContext.getD []) (packets.map List.length).sum := by
  induction calls with
  | nil =>
    rw [fresh]
    exact .nil _
  | call before returned ih =>
    rw [map_append, sum_append, map_singleton, sum_singleton] at fits ⊢
    exact (ih (by omega)).after (by omega) returned

/-- After any calls with the same metadata, a call to `QUICClientHello` returns exactly if the
packet is in range, as long as all packets together fit the memory. -/
theorem quicClientHello_returns_iff (host : Host) (start current : InboundContext)
    (packets : List (List UInt8)) (packet : List UInt8) (fresh : start.sniffContext = none)
    (calls : Calls host start packets current)
    (fits : 5 + ((packets ++ [packet]).map List.length).sum ≤ host.memory) :
    (∃ fuel result, quicClientHello host fuel packet current = .value result) ↔
      InRange host.keys packet current := by
  rw [map_append, sum_append, map_singleton, sum_singleton] at fits
  have pending := calls.pending fresh (by omega)
  constructor
  · rintro ⟨fuel, result, returned⟩
    refine inRange_of_returns pending fits fuel ?_
    rw [returned]
    trivial
  · intro inRange
    obtain ⟨fuel, returns⟩ := returns_of_inRange pending fits inRange
    cases outcome : quicClientHello host fuel packet current with
    | value result => exact ⟨fuel, result, outcome⟩
    | error err => exact err.elim
    | panicked | unfinished =>
      rw [outcome] at returns
      exact returns.elim

/-! ### Three packets that are not in range -/

namespace Hostile

/-- Keys under which a packet is sealed by 16 bytes at its end. -/
def keys : Keys where
  mask _ _ _ := List.replicate 16 0
  length_mask _ _ _ := rfl
  openInitial _ _ _ _ data := if 16 ≤ data.length then some (data.take (data.length - 16)) else none
  length_openInitial _ _ _ _ data plaintext opened := by
    split at opened
    · cases opened
      rw [List.length_take]
      omega
    · cases opened

def host : Host where
  keys := keys
  memory := 1000000
  addressable := by decide

/-- An Initial packet of version 1 with one connection ID byte, no token and a packet number of
one byte; the length is a variable-length integer of two bytes. -/
def initialPacket (plaintext : List UInt8) : List UInt8 :=
  [0xc0, 0, 0, 0, 1, 1, 0, 0, 0, 0x40, UInt8.ofNat (1 + plaintext.length + 16), 0] ++ plaintext ++
    List.replicate 16 0

/-- A CRYPTO frame that claims 63 bytes, and none of them. -/
def longFrame : List UInt8 := initialPacket [0x06, 0, 63]

/-- An empty CRYPTO frame at the start of the stream. -/
def emptyFrame : List UInt8 := initialPacket [0x06, 0, 0]

/-- A ClientHello with a supported_versions extension of one byte, which claims a list of two. -/
def longList : List UInt8 :=
  initialPacket ([0x06, 0, 49] ++ [1, 0, 0, 45, 3, 3] ++ List.replicate 32 0 ++
    [0, 0, 0, 0, 0, 5, 0, 43, 0, 1, 2])

theorem findLoop_emptyFrame (capacity fuel : Nat) (buffer : List UInt8) :
    findLoop [{ offset := 0, length := 0, payload := [] }] capacity fuel 0 buffer =
      .unfinished := by
  induction fuel generalizing buffer with
  | zero => rfl
  | succ fuel ih => exact ih _

theorem quicClientHello_emptyFrame (fuel : Nat) :
    quicClientHello host fuel emptyFrame {} = .unfinished := by
  match fuel with
  | 0 => rfl
  | 1 => rfl
  | fuel + 2 =>
    have stuck := findLoop_emptyFrame 5 (fuel + 2) (recordHeader 0)
    show (findLoop [{ offset := 0, length := 0, payload := [] }] 5 (fuel + 2) 0
      (recordHeader 0) >>= _) = _
    rw [stuck]
    rfl

end Hostile

open Hostile in
/-- Three first packets: the first two make the sniffer slice out of range and run forever, the
third makes the ClientHello parser index out of range. -/
theorem quicClientHello_fails :
    quicClientHello host 100 longFrame {} = .panicked ∧
      (∀ fuel, quicClientHello host fuel emptyFrame {} = .unfinished) ∧
      quicClientHello host 100 longList {} = .panicked :=
  ⟨rfl, quicClientHello_emptyFrame, rfl⟩

open Hostile in
theorem quicClientHello_returns_iff_first :
    (∃ fuel result, quicClientHello host fuel longList {} = .value result) ↔
      InRange host.keys longList {} :=
  quicClientHello_returns_iff host {} {} [] longList rfl .nil (by decide)

end Quic

end SingBox
