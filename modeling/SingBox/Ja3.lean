/-
This file is the ClientHello parser of `common/ja3`. Every field of the record and
of the handshake is checked against what is left of the input before it is read,
with two exceptions: the lists of the supported_versions and
signature_algorithms extensions are read for as long as their own length fields
say. The parser returns exactly if each such list it reaches ends inside its
extension.
-/

import SingBox.Outcome
import Mathlib.Tactic.IntervalCases

namespace SingBox

open List

namespace Ja3

open Outcome

/-- A `ja3.ClientHello`. The 16 bit values are natural numbers. -/
structure ClientHello where
  version : Nat := 0
  cipherSuites : List Nat := []
  extensions : List Nat := []
  ellipticCurves : List Nat := []
  ellipticCurvePF : List UInt8 := []
  versions : List Nat := []
  signatureAlgorithms : List Nat := []
  serverName : List UInt8 := []
  deriving DecidableEq, Repr

inductive ParseErrType where
  | lengthErr
  | contentTypeErr
  | versionErr
  | handshakeTypeErr
  | sniTypeErr
  deriving DecidableEq, Repr

structure ParseError where
  errType : ParseErrType
  check : Nat := 0
  deriving DecidableEq, Repr

abbrev Parse := Outcome ParseError

/-- `uint16(high)<<8 | uint16(low)`. -/
def uint16 (high low : UInt8) : Nat := high.toNat * 256 + low.toNat

/-- The 16 bit value at an index. -/
def uint16At {Error : Type} (xs : List UInt8) (i : Nat) : Outcome Error Nat := do
  let high ← index xs i
  let low ← index xs (i + 1)
  pure (uint16 high low)

/-- The TLS versions that are refused. -/
def badVersion (version : Nat) : Bool := version &&& 0xFFFC ≠ 0x0300 && version ≠ 0x0304

/-! ### Extensions -/

def parseServerName (sex : List UInt8) : Parse (ClientHello → ClientHello) :=
  if sex.length < 5 then .error ⟨.lengthErr, 13⟩
  else do
    let sniType ← index sex 2
    let sniLen ← uint16At sex 3
    let sex ← sliceFrom sex 5
    if sex.length ≠ sniLen then .error ⟨.lengthErr, 14⟩
    else if sniType ≠ 0 then .error { errType := .sniTypeErr }
    else pure fun hello => { hello with serverName := sex }

/-- The body of a supported_groups extension. -/
def parseEllipticCurves (sex : List UInt8) : Parse (ClientHello → ClientHello) :=
  if sex.length < 2 then .error ⟨.lengthErr, 15⟩
  else do
    let ecsLen ← uint16At sex 0
    let numCurves := ecsLen / 2
    let sex ← sliceFrom sex 2
    if sex.length ≠ ecsLen then .error ⟨.lengthErr, 16⟩
    else do
      let ellipticCurves ← (List.range numCurves).mapM fun i => uint16At sex (i * 2)
      pure fun hello => { hello with ellipticCurves := ellipticCurves }

/-- The body of an ec_point_formats extension. -/
def parseEllipticCurvePF (sex : List UInt8) : Parse (ClientHello → ClientHello) :=
  if sex.length < 1 then .error ⟨.lengthErr, 17⟩
  else do
    let ecpfsLen ← index sex 0
    let numPF := ecpfsLen.toNat
    let sex ← sliceFrom sex 1
    if sex.length ≠ numPF then .error ⟨.lengthErr, 18⟩
    else do
      let ellipticCurvePF ← (List.range numPF).mapM fun i => index sex i
      pure fun hello => { hello with ellipticCurvePF := ellipticCurvePF }

/-- The loops over `i < length` in steps of two that read `sex[start:][i:]`. -/
def parseList (sex : List UInt8) (start length : Nat) : Parse (List Nat) :=
  (List.range ((length + 1) / 2)).mapM fun i => do
    let values ← sliceFrom sex start
    let value ← sliceFrom values (i * 2)
    uint16At value 0

/-- The body of a supported_versions extension. -/
def parseVersions (sex : List UInt8) : Parse (ClientHello → ClientHello) :=
  if sex.length < 1 then .error ⟨.lengthErr, 19⟩
  else do
    let versionsLen ← index sex 0
    let versions ← parseList sex 1 versionsLen.toNat
    pure fun hello => { hello with versions := hello.versions ++ versions }

def parseSignatureAlgorithms (sex : List UInt8) : Parse (ClientHello → ClientHello) :=
  if sex.length < 2 then .error ⟨.lengthErr, 20⟩
  else do
    let ssaLen ← uint16At sex 0
    let signatureAlgorithms ← parseList sex 2 ssaLen
    pure fun hello =>
      { hello with signatureAlgorithms := hello.signatureAlgorithms ++ signatureAlgorithms }

/-- The switch on the type of an extension; the result is what it assigns. -/
def parseExtension (exType : Nat) (sex : List UInt8) : Parse (ClientHello → ClientHello) :=
  if exType = 0 then parseServerName sex
  else if exType = 10 then parseEllipticCurves sex
  else if exType = 11 then parseEllipticCurvePF sex
  else if exType = 43 then parseVersions sex
  else if exType = 13 then parseSignatureAlgorithms sex
  else pure id

/-- The loop of `parseExtensions`. The offset of the next extension is a 16 bit sum. -/
def parseExtensionsLoop : Nat → List UInt8 → ClientHello → Parse ClientHello
  | 0, _, _ => .unfinished
  | fuel + 1, exs, hello =>
    if exs.length = 0 then pure hello
    else if exs.length < 4 then .error ⟨.lengthErr, 11⟩
    else do
      let exType ← uint16At exs 0
      let exLen ← uint16At exs 2
      let hello := { hello with extensions := hello.extensions ++ [exType] }
      if exs.length < 4 + exLen then .error ⟨.lengthErr, 12⟩
      else do
        let sex ← slice exs 4 (4 + exLen)
        let assign ← parseExtension exType sex
        let exs ← sliceFrom exs ((4 + exLen) % 65536)
        parseExtensionsLoop fuel exs (assign hello)

/-- The start of `parseExtensions`, up to its loop. -/
def extensionList (exs : List UInt8) : Parse (List UInt8) :=
  if exs.length = 0 then pure []
  else if exs.length < 2 then .error ⟨.lengthErr, 9⟩
  else do
    let exsLen ← uint16At exs 0
    let exs ← sliceFrom exs 2
    if exs.length < exsLen then .error ⟨.lengthErr, 10⟩ else pure exs

/-- `ClientHello.parseExtensions`. -/
def parseExtensions (fuel : Nat) (exs : List UInt8) (hello : ClientHello) : Parse ClientHello := do
  let exs ← extensionList exs
  parseExtensionsLoop fuel exs hello

/-! ### Handshake and record -/

/-- `ClientHello.parseHandshake` up to the cipher suites. -/
def handshakeFields (hs : List UInt8) : Parse (Nat × List UInt8) :=
  if hs.length < 39 then .error ⟨.lengthErr, 3⟩
  else do
    let handshType ← index hs 0
    if handshType ≠ 1 then .error { errType := .handshakeTypeErr }
    else do
      let high ← index hs 1
      let handshakeLen ← uint16At hs 2
      let body ← sliceFrom hs 4
      if body.length ≠ high.toNat * 65536 + handshakeLen then .error ⟨.lengthErr, 4⟩
      else do
        let tlsVersion ← uint16At hs 4
        if badVersion tlsVersion then .error ⟨.versionErr, 2⟩
        else do
          let sessionIDLen ← index hs 38
          if hs.length < 39 + sessionIDLen.toNat then .error ⟨.lengthErr, 5⟩
          else do
            let cs ← sliceFrom hs (39 + sessionIDLen.toNat)
            pure (tlsVersion, cs)

/-- The cipher suites and compression methods, up to the extensions. -/
def cipherFields (cs : List UInt8) : Parse (List Nat × List UInt8) :=
  if cs.length < 2 then .error ⟨.lengthErr, 6⟩
  else do
    let csLen ← uint16At cs 0
    let numCiphers := csLen / 2
    if cs.length < 2 + csLen + 1 then .error ⟨.lengthErr, 7⟩
    else do
      let cipherSuites ← (List.range numCiphers).mapM fun i => uint16At cs (2 + i * 2)
      let compressMethodLen ← index cs (2 + csLen)
      if cs.length < 2 + csLen + 1 + compressMethodLen.toNat then .error ⟨.lengthErr, 8⟩
      else do
        let exs ← sliceFrom cs (2 + csLen + 1 + compressMethodLen.toNat)
        pure (cipherSuites, exs)

/-- `ClientHello.parseHandshake`. -/
def parseHandshake (fuel : Nat) (hs : List UInt8) : Parse ClientHello := do
  let (version, cs) ← handshakeFields hs
  let (cipherSuites, exs) ← cipherFields cs
  parseExtensions fuel exs { version := version, cipherSuites := cipherSuites }

/-- `ClientHello.parseSegment` up to the handshake. -/
def segmentHandshake (segment : List UInt8) : Parse (List UInt8) :=
  if segment.length < 5 then .error ⟨.lengthErr, 1⟩
  else do
    let contType ← index segment 0
    if contType ≠ 22 then .error { errType := .contentTypeErr }
    else do
      let tlsRecordVersion ← uint16At segment 1
      if badVersion tlsRecordVersion then .error ⟨.versionErr, 1⟩
      else do
        let segmentLen ← uint16At segment 3
        let body ← sliceFrom segment 5
        if body.length < segmentLen then .error ⟨.lengthErr, 2⟩
        else slice segment 5 (5 + segmentLen)

/-- `ClientHello.parseSegment`, which is all of `ja3.Compute`. -/
def compute (fuel : Nat) (payload : List UInt8) : Parse ClientHello := do
  let hs ← segmentHandshake payload
  parseHandshake fuel hs

/-! ### Sixteen bit values -/

theorem uint16_lt (high low : UInt8) : uint16 high low < 65536 := by
  have := high.toNat_lt
  have := low.toNat_lt
  rw [uint16]
  omega

section

variable {Error : Type} {xs : List UInt8} {i : Nat}

theorem ensures_uint16At (within : i + 1 < xs.length) :
    (uint16At xs i : Outcome Error Nat).Ensures (· < 65536) := by
  refine (ensures_index (by omega)).bind fun high _ => ?_
  exact (ensures_index within).bind fun low _ => uint16_lt high low

theorem returns_uint16At : (uint16At xs i : Outcome Error Nat).Returns ↔ i + 1 < xs.length := by
  refine ⟨fun returns => ?_, fun within => (ensures_uint16At within).returns⟩
  obtain ⟨first, rest⟩ := returns_bind.mp returns
  have second := rest _ (index_of_lt (returns_index.mp first))
  exact returns_index.mp (returns_bind.mp second).1

theorem plain_uint16At : (uint16At xs i : Outcome Error Nat).Plain :=
  plain_index.bind fun _ => plain_index.bind fun _ => trivial

end

/-! ### Lists that end inside their extension -/

/-- The list of a supported_versions or signature_algorithms extension, as long as its length
field says and rounded up to whole values, ends inside the extension. -/
def listsFit (exType : Nat) (sex : List UInt8) : Bool :=
  if exType = 43 then
    match sex with
    | [] => true
    | length :: list => (length.toNat + 1) / 2 * 2 ≤ list.length
  else if exType = 13 then
    match sex with
    | high :: low :: list => (uint16 high low + 1) / 2 * 2 ≤ list.length
    | _ => true
  else true

variable {sex exs rest : List UInt8} {fuel : Nat}

theorem returns_parseList {start length : Nat} (within : start ≤ sex.length) :
    (parseList sex start length).Returns ↔ start + (length + 1) / 2 * 2 ≤ sex.length := by
  have body (i : Nat) : (do
      let values ← sliceFrom sex start
      let value ← sliceFrom values (i * 2)
      uint16At value 0 : Parse Nat).Returns ↔ start + i * 2 + 1 < sex.length := by
    rw [sliceFrom, if_pos within, bind_value, returns_bind, returns_sliceFrom, length_drop]
    constructor
    · rintro ⟨inside, rest⟩
      have value := returns_uint16At.mp (rest _ (if_pos (by rw [length_drop]; exact inside)))
      rw [length_drop, length_drop] at value
      omega
    · intro inside
      refine ⟨by omega, fun value read => returns_uint16At.mpr ?_⟩
      have length := (ensures_sliceFrom (by rw [length_drop]; omega)).of_eq read
      rw [length, length_drop, length_drop]
      omega
  rw [parseList, returns_mapM]
  · constructor
    · intro each
      by_cases empty : (length + 1) / 2 = 0
      · omega
      · have last := (body _).mp (each ((length + 1) / 2 - 1) (mem_range.mpr (by omega)))
        omega
    · intro fits i member
      have := mem_range.mp member
      exact (body i).mpr (by omega)
  · exact fun i => plain_sliceFrom.bind fun _ => plain_sliceFrom.bind fun _ => plain_uint16At

theorem ensures_parseServerName (sex : List UInt8) :
    (parseServerName sex).Ensures fun _ => True := by
  refine ensures_ite_error fun long => ?_
  refine (ensures_index (by omega)).bind fun _ _ => ?_
  refine (ensures_uint16At (by omega)).bind fun _ _ => ?_
  refine (ensures_sliceFrom (by omega)).bind fun _ _ => ?_
  exact ensures_ite_error fun _ => ensures_ite_error fun _ => trivial

theorem ensures_parseEllipticCurves (sex : List UInt8) :
    (parseEllipticCurves sex).Ensures fun _ => True := by
  refine ensures_ite_error fun long => ?_
  refine (ensures_uint16At (by omega)).bind fun ecsLen _ => ?_
  refine (ensures_sliceFrom (by omega)).bind fun list _ => ?_
  refine ensures_ite_error fun exact => (ensures_mapM fun i member => ?_).bind fun _ _ => trivial
  have := mem_range.mp member
  exact returns_uint16At.mpr (by omega)

theorem ensures_parseEllipticCurvePF (sex : List UInt8) :
    (parseEllipticCurvePF sex).Ensures fun _ => True := by
  refine ensures_ite_error fun long => ?_
  refine (ensures_index (by omega)).bind fun ecpfsLen _ => ?_
  refine (ensures_sliceFrom (by omega)).bind fun list _ => ?_
  refine ensures_ite_error fun exact => (ensures_mapM fun i member => ?_).bind fun _ _ => trivial
  have := mem_range.mp member
  exact returns_index.mpr (by omega)

theorem returns_parseVersions (sex : List UInt8) :
    (parseVersions sex).Returns ↔ listsFit 43 sex = true := by
  cases sex with
  | nil => exact ⟨fun _ => rfl, fun _ => trivial⟩
  | cons length list =>
    show (parseList _ 1 _ >>= _).Returns ↔ decide _ = true
    rw [returns_bind, returns_parseList (Nat.succ_pos _), length_cons, decide_eq_true_eq]
    constructor
    · rintro ⟨fits, _⟩
      omega
    · exact fun fits => ⟨by omega, fun _ _ => trivial⟩

theorem returns_parseSignatureAlgorithms (sex : List UInt8) :
    (parseSignatureAlgorithms sex).Returns ↔ listsFit 13 sex = true := by
  match sex with
  | [] | [_] => exact ⟨fun _ => rfl, fun _ => trivial⟩
  | high :: low :: list =>
    show (parseList _ 2 _ >>= _).Returns ↔ decide _ = true
    rw [returns_bind, returns_parseList (Nat.le_add_left 2 _), length_cons, length_cons,
      decide_eq_true_eq]
    constructor
    · rintro ⟨fits, _⟩
      omega
    · exact fun fits => ⟨by omega, fun _ _ => trivial⟩

/-- An extension is parsed without a panic exactly if its lists end inside it. -/
theorem returns_parseExtension (exType : Nat) (sex : List UInt8) :
    (parseExtension exType sex).Returns ↔ listsFit exType sex = true := by
  rw [parseExtension]
  split
  next same =>
    rw [same]
    exact iff_of_true (ensures_parseServerName sex).returns rfl
  split
  next same =>
    rw [same]
    exact iff_of_true (ensures_parseEllipticCurves sex).returns rfl
  split
  next same =>
    rw [same]
    exact iff_of_true (ensures_parseEllipticCurvePF sex).returns rfl
  split
  next same =>
    rw [same]
    exact returns_parseVersions sex
  split
  next same =>
    rw [same]
    exact returns_parseSignatureAlgorithms sex
  next versions algorithms =>
    unfold listsFit
    rw [if_neg versions, if_neg algorithms]
    exact iff_of_true trivial rfl

/-! ### The extension loop -/

/-- The first extension of a list: its type, its body, and the extensions after it. -/
def splitExtension : List UInt8 → Option (Nat × List UInt8 × List UInt8)
  | typeHigh :: typeLow :: lenHigh :: lenLow :: exs =>
    if exs.length < uint16 lenHigh lenLow then none
    else some (uint16 typeHigh typeLow, exs.take (uint16 lenHigh lenLow),
      exs.drop (uint16 lenHigh lenLow))
  | _ => none

/-- The parser gets to an extension if it accepts all extensions before it. -/
inductive Reaches : List UInt8 → Nat → List UInt8 → Prop where
  | here {exs sex rest : List UInt8} {exType : Nat}
      (split : splitExtension exs = some (exType, sex, rest)) : Reaches exs exType sex
  | next {exs sex rest later : List UInt8} {exType laterType : Nat}
      {assign : ClientHello → ClientHello}
      (split : splitExtension exs = some (exType, sex, rest))
      (accepted : parseExtension exType sex = .value assign)
      (reached : Reaches rest laterType later) : Reaches exs laterType later

theorem parseExtensionsLoop_cons (fuel : Nat) (typeHigh typeLow lenHigh lenLow : UInt8)
    (exs : List UInt8) (hello : ClientHello) :
    parseExtensionsLoop (fuel + 1) (typeHigh :: typeLow :: lenHigh :: lenLow :: exs) hello =
      if exs.length < uint16 lenHigh lenLow then .error ⟨.lengthErr, 12⟩
      else
        parseExtension (uint16 typeHigh typeLow) (exs.take (uint16 lenHigh lenLow)) >>= fun assign =>
        sliceFrom (typeHigh :: typeLow :: lenHigh :: lenLow :: exs)
          ((4 + uint16 lenHigh lenLow) % 65536) >>= fun rest =>
        parseExtensionsLoop fuel rest
          (assign { hello with extensions := hello.extensions ++ [uint16 typeHigh typeLow] }) := by
  have length : (typeHigh :: typeLow :: lenHigh :: lenLow :: exs).length = exs.length + 4 := rfl
  show (if _ < 4 + uint16 lenHigh lenLow then _ else slice _ 4 _ >>= _) = _
  by_cases short : exs.length < uint16 lenHigh lenLow
  · rw [if_pos (by omega), if_pos short]
  · rw [if_neg (by omega), if_neg short, slice, if_pos ⟨by omega, by omega⟩,
      Nat.add_sub_cancel_left]
    rfl

theorem returns_parseExtensionsLoop_of_none (split : splitExtension exs = none) (fuel : Nat)
    (hello : ClientHello) : (parseExtensionsLoop (fuel + 1) exs hello).Returns := by
  match exs with
  | [] | [_] | [_, _] | [_, _, _] => trivial
  | typeHigh :: typeLow :: lenHigh :: lenLow :: exs =>
    rw [parseExtensionsLoop_cons]
    rw [splitExtension] at split
    split at split
    next short =>
      rw [if_pos short]
      trivial
    · cases split

theorem parseExtensionsLoop_of_some {exType : Nat}
    (split : splitExtension exs = some (exType, sex, rest)) (bound : exs.length < 65536)
    (fuel : Nat) (hello : ClientHello) : parseExtensionsLoop (fuel + 1) exs hello =
      (parseExtension exType sex >>= fun assign => parseExtensionsLoop fuel rest
        (assign { hello with extensions := hello.extensions ++ [exType] })) := by
  match exs with
  | typeHigh :: typeLow :: lenHigh :: lenLow :: exs =>
    rw [parseExtensionsLoop_cons]
    rw [splitExtension] at split
    split at split
    · cases split
    next long =>
      cases split
      -- The sum does not overflow: the extension ends inside a list shorter than 65536.
      have length : (typeHigh :: typeLow :: lenHigh :: lenLow :: exs).length = exs.length + 4 :=
        rfl
      have offset : (4 + uint16 lenHigh lenLow) % 65536 = 4 + uint16 lenHigh lenLow :=
        Nat.mod_eq_of_lt (by omega)
      rw [if_neg long, offset, sliceFrom, if_pos (by omega), Nat.add_comm 4]
      simp only [bind_value, drop_succ_cons]

theorem length_of_splitExtension {exType : Nat}
    (split : splitExtension exs = some (exType, sex, rest)) : rest.length < exs.length := by
  match exs with
  | typeHigh :: typeLow :: lenHigh :: lenLow :: exs =>
    rw [splitExtension] at split
    split at split
    · cases split
    · cases split
      simp only [length_drop, length_cons]
      omega

/-- The loop returns exactly if the lists of all extensions it gets to end inside them. -/
theorem returns_parseExtensionsLoop (enough : exs.length < fuel) (bound : exs.length < 65536)
    (hello : ClientHello) : (parseExtensionsLoop fuel exs hello).Returns ↔
      ∀ exType sex, Reaches exs exType sex → listsFit exType sex = true := by
  induction fuel generalizing exs hello with
  | zero => exact absurd enough (Nat.not_lt_zero _)
  | succ fuel ih =>
    cases split : splitExtension exs with
    | none =>
      refine iff_of_true (returns_parseExtensionsLoop_of_none split fuel hello) ?_
      intro exType sex reached
      cases reached with
      | here found => cases split.symm.trans found
      | next found => cases split.symm.trans found
    | some parts =>
      obtain ⟨exType, sex, rest⟩ := parts
      have shorter := length_of_splitExtension split
      have later (hello : ClientHello) : (parseExtensionsLoop fuel rest hello).Returns ↔ _ :=
        ih (by omega) (by omega) hello
      rw [parseExtensionsLoop_of_some split bound, returns_bind, returns_parseExtension]
      constructor
      · rintro ⟨fits, continues⟩ laterType body reached
        cases reached with
        | here found =>
          cases split.symm.trans found
          exact fits
        | next found accepted reached =>
          cases split.symm.trans found
          exact (later _).mp (continues _ accepted) _ _ reached
      · intro fits
        refine ⟨fits _ _ (.here split), fun assign accepted => (later _).mpr ?_⟩
        exact fun _ _ reached => fits _ _ (.next split accepted reached)

theorem continues_parseExtensionsLoop {more : Nat} (less : fuel ≤ more) (exs : List UInt8)
    (hello : ClientHello) :
    (parseExtensionsLoop fuel exs hello).Continues (parseExtensionsLoop more exs hello) := by
  induction fuel generalizing more exs hello with
  | zero => exact fun finished => absurd rfl finished
  | succ fuel ih =>
    obtain ⟨more, rfl⟩ : ∃ previous, more = previous + 1 := ⟨more - 1, by omega⟩
    match exs with
    | [] | [_] | [_, _] | [_, _, _] => exact fun _ => rfl
    | typeHigh :: typeLow :: lenHigh :: lenLow :: exs =>
      rw [parseExtensionsLoop_cons, parseExtensionsLoop_cons]
      split
      · exact fun _ => rfl
      · refine Continues.bind (fun assign => Continues.bind (fun rest => ?_) _) _
        exact ih (Nat.le_of_succ_le_succ less) _ _

/-! ### The parser -/

theorem ensures_extensionList (exs : List UInt8) :
    (extensionList exs).Ensures fun list => list.length ≤ exs.length := by
  rw [extensionList]
  split
  · exact Nat.zero_le _
  refine ensures_ite_error fun long => (ensures_uint16At (by omega)).bind fun _ _ => ?_
  refine (ensures_sliceFrom (by omega)).bind fun list same => ensures_ite_error fun _ => ?_
  show list.length ≤ exs.length
  rw [same, length_drop]
  omega

theorem ensures_cipherFields (cs : List UInt8) :
    (cipherFields cs).Ensures fun fields => fields.2.length ≤ cs.length := by
  refine ensures_ite_error fun long => (ensures_uint16At (by omega)).bind fun csLen _ => ?_
  refine ensures_ite_error fun long => (ensures_mapM fun i member => ?_).bind fun _ _ => ?_
  · have := mem_range.mp member
    exact returns_uint16At.mpr (by omega)
  refine (ensures_index (by omega)).bind fun compressMethodLen _ => ensures_ite_error fun long => ?_
  refine (ensures_sliceFrom (by omega)).bind fun exs same => ?_
  show exs.length ≤ cs.length
  rw [same, length_drop]
  omega

theorem ensures_handshakeFields (hs : List UInt8) :
    (handshakeFields hs).Ensures fun fields => fields.2.length ≤ hs.length := by
  refine ensures_ite_error fun long => (ensures_index (by omega)).bind fun _ _ => ?_
  refine ensures_ite_error fun _ => (ensures_index (by omega)).bind fun _ _ => ?_
  refine (ensures_uint16At (by omega)).bind fun _ _ => ?_
  refine (ensures_sliceFrom (by omega)).bind fun _ _ => ensures_ite_error fun _ => ?_
  refine (ensures_uint16At (by omega)).bind fun _ _ => ensures_ite_error fun _ => ?_
  refine (ensures_index (by omega)).bind fun sessionIDLen _ => ensures_ite_error fun _ => ?_
  refine (ensures_sliceFrom (by omega)).bind fun cs same => ?_
  show cs.length ≤ hs.length
  rw [same, length_drop]
  omega

theorem ensures_segmentHandshake (segment : List UInt8) :
    (segmentHandshake segment).Ensures fun hs => hs.length < 65536 ∧ hs.length ≤ segment.length := by
  refine ensures_ite_error fun long => (ensures_index (by omega)).bind fun _ _ => ?_
  refine ensures_ite_error fun _ => (ensures_uint16At (by omega)).bind fun _ _ => ?_
  refine ensures_ite_error fun _ => (ensures_uint16At (by omega)).bind fun segmentLen small => ?_
  refine (ensures_sliceFrom (by omega)).bind fun body same => ensures_ite_error fun _ => ?_
  have length : body.length = segment.length - 5 := by rw [same, length_drop]
  refine (ensures_slice (by omega) (by omega)).mono fun hs sliced => ?_
  omega

/-- The lists of all extensions that the parser gets to in a record end inside them. -/
def InRange (segment : List UInt8) : Prop :=
  ∀ hs version cs ciphers exs list,
    segmentHandshake segment = .value hs → handshakeFields hs = .value (version, cs) →
    cipherFields cs = .value (ciphers, exs) → extensionList exs = .value list →
    ∀ exType sex, Reaches list exType sex → listsFit exType sex = true

/-- The parser returns exactly if all those lists end inside their extensions. -/
theorem returns_compute {segment : List UInt8} (enough : segment.length < fuel) :
    (compute fuel segment).Returns ↔ InRange segment := by
  have record := ensures_segmentHandshake segment
  constructor
  · intro returns hs version cs ciphers exs list readHs readCs readExs readList
    have short := record.of_eq readHs
    have shortCs := (ensures_handshakeFields hs).of_eq readCs
    have shortExs := (ensures_cipherFields cs).of_eq readExs
    have shortList := (ensures_extensionList exs).of_eq readList
    rw [compute, readHs, bind_value, parseHandshake, readCs, bind_value] at returns
    dsimp only at returns shortCs shortExs
    rw [readExs, bind_value, parseExtensions, readList, bind_value] at returns
    exact (returns_parseExtensionsLoop (by omega) (by omega) _).mp returns
  · intro inRange
    refine returns_bind.mpr ⟨record.returns, fun hs readHs => ?_⟩
    refine returns_bind.mpr ⟨(ensures_handshakeFields hs).returns, fun (version, cs) readCs => ?_⟩
    refine returns_bind.mpr ⟨(ensures_cipherFields cs).returns, fun (ciphers, exs) readExs => ?_⟩
    refine returns_bind.mpr ⟨(ensures_extensionList exs).returns, fun list readList => ?_⟩
    have short := record.of_eq readHs
    have shortCs := (ensures_handshakeFields hs).of_eq readCs
    have shortExs := (ensures_cipherFields cs).of_eq readExs
    have shortList := (ensures_extensionList exs).of_eq readList
    dsimp only at shortCs shortExs
    refine (returns_parseExtensionsLoop (by omega) (by omega) _).mpr ?_
    exact inRange hs version cs ciphers exs list readHs readCs readExs readList

theorem continues_compute {more : Nat} (less : fuel ≤ more) (segment : List UInt8) :
    (compute fuel segment).Continues (compute more segment) := by
  refine Continues.bind (fun hs => Continues.bind (fun (_, cs) => Continues.bind ?_ _) _) _
  intro (_, exs)
  exact Continues.bind (fun list => continues_parseExtensionsLoop less _ _) _

end Ja3

end SingBox
