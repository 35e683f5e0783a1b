/-
This file follows an honest stream of records. The receiver expects what the sender
sends next: the next sequence number, or any number of the next epoch. So it accepts
every record, as long as the epoch, which starts at a random number of 32 bits, does
not wrap: the first record after the wrap is taken for a replayed one.
-/

import SingBox.RecordConn

namespace SingBox

open List Machine

namespace RecordConn

open BigEndian Session Sender Receiver

/-- The cipher opens what it has sealed, and adds its overhead. -/
structure Cipher.Works (cipher : Cipher) : Prop where
  opens : ∀ epoch nonce p additional,
    cipher.openWith epoch nonce (cipher.sealWith epoch nonce p additional) additional = some p
  length : ∀ epoch nonce p additional,
    (cipher.sealWith epoch nonce p additional).length = p.length + overhead

variable {cipher : Cipher} {random : Nat → UInt64}

/-! ### Frames -/

theorem length_header (record : Record) : record.header.length = recordHeaderSize := by
  rfl

theorem parse_header (record : Record) : parse (record.header ++ record.ciphertext) = record := by
  have front : (record.header ++ record.ciphertext).take recordHeaderSize = record.header := by
    rw [← length_header record, take_left]
  have back : (record.header ++ record.ciphertext).drop recordHeaderSize = record.ciphertext := by
    rw [← length_header record, drop_left]
  have epoch : (record.header ++ record.ciphertext).take 4 = put 4 record.epoch.toNat := by
    exact take_left' (length_put _ _)
  have seq : record.header.drop 4 = put 8 record.seq.toNat := by
    exact drop_left' (length_put _ _)
  rw [parse, front, back, epoch, seq, get_put record.epoch.toNat_lt,
    get_put record.seq.toNat_lt, UInt32.ofNat_toNat, UInt64.ofNat_toNat]

/-- A record whose length fits its field. -/
def Record.Fits (record : Record) : Prop :=
  recordHeaderSize + record.ciphertext.length ≤ maxFrameBodySize

theorem Record.length_frame (record : Record) :
    record.frame.length = 2 + (recordHeaderSize + record.ciphertext.length) := by
  rw [Record.frame, length_append, length_append, length_put, length_header]

variable {record : Record} {receiver : Receiver} {arrived chunk : List UInt8} {sender : Sender}
  {length total updates : Nat}

theorem Record.Fits.get_length (fits : record.Fits) :
    BigEndian.get (BigEndian.put 2 (recordHeaderSize + record.ciphertext.length)) =
      recordHeaderSize + record.ciphertext.length :=
  BigEndian.get_put (Nat.lt_of_le_of_lt fits (by decide))

theorem read_frame (fits : record.Fits) (empty : receiver.readBuf = []) (size : Nat)
    (rest : List UInt8) : receiver.read cipher size (record.frame ++ rest) =
      match receiver.accept cipher record with
      | .error err => (.error err, receiver, rest)
      | .ok accepted => (.bytes (accepted.readBuf.take size),
          { accepted with readBuf := accepted.readBuf.drop size }, rest) := by
  have length := record.length_frame
  have front : (record.frame ++ rest).take 2 =
      BigEndian.put 2 (recordHeaderSize + record.ciphertext.length) := by
    exact take_left' (BigEndian.length_put _ _)
  have body : ((record.frame ++ rest).drop 2).take (recordHeaderSize + record.ciphertext.length) =
      record.header ++ record.ciphertext := by
    rw [Record.frame, append_assoc, drop_left' (BigEndian.length_put _ _)]
    exact take_left' (by rw [length_append, length_header])
  have left : (record.frame ++ rest).drop (2 + (recordHeaderSize + record.ciphertext.length)) =
      rest := drop_left' length
  rw [Receiver.read, if_neg (not_not.mpr empty)]
  dsimp only
  rw [front, fits.get_length, body, left, parse_header, length_append, length,
    if_neg (by omega), if_neg (by omega)]
  exact if_neg (by omega)

/-- `Read` waits while a frame has not arrived completely. -/
theorem read_part (fits : record.Fits) (empty : receiver.readBuf = []) (size : Nat)
    (part : arrived <+: record.frame) (short : arrived.length < record.frame.length) :
    receiver.read cipher size arrived = (.waits, receiver, arrived) := by
  rw [Receiver.read, if_neg (not_not.mpr empty)]
  by_cases few : arrived.length < 2
  · rw [if_pos few]
  · have front : arrived.take 2 =
        BigEndian.put 2 (recordHeaderSize + record.ciphertext.length) := by
      obtain ⟨rest, whole⟩ := part
      have taken := congrArg (List.take 2) whole
      rw [take_append_of_le_length (by omega), Record.frame,
        take_left' (BigEndian.length_put _ _)] at taken
      exact taken
    rw [if_neg few, front, fits.get_length, if_neg (by omega),
      if_pos (by rw [record.length_frame] at short; exact short)]

/-! ### Chunks -/

/-- A chunk that `Write` puts into a record. -/
def Chunk (chunk : List UInt8) : Prop := chunk ≠ [] ∧ chunk.length ≤ maxPlain

theorem flatten_chunks (rounds : Nat) (p : List UInt8) (enough : p.length ≤ rounds) :
    (chunks rounds p).flatten = p := by
  induction rounds generalizing p with
  | zero =>
    rw [length_eq_zero_iff.mp (Nat.le_zero.mp enough)]
    rfl
  | succ rounds ih =>
    rw [chunks]
    split_ifs with finished
    · rw [finished]
      rfl
    · have shorter : (p.drop maxPlain).length ≤ rounds := by
        rw [length_drop]
        simp only [maxPlain, maxFrameBodySize, recordHeaderSize, overhead]
        omega
      rw [flatten_cons, ih _ shorter, take_append_drop]

theorem chunk_of_mem {rounds : Nat} {p : List UInt8} (member : chunk ∈ chunks rounds p) :
    Chunk chunk := by
  induction rounds generalizing p with
  | zero => cases member
  | succ rounds ih =>
    rw [chunks] at member
    split_ifs at member with finished
    · cases member
    · rcases mem_cons.mp member with rfl | later
      · refine ⟨fun empty => ?_, length_take_le _ _⟩
        rcases take_eq_nil_iff.mp empty with none | nothing
        · exact absurd none (by decide)
        · exact finished nothing
      · exact ih later

theorem Sender.fits_record (works : cipher.Works) (sender : Sender) (small : Chunk chunk) :
    (sender.record cipher chunk).Fits := by
  have short := small.2
  show recordHeaderSize + (cipher.sealWith _ _ _ _).length ≤ maxFrameBodySize
  rw [works.length]
  simp only [maxPlain, maxFrameBodySize, recordHeaderSize, overhead] at short ⊢
  omega

/-! ### What the receiver expects -/

/-- After a record the sender has the next sequence number, or the next epoch. -/
theorem Sender.next_cases (random : Nat → UInt64) (sender : Sender) (length : Nat) :
    ((sender.next random length).sendEpoch = sender.sendEpoch ∧
        (sender.next random length).sendSeq = sender.sendSeq + 1 ∧
        (sender.next random length).drawn = sender.drawn) ∨
      ((sender.next random length).sendEpoch = sender.sendEpoch + 1 ∧
        (sender.next random length).drawn = sender.drawn + 1) := by
  rw [next, maybeBumpSendEpochLocked, if_neg (by decide)]
  dsimp only
  split_ifs
  · exact .inl ⟨rfl, rfl, rfl⟩
  · exact .inr ⟨rfl, rfl⟩

theorem Sender.drawn_le_after (random : Nat → UInt64) (sender : Sender)
    (chunks : List (List UInt8)) : sender.drawn ≤ (sender.after random chunks).drawn := by
  induction chunks generalizing sender with
  | nil => exact le_rfl
  | cons chunk rest ih =>
    refine Nat.le_trans ?_ (ih (sender.next random chunk.length))
    rcases sender.next_cases random chunk.length with ⟨-, -, same⟩ | ⟨-, more⟩
    · rw [same]
    · rw [more]
      exact Nat.le_succ _

/-- The receiver expects what the sender sends next. -/
def Receiver.Expects (receiver : Receiver) (sender : Sender) : Prop :=
  receiver.recvInitialized = false ∨
    (sender.sendEpoch = receiver.recvEpoch ∧ sender.sendSeq = receiver.recvSeq) ∨
    sender.sendEpoch.toNat = receiver.recvEpoch.toNat + 1

theorem Receiver.Expects.validate (expects : receiver.Expects sender) :
    receiver.validateRecvPosition sender.sendEpoch sender.sendSeq = none := by
  rw [validateRecvPosition]
  by_cases fresh : receiver.recvInitialized = false
  · rw [if_pos fresh]
  · rw [if_neg fresh]
    rcases expects with unseen | ⟨epoch, seq⟩ | later
    · exact absurd unseen fresh
    · rw [epoch, seq, if_neg (UInt32.lt_irrefl _), if_neg (fun wrong => wrong.2 rfl),
        if_neg (fun wrong => UInt32.lt_irrefl _ wrong.1)]
    · have above : receiver.recvEpoch < sender.sendEpoch := by
        rw [UInt32.lt_iff_toNat_lt]
        omega
      have one : (sender.sendEpoch - receiver.recvEpoch).toNat = 1 := by
        rw [UInt32.toNat_sub_of_le _ _ (UInt32.le_of_lt above)]
        omega
      have near : ¬ sender.sendEpoch - receiver.recvEpoch > maxJump := by
        intro far
        have wrong := UInt32.lt_iff_toNat_lt.mp far
        rw [one] at wrong
        exact absurd wrong (by decide)
      rw [if_neg (UInt32.lt_asymm above),
        if_neg (fun wrong => UInt32.lt_irrefl _ (wrong.1 ▸ above)),
        if_neg (fun wrong => near wrong.2)]

theorem Receiver.Expects.accept (works : cipher.Works) (expects : receiver.Expects sender)
    (chunk : List UInt8) : receiver.accept cipher (sender.record cipher chunk) =
      .ok { recvEpoch := sender.sendEpoch
            recvSeq := sender.sendSeq + 1
            recvInitialized := true
            readBuf := receiver.readBuf ++ chunk } := by
  dsimp only [Receiver.accept, Sender.record, Record.header]
  rw [expects.validate, works.opens]
  rfl

/-- After a record the receiver expects the next one, unless the epoch has wrapped. -/
theorem expects_next (random : Nat → UInt64) (length : Nat)
    (epoch : receiver.recvEpoch = sender.sendEpoch) (seq : receiver.recvSeq = sender.sendSeq + 1)
    (unwrapped : (sender.next random length).drawn = sender.drawn + 1 →
      sender.sendEpoch.toNat + 1 < 2 ^ 32) : receiver.Expects (sender.next random length) := by
  rcases sender.next_cases random length with ⟨same, counted, -⟩ | ⟨later, drawn⟩
  · exact .inr (.inl ⟨same.trans epoch.symm, counted.trans seq.symm⟩)
  · refine .inr (.inr ?_)
    rw [later, epoch, UInt32.toNat_add]
    exact Nat.mod_eq_of_lt (unwrapped drawn)

/-! ### The invariant -/

/-- The chunks on the way come from the sender as it was when the first of them was sent, and
the receiver expects that sender. -/
structure Follows (cipher : Cipher) (random : Nat → UInt64) (start : UInt32) (session : Session)
    (origin : Sender) (waiting : List (List UInt8)) : Prop where
  wire : session.arrived ++ session.inFlight =
    (origin.records cipher random waiting).flatMap Record.frame
  sender : session.sender = origin.after random waiting
  chunks : ∀ chunk ∈ waiting, Chunk chunk
  bytes : session.returned ++ (session.receiver.readBuf ++ waiting.flatten) =
    session.written.flatten
  epoch : origin.sendEpoch.toNat = start.toNat + origin.drawn
  expects : session.receiver.Expects origin
  errors : session.errors = []

theorem Sender.records_append (sender : Sender) (first second : List (List UInt8)) :
    sender.records cipher random (first ++ second) =
      sender.records cipher random first ++
        (sender.after random first).records cipher random second := by
  induction first generalizing sender with
  | nil => rfl
  | cons chunk rest ih =>
    exact congrArg (_ :: ·) (ih _)

variable {start : UInt32} {session : Session} {origin : Sender} {waiting : List (List UInt8)}

theorem Follows.write (follows : Follows cipher random start session origin waiting)
    (p : List UInt8) :
    Follows cipher random start (session.write cipher random p) origin
      (waiting ++ RecordConn.chunks p.length p) := by
  refine { follows with wire := ?_, sender := ?_, chunks := ?_, bytes := ?_ }
  · show session.arrived ++ (session.inFlight ++ _) = _
    rw [← append_assoc, follows.wire, records_append, flatMap_append, follows.sender]
  · show session.sender.after random (RecordConn.chunks p.length p) = _
    rw [follows.sender, Sender.after, Sender.after, Sender.after, foldl_append]
  · intro chunk member
    rcases mem_append.mp member with old | fresh
    · exact follows.chunks chunk old
    · exact chunk_of_mem fresh
  · show session.returned ++ (session.receiver.readBuf ++ _) = (session.written ++ [p]).flatten
    rw [flatten_append, flatten_chunks p.length p le_rfl, ← append_assoc,
      ← append_assoc, append_assoc session.returned, follows.bytes, flatten_append,
      flatten_singleton]

theorem Follows.arrive (follows : Follows cipher random start session origin waiting)
    (count : Nat) :
    Follows cipher random start (session.step cipher random (.arrive count)) origin waiting := by
  refine { follows with wire := ?_ }
  show session.arrived ++ session.inFlight.take count ++ session.inFlight.drop count = _
  rw [append_assoc, take_append_drop]
  exact follows.wire

/-- The first frame has arrived, or a part of it. -/
theorem front_cases {later frame rest : List UInt8} (whole : arrived ++ later = frame ++ rest) :
    (∃ extra, arrived = frame ++ extra ∧ extra ++ later = rest) ∨
      (arrived <+: frame ∧ arrived.length < frame.length) := by
  rcases Nat.lt_or_ge arrived.length frame.length with short | long
  · refine .inr ⟨?_, short⟩
    exact prefix_of_prefix_length_le (whole ▸ prefix_append _ _)
      (prefix_append _ _) (Nat.le_of_lt short)
  · obtain ⟨extra, rfl⟩ : frame <+: arrived :=
      prefix_of_prefix_length_le (prefix_append frame rest)
        (whole ▸ prefix_append arrived later) long
    rw [append_assoc] at whole
    exact .inl ⟨extra, rfl, append_cancel_left whole⟩

theorem Follows.read (works : cipher.Works)
    (follows : Follows cipher random start session origin waiting)
    (unwrapped : start.toNat + session.sender.drawn < 2 ^ 32) (size : Nat) :
    ∃ origin waiting, Follows cipher random start (session.read cipher size) origin waiting := by
  by_cases buffered : session.receiver.readBuf ≠ []
  · refine ⟨origin, waiting, ?_⟩
    rw [Session.read, Receiver.read, if_pos buffered]
    refine { follows with bytes := ?_, expects := follows.expects }
    rw [append_assoc, ← append_assoc (session.receiver.readBuf.take size), take_append_drop]
    exact follows.bytes
  · have empty := not_not.mp buffered
    cases waiting with
    | nil =>
      have nothing : session.arrived = [] := (append_eq_nil_iff.mp follows.wire).1
      refine ⟨origin, [], ?_⟩
      have waits : session.receiver.read cipher size session.arrived =
          (.waits, session.receiver, session.arrived) := by
        rw [Receiver.read, if_neg buffered, nothing]
        rfl
      rw [Session.read, waits]
      exact { follows with }
    | cons chunk rest =>
      have small := follows.chunks chunk mem_cons_self
      have fits := origin.fits_record works small
      rcases front_cases follows.wire with ⟨extra, arrived, wire⟩ | ⟨part, short⟩
      · refine ⟨origin.next random chunk.length, rest, ?_⟩
        rw [Session.read, arrived, read_frame fits empty, follows.expects.accept works]
        have drawn := Sender.drawn_le_after random (origin.next random chunk.length) rest
        have sender : session.sender = (origin.next random chunk.length).after random rest :=
          follows.sender
        rw [← sender] at drawn
        have epoch := follows.epoch
        refine ⟨wire, sender, fun other member => follows.chunks other
          (mem_cons_of_mem _ member), ?_, ?_, expects_next random _ rfl rfl fun more => ?_,
          follows.errors⟩
        · have bytes := follows.bytes
          rw [empty, nil_append, flatten_cons] at bytes
          rw [empty, nil_append, append_assoc, ← append_assoc (List.take size chunk),
            take_append_drop]
          exact bytes
        · rcases origin.next_cases random chunk.length with ⟨same, -, equal⟩ | ⟨later, more⟩
          · rw [same, equal]
            exact epoch
          · rw [later, more, UInt32.toNat_add, epoch, ← Nat.add_assoc]
            exact Nat.mod_eq_of_lt (show start.toNat + origin.drawn + 1 < 2 ^ 32 by omega)
        · omega
      · refine ⟨origin, chunk :: rest, ?_⟩
        rw [Session.read, read_part fits empty size part short]
        exact { follows with }

theorem sender_read (session : Session) (size : Nat) :
    (session.read cipher size).sender = session.sender := by
  rw [Session.read]
  generalize session.receiver.read cipher size session.arrived = result
  obtain ⟨outcome, receiver, rest⟩ := result
  cases outcome <;> rfl

theorem follows_run (works : cipher.Works) (random : Nat → UInt64) (sendEpoch : UInt32)
    (sendSeq : UInt64) (events : List Event)
    (unwrapped : sendEpoch.toNat +
      (run cipher random sendEpoch sendSeq events).sender.drawn < 2 ^ 32) :
    ∃ origin waiting, Follows cipher random sendEpoch
      (run cipher random sendEpoch sendSeq events) origin waiting := by
  refine invariant_events
    (fun session : Session => sendEpoch.toNat + session.sender.drawn < 2 ^ 32 →
      ∃ origin waiting, Follows cipher random sendEpoch session origin waiting)
    (fun _ => ⟨{ sendEpoch, sendSeq }, [], ?_⟩) ?_ events unwrapped
  · exact ⟨rfl, rfl, nofun, rfl, rfl, .inl rfl, rfl⟩
  · intro session event holds below
    cases event with
    | write p =>
      obtain ⟨origin, waiting, follows⟩ := holds (Nat.lt_of_le_of_lt (Nat.add_le_add_left
        (drawn_le_after random session.sender (chunks p.length p)) _) below)
      exact ⟨_, _, follows.write p⟩
    | arrive count =>
      obtain ⟨origin, waiting, follows⟩ := holds below
      exact ⟨_, _, follows.arrive count⟩
    | read size =>
      rw [step, sender_read] at below
      obtain ⟨origin, waiting, follows⟩ := holds below
      exact follows.read works below size

/-- `Read` returns something as soon as there is something in the buffer, or the first frame on the
way has arrived. -/
theorem Follows.grows (works : cipher.Works)
    (follows : Follows cipher random start session origin waiting) {size : Nat} (space : 0 < size)
    (ready : session.receiver.readBuf ≠ [] ∨ ∃ chunk ∈ waiting.head?,
      (origin.record cipher chunk).frame.length ≤ session.arrived.length) :
    session.returned.length < (session.read cipher size).returned.length := by
  have taken {bytes : List UInt8} (nonempty : bytes ≠ []) : 0 < (bytes.take size).length := by
    rw [length_take]
    exact Nat.lt_min.mpr ⟨space, length_pos_iff.mpr nonempty⟩
  by_cases buffered : session.receiver.readBuf ≠ []
  · rw [Session.read, Receiver.read, if_pos buffered]
    dsimp only
    rw [length_append]
    exact Nat.lt_add_of_pos_right (taken buffered)
  · obtain ⟨chunk, first, whole⟩ := ready.resolve_left buffered
    obtain ⟨rest, rfl⟩ := head?_eq_some_iff.mp first
    have small := follows.chunks chunk mem_cons_self
    rcases front_cases follows.wire with ⟨extra, arrived, -⟩ | ⟨-, short⟩
    · have empty := not_not.mp buffered
      rw [Session.read, arrived, read_frame (origin.fits_record works small) empty,
        follows.expects.accept works, empty, nil_append]
      dsimp only
      rw [length_append]
      exact Nat.lt_add_of_pos_right (taken small.1)
    · omega

/-- As long as the epoch has not wrapped, `Read` reports no error, and what it returns is a front
of what was written. The rest is in the buffer or on the way in records of the sender, and the
next `Read` returns some of it when the first of these records has arrived. -/
theorem record_stream (works : cipher.Works) (random : Nat → UInt64) (sendEpoch : UInt32)
    (sendSeq : UInt64) (events : List Event)
    (unwrapped : sendEpoch.toNat +
      (run cipher random sendEpoch sendSeq events).sender.drawn < 2 ^ 32) :
    let session := run cipher random sendEpoch sendSeq events
    session.errors = [] ∧ session.returned <+: session.written.flatten ∧
      ∃ (origin : Sender) (waiting : List (List UInt8)),
        session.arrived ++ session.inFlight =
          (origin.records cipher random waiting).flatMap Record.frame ∧
        session.returned ++ (session.receiver.readBuf ++ waiting.flatten) =
          session.written.flatten ∧
        ∀ size > 0, (session.receiver.readBuf ≠ [] ∨ ∃ chunk ∈ waiting.head?,
            (origin.record cipher chunk).frame.length ≤ session.arrived.length) →
          session.returned.length < (session.read cipher size).returned.length := by
  obtain ⟨origin, waiting, follows⟩ := follows_run works random sendEpoch sendSeq events unwrapped
  exact ⟨follows.errors, follows.bytes ▸ prefix_append _ _, origin, waiting, follows.wire,
    follows.bytes, fun size space ready => follows.grows works space ready⟩

/-! ### The wrap of the epoch -/

/-- A cipher that adds its overhead and nothing else. -/
def plainCipher : Cipher where
  sealWith _ _ p _ := p ++ List.replicate overhead 0
  openWith _ _ ciphertext _ := some (ciphertext.take (ciphertext.length - overhead))

theorem works_plainCipher : plainCipher.Works where
  opens epoch nonce p additional := by simp [plainCipher]
  length epoch nonce p additional := by simp [plainCipher]

theorem record_stream_threeBytes :
    (run plainCipher (fun _ => 5) 7 9
        [.write [1, 2, 3], .arrive 40, .read 2, .read 2]).returned = [1, 2, 3] ∧
      (run plainCipher (fun _ => 5) 7 9
        [.write [1, 2, 3], .arrive 40, .read 2, .read 2]).errors = [] ∧
      [1, 2, 3] <+: (run plainCipher (fun _ => 5) 7 9
        [.write [1, 2, 3], .arrive 40, .read 2, .read 2]).written.flatten := by
  have returned : (run plainCipher (fun _ => 5) 7 9
      [.write [1, 2, 3], .arrive 40, .read 2, .read 2]).returned = [1, 2, 3] := by decide +kernel
  have stream := record_stream works_plainCipher (fun _ => 5) 7 9
    [.write [1, 2, 3], .arrive 40, .read 2, .read 2] (by decide +kernel)
  exact ⟨returned, stream.1, returned ▸ stream.2.1⟩

/-- A buffer that fills a record. -/
def fullChunk : List UInt8 := List.replicate maxPlain 0

theorem length_fullChunk : fullChunk.length = maxPlain := length_replicate

theorem chunk_fullChunk : Chunk fullChunk :=
  ⟨fun empty => absurd (length_fullChunk.symm.trans (congrArg List.length empty)) (by decide),
    Nat.le_of_eq length_fullChunk⟩

theorem chunks_fullChunk : chunks maxPlain fullChunk = [fullChunk] := by
  have whole : fullChunk.take maxPlain = fullChunk :=
    take_of_length_le (Nat.le_of_eq length_fullChunk)
  have nothing : fullChunk.drop maxPlain = [] :=
    drop_of_length_le (Nat.le_of_eq length_fullChunk)
  show (if fullChunk = [] then [] else _) = _
  rw [if_neg chunk_fullChunk.1, whole, nothing]
  rfl

/-- A full record is written, arrives and is read. -/
def fullRecord : List Event := [.write fullChunk, .arrive 65537, .read maxPlain]

/-- Everything that was written has been read. -/
structure Settled (sender : Sender) (session : Session) : Prop where
  sender : session.sender = sender
  readBuf : session.receiver.readBuf = []
  inFlight : session.inFlight = []
  arrived : session.arrived = []

/-- A session in which everything was read, just before a full record is read. -/
theorem Settled.before_read (works : cipher.Works) (settled : Settled sender session) :
    drive (Session.step cipher random) session fullRecord =
      { session with
        sender := sender.next random maxPlain
        written := session.written ++ [fullChunk]
        arrived := (sender.record cipher fullChunk).frame }.read cipher maxPlain := by
  have length : (sender.record cipher fullChunk).frame.length = 65537 := by
    rw [Record.length_frame]
    show 2 + (recordHeaderSize + (cipher.sealWith _ _ _ _).length) = 65537
    rw [works.length, length_fullChunk]
    rfl
  refine congrArg (fun session => Session.read cipher session maxPlain) ?_
  simp only [Session.step, Session.write, chunks_fullChunk, settled.sender, settled.inFlight,
    settled.arrived, Sender.records, flatMap_cons, flatMap_nil, append_nil,
    nil_append, Sender.after, foldl_cons, foldl_nil, length_fullChunk]
  rw [take_of_length_le (Nat.le_of_eq length), drop_of_length_le (Nat.le_of_eq length)]

theorem Settled.accepts (random : Nat → UInt64) (works : cipher.Works)
    (settled : Settled sender session) (expects : session.receiver.Expects sender) :
    Settled (sender.next random maxPlain)
        (drive (step cipher random) session fullRecord) ∧
      (drive (step cipher random) session fullRecord).receiver =
        { recvEpoch := sender.sendEpoch, recvSeq := sender.sendSeq + 1, recvInitialized := true } ∧
      (drive (step cipher random) session fullRecord).errors = session.errors := by
  have read := @read_frame cipher _ _ (sender.fits_record works chunk_fullChunk)
    settled.readBuf maxPlain []
  rw [append_nil, expects.accept works, settled.readBuf, nil_append] at read
  have nothing : fullChunk.drop maxPlain = [] :=
    drop_of_length_le (Nat.le_of_eq length_fullChunk)
  rw [settled.before_read works, Session.read]
  dsimp only at read ⊢
  rw [read, nothing]
  exact ⟨⟨rfl, rfl, settled.inFlight, rfl⟩, rfl, rfl⟩

theorem Settled.replays (works : cipher.Works) (settled : Settled sender session)
    (initialized : session.receiver.recvInitialized = true)
    (below : sender.sendEpoch < session.receiver.recvEpoch) :
    (drive (step cipher random) session fullRecord).errors =
      session.errors ++ [.replayedEpoch sender.sendEpoch session.receiver.recvEpoch] := by
  have read := @read_frame cipher _ _ (sender.fits_record works chunk_fullChunk)
    settled.readBuf maxPlain []
  have invalid : session.receiver.validateRecvPosition (sender.record cipher fullChunk).epoch
      (sender.record cipher fullChunk).seq =
        some (.replayedEpoch sender.sendEpoch session.receiver.recvEpoch) := by
    rw [validateRecvPosition, if_neg (by rw [initialized]; exact nofun)]
    exact if_pos below
  rw [append_nil, Receiver.accept, invalid] at read
  rw [settled.before_read works, Session.read]
  rw [read]

/-- The counters of a sender: the bytes it has sent and the updates it has made. -/
structure Sender.Counts (sender : Sender) (total updates : Nat) : Prop where
  sendBytes : sender.sendBytes = Int64.ofNat total
  sendEpochUpdates : sender.sendEpochUpdates = UInt32.ofNat updates
  drawn : sender.drawn = updates

section

variable (counts : sender.Counts total updates) (random) (few : updates + 1 < 2 ^ 32)

include counts random few

/-- What a record does to the counters, while they do not overflow. -/
theorem Sender.Counts.next (small : total + length < 2 ^ 62) : sender.next random length =
      if total + length < 33554432 * (updates + 1) then
        { sender with
          sendSeq := sender.sendSeq + 1, sendBytes := Int64.ofNat (total + length) }
      else
        { sendEpoch := sender.sendEpoch + 1
          sendSeq := random sender.drawn
          sendBytes := Int64.ofNat (total + length)
          sendEpochUpdates := UInt32.ofNat (updates + 1)
          drawn := sender.drawn + 1 } := by
  have bytes : sender.sendBytes + Int64.ofNat length = Int64.ofNat (total + length) := by
    rw [counts.sendBytes, Int64.ofNat_add]
  have updated : sender.sendEpochUpdates + 1 = UInt32.ofNat (updates + 1) := by
    rw [counts.sendEpochUpdates, UInt32.ofNat_add]
    rfl
  have threshold : keyUpdateAfterBytes * Int64.ofNat (UInt32.ofNat (updates + 1)).toNat =
      Int64.ofNat (33554432 * (updates + 1)) := by
    rw [UInt32.toNat_ofNat', Nat.mod_eq_of_lt few, Int64.ofNat_mul]
    rfl
  have compared : Int64.ofNat (total + length) < Int64.ofNat (33554432 * (updates + 1)) ↔
      total + length < 33554432 * (updates + 1) := by
    rw [Int64.lt_iff_toInt_lt, Int64.toInt_ofNat_of_lt (by omega),
      Int64.toInt_ofNat_of_lt (by omega)]
    exact Int.ofNat_lt
  rw [Sender.next, Sender.maybeBumpSendEpochLocked, if_neg (by decide)]
  rw [bytes, updated, threshold]
  simp only [compared]

/-- A record between two updates. -/
theorem Sender.Counts.keep (below : total + length < 33554432 * (updates + 1)) :
    (sender.next random length).Counts (total + length) updates ∧
      (sender.next random length).sendEpoch = sender.sendEpoch ∧
      (sender.next random length).sendSeq = sender.sendSeq + 1 := by
  rw [counts.next random few (by omega), if_pos below]
  exact ⟨⟨rfl, counts.sendEpochUpdates, counts.drawn⟩, rfl, rfl⟩

/-- A record that brings an update. -/
theorem Sender.Counts.update (small : total + length < 2 ^ 62)
    (reached : 33554432 * (updates + 1) ≤ total + length) :
    (sender.next random length).Counts (total + length) (updates + 1) ∧
      (sender.next random length).sendEpoch = sender.sendEpoch + 1 := by
  rw [counts.next random few small, if_neg (Nat.not_lt.mpr reached)]
  exact ⟨⟨rfl, rfl, congrArg (· + 1) counts.drawn⟩, rfl⟩

end

def senderAfter (random : Nat → UInt64) (sender : Sender) (count : Nat) : Sender :=
  (fun sender => sender.next random maxPlain)^[count] sender

theorem senderAfter_succ (random : Nat → UInt64) (sender : Sender) (count : Nat) :
    senderAfter random sender (count + 1) = (senderAfter random sender count).next random maxPlain :=
  Function.iterate_succ_apply' _ _ _

section

variable (counts : sender.Counts total updates) (random : Nat → UInt64) (count : Nat)
  (few : updates + 1 < 2 ^ 32) (below : total + count * maxPlain < 33554432 * (updates + 1))

include counts few below

/-- Full records between two updates. -/
theorem Sender.Counts.between :
    (senderAfter random sender count).Counts (total + count * maxPlain) updates ∧
      (senderAfter random sender count).sendEpoch = sender.sendEpoch := by
  induction count with
  | zero =>
    exact ⟨counts, rfl⟩
  | succ count ih =>
    rw [Nat.succ_mul, ← Nat.add_assoc] at below ⊢
    obtain ⟨before, epoch⟩ := ih (by omega)
    obtain ⟨kept, same, -⟩ := before.keep random few below
    rw [senderAfter_succ]
    exact ⟨kept, same.trans epoch⟩

/-- Full records up to an update. -/
theorem Sender.Counts.upTo (small : total + count * maxPlain + maxPlain < 2 ^ 62)
    (reached : 33554432 * (updates + 1) ≤ total + count * maxPlain + maxPlain) :
    (senderAfter random sender (count + 1)).Counts (total + count * maxPlain + maxPlain)
        (updates + 1) ∧
      (senderAfter random sender (count + 1)).sendEpoch = sender.sendEpoch + 1 := by
  obtain ⟨before, epoch⟩ := counts.between random count few below
  obtain ⟨updated, next⟩ := before.update random few small reached
  rw [senderAfter_succ]
  exact ⟨updated, next.trans (congrArg (· + 1) epoch)⟩

end

/-- The updates in the first full records. -/
theorem senderAfter_updates (random : Nat → UInt64) (sendEpoch : UInt32) (sendSeq : UInt64) :
    (senderAfter random { sendEpoch, sendSeq } 1024).drawn = 1 ∧
      (senderAfter random { sendEpoch, sendSeq } 1024).sendEpoch = sendEpoch + 1 ∧
      (senderAfter random { sendEpoch, sendSeq } 1025).sendEpoch = sendEpoch + 1 + 1 := by
  have start : Sender.Counts { sendEpoch, sendSeq } 0 0 := ⟨rfl, rfl, rfl⟩
  obtain ⟨first, epoch⟩ := start.upTo random 512 (by decide) (by decide) (by decide) (by decide)
  obtain ⟨between, same⟩ := first.between random 511 (by decide) (by decide)
  obtain ⟨-, later⟩ := first.upTo random 511 (by decide) (by decide) (by decide) (by decide)
  rw [senderAfter, senderAfter, ← Function.iterate_add_apply] at between same later
  exact ⟨between.drawn, same.trans epoch, later.trans (congrArg (· + 1) epoch)⟩

/-- As long as the epoch has not wrapped, it counts the updates. -/
theorem epoch_senderAfter (random : Nat → UInt64) (sender : Sender) (count : Nat)
    (first : sender.drawn = 0)
    (unwrapped : sender.sendEpoch.toNat + (senderAfter random sender count).drawn < 2 ^ 32) :
    (senderAfter random sender count).sendEpoch.toNat =
      sender.sendEpoch.toNat + (senderAfter random sender count).drawn := by
  induction count with
  | zero => exact (Nat.add_zero _).symm.trans (congrArg _ first.symm)
  | succ count ih =>
    rw [senderAfter_succ] at unwrapped ⊢
    rcases (senderAfter random sender count).next_cases random maxPlain with
      ⟨same, -, equal⟩ | ⟨later, more⟩
    · rw [equal] at unwrapped
      rw [same, equal]
      exact ih unwrapped
    · rw [more] at unwrapped
      rw [later, more, UInt32.toNat_add, ih (by omega), ← Nat.add_assoc]
      exact Nat.mod_eq_of_lt unwrapped

/-- Full records are accepted while the epoch does not wrap before the last of them. -/
theorem settled_rounds (works : cipher.Works) (random : Nat → UInt64) (sendEpoch : UInt32)
    (sendSeq : UInt64) (count : Nat)
    (unwrapped : sendEpoch.toNat +
      (senderAfter random { sendEpoch, sendSeq } count).drawn < 2 ^ 32) :
    Settled (senderAfter random { sendEpoch, sendSeq } (count + 1))
        (run cipher random sendEpoch sendSeq (List.replicate (count + 1) fullRecord).flatten) ∧
      (run cipher random sendEpoch sendSeq
        (List.replicate (count + 1) fullRecord).flatten).receiver =
          { recvEpoch := (senderAfter random { sendEpoch, sendSeq }
              count).sendEpoch
            recvSeq := (senderAfter random { sendEpoch, sendSeq } count).sendSeq + 1
            recvInitialized := true } ∧
      (run cipher random sendEpoch sendSeq
        (List.replicate (count + 1) fullRecord).flatten).errors = [] := by
  induction count with
  | zero =>
    have start : Settled { sendEpoch, sendSeq }
        { sender := { sendEpoch, sendSeq } } := ⟨rfl, rfl, rfl, rfl⟩
    rw [replicate_succ', replicate_zero, nil_append, flatten_singleton, senderAfter_succ]
    exact start.accepts random works (.inl rfl)
  | succ count ih =>
    have step := (senderAfter random { sendEpoch, sendSeq } count).next_cases random maxPlain
    have epoch := epoch_senderAfter random { sendEpoch, sendSeq } count rfl
    rw [senderAfter_succ] at unwrapped
    have before : sendEpoch.toNat + (senderAfter random
        { sendEpoch, sendSeq } count).drawn < 2 ^ 32 := by
      rcases step with ⟨-, -, same⟩ | ⟨-, more⟩ <;> omega
    obtain ⟨settled, receiver, errors⟩ := ih before
    have expects := expects_next random maxPlain
      (congrArg recvEpoch receiver) (congrArg recvSeq receiver)
      (fun more => by
        rw [more] at unwrapped
        rw [epoch before]
        omega)
    rw [← senderAfter_succ] at expects
    have accepted := settled.accepts random works expects
    rw [← senderAfter_succ, errors] at accepted
    rw [replicate_succ', flatten_append, flatten_singleton, run, drive_append]
    exact accepted

/-- With the largest starting epoch and full records, the epoch wraps after 1025 records. The
record after it is rejected, although nothing was lost. -/
theorem epochWrap_rejected :
    (run plainCipher (fun _ => 1) 0xFFFFFFFE 1 (List.replicate 1026 fullRecord).flatten).errors =
      [.replayedEpoch 0 0xFFFFFFFF] := by
  obtain ⟨drawn, last, wrapped⟩ := senderAfter_updates (fun _ => 1) 0xFFFFFFFE 1
  have unwrapped : (0xFFFFFFFE : UInt32).toNat + (senderAfter (fun _ => 1)
      { sendEpoch := 0xFFFFFFFE, sendSeq := 1 } 1024).drawn < 2 ^ 32 := by
    rw [drawn]
    decide
  obtain ⟨settled, receiver, errors⟩ :=
    settled_rounds works_plainCipher (fun _ => 1) 0xFFFFFFFE 1 1024 unwrapped
  rw [last] at receiver
  have replayed := @Settled.replays _ (fun _ => 1) _ _ works_plainCipher settled
    (congrArg Receiver.recvInitialized receiver) (by rw [receiver, wrapped]; decide)
  rw [receiver, errors, wrapped] at replayed
  rw [replicate_succ', flatten_append, flatten_singleton, run, drive_append]
  exact replayed

end RecordConn

end SingBox
