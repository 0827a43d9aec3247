import EdgeProxy.Audit.Codec

/-! # The frames of an audit segment

A frame holds one payload and names the frame before it by its hash. The hash covers the version,
the sequence, the previous hash and the payload; the length field is not part of it. `readFrame`
is one turn of the loop of `scan_segments`. `Frames` says what a list of complete frames is, and
`Incomplete` what the loop takes for a torn last frame.
-/

namespace EdgeProxy

open Rust List

def frameMagic : Bytes := [83, 80, 65, 85, 68, 73, 84, 0]

def headerLen : ℕ := 56

def hashLen : ℕ := 32

/-- The next sequence of the chain and the hash of its last frame. -/
@[ext] structure Link where
  sequence : ℕ
  previous : Bytes
  deriving DecidableEq

def Link.first : Link := ⟨1, List.replicate 32 0⟩

variable (link : Link)

def frameHash (payload : Bytes) : Bytes :=
  Sha256.digest (toBe 2 1 ++ toBe 8 link.sequence ++ link.previous ++ payload)

def frameHeader (length : ℕ) (link : Link) : Bytes :=
  frameMagic ++ (toBe 2 1 ++ (toBe 2 0 ++ (toBe 4 length ++ (toBe 8 link.sequence ++
    link.previous))))

def encodeFrame (payload : Bytes) : Bytes :=
  frameHeader payload.length link ++ (payload ++ frameHash link payload)

def Link.next (payload : Bytes) : Link :=
  ⟨link.sequence + 1, frameHash link payload⟩

structure FrameHeader where
  magic : Bytes
  version : ℕ
  flags : ℕ
  length : ℕ
  link : Link

def readHeader (bytes : Bytes) : FrameHeader where
  magic := bytes.take 8
  version := ofBe ((bytes.drop 8).take 2)
  flags := ofBe ((bytes.drop 10).take 2)
  length := ofBe ((bytes.drop 12).take 4)
  link := ⟨ofBe ((bytes.drop 16).take 8), (bytes.drop 24).take 32⟩

def Link.Fits : Prop := link.sequence < 2 ^ 64 ∧ link.previous.length = 32

@[simp] theorem length_frameHash (payload : Bytes) : (frameHash link payload).length = 32 :=
  Sha256.length_digest _

variable {link : Link}

theorem length_frameHeader (length : ℕ) (h : link.Fits) :
    (frameHeader length link).length = headerLen := by
  simp [frameHeader, frameMagic, h.2, headerLen]

theorem length_encodeFrame (h : link.Fits) (payload : Bytes) :
    (encodeFrame link payload).length = headerLen + payload.length + hashLen := by
  rw [encodeFrame, length_append, length_append, length_frameHeader _ h, length_frameHash, hashLen]
  omega

variable {n : ℕ}

theorem take_append {a : Bytes} (h : a.length = n) (b : Bytes) : (a ++ b).take n = a := by
  rw [← h, take_left]

variable {bytes : Bytes}

theorem drop_field {a b : Bytes} {m : ℕ} (hm : bytes.drop m = a ++ b) (h : a.length = n) :
    bytes.drop (m + n) = b := by
  rw [← drop_drop, hm, ← h, drop_left]

variable {length : ℕ}

theorem readHeader_frameHeader (hlength : length < 2 ^ 32) (h : link.Fits) (rest : Bytes) :
    readHeader (frameHeader length link ++ rest) = ⟨frameMagic, 1, 0, length, link⟩ := by
  obtain ⟨bytes, hbytes⟩ : ∃ bytes, bytes = frameHeader length link ++ rest := ⟨_, rfl⟩
  have h0 : bytes.drop 0 = frameMagic ++ (toBe 2 1 ++ (toBe 2 0 ++ (toBe 4 length ++
      (toBe 8 link.sequence ++ (link.previous ++ rest))))) := by
    simp only [hbytes, frameHeader, drop_zero, append_assoc]
  have hmagic : frameMagic.length = 8 := rfl
  have hlen : ofBe (toBe 4 length) = length := ofBe_toBe_of_lt (hlength.trans_eq (by decide))
  have hsequence : ofBe (toBe 8 link.sequence) = link.sequence :=
    ofBe_toBe_of_lt (h.1.trans_eq (by decide))
  have h8 := drop_field h0 hmagic
  have h10 := drop_field h8 (length_toBe 2 1)
  have h12 := drop_field h10 (length_toBe 2 0)
  have h16 := drop_field h12 (length_toBe 4 length)
  have h24 := drop_field h16 (length_toBe 8 link.sequence)
  rw [← hbytes, readHeader, h8, h10, h12, h16, h24, ← drop_zero (l := bytes), h0,
    take_append (length_toBe _ _), take_append (length_toBe _ _), take_append (length_toBe _ _),
    take_append (length_toBe _ _), take_append h.2, take_append hmagic, hlen, hsequence]
  rfl

theorem toBe_ofBe_take {m : ℕ} (h : m + n ≤ bytes.length) :
    toBe n (ofBe ((bytes.drop m).take n)) = (bytes.drop m).take n := by
  have hlength : ((bytes.drop m).take n).length = n := by
    rw [length_take, length_drop]
    omega
  have hbe := toBe_ofBe ((bytes.drop m).take n)
  rwa [hlength] at hbe

theorem frameHeader_readHeader (h : headerLen ≤ bytes.length)
    (hmagic : (readHeader bytes).magic = frameMagic) (hversion : (readHeader bytes).version = 1)
    (hflags : (readHeader bytes).flags = 0) :
    bytes = frameHeader (readHeader bytes).length (readHeader bytes).link ++
      bytes.drop headerLen := by
  have hcut (m n : ℕ) : bytes.drop m = (bytes.drop m).take n ++ bytes.drop (m + n) := by
    rw [← drop_drop, take_append_drop]
  rw [headerLen] at h
  have hbe (m n : ℕ) (hn : m + n ≤ 56) : bytes.drop m =
      toBe n (ofBe ((bytes.drop m).take n)) ++ bytes.drop (m + n) := by
    rw [toBe_ofBe_take (hn.trans h), ← hcut]
  rw [frameHeader, ← hmagic, ← hversion, ← hflags, headerLen]
  calc bytes = bytes.drop 0 := (drop_zero).symm
    _ = bytes.take 8 ++ bytes.drop 8 := hcut 0 8
    _ = _ := by
      rw [hbe 8 2 (by decide), hbe 10 2 (by decide), hbe 12 4 (by decide), hbe 16 8 (by decide),
        hcut 24 32]
      simp only [readHeader, append_assoc]

structure AuditLedgerOptions where
  maxPayloadBytes : ℕ := 8 * 1024
  maxScanRecords : ℕ := 100000
  recoveryContext : Option AuditContext := none
  maxSegmentBytes : ℕ := 4 * 1024 * 1024
  maxSegments : ℕ := 32
  maxTotalBytes : ℕ := 128 * 1024 * 1024

structure ScannedRecord where
  sequence : ℕ
  record : AuditRecord
  metadata : Option RetentionMetadata
  segment : ℕ
  deriving DecidableEq

/-- What the scan has read: the link the next frame has to continue, the records, and the link at
which a ledger begins whose first segments were removed. -/
structure ScanState where
  link : Link
  records : List ScannedRecord
  anchor : Option Link
  deriving DecidableEq

inductive FrameRead where
  | torn (state : ScanState)
  | refused (error : AppError)
  | accepted (state : ScanState) (rest : Bytes)
  deriving DecidableEq

section Scan

variable (options : AuditLedgerOptions) (first segment : ℕ) (state : ScanState)

/-- The first frame of a ledger whose first segments were removed is where the chain begins. -/
def ScanState.anchored (link : Link) : ScanState :=
  if state.records = [] ∧ 1 < first then { state with link := link, anchor := some link } else state

def ScanState.push (payload : Bytes) (record : AuditRecord)
    (metadata : Option RetentionMetadata) : ScanState :=
  { state with
    link := state.link.next payload
    records := state.records ++ [⟨state.link.sequence, record, metadata, segment⟩] }

def readPayload (payload hash rest : Bytes) : FrameRead :=
  if frameHash state.link payload ≠ hash then
    .refused ⟨.auditChainMismatch, "audit frame hash does not match"⟩
  else
    match decodeRecordWithRetention payload with
    | .error error => .refused error
    | .ok (record, metadata) =>
      if 2 ^ 64 ≤ state.link.sequence + 1 then
        .refused ⟨.auditSequenceInvalid, "audit sequence overflow"⟩
      else .accepted (state.push segment payload record metadata) rest

def readBody (header : FrameHeader) (bytes : Bytes) : FrameRead :=
  if header.link.previous ≠ state.link.previous then
    .refused ⟨.auditChainMismatch, "audit previous hash does not match"⟩
  else if header.link.sequence ≠ state.link.sequence then
    .refused ⟨.auditSequenceInvalid, "audit sequence is invalid"⟩
  else if options.maxPayloadBytes < header.length then
    .refused ⟨.auditRecordTooLarge, "audit payload exceeds limit"⟩
  else if options.maxScanRecords ≤ state.records.length then
    .refused ⟨.auditCapacityReached, "audit startup record limit exceeded"⟩
  else if bytes.length < headerLen + header.length + hashLen then .torn state
  else
    let body := bytes.drop headerLen
    readPayload segment state (body.take header.length) ((body.drop header.length).take hashLen)
      (body.drop (header.length + hashLen))

def readFrame (bytes : Bytes) : FrameRead :=
  let header := readHeader bytes
  if bytes.length < headerLen + hashLen then .torn state
  else if header.magic ≠ frameMagic then
    .refused ⟨.auditInteriorCorruption, "audit frame magic is invalid"⟩
  else if header.version ≠ 1 then
    .refused ⟨.auditUnsupportedVersion, "audit frame version is unsupported"⟩
  else if header.flags ≠ 0 then
    .refused ⟨.auditInteriorCorruption, "audit frame flags are invalid"⟩
  else readBody options segment (state.anchored first header.link) header bytes

def ScanState.Meets (link : Link) : Prop :=
  (state.records = [] ∧ 1 < first) ∨ link = state.link

/-- The payload can stand in the next frame, after the given link. -/
structure ScanState.Accepts (state : ScanState) (link : Link) (payload : Bytes)
    (record : AuditRecord) (metadata : Option RetentionMetadata) : Prop where
  meets : state.Meets first link
  fits : link.Fits
  small : payload.length < 2 ^ 32
  length : payload.length ≤ options.maxPayloadBytes
  count : state.records.length < options.maxScanRecords
  next : link.sequence + 1 < 2 ^ 64
  decodes : decodeRecordWithRetention payload = .ok (record, metadata)

/-- A frame is begun and does not end in the segment: too few bytes for any frame, or a header that
continues the chain and whose length leads past the end. -/
def ScanState.Incomplete (bytes : Bytes) : Prop :=
  bytes.length < headerLen + hashLen ∨
    ∃ length link rest, bytes = frameHeader length link ++ rest ∧ link.Fits ∧ length < 2 ^ 32 ∧
      state.Meets first link ∧ length ≤ options.maxPayloadBytes ∧
      state.records.length < options.maxScanRecords ∧ hashLen ≤ rest.length ∧
      rest.length < length + hashLen

/-- The bytes are complete frames, one after the other, that continue the chain. -/
inductive Frames : ScanState → Bytes → ScanState → Prop
  | nil (state : ScanState) : Frames state [] state
  | cons {state state' : ScanState} {link : Link} {payload rest : Bytes} {record : AuditRecord}
      {metadata : Option RetentionMetadata} :
      state.Accepts options first link payload record metadata →
      Frames ((state.anchored first link).push segment payload record metadata) rest state' →
      Frames state (encodeFrame link payload ++ rest) state'

variable {options first segment}

variable {state : ScanState} {link : Link}

theorem ScanState.Meets.link_anchored (h : state.Meets first link) :
    (state.anchored first link).link = link := by
  rw [anchored]
  split_ifs with hfirst
  · rfl
  · rcases h with h | h
    · exact absurd h hfirst
    · exact h.symm

theorem ScanState.meets_of_link
    (h : link = (state.anchored first link).link) : state.Meets first link := by
  rw [anchored] at h
  split_ifs at h with hfirst
  · exact .inl hfirst
  · exact .inr h

@[simp] theorem ScanState.records_anchored (link : Link) :
    (state.anchored first link).records = state.records := by
  rw [anchored]
  split_ifs
  · rfl
  · rfl

theorem fits_readHeader (h : headerLen ≤ bytes.length) : (readHeader bytes).link.Fits := by
  rw [headerLen] at h
  constructor
  · have hlt := ofBe_lt ((bytes.drop 16).take 8)
    rw [length_take, length_drop, min_eq_left (by omega)] at hlt
    exact hlt.trans_eq (by decide)
  · change ((bytes.drop 24).take 32).length = 32
    rw [length_take, length_drop]
    omega

theorem length_readHeader_lt (bytes : Bytes) : (readHeader bytes).length < 2 ^ 32 := by
  have hlt := ofBe_lt ((bytes.drop 12).take 4)
  have hle : ((bytes.drop 12).take 4).length ≤ 4 := by
    rw [length_take]
    omega
  exact (hlt.trans_le (Nat.pow_le_pow_right (by decide) hle)).trans_eq (by decide)

theorem readFrame_frameHeader {rest : Bytes} (hlength : length < 2 ^ 32)
    (hfits : link.Fits) (hrest : hashLen ≤ rest.length) :
    readFrame options first segment state (frameHeader length link ++ rest) =
      readBody options segment (state.anchored first link) ⟨frameMagic, 1, 0, length, link⟩
        (frameHeader length link ++ rest) := by
  have henough : ¬ (frameHeader length link ++ rest).length < headerLen + hashLen := by
    rw [length_append, length_frameHeader _ hfits]
    omega
  simp only [readFrame, readHeader_frameHeader hlength hfits, henough, ne_eq, not_true_eq_false,
    if_false]

theorem readFrame_cases (options : AuditLedgerOptions) (first segment : ℕ) (state : ScanState)
    (bytes : Bytes) :
    bytes.length < headerLen + hashLen ∧ readFrame options first segment state bytes = .torn state ∨
      (∃ error, readFrame options first segment state bytes = .refused error) ∨
      ∃ length link rest, bytes = frameHeader length link ++ rest ∧ length < 2 ^ 32 ∧ link.Fits ∧
        hashLen ≤ rest.length := by
  rw [readFrame]
  by_cases hshort : bytes.length < headerLen + hashLen
  · exact .inl ⟨hshort, by simp [hshort]⟩
  · right
    by_cases hmagic : (readHeader bytes).magic = frameMagic
    · by_cases hversion : (readHeader bytes).version = 1
      · by_cases hflags : (readHeader bytes).flags = 0
        · right
          have hlen : headerLen ≤ bytes.length := by rw [headerLen] at hshort ⊢; omega
          refine ⟨_, _, _, frameHeader_readHeader hlen hmagic hversion hflags,
            length_readHeader_lt bytes, fits_readHeader hlen, ?_⟩
          rw [length_drop]
          omega
        · exact .inl ⟨_, by simp [hshort, hmagic, hversion, hflags]; rfl⟩
      · exact .inl ⟨_, by simp [hshort, hmagic, hversion]; rfl⟩
    · exact .inl ⟨_, by simp [hshort, hmagic]; rfl⟩

theorem readBody_frameHeader {rest : Bytes} (hfits : link.Fits) :
    readBody options segment state ⟨frameMagic, 1, 0, length, link⟩
        (frameHeader length link ++ rest) =
      if link.previous ≠ state.link.previous then
        .refused ⟨.auditChainMismatch, "audit previous hash does not match"⟩
      else if link.sequence ≠ state.link.sequence then
        .refused ⟨.auditSequenceInvalid, "audit sequence is invalid"⟩
      else if options.maxPayloadBytes < length then
        .refused ⟨.auditRecordTooLarge, "audit payload exceeds limit"⟩
      else if options.maxScanRecords ≤ state.records.length then
        .refused ⟨.auditCapacityReached, "audit startup record limit exceeded"⟩
      else if rest.length < length + hashLen then .torn state
      else readPayload segment state (rest.take length) ((rest.drop length).take hashLen)
        (rest.drop (length + hashLen)) := by
  have hdrop : (frameHeader length link ++ rest).drop headerLen = rest := by
    rw [← length_frameHeader length hfits, drop_left]
  have hlength : (frameHeader length link ++ rest).length < headerLen + length + hashLen ↔
      rest.length < length + hashLen := by
    rw [length_append, length_frameHeader _ hfits]
    omega
  simp only [readBody, hdrop, hlength]

variable {state state' : ScanState} {bytes rest : Bytes} {payload : Bytes}

theorem readFrame_encodeFrame {record : AuditRecord} {metadata : Option RetentionMetadata}
    (h : state.Accepts options first link payload record metadata) (rest : Bytes) :
    readFrame options first segment state (encodeFrame link payload ++ rest) =
      .accepted ((state.anchored first link).push segment payload record metadata) rest := by
  have hlink := h.meets.link_anchored
  have hbody : hashLen ≤ (payload ++ (frameHash link payload ++ rest)).length := by
    rw [length_append, length_append, length_frameHash, hashLen]
    omega
  have htake : ((frameHash link payload ++ rest).take hashLen) = frameHash link payload :=
    take_append (length_frameHash _ _) rest
  have hdrop : (payload ++ (frameHash link payload ++ rest)).drop (payload.length + hashLen) =
      rest := by
    rw [← drop_drop, drop_left]
    exact drop_left' (length_frameHash _ _)
  rw [encodeFrame, append_assoc, append_assoc,
    readFrame_frameHeader h.small h.fits hbody, readBody_frameHeader h.fits, hlink,
    ScanState.records_anchored, if_neg (by simp), if_neg (by simp), if_neg (not_lt.mpr h.length),
    if_neg (not_le.mpr h.count), if_neg, take_left, drop_left, htake, hdrop, readPayload,
    hlink, if_neg (by simp), h.decodes]
  · simp only
    rw [if_neg (not_le.mpr h.next)]
  · rw [length_append, length_append, length_frameHash, hashLen]
    omega

theorem readPayload_accepted {hash : Bytes}
    (h : readPayload segment state payload hash rest = .accepted state' bytes) :
    frameHash state.link payload = hash ∧ rest = bytes ∧ state.link.sequence + 1 < 2 ^ 64 ∧
      ∃ record metadata, decodeRecordWithRetention payload = .ok (record, metadata) ∧
        state' = state.push segment payload record metadata := by
  rw [readPayload] at h
  rcases hdecode : decodeRecordWithRetention payload with error | ⟨record, metadata⟩
  · rw [hdecode] at h
    split_ifs at h
  · simp only [hdecode] at h
    split_ifs at h with hhash hnext
    cases h
    exact ⟨not_not.mp hhash, rfl, not_le.mp hnext, record, metadata, rfl, rfl⟩

theorem readPayload_ne_torn {hash : Bytes} :
    readPayload segment state payload hash rest ≠ .torn state' := by
  rw [readPayload]
  rcases decodeRecordWithRetention payload with error | ⟨record, metadata⟩
  · simp only
    split_ifs
    all_goals simp
  · simp only
    split_ifs
    all_goals simp

theorem accepted_of_readFrame
    (h : readFrame options first segment state bytes = .accepted state' rest) :
    ∃ link payload record metadata, bytes = encodeFrame link payload ++ rest ∧
      state.Accepts options first link payload record metadata ∧
      state' = (state.anchored first link).push segment payload record metadata := by
  rcases readFrame_cases options first segment state bytes
    with ⟨_, htorn⟩ | ⟨error, herror⟩ | ⟨length, link, body, rfl, hlength, hfits, hbody⟩
  · rw [htorn] at h
    cases h
  · rw [herror] at h
    cases h
  · rw [readFrame_frameHeader hlength hfits hbody, readBody_frameHeader hfits] at h
    split_ifs at h with hprevious hsequence hmax hcount hend
    obtain ⟨hhash, hrest, hnext, record, metadata, hdecode, rfl⟩ := readPayload_accepted h
    have hlink : link = (state.anchored first link).link :=
      Link.ext (of_not_not hsequence) (of_not_not hprevious)
    rw [not_lt] at hend
    have hpayload : (body.take length).length = length := by
      rw [length_take]
      omega
    refine ⟨link, body.take length, record, metadata, ?_,
      ⟨ScanState.meets_of_link hlink, hfits, ?_, ?_, ?_, ?_, hdecode⟩, rfl⟩
    · rw [← hlink] at hhash
      rw [encodeFrame, hpayload, append_assoc, append_assoc, hhash, ← hrest,
        ← drop_drop, take_append_drop, take_append_drop]
    · rwa [hpayload]
    · rw [hpayload]
      exact not_lt.mp hmax
    · rw [ScanState.records_anchored] at hcount
      exact not_le.mp hcount
    · rwa [← hlink] at hnext

theorem torn_readFrame_iff :
    (∃ state', readFrame options first segment state bytes = .torn state') ↔
      state.Incomplete options first bytes := by
  constructor
  · rintro ⟨_, h⟩
    rcases readFrame_cases options first segment state bytes
      with ⟨hshort, _⟩ | ⟨error, herror⟩ | ⟨length, link, body, rfl, hlength, hfits, hbody⟩
    · exact .inl hshort
    · rw [herror] at h
      cases h
    · rw [readFrame_frameHeader hlength hfits hbody, readBody_frameHeader hfits] at h
      split_ifs at h with hprevious hsequence hmax hcount hend
      · have hlink : link = (state.anchored first link).link :=
          Link.ext (of_not_not hsequence) (of_not_not hprevious)
        rw [ScanState.records_anchored, not_le] at hcount
        exact .inr ⟨length, link, body, rfl, hfits, hlength, ScanState.meets_of_link hlink,
          not_lt.mp hmax, hcount, hbody, hend⟩
      · exact absurd h readPayload_ne_torn
  · rintro (hshort | ⟨length, link, body, rfl, hfits, hlength, hmeets, hmax, hcount, hbody, hend⟩)
    · exact ⟨state, by simp [readFrame, hshort]⟩
    · refine ⟨state.anchored first link, ?_⟩
      have hlink := hmeets.link_anchored
      rw [readFrame_frameHeader hlength hfits hbody, readBody_frameHeader hfits, hlink,
        ScanState.records_anchored, if_neg (by simp), if_neg (by simp), if_neg (not_lt.mpr hmax),
        if_neg (not_le.mpr hcount), if_pos hend]

end Scan

section Segment

variable (options : AuditLedgerOptions) (first segment : ℕ)

/-- How the scan of a segment ends: at its end, before an incomplete frame, or with an error. -/
inductive SegmentScan where
  | complete (state : ScanState)
  | torn (state : ScanState) (left : Bytes)
  | refused (error : AppError)

def SegmentScan.last : SegmentScan → Option ScanState
  | .complete state | .torn state _ => some state
  | .refused _ => none

def scanFrames : ℕ → ScanState → Bytes → SegmentScan
  | 0, state, _ => .complete state
  | fuel + 1, state, bytes =>
    if bytes = [] then .complete state
    else
      match readFrame options first segment state bytes with
      | .torn state => .torn state bytes
      | .refused error => .refused error
      | .accepted state rest => scanFrames fuel state rest

/-- Every frame takes bytes, so the number of bytes bounds the number of turns. -/
def scanSegment (state : ScanState) (bytes : Bytes) : SegmentScan :=
  scanFrames options first segment (bytes.length + 1) state bytes

variable {options first segment} {state state' : ScanState} {bytes : Bytes}

theorem length_rest_lt (h : link.Fits) (payload rest : Bytes) :
    rest.length < (encodeFrame link payload ++ rest).length := by
  rw [length_append, length_encodeFrame h, headerLen, hashLen]
  omega

theorem encodeFrame_append_ne_nil (h : link.Fits) (payload rest : Bytes) :
    encodeFrame link payload ++ rest ≠ [] := by
  intro hnil
  have hlt := length_rest_lt h payload rest
  rw [hnil] at hlt
  cases hlt

theorem scanFrames_append (h : Frames options first segment state bytes state') (left : Bytes)
    {fuel : ℕ} (hfuel : (bytes ++ left).length < fuel) :
    ∃ fuel', left.length < fuel' ∧ scanFrames options first segment fuel state (bytes ++ left) =
      scanFrames options first segment fuel' state' left := by
  induction h generalizing fuel with
  | nil => exact ⟨fuel, hfuel, rfl⟩
  | @cons _ _ _ payload rest _ _ haccepts _ ih =>
    obtain ⟨fuel, rfl⟩ : ∃ n, fuel = n + 1 := ⟨fuel - 1, by omega⟩
    rw [append_assoc] at hfuel ⊢
    have hlt := length_rest_lt haccepts.fits payload (rest ++ left)
    obtain ⟨fuel', hfuel', hscan⟩ := ih (show (rest ++ left).length < fuel by omega)
    refine ⟨fuel', hfuel', ?_⟩
    rw [scanFrames, if_neg (encodeFrame_append_ne_nil haccepts.fits _ _),
      readFrame_encodeFrame haccepts]
    exact hscan

theorem scanFrames_cases (options : AuditLedgerOptions) (first segment : ℕ) (state : ScanState)
    (bytes : Bytes) {fuel : ℕ} (hfuel : bytes.length < fuel) :
    (∃ state', scanFrames options first segment fuel state bytes = .complete state' ∧
        Frames options first segment state bytes state') ∨
      (∃ state' state'' front left,
        scanFrames options first segment fuel state bytes = .torn state'' left ∧
          bytes = front ++ left ∧ left ≠ [] ∧ Frames options first segment state front state' ∧
          state'.Incomplete options first left) ∨
      ∃ error, scanFrames options first segment fuel state bytes = .refused error := by
  induction fuel generalizing state bytes with
  | zero => omega
  | succ _ ih =>
    rw [scanFrames]
    by_cases hnil : bytes = []
    · subst hnil
      exact .inl ⟨state, rfl, .nil state⟩
    · rw [if_neg hnil]
      rcases hread : readFrame options first segment state bytes with state'' | error | ⟨next, rest⟩
      · exact .inr (.inl ⟨state, state'', [], bytes, rfl, rfl, hnil, .nil state,
          torn_readFrame_iff.mp ⟨state'', hread⟩⟩)
      · exact .inr (.inr ⟨error, rfl⟩)
      · obtain ⟨link, payload, _, _, rfl, haccepts, rfl⟩ := accepted_of_readFrame hread
        have hlt := length_rest_lt haccepts.fits payload rest
        rcases ih _ rest (by omega) with ⟨state', hscan, hframes⟩ |
          ⟨state', state'', front, left, hscan, rfl, hleft, hframes, hincomplete⟩ | herror
        · exact .inl ⟨state', hscan, .cons haccepts hframes⟩
        · exact .inr (.inl ⟨state', state'', encodeFrame link payload ++ front, left, hscan,
            by rw [append_assoc], hleft, .cons haccepts hframes, hincomplete⟩)
        · exact .inr (.inr herror)

theorem scanSegment_complete_iff : scanSegment options first segment state bytes =
    .complete state' ↔ Frames options first segment state bytes state' := by
  constructor
  · intro h
    rcases scanFrames_cases options first segment state bytes (Nat.lt_succ_self _) with
      ⟨t, hscan, hframes⟩ | ⟨_, _, _, _, hscan, _⟩ | ⟨_, hscan⟩
    · rw [scanSegment, hscan] at h
      cases h
      exact hframes
    · rw [scanSegment, hscan] at h
      cases h
    · rw [scanSegment, hscan] at h
      cases h
  · intro h
    have hlength : (bytes ++ []).length < bytes.length + 1 := by simp
    obtain ⟨fuel, hfuel, hscan⟩ := scanFrames_append h [] hlength
    rw [append_nil] at hscan
    obtain ⟨fuel, rfl⟩ : ∃ n, fuel = n + 1 := ⟨fuel - 1, by simp at hfuel; omega⟩
    rw [scanSegment, hscan, scanFrames, if_pos rfl]

theorem scanSegment_torn_iff {left : Bytes} :
    (∃ state'', scanSegment options first segment state bytes = .torn state'' left) ↔
      ∃ front state', bytes = front ++ left ∧ left ≠ [] ∧
        Frames options first segment state front state' ∧
        state'.Incomplete options first left := by
  constructor
  · rintro ⟨state'', h⟩
    rcases scanFrames_cases options first segment state bytes (Nat.lt_succ_self _) with
      ⟨t, hscan, _⟩ | ⟨state', t, front, rest, hscan, hbytes, hleft, hframes, hincomplete⟩ |
        ⟨_, hscan⟩
    · rw [scanSegment, hscan] at h
      cases h
    · rw [scanSegment, hscan] at h
      cases h
      exact ⟨front, state', hbytes, hleft, hframes, hincomplete⟩
    · rw [scanSegment, hscan] at h
      cases h
  · rintro ⟨_, _, rfl, hleft, hframes, hincomplete⟩
    obtain ⟨fuel, hfuel, hscan⟩ := scanFrames_append hframes left (Nat.lt_succ_self _)
    obtain ⟨fuel, rfl⟩ : ∃ n, fuel = n + 1 := ⟨fuel - 1, by omega⟩
    obtain ⟨state'', htorn⟩ := torn_readFrame_iff.mpr hincomplete
    refine ⟨state'', ?_⟩
    rw [scanSegment, hscan, scanFrames, if_neg hleft, htorn]

end Segment

end EdgeProxy
