import QoSFabric.Model.Artifact
import QoSFabric.Model.Replay
import QoSFabric.Model.Validate
import QoSFabric.Foundation.FileSystem

/-!
# The durable log store

`Store` of `store.cpp` over the files of one directory. Operations are programs of file requests;
a failed operation hands back the members as it left them.
-/

namespace QoSFabric

open FileSystem

abbrev Files (α : Type) := Fs FileName α

/-! ## Filesystem helpers -/

/-- The entry of the directory that a path stands for. Paths go to the file system as C strings, and
one that is empty or "." behind the directory is the directory itself. -/
def pathEntry (path : FileName) : Option FileName :=
  let leaf := path.takeWhile (· ≠ 0)
  if leaf = [] ∨ leaf = text "." then none else some leaf

def pathExists (path : FileName) : Files Bool :=
  match pathEntry path with
  | none => pure true
  | some entry => Fs.exists_ entry

def readEntry (entry path : FileName) (maxBytes : Nat) : Files (Result Bytes) := do
  match ← Fs.read entry with
  | none => pure (.error ⟨.notFound,
      (text "cannot open file for reading: " ++ path).take Limits.maxErrorDetailBytes⟩)
  | some bytes =>
      if bytes.length > maxBytes then
        pure (.error (makeError .tooLarge "file exceeds the configured read budget"))
      else pure (.ok bytes)

def readFile (name : FileName) (maxBytes : Nat) : Files (Result Bytes) :=
  readEntry name name maxBytes

/-- `read_file` on a path that a manifest names. A directory opens, but no byte of it is read. -/
def readPath (path : FileName) (maxBytes : Nat) : Files (Result Bytes) :=
  match pathEntry path with
  | none => pure (.error (makeError .ioError "short read"))
  | some entry => readEntry entry path maxBytes

def removePath (path : FileName) : Files Unit :=
  match pathEntry path with
  | none => pure ()
  | some entry => Fs.remove entry

def writeFileAtomic (name : FileName) (bytes : Bytes) : Files (Result Unit) := do
  match ← Fs.create (tempName name) with
  | none => pure (.error (makeError .ioError "cannot open temporary file for writing"))
  | some handle =>
      let wrote ← if bytes.isEmpty then pure true else Fs.write handle bytes
      if !wrote then
        Fs.remove (tempName name)
        pure (.error (makeError .ioError "short write"))
      else
        let synced ← Fs.sync handle
        if !synced then
          Fs.remove (tempName name)
          pure (.error (makeError .ioError "fsync failed"))
        else
          let replaced ← Fs.rename (tempName name) name
          if replaced then pure (.ok ())
          else pure (.error (makeError .ioError "atomic replace failed"))

def listDirectory : Files (Result (List FileName)) := do
  let entries ← Fs.list
  if entries.length > 4096 then
    pure (.error (makeError .tooLarge "directory holds more entries than the budget allows"))
  else pure (.ok (sortTexts entries))

def listedNames : Result (List FileName) → List FileName
  | .error _ => []
  | .ok names => names

def removeAll : List FileName → Files Unit
  | [] => pure ()
  | name :: names => do
      Fs.remove name
      removeAll names

/-! ## Members -/

structure StoreOptions where
  formatVersion : UInt16
  maxWalBytes : UInt64
  maxRecordBytes : Nat
  repairTruncateCorruptTail : Bool
  deriving DecidableEq, Repr

def StoreOptions.default : StoreOptions where
  formatVersion := storeFormatVersion
  maxWalBytes := UInt64.ofNat Limits.maxSnapshotBytes
  maxRecordBytes := Limits.maxWalRecordBytes
  repairTruncateCorruptTail := false

structure RecoveryReport where
  openedClean : Bool
  manifestRebuilt : Bool
  snapshotLoaded : Bool
  snapshotSequence : UInt64
  replayedRecords : Nat
  truncatedTailBytes : Nat
  unfinishedIntents : Nat
  discardedIntents : Nat
  midLogCorruption : Bool
  epochAdvances : Nat
  lastSequence : Sequence
  detail : Text
  deriving DecidableEq, Repr

def RecoveryReport.none : RecoveryReport := ⟨false, false, false, 0, 0, 0, 0, 0, false, 0, 0, []⟩

structure Store where
  options : StoreOptions
  storeId : Text
  snapshotPath : Option FileName
  walHandle : Option Handle
  lastSequence : Sequence
  durableEpoch : FabricEpoch
  walBytes : UInt64
  snapshotSequence : UInt64
  stagedCount : UInt32
  replayed : List LogRecord
  snapshotBytes : Bytes
  recovery : RecoveryReport
  readOnly : Bool
  deriving DecidableEq, Repr

namespace Store

def fresh (options : StoreOptions) : Store :=
  ⟨options, [], none, none, 0, 0, 0, 0, 0, [], [], .none, false⟩

/-! ## Publishing and loading -/

def manifest (s : Store) : Manifest where
  storeId := (Digest256.parseHex s.storeId).getD .zero
  durableEpoch := s.durableEpoch
  snapshotSequence := s.snapshotSequence
  lastSequence := s.lastSequence
  snapshotName := if s.snapshotPath.isNone then [] else snapshotFileName s.snapshotSequence

def writeManifest (s : Store) : Files (Result Unit) :=
  match encodeManifest s.manifest with
  | none => pure (.error (makeError .tooLarge "manifest exceeds its budget"))
  | some bytes => do
      match ← writeFileAtomic manifestFileName bytes with
      | .error e => pure (.error e)
      | .ok () =>
          let synced ← Fs.syncDirectory
          if synced then pure (.ok ())
          else pure (.error (makeError .ioError "directory fsync failed"))

def adopt (s : Store) (m : Manifest) : Store :=
  { s with
    storeId := m.storeId.hex
    durableEpoch := m.durableEpoch
    snapshotSequence := m.snapshotSequence
    lastSequence := m.lastSequence
    snapshotPath := if m.snapshotName.isEmpty then none else some m.snapshotName }

def loadManifest (s : Store) : Files (Result Store) := do
  let present ← Fs.exists_ manifestFileName
  if !present then pure (.error (makeError .notFound "manifest is absent"))
  else
    match ← readFile manifestFileName 65536 with
    | .error e => pure (.error e)
    | .ok raw =>
        match decodeManifest s.options.formatVersion raw with
        | .error e => pure (.error e)
        | .ok m =>
            if m.snapshotName.isEmpty then pure (.ok (s.adopt m))
            else
              let found ← pathExists m.snapshotName
              if found then pure (.ok (s.adopt m))
              else pure (.error (makeError .corrupt "manifest references a snapshot that is absent"))

def bestSnapshot : List FileName → Option (UInt64 × FileName) → Files (Option (UInt64 × FileName))
  | [], best => pure best
  | name :: names, best =>
      match snapshotNameSequence name with
      | none => bestSnapshot names best
      | some sequence => do
          match ← readFile name Limits.maxSnapshotBytes with
          | .error _ => bestSnapshot names best
          | .ok bytes =>
              match decodeSnapshot bytes with
              | .error _ => bestSnapshot names best
              | .ok (decoded, _) =>
                  if decoded ≠ sequence then bestSnapshot names best
                  else
                    match best with
                    | none => bestSnapshot names (some (sequence, name))
                    | some (highest, incumbent) =>
                        if sequence > highest then bestSnapshot names (some (sequence, name))
                        else bestSnapshot names (some (highest, incumbent))

/-- What `rebuild_manifest` takes from one frame of the log. -/
def rebuildFrame (s : Store) (f : Frame) : Store × Bool :=
  let s := { s with
    lastSequence := if f.sequence > s.lastSequence then f.sequence else s.lastSequence }
  let s := if f.type = .epochAdvance ∧ f.body.length ≥ 8 then
      { s with durableEpoch := UInt64.ofNat (LittleEndian.decode (f.body.take 8)) }
    else s
  let s := if f.type = .storeHeader ∧ f.body.length ≥ 32 then
      { s with storeId := (Digest256.ofBuffer f.body).hex }
    else s
  (s, true)

def rebuildFromSnapshot (s : Store) (best : Option (UInt64 × FileName)) : Store :=
  let s := { s with
    storeId := Digest256.zero.hex
    durableEpoch := 0
    lastSequence := 0
    snapshotSequence := 0
    snapshotPath := none }
  match best with
  | none => s
  | some (sequence, name) =>
      { s with snapshotSequence := sequence, snapshotPath := some name, lastSequence := sequence }

def rebuildFromLog (s : Store) : Files Store := do
  let present ← Fs.exists_ walFileName
  if present then
    match ← readFile walFileName maxWalScanBytes with
    | .error _ => pure s
    | .ok bytes =>
        pure (Framing.scan frameHeaderBytes (parseFrame s.options.maxRecordBytes) rebuildFrame
          bytes.length s bytes).1
  else pure s

def rebuildManifest (s : Store) : Files (Result Store) := do
  match ← listDirectory with
  | .error e => pure (.error e)
  | .ok entries =>
      let best ← bestSnapshot entries none
      let s ← (s.rebuildFromSnapshot best).rebuildFromLog
      match ← s.writeManifest with
      | .error e => pure (.error e)
      | .ok () => pure (.ok { s with recovery := { s.recovery with
          detail := s.recovery.detail ++ text "manifest rebuilt from durable artifacts; " } })

def loadSnapshot (s : Store) : Files (Result Store) :=
  match s.snapshotPath with
  | none => pure (.ok s)
  | some path => do
      match ← readPath path Limits.maxSnapshotBytes with
      | .error e => pure (.error e)
      | .ok bytes =>
          match decodeSnapshot bytes with
          | .error e => pure (.error e)
          | .ok (sequence, payload) =>
              if sequence ≠ s.snapshotSequence then
                pure (.error (makeError .corrupt "snapshot sequence does not match the manifest"))
              else pure (.ok { s with
                snapshotBytes := payload
                recovery := { s.recovery with snapshotLoaded := true, snapshotSequence := sequence } })

def absorb (s : Store) (r : Replay) (size : Nat) : Store :=
  { s with
    walBytes := UInt64.ofNat size
    lastSequence := r.lastSequence
    durableEpoch := r.durableEpoch
    replayed := s.replayed ++ r.replayed
    recovery := { s.recovery with
      unfinishedIntents := s.recovery.unfinishedIntents + r.staged.length
      discardedIntents := s.recovery.discardedIntents + r.discardedIntents
      epochAdvances := s.recovery.epochAdvances + r.epochAdvances } }

/-- `replay_log` on the bytes of the log, with the length to truncate the file to if any. -/
def readLog (s : Store) (bytes : Bytes) : Result (Store × Option Nat) :=
  let (r, stop) := replayLoop s.options.maxRecordBytes s.snapshotSequence
    (.start s.lastSequence s.durableEpoch) bytes
  let s := s.absorb r bytes.length
  match tailOf stop with
  | none => .ok ({ s with recovery := { s.recovery with
      openedClean := r.sawCleanShutdown && s.recovery.truncatedTailBytes == 0
      replayedRecords := s.replayed.length } }, none)
  | some tail =>
      if tail.refused s.options.maxRecordBytes s.options.repairTruncateCorruptTail then
        .error (makeError .corrupt ("write-ahead log holds a corrupted frame; the store refuses to " ++
          "interpret or discard it silently"))
      else
        let goodEnd := bytes.length - tail.dropped
        .ok ({ s with
          walBytes := UInt64.ofNat goodEnd
          recovery := { s.recovery with
            midLogCorruption := tail.completeFrameBad s.options.maxRecordBytes ||
              tail.validFrameFollows s.options.maxRecordBytes
            truncatedTailBytes := tail.dropped
            detail := s.recovery.detail ++ text "truncated a torn write-ahead log tail; "
            openedClean := false
            replayedRecords := s.replayed.length } }, some goodEnd)

def replayLog (s : Store) : Files (Result Store) := do
  let present ← Fs.exists_ walFileName
  if !present then pure (.ok { s with walBytes := 0 })
  else
    match ← readFile walFileName maxWalScanBytes with
    | .error e => pure (.error e)
    | .ok bytes =>
        match s.readLog bytes with
        | .error e => pure (.error e)
        | .ok (s, none) => pure (.ok s)
        | .ok (s, some goodEnd) => do
            Fs.truncate walFileName goodEnd
            pure (.ok s)

def reopenWal (s : Store) : Files (Result Unit × Store) := do
  let handle ← Fs.openAppend walFileName
  match handle with
  | none => pure (.error (makeError .ioError "cannot open the write-ahead log for appending"),
      { s with walHandle := none })
  | some handle => pure (.ok (), { s with walHandle := some handle })

/-! ## Appending -/

def tryIncrement (value : UInt64) : Option UInt64 :=
  if value = maxUInt64 then none else some (value + 1)

def withinBudget (maxWalBytes : UInt64) : Option UInt64 → Result UInt64
  | none => .error (makeError .overflow "write-ahead log size accounting overflowed")
  | some frameBytes =>
      if frameBytes > maxWalBytes then
        .error (makeError .capacityExhausted
          "write-ahead log budget exhausted; compaction is required")
      else .ok frameBytes

def sizeWith (s : Store) (body : Bytes) : Result UInt64 :=
  withinBudget s.options.maxWalBytes
    (checkedAdd (UInt64.ofNat (frameHeaderBytes + body.length)) s.walBytes)

/-- The checks of `append_frame` before it writes: the sequence taken, the bytes to write, and the
size of the log behind them. -/
def planFrame (s : Store) (type : RecordType) (flags : UInt8) (attempt : AttemptId)
    (payload : Bytes) : Result (Sequence × Bytes × UInt64) :=
  match tryIncrement s.lastSequence with
  | none => .error (makeError .overflow "durable sequence space is exhausted")
  | some next =>
      if payload.length > s.options.maxRecordBytes then
        .error (makeError .tooLarge "record body exceeds the configured budget")
      else match (Frame.write ⟨type, flags, next, attempt, payload⟩ :
          ByteWriter s.options.maxRecordBytes).data with
        | none => .error (makeError .tooLarge "record exceeds the configured budget")
        | some body => do
            let frameBytes ← s.sizeWith body
            .ok (next, frameHeader body ++ body, frameBytes)

def appendFrame (s : Store) (type : RecordType) (flags : UInt8) (attempt : AttemptId)
    (payload : Bytes) : Files (Result Sequence × Store) :=
  match s.readOnly, s.walHandle with
  | false, some handle =>
      match s.planFrame type flags attempt payload with
      | .error e => pure (.error e, s)
      | .ok (next, bytes, frameBytes) => do
          let wrote ← Fs.write handle bytes
          if !wrote then
            pure (.error (makeError .ioError "failed to append a frame to the write-ahead log"), s)
          else
            let synced ← Fs.sync handle
            if !synced then pure (.error (makeError .ioError "fsync failed"), s)
            else pure (.ok next, { s with walBytes := frameBytes, lastSequence := next })
  | _, _ => pure (.error (makeError .shuttingDown "store is closed"), s)

def append (s : Store) (type : RecordType) (payload : Bytes) : Files (Result Sequence × Store) :=
  s.appendFrame type flagNone 0 payload

def stage (s : Store) (type : RecordType) (payload : Bytes) : Files (Result AttemptId × Store) :=
  if s.stagedCount ≥ Limits.maxJournalIntentsInFlight then
    pure (.error (makeError .capacityExhausted "too many journalled intents are in flight"), s)
  else
    let attempt : AttemptId := s.lastSequence + 1
    match (writeIntent type attempt payload : ByteWriter s.options.maxRecordBytes).data with
    | none =>
        pure (.error (makeError .tooLarge "journalled intent exceeds the configured budget"), s)
    | some body => do
        match ← s.appendFrame .mutationIntent flagHasAttempt attempt body with
        | (.error e, s) => pure (.error e, s)
        | (.ok _, s) => pure (.ok attempt, { s with stagedCount := s.stagedCount + 1 })

def retire (s : Store) : Store :=
  { s with stagedCount := if s.stagedCount > 0 then s.stagedCount - 1 else s.stagedCount }

def commit (s : Store) (attempt : AttemptId) (appliedDigest : Digest256) :
    Files (Result Unit × Store) :=
  match (writeCommit attempt appliedDigest).data with
  | none => pure (.error (makeError .tooLarge "commit record exceeds the configured budget"), s)
  | some body => do
      match ← s.appendFrame .mutationCommit flagHasAttempt attempt body with
      | (.error e, s) => pure (.error e, s)
      | (.ok _, s) => pure (.ok (), s.retire)

def abort (s : Store) (attempt : AttemptId) (reason : Text) : Files (Result Unit × Store) :=
  match (writeAbort attempt reason).data with
  | none => pure (.error (makeError .tooLarge "abort record exceeds the configured budget"), s)
  | some body => do
      match ← s.appendFrame .mutationAbort flagHasAttempt attempt body with
      | (.error e, s) => pure (.error e, s)
      | (.ok _, s) => pure (.ok (), s.retire)

def adoptStoreIdentity (s : Store) (storeId : Text) : Files (Result Unit × Store) := do
  let s := { s with storeId }
  let published ← s.writeManifest
  pure (published, s)

/-- `Close`, and `close_locked`. -/
def close (s : Store) : Files (Result Unit × Store) :=
  if s.readOnly then pure (.ok (), s)
  else
    match s.walHandle with
    | none => pure (.ok (), { s with readOnly := true })
    | some _ => do
        match ← s.appendFrame .cleanShutdown flagNone 0 [] with
        | (.error e, s) => pure (.error e, { s with walHandle := none, readOnly := true })
        | (.ok _, s) => pure (.ok (), { s with walHandle := none, readOnly := true })

/-! ## Compaction -/

def writeSnapshot (s : Store) (snapshot : Bytes) : Files (Result Unit × Store) :=
  if snapshot.length > Limits.maxSnapshotBytes then
    pure (.error (makeError .tooLarge "snapshot exceeds the configured budget"), s)
  else
    let sequence := s.lastSequence
    let encoded := encodeSnapshot sequence snapshot
    if encoded.isEmpty then
      pure (.error (makeError .tooLarge "snapshot encoding exceeded its budget"), s)
    else
      let target := snapshotFileName sequence
      let previousPath := s.snapshotPath
      do
        match ← writeFileAtomic target encoded with
        | .error e => pure (.error e, s)
        | .ok () =>
            let s := { s with snapshotPath := some target, snapshotSequence := sequence }
            match ← s.writeManifest with
            | .error e => pure (.error e, s)
            | .ok () =>
                let s := { s with walHandle := none }
                match ← writeFileAtomic walFileName [] with
                | .error e => do
                    let (_, s) ← s.reopenWal
                    pure (.error e, s)
                | .ok () => do
                    match ← Store.reopenWal { s with walBytes := 0 } with
                    | (.error e, s) => pure (.error e, s)
                    | (.ok (), s) =>
                        match previousPath with
                        | none => pure (.ok (), s)
                        | some previous =>
                            if previous ≠ target then
                              removePath previous
                              pure (.ok (), s)
                            else pure (.ok (), s)

/-! ## Verification -/

/-- The checks of `Verify` on the manifest file. -/
def verifyManifest : Files (Result Unit) := do
  match ← readFile manifestFileName 65536 with
  | .error e => pure (.error e)
  | .ok raw =>
      if raw.length < 12 then pure (.error (makeError .corrupt "manifest is too small"))
      else if (crc32c (raw.take (raw.length - 4))).toNat ≠ loadLe raw (raw.length - 4) 4 then
        pure (.error (makeError .corrupt "manifest checksum mismatch"))
      else pure (.ok ())

/-- The checks of `Verify` on the snapshot the store read or wrote last. -/
def verifySnapshot (s : Store) : Files (Result Unit) :=
  match s.snapshotPath with
  | none => pure (.ok ())
  | some path => do
      match ← readPath path Limits.maxSnapshotBytes with
      | .error e => pure (.error e)
      | .ok bytes =>
          match decodeSnapshot bytes with
          | .error e => pure (.error e)
          | .ok (sequence, _) =>
              if sequence ≠ s.snapshotSequence then
                pure (.error (makeError .corrupt "snapshot sequence mismatch during verification"))
              else pure (.ok ())

/-- The loop of `Verify` over the log, which looks at no body. -/
def verifyFrames (maxRecordBytes : Nat) (bytes : Bytes) : Result Unit :=
  match Framing.extent frameHeaderBytes (parseFrame maxRecordBytes) bytes.length bytes with
  | .ended [] => .ok ()
  | .ended _ => .error (makeError .corrupt "write-ahead log has a torn tail")
  | _ => .error (makeError .corrupt "write-ahead log frame failed verification")

def verifyLog (s : Store) : Files (Result Unit) := do
  let present ← Fs.exists_ walFileName
  if !present then pure (.ok ())
  else
    match ← readFile walFileName maxWalScanBytes with
    | .error e => pure (.error e)
    | .ok bytes => pure (verifyFrames s.options.maxRecordBytes bytes)

def verify (s : Store) : Files (Result Unit) := do
  match ← verifyManifest with
  | .error e => pure (.error e)
  | .ok () =>
      match ← s.verifySnapshot with
      | .error e => pure (.error e)
      | .ok () => s.verifyLog

/-! ## Opening -/

def identified (s : Store) : Bool :=
  match Digest256.parseHex s.storeId with
  | none => false
  | some identity => !identity.isZero

def mintIdentity (s : Store) (boot : Bytes) : Files (Result Store) :=
  if s.identified then pure (.ok s)
  else
    let minted := sha256 boot
    do
      match ← Store.append { s with storeId := minted.hex } .storeHeader minted.bytes with
      | (.error e, _) => pure (.error e)
      | (.ok _, s) =>
          match ← s.writeManifest with
          | .error e => pure (.error e)
          | .ok () => pure (.ok s)

def loadOrRebuild (s : Store) : Files (Result Store) := do
  match ← s.loadManifest with
  | .ok s => pure (.ok s)
  | .error e =>
      if e.code = .versionMismatch then pure (.error e)
      else
        match ← s.rebuildManifest with
        | .error e => pure (.error e)
        | .ok s => pure (.ok { s with recovery := { s.recovery with manifestRebuilt := true } })

/-- The end of `open_impl`, once the log has been reopened. -/
def conclude (s : Store) (boot : Bytes) : Files (Result Store) := do
  match ← s.mintIdentity boot with
  | .error e => pure (.error e)
  | .ok s => pure (.ok { s with recovery := { s.recovery with lastSequence := s.lastSequence } })

def openImpl (options : StoreOptions) (boot : Bytes) : Files (Result Store) := do
  match ← (fresh options).loadOrRebuild with
  | .error e => pure (.error e)
  | .ok s =>
      let names := listedNames (← listDirectory)
      removeAll (names.filter isTempName)
      match ← s.loadSnapshot with
      | .error e => pure (.error e)
      | .ok s =>
          match ← s.replayLog with
          | .error e => pure (.error e)
          | .ok s =>
              -- snapshot files the manifest does not reference
              removeAll (names.filter fun name => isSnapshotName name && s.snapshotPath ≠ some name)
              match ← s.reopenWal with
              | (.error e, _) => pure (.error e)
              | (.ok (), s) => s.conclude boot

/-- `Store::Open`; the boot identity is the one the process would generate. -/
def «open» (options : StoreOptions) (boot : Bytes) : Files (Result Store) :=
  if options.formatVersion ≠ storeFormatVersion then
    pure (.error (makeError .versionMismatch "requested store format version is not supported"))
  else if options.maxRecordBytes = 0 ∨ options.maxRecordBytes > Limits.maxWalRecordBytes then
    pure (.error (makeError .invalidArgument "record budget outside the supported range"))
  else openImpl options boot

end Store

end QoSFabric
