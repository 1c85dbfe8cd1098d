import QoSFabric.Model.EntityKind
import QoSFabric.Model.Store
import QoSFabric.Model.Engine
import QoSFabric.Foundation.Table

/-!
# The registry

The members of `Registry` in `registry.cpp`, their snapshot and their recovery. An
`unordered_map` is a table; whatever depends on an order sorts the keys first.
-/

namespace QoSFabric

def snapshotTag : UInt16 := 0x0301
def snapshotVersion : UInt16 := 1

abbrev maxStoredConflicts : Nat := 256

def keyOf (id : Text) (generation : Generation) : Text :=
  id ++ [35] ++ decimal generation.toNat

structure BootId where
  bytes : Bytes
  size : bytes.length = 16
  deriving DecidableEq

theorem BootId.size_ones : (List.replicate 16 (1 : UInt8)).length = 16 := rfl

def BootId.isZero (boot : BootId) : Bool := boot.bytes.all (· == 0)

structure PublisherLease where
  publisher : Text
  incarnation : PublisherIncarnation
  epoch : FabricEpoch
  lease : AttemptId
  boot : BootId
  grantedAtMs : UInt64
  expiresAtMs : UInt64
  deriving DecidableEq

structure RegistryOptions where
  repairTruncateCorruptTail : Bool
  claimAuthority : Bool
  maxWalBytes : UInt64
  maxRecordBytes : Nat
  maxGenerationsPerId : Nat
  deriving DecidableEq, Repr

namespace RegistryOptions

def default : RegistryOptions where
  repairTruncateCorruptTail := false
  claimAuthority := true
  maxWalBytes := UInt64.ofNat Limits.maxSnapshotBytes
  maxRecordBytes := Limits.maxWalRecordBytes
  maxGenerationsPerId := Limits.maxGenerationsPerId

def store (options : RegistryOptions) : StoreOptions where
  formatVersion := storeFormatVersion
  maxWalBytes := options.maxWalBytes
  maxRecordBytes := options.maxRecordBytes
  repairTruncateCorruptTail := options.repairTruncateCorruptTail

end RegistryOptions

abbrev GenerationTable (kind : EntityKind) := Table Text (List kind.Carrier)

/-- `table[identifier].push_back(value)`. -/
def GenerationTable.push {kind : EntityKind} (table : GenerationTable kind) (value : kind.Carrier) :
    GenerationTable kind :=
  table.insert (kind.entityId value) ((table.lookup (kind.entityId value)).getD [] ++ [value])

structure Registry where
  options : RegistryOptions
  store : Store
  tables : (kind : EntityKind) → GenerationTable kind
  publisherWatermark : Table Text PublisherIncarnation
  leases : Table Text PublisherLease
  conflicts : List ConflictMarker
  decisionOrder : List Text
  decisions : Table Text ContractDecision
  durableEpoch : FabricEpoch
  currentEpoch : FabricEpoch
  nowMs : UInt64
  clockPinned : Bool

namespace Registry

def fresh (options : RegistryOptions) (store : Store) (nowMs : UInt64) : Registry where
  options := options
  store := store
  tables := fun _ => ∅
  publisherWatermark := ∅
  leases := ∅
  conflicts := []
  decisionOrder := []
  decisions := ∅
  durableEpoch := 0
  currentEpoch := 0
  nowMs := nowMs
  clockPinned := false

def setTable (r : Registry) (kind : EntityKind) (table : GenerationTable kind) : Registry :=
  { r with tables := Function.update r.tables kind table }

def push (r : Registry) (kind : EntityKind) (value : kind.Carrier) : Registry :=
  r.setTable kind (GenerationTable.push (r.tables kind) value)

/-! ## Housekeeping -/

/-- The loop of `prune_decisions`: the oldest contract goes until the order is within its budget,
and its decisions with it unless the contract stands in the order again. -/
def evict : List Text → Table Text ContractDecision → List Text × Table Text ContractDecision
  | [], decisions => ([], decisions)
  | oldest :: rest, decisions =>
      if (oldest :: rest).length > Limits.maxDecisionsRetained then
        evict rest (if rest.contains oldest then decisions
          else decisions.keep fun decision => decision.contract != oldest)
      else (oldest :: rest, decisions)

def pruneDecisions (r : Registry) : Registry :=
  let kept := evict r.decisionOrder r.decisions
  { r with decisionOrder := kept.1, decisions := kept.2 }

def pruneGenerations (kind : EntityKind) (maxGenerations : Nat) (list : List kind.Carrier) :
    List kind.Carrier :=
  if list.length ≤ maxGenerations then list
  else
    (list.insertionSort fun a b => kind.generation a ≤ kind.generation b).drop
      (list.length - maxGenerations)

def prune (r : Registry) : Registry :=
  let tables := fun kind =>
    (r.tables kind).mapValues (pruneGenerations kind r.options.maxGenerationsPerId)
  let r := pruneDecisions { r with tables }
  { r with conflicts := r.conflicts.drop (r.conflicts.length - maxStoredConflicts) }

end Registry

/-! ## Snapshots -/

namespace ByteWriter

variable {limit : Nat}

/-- `write_blob`: a record within the record budget, behind its length. -/
def blob (w : ByteWriter limit)
    (encode : ByteWriter Limits.maxCanonicalRecordBytes → ByteWriter Limits.maxCanonicalRecordBytes) :
    ByteWriter limit :=
  match (encode .empty).data with
  | none => w.fail
  | some inner => w.bytes inner

end ByteWriter

section Encode

variable {limit : Nat}

def encodeWatermark (w : ByteWriter limit) (entry : Text × PublisherIncarnation) :
    ByteWriter limit :=
  (w.ident entry.1).u64 entry.2

def encodeGenerations (kind : EntityKind) (w : ByteWriter limit)
    (entry : Text × List kind.Carrier) : ByteWriter limit :=
  w.counted entry.2 fun w value => w.blob (kind.encode value)

def encodeTable (w : ByteWriter limit) (kind : EntityKind) (table : GenerationTable kind) :
    ByteWriter limit :=
  w.counted (Table.select table (sortTexts table.keys)) (encodeGenerations kind)

def encodeMarker (w : ByteWriter limit) (marker : ConflictMarker) : ByteWriter limit :=
  w.u8 marker.scope.value
    |>.ident marker.id
    |>.u64 marker.generation
    |>.digest marker.incumbentDigest
    |>.digest marker.challengerDigest
    |>.u64 marker.epoch
    |>.str marker.detail Limits.maxReasonLen

def encodeRetained (w : ByteWriter limit) (entry : Text × ContractDecision) : ByteWriter limit :=
  (w.presence true).blob (encodeDecision entry.2)

end Encode

/-- The writer of `encode_snapshot_state`. -/
def Registry.writeState (r : Registry) : ByteWriter Limits.maxSnapshotBytes :=
  let w := (ByteWriter.empty.u16 snapshotTag).u16 snapshotVersion
    |>.u64 r.durableEpoch
    |>.u64 r.currentEpoch
    |>.counted (r.publisherWatermark.select (sortTexts r.publisherWatermark.keys)) encodeWatermark
  EntityKind.all.foldl (fun w kind => encodeTable w kind (r.tables kind)) w
    |>.counted r.conflicts encodeMarker
    |>.counted (r.decisions.select (sortTexts r.decisions.keys)) encodeRetained

def Registry.encodeSnapshotState (r : Registry) : Result Bytes :=
  match r.writeState.data with
  | none => .error (makeError .tooLarge "registry snapshot exceeds its budget")
  | some bytes => .ok bytes

/-! ## Recovery -/

def Decode.loop {σ : Type} (step : σ → Decode σ) : Nat → σ → Decode σ
  | 0, s => pure s
  | n + 1, s => do
      let s ← step s
      loop step n s

def readBlob {α : Type} (item : Decode α) : Decode α := do
  let raw ← .read (Read.bytes Limits.maxCanonicalRecordBytes)
  .sound .malformed "record blob is malformed or over budget"
  .lift ((item (.ofBytes raw)).map Prod.fst)

def decodeMarker (message : String) : Decode ConflictMarker := do
  let scope ← .read Read.u8
  let id ← readIdentifier
  let generation ← .read Read.u64
  let incumbent ← .read (Read.raw 32)
  let challenger ← .read (Read.raw 32)
  let epoch ← .read Read.u64
  let detail ← .read (Read.str Limits.maxReasonLen)
  .sound .corrupt message
  let scope ← .require .corrupt message (ofRaw ConflictScope.members ConflictScope.value scope)
  pure {
    scope, id, generation, epoch, detail
    incumbentDigest := .ofBuffer (incumbent.getD [])
    challengerDigest := .ofBuffer (challenger.getD []) }

namespace Registry

def readWatermark (r : Registry) : Decode Registry := do
  let id ← readIdentifier
  let incarnation ← .read Read.u64
  .sound .corrupt "publisher watermark entry is malformed"
  if isValid id then
    pure { r with publisherWatermark := r.publisherWatermark.insert id incarnation }
  else .refuse .corrupt "publisher watermark entry is malformed"

def readGeneration (kind : EntityKind) (r : Registry) : Decode Registry := do
  let value ← readBlob kind.decode
  pure (r.push kind value)

def readGenerations (kind : EntityKind) (r : Registry) : Decode Registry := do
  let count ← decodeCount Limits.maxGenerationsPerId "snapshot generation table exceeds its budget"
  Decode.loop (readGeneration kind) count r

/-- `read_generation_table`. -/
def readGenerationTable (r : Registry) (kind : EntityKind) : Decode Registry := do
  let count ← decodeCount kind.maxIdentifiers "snapshot identifier table exceeds its budget"
  Decode.loop (readGenerations kind) count r

def readTables (r : Registry) : List EntityKind → Decode Registry
  | [] => pure r
  | kind :: kinds => do
      let r ← r.readGenerationTable kind
      r.readTables kinds

def readConflict (r : Registry) : Decode Registry := do
  let marker ← decodeMarker "conflict marker is malformed"
  pure { r with conflicts := r.conflicts ++ [marker] }

def readDecision (r : Registry) : Decode Registry := do
  let present ← .read Read.presence
  if !present then pure r
  else
    let value ← readBlob decodeDecision
    let value := value.sealed
    pure { r with
      decisionOrder := r.decisionOrder ++ [value.contract]
      decisions := r.decisions.insert (keyOf value.contract value.contractGeneration) value }

def readState (r : Registry) : Decode Registry := do
  let tag ← .read Read.u16
  let version ← .read Read.u16
  .sound .versionMismatch "registry snapshot schema is not supported"
  if tag ≠ snapshotTag ∨ version ≠ snapshotVersion then
    .refuse .versionMismatch "registry snapshot schema is not supported"
  else
  let durableEpoch ← .read Read.u64
  let currentEpoch ← .read Read.u64
  let r := { r with durableEpoch, currentEpoch }
  let publishers ← decodeCount Limits.maxPublishersRetained
    "publisher watermark table exceeds its budget"
  let r ← Decode.loop readWatermark publishers r
  let r ← r.readTables EntityKind.all
  let conflicts ← decodeCount maxStoredConflicts "conflict table exceeds its budget"
  let r ← Decode.loop readConflict conflicts r
  let decisions ← decodeCount Limits.maxDecisionsRetained "decision audit table exceeds its budget"
  let r ← Decode.loop readDecision decisions r
  .sound .corrupt "registry snapshot is truncated"
  if ← atEnd then pure r
  else .refuse .corrupt "registry snapshot carries trailing bytes"

def loadSnapshotState (r : Registry) (raw : Bytes) : Result Registry :=
  if raw.isEmpty then .ok r
  else (r.readState (.ofBytes raw)).map Prod.fst

def applyEntity (r : Registry) (kind : EntityKind) (payload : Bytes) : Result Registry :=
  (kind.decode (.ofBytes payload)).map fun decoded => r.push kind decoded.1

def holdDecision (r : Registry) (decision : ContractDecision) : Registry :=
  let key := keyOf decision.contract decision.contractGeneration
  { r with
    decisionOrder :=
      if (r.decisions.lookup key).isNone then r.decisionOrder ++ [decision.contract]
      else r.decisionOrder
    decisions := r.decisions.insert key decision }

def holdConflict (r : Registry) (marker : ConflictMarker) : Registry :=
  let conflicts := r.conflicts ++ [marker]
  { r with
    conflicts := if conflicts.length > maxStoredConflicts then conflicts.tail else conflicts }

def decodeRegistration : Decode (Text × PublisherIncarnation) := do
  let id ← readIdentifier
  let incarnation ← .read Read.u64
  .sound .corrupt "publisher registration record is malformed"
  if !isValid id || incarnation == 0 then
    .refuse .corrupt "publisher registration record is malformed"
  else pure (id, incarnation)

def applyRecord (r : Registry) (record : LogRecord) : Result Registry :=
  match record.type with
  | .epochAdvance =>
      if record.payload.length < 8 then
        .error (makeError .corrupt "epoch record is too small")
      else
        let value := UInt64.ofNat (LittleEndian.decode (record.payload.take 8))
        .ok { r with
          durableEpoch := value
          currentEpoch := if r.currentEpoch < value then value else r.currentEpoch }
  | .publishClass => r.applyEntity .class record.payload
  | .publishPolicy => r.applyEntity .policy record.payload
  | .publishPath => r.applyEntity .path record.payload
  | .publishCapability => r.applyEntity .capability record.payload
  | .publishReservation => r.applyEntity .reservation record.payload
  | .registerPublisher =>
      (decodeRegistration (.ofBytes record.payload)).map fun decoded =>
        let (id, parsed) := decoded.1
        match r.publisherWatermark.lookup id with
        | none => { r with publisherWatermark := r.publisherWatermark.insert id parsed }
        | some highest =>
            if highest < parsed then
              { r with publisherWatermark := r.publisherWatermark.insert id parsed }
            else r
  | .conflictRecord =>
      (decodeMarker "conflict record is malformed" (.ofBytes record.payload)).map fun decoded =>
        r.holdConflict decoded.1
  | .recordDecision =>
      (decodeDecision (.ofBytes record.payload)).map fun decoded =>
        (r.holdDecision decoded.1.sealed).pruneDecisions
  | .storeHeader | .revokePublisher | .publisherLeaseCleared | .cleanShutdown | .mutationIntent
  | .mutationCommit | .mutationAbort | .unknown => .ok r

def rebuildFromLog (r : Registry) (replayed : List LogRecord) : Result Registry :=
  replayed.foldlM applyRecord r

end Registry

end QoSFabric
