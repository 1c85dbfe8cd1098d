import QoSFabric.Model.Frame
import Mathlib.Data.List.Infix

/-!
# Manifests and snapshots

The file names of a store directory, and the codecs of the manifest and of a snapshot file.
-/

namespace QoSFabric

/-! ## File names -/

abbrev FileName := Text

def manifestFileName : FileName := text "MANIFEST.qfm"

def walFileName : FileName := text "WAL.qwl"

def snapshotPrefix : Text := text "SNAPSHOT-"

def snapshotSuffix : Text := text ".qsn"

def snapshotFileName (sequence : UInt64) : FileName :=
  snapshotPrefix ++ decimal sequence.toNat ++ snapshotSuffix

/-- The temporary `write_file_atomic` writes first. -/
def tempName (name : FileName) : FileName := name ++ text ".tmp"

def isTempName (name : FileName) : Bool :=
  name.length > 4 && (text ".tmp").isSuffixOf name

def isSnapshotName (name : FileName) : Bool :=
  name.length > snapshotPrefix.length + snapshotSuffix.length &&
    snapshotPrefix.isPrefixOf name && snapshotSuffix.isSuffixOf name

/-- `strtoull` of decimal digits, which saturates. -/
def parseDecimal (digits : Text) : UInt64 :=
  let value := digits.foldl (fun n c => n * 10 + (c.toNat - 48)) 0
  if value > maxUInt64.toNat then maxUInt64 else UInt64.ofNat value

def snapshotNameSequence (name : FileName) : Option UInt64 :=
  if isSnapshotName name then
    let digits := (name.drop snapshotPrefix.length).take
      (name.length - snapshotPrefix.length - snapshotSuffix.length)
    if !digits.isEmpty && digits.all (fun c => 48 ≤ c && c ≤ 57) then some (parseDecimal digits)
    else none
  else none

/-! ## Snapshots -/

def snapshotMagic : Bytes := text "QOSFSNP1"

def snapshotLimit : Nat := Limits.maxSnapshotBytes + 64

def writeSnapshotFile (sequence : UInt64) (payload : Bytes) : ByteWriter snapshotLimit :=
  ((((((ByteWriter.empty.raw snapshotMagic).u16 frameVersion).u16 0).u64 sequence).u32
    (UInt32.ofNat payload.length)).raw payload).u32 (crc32c payload)

/-- `encode_snapshot`: nothing at all when the budget is exceeded. -/
def encodeSnapshot (sequence : UInt64) (payload : Bytes) : Bytes :=
  (writeSnapshotFile sequence payload).data.getD []

def decodeSnapshot (bytes : Bytes) : Result (UInt64 × Bytes) :=
  if bytes.length < 8 + 2 + 2 + 8 + 4 + 4 then
    .error (makeError .corrupt "snapshot is too small to be valid")
  else
    let (magic, r) := Read.raw snapshotMagic.length (.ofBytes bytes)
    if magic != some snapshotMagic then .error (makeError .corrupt "snapshot magic mismatch")
    else
      let (version, r) := Read.u16 r
      let (_, r) := Read.u16 r
      let (sequence, r) := Read.u64 r
      let (length, r) := Read.u32 r
      if r.failed || version != frameVersion then
        .error (makeError .versionMismatch "snapshot format version is not supported")
      else if length.toNat > Limits.maxSnapshotBytes then
        .error (makeError .tooLarge "snapshot payload exceeds budget")
      else
        let (payload, r) := Read.raw length.toNat r
        let (expectedCrc, r) := Read.u32 r
        match payload with
        | none => .error (makeError .corrupt "snapshot is truncated")
        | some payload =>
            if r.failed then .error (makeError .corrupt "snapshot is truncated")
            else if crc32c payload ≠ expectedCrc then
              .error (makeError .corrupt "snapshot checksum mismatch")
            else if !r.atEnd then .error (makeError .corrupt "snapshot carries trailing bytes")
            else .ok (sequence, payload)

/-! ## The manifest -/

def manifestMagic : Bytes := text "QOSFMNF1"

abbrev storeFormatVersion : UInt16 := 1

structure Manifest where
  storeId : Digest256
  durableEpoch : FabricEpoch
  snapshotSequence : UInt64
  lastSequence : Sequence
  snapshotName : Text
  deriving DecidableEq

def Manifest.write (m : Manifest) : ByteWriter 65536 :=
  (((((((ByteWriter.empty.raw manifestMagic).u16 storeFormatVersion).u16 0).raw
    m.storeId.bytes).u64 m.durableEpoch).u64 m.snapshotSequence).u64 m.lastSequence).u32
      (UInt32.ofNat m.snapshotName.length) |>.raw m.snapshotName

def encodeManifest (m : Manifest) : Option Bytes :=
  m.write.data.map fun bytes => bytes ++ LittleEndian.encode 4 (crc32c bytes).toNat

def loadLe (raw : Bytes) (offset width : Nat) : Nat :=
  LittleEndian.decode ((raw.drop offset).take width)

/-- The checks of `load_manifest` on the bytes of the file. -/
def decodeManifest (formatVersion : UInt16) (raw : Bytes) : Result Manifest :=
  if raw.length < 8 + 2 + 2 + 32 + 8 + 8 + 8 + 4 + 4 then
    .error (makeError .corrupt "manifest is too small")
  else if (crc32c (raw.take (raw.length - 4))).toNat ≠ loadLe raw (raw.length - 4) 4 then
    .error (makeError .corrupt "manifest checksum mismatch")
  else if raw.take 8 ≠ manifestMagic then
    .error (makeError .corrupt "manifest magic mismatch")
  else
    let version := UInt16.ofNat (loadLe raw 8 2)
    if version ≠ storeFormatVersion ∨ formatVersion ≠ version then
      .error (makeError .versionMismatch "store format version is not supported")
    else
      let nameLength := loadLe raw 68 4
      if nameLength > 64 ∨ 72 + nameLength + 4 > raw.length then
        .error (makeError .corrupt "manifest snapshot name is malformed")
      else if 72 + nameLength + 4 ≠ raw.length then
        .error (makeError .corrupt "manifest length is inconsistent")
      else
        let name := (raw.drop 72).take nameLength
        if name.contains 47 ∨ name.contains 92 ∨ [46, 46] <:+: name then
          .error (makeError .corrupt "manifest snapshot name escapes the store directory")
        else .ok {
          storeId := .ofBuffer (raw.drop 12)
          durableEpoch := UInt64.ofNat (loadLe raw 44 8)
          snapshotSequence := if name.isEmpty then 0 else UInt64.ofNat (loadLe raw 52 8)
          lastSequence := UInt64.ofNat (loadLe raw 60 8)
          snapshotName := name }

end QoSFabric
