import QoSFabric.Model.Store
import QoSFabric.Proof.Store.Artifact
import Mathlib.Data.List.TakeWhile

namespace QoSFabric

open FileSystem Interaction

/-- Runs a program on a directory where every file operation succeeds. -/
abbrev execute {α : Type} (p : Files α) (d : Disk FileName) : α × Disk FileName :=
  Program.run Disk.answer p d

@[simp] theorem execute_pure {α : Type} (a : α) (d : Disk FileName) :
    execute (pure a) d = (a, d) := rfl

@[simp] theorem execute_bind {α β : Type} (p : Files α) (f : α → Files β) (d : Disk FileName) :
    execute (p >>= f) d = execute (f (execute p d).1) (execute p d).2 := Program.run_bind p f d

section Requests

variable (d : Disk FileName) (name target : FileName) (handle : Handle) (bytes : Bytes)

@[simp] theorem execute_exists : execute (Fs.exists_ name) d = ((d.file name).isSome, d) := rfl

@[simp] theorem execute_read : execute (Fs.read name) d = (d.content name, d) := rfl

@[simp] theorem execute_create :
    execute (Fs.create name) d = (some (d.create name).1, (d.create name).2) := rfl

@[simp] theorem execute_openAppend :
    execute (Fs.openAppend name) d = (some (d.openAppend name).1, (d.openAppend name).2) := rfl

@[simp] theorem execute_write : execute (Fs.write handle bytes) d = (true, d.write handle bytes) := rfl

@[simp] theorem execute_sync : execute (Fs.sync handle) d = (true, d) := rfl

@[simp] theorem execute_rename : execute (Fs.rename name target) d = d.rename name target := rfl

@[simp] theorem execute_remove : execute (Fs.remove name) d = ((), d.remove name) := rfl

@[simp] theorem execute_truncate (length : Nat) :
    execute (Fs.truncate name length) d = ((), d.truncate name length) := rfl

@[simp] theorem execute_list : execute Fs.list d = (d.names.keys, d) := rfl

@[simp] theorem execute_syncDirectory : execute Fs.syncDirectory d = (true, d) := rfl

end Requests

theorem tempName_ne (name : FileName) : tempName name ≠ name := by
  intro eq
  have := congrArg List.length eq
  have suffix : (text ".tmp").length = 4 := by decide
  rw [tempName, List.length_append] at this
  omega

theorem execute_readEntry {d : Disk FileName} {entry path : FileName} {bytes : Bytes}
    (h : d.content entry = some bytes) (maxBytes : Nat) :
    execute (readEntry entry path maxBytes) d =
      (if bytes.length > maxBytes then
        .error (makeError .tooLarge "file exceeds the configured read budget")
       else .ok bytes, d) := by
  unfold readEntry
  simp only [execute_bind, execute_read, h]
  split <;> rfl

theorem execute_readFile {d : Disk FileName} {name : FileName} {bytes : Bytes}
    (h : d.content name = some bytes) (maxBytes : Nat) :
    execute (readFile name maxBytes) d =
      (if bytes.length > maxBytes then
        .error (makeError .tooLarge "file exceeds the configured read budget")
       else .ok bytes, d) :=
  execute_readEntry h maxBytes

theorem pathEntry_of_plain {name : FileName} (plain : ∀ c ∈ name, c ≠ 0) (long : 2 ≤ name.length) :
    pathEntry name = some name := by
  have whole : name.takeWhile (· ≠ 0) = name :=
    List.takeWhile_eq_self_iff.mpr fun c mem => decide_eq_true (plain c mem)
  have leaf : ¬(name = [] ∨ name = text ".") := by
    rintro (rfl | rfl)
    · exact absurd long (by decide)
    · exact absurd long (by decide)
  rw [pathEntry, whole]
  exact if_neg leaf

theorem pathEntry_of_snapshotNameSequence {name : FileName} {sequence : UInt64}
    (named : snapshotNameSequence name = some sequence) : pathEntry name = some name := by
  unfold snapshotNameSequence isSnapshotName at named
  split at named
  case isFalse => cases named
  next snapshot =>
  rw [Bool.and_eq_true, Bool.and_eq_true, decide_eq_true_eq, List.isPrefixOf_iff_prefix,
    List.isSuffixOf_iff_suffix] at snapshot
  obtain ⟨⟨long, ⟨rest, rfl⟩⟩, suffix⟩ := snapshot
  rw [List.length_append] at long
  obtain ⟨digits, rfl⟩ : snapshotSuffix <:+ rest :=
    List.suffix_of_suffix_length_le suffix (List.suffix_append _ _) (by omega)
  rw [List.length_append] at long
  have middle : ((snapshotPrefix ++ (digits ++ snapshotSuffix)).drop snapshotPrefix.length).take
      ((snapshotPrefix ++ (digits ++ snapshotSuffix)).length - snapshotPrefix.length -
        snapshotSuffix.length) = digits := by
    rw [List.drop_left, List.take_left']
    rw [List.length_append, List.length_append]
    omega
  dsimp only at named
  rw [middle] at named
  split at named
  case isFalse => cases named
  next numeric =>
  rw [Bool.and_eq_true, List.all_eq_true] at numeric
  have nine : snapshotPrefix.length = 9 := by decide
  apply pathEntry_of_plain
  · intro c mem
    rw [List.mem_append, List.mem_append] at mem
    rcases mem with mem | mem | mem
    · rw [snapshotPrefix_eq] at mem
      rintro rfl
      exact absurd mem (by decide)
    · have digit := numeric.2 c mem
      rintro rfl
      exact absurd digit (by decide)
    · rw [snapshotSuffix_eq] at mem
      rintro rfl
      exact absurd mem (by decide)
  · rw [List.length_append]
    omega

@[simp] theorem pathEntry_snapshotFileName (sequence : UInt64) :
    pathEntry (snapshotFileName sequence) = some (snapshotFileName sequence) :=
  pathEntry_of_snapshotNameSequence (snapshotNameSequence_snapshotFileName sequence)

section Paths

variable {path entry : FileName} (named : pathEntry path = some entry)
include named

theorem readPath_of_entry (maxBytes : Nat) :
    readPath path maxBytes = readEntry entry path maxBytes := by
  unfold readPath
  rw [named]

theorem removePath_of_entry : removePath path = Fs.remove entry := by
  unfold removePath
  rw [named]

end Paths

theorem execute_pathExists (path : FileName) (d : Disk FileName) :
    execute (pathExists path) d =
      ((pathEntry path).all fun entry => (d.file entry).isSome, d) := by
  unfold pathExists
  cases pathEntry path with
  | none => rfl
  | some entry => rfl

theorem readPath_snapshotFileName (sequence : UInt64) (maxBytes : Nat) :
    readPath (snapshotFileName sequence) maxBytes = readFile (snapshotFileName sequence) maxBytes :=
  readPath_of_entry (pathEntry_snapshotFileName sequence) maxBytes

structure Replaced (d d' : Disk FileName) (name : FileName) (bytes : Bytes) : Prop where
  content_self : d'.content name = some bytes
  file_temp : d'.file (tempName name) = none
  file_of_ne : ∀ other, other ≠ name → other ≠ tempName name → d'.file other = d.file other
  content_of_ne : ∀ other, other ≠ name → other ≠ tempName name → d'.content other = d.content other

structure SameBut (d d' : Disk FileName) (name : FileName) : Prop where
  file_of_ne : ∀ other, other ≠ name → d'.file other = d.file other
  content_of_ne : ∀ other, other ≠ name → d'.content other = d.content other

namespace SameBut

variable {d e : Disk FileName} {name : FileName}

theorem refl : SameBut d d name := ⟨fun _ _ => rfl, fun _ _ => rfl⟩

theorem create : SameBut d (d.create name).2 name :=
  ⟨fun _ ne => Disk.file_create_of_ne ne, fun _ ne => Disk.content_create_of_ne ne⟩

theorem write {handle : Handle} (h : SameBut d e name) (named : e.file name = some handle)
    (bytes : Bytes) : SameBut d (e.write handle bytes) name where
  file_of_ne other ne := by rw [Disk.file_write, h.file_of_ne other ne]
  content_of_ne other ne := by
    rw [Disk.content_write_of_ne bytes fun clash => ne (Disk.file_injective clash named),
      h.content_of_ne other ne]

theorem remove (h : SameBut d e name) : SameBut d (e.remove name) name where
  file_of_ne other ne := by rw [Disk.file_remove_of_ne ne, h.file_of_ne other ne]
  content_of_ne other ne := by rw [Disk.content_remove_of_ne ne, h.content_of_ne other ne]

theorem move {handle : Handle} {bytes : Bytes} (h : SameBut d e (tempName name))
    (named : e.file (tempName name) = some handle) (data : e.data handle = bytes) :
    Replaced d (e.move (tempName name) name handle named) name bytes where
  content_self := by rw [Disk.content_move_target, data]
  file_temp := Disk.file_move_source named (tempName_ne name)
  file_of_ne other ne nt := by rw [Disk.file_move_of_ne named nt ne, h.file_of_ne other nt]
  content_of_ne other ne nt := by rw [Disk.content_move_of_ne named nt ne, h.content_of_ne other nt]

end SameBut

theorem wp_writeFileAtomic {d : Disk FileName} {name : FileName} {bytes : Bytes}
    {crash : Disk FileName → Prop} {post : Result Unit → Disk FileName → Prop}
    (before : ∀ e, SameBut d e (tempName name) → crash e)
    (after : ∀ e, Replaced d e name bytes → crash e ∧ post (.ok ()) e) :
    (writeFileAtomic name bytes).wp Disk.world crash post d := by
  have created : SameBut d (d.create (tempName name)).2 (tempName name) := .create
  have named : (d.create (tempName name)).2.file (tempName name) =
      some (d.create (tempName name)).1 := Disk.file_create_self
  have finish (e : Disk FileName) (same : SameBut d e (tempName name))
      (file : e.file (tempName name) = some (d.create (tempName name)).1)
      (data : e.data (d.create (tempName name)).1 = bytes) :
      (do let synced ← Fs.sync (d.create (tempName name)).1
          if !synced then
            Fs.remove (tempName name)
            pure (.error (makeError .ioError "fsync failed"))
          else
            let replaced ← Fs.rename (tempName name) name
            if replaced then pure (.ok ())
            else pure (.error (makeError .ioError "atomic replace failed")) :
        Files (Result Unit)).wp Disk.world crash post e := by
    rw [Disk.wp_sync]
    refine ⟨before e same, ?_⟩
    rw [Bool.not_true, if_neg Bool.false_ne_true, Disk.wp_rename, Disk.rename_of_file file]
    exact ⟨before e same, after _ (same.move file data)⟩
  rw [writeFileAtomic, Disk.wp_create]
  refine ⟨before d .refl, ?_⟩
  by_cases empty : bytes.isEmpty = true
  · simp only [empty, if_true, Program.pure_eq_done, Program.done_bind]
    exact finish _ created named (by rw [Disk.data_create_self, List.isEmpty_iff.mp empty])
  · simp only [empty, if_neg, Bool.false_eq_true, not_false_eq_true]
    rw [Disk.wp_write]
    exact ⟨before _ created, fun n => before _ (created.write named _),
      finish _ (created.write named bytes) named (by simp)⟩

end QoSFabric
