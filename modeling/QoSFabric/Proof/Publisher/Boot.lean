import QoSFabric.Model.Publisher
import QoSFabric.Proof.Store.Artifact
import QoSFabric.Proof.Store.Run
import QoSFabric.Proof.Registry.Scenario
import QoSFabric.Foundation.Faults

/-!
# Boot counters

A boot file is replaced as a whole, so that whatever fails in writing it and wherever a process is
cut off, it holds the last number that was claimed, or the one before it. No incarnation is therefore
claimed twice, as long as the numbers last and reads do not fail.
-/

namespace QoSFabric

open Interaction FileSystem

variable {d e : Disk FileName} {path name : FileName} {bytes : Bytes}

theorem wp_writeFileAtomic_faulty {crash : Disk FileName → Prop}
    {post : Result Unit → Disk FileName → Prop}
    (failed : ∀ e, SameBut d e (tempName name) → crash e ∧ ∀ reason, post (.error reason) e)
    (after : ∀ e, Replaced d e name bytes → crash e ∧ post (.ok ()) e) :
    (writeFileAtomic name bytes).wp Disk.faultyWorld crash post d := by
  have created : SameBut d (d.create (tempName name)).2 (tempName name) := .create
  have named : (d.create (tempName name)).2.file (tempName name) =
      some (d.create (tempName name)).1 := Disk.file_create_self
  -- a failure leaves the temporary file, or takes it away
  have removed (e : Disk FileName) (same : SameBut d e (tempName name)) (reason : Error) :
      (Fs.remove (tempName name) >>= fun _ => pure (.error reason) : Files (Result Unit)).wp
        Disk.faultyWorld crash post e :=
    have kept := failed e same
    have gone := failed _ same.remove
    Disk.wp_faulty_remove.mpr ⟨kept.1, ⟨kept.1, kept.2 reason⟩, gone.1, gone.2 reason⟩
  have finish (e : Disk FileName) (same : SameBut d e (tempName name))
      (file : e.file (tempName name) = some (d.create (tempName name)).1)
      (data : e.data (d.create (tempName name)).1 = bytes) :
      (do let synced ← Fs.sync (d.create (tempName name)).1
          if !synced then
            Fs.remove (tempName name)
            pure (.error (makeError .ioError "fsync failed"))
          else
            let replaced ← Fs.rename (tempName name) name
            if replaced then pure (.ok ())
            else pure (.error (makeError .ioError "atomic replace failed")) :
        Files (Result Unit)).wp Disk.faultyWorld crash post e := by
    obtain ⟨safe, fails⟩ := failed e same
    rw [Disk.wp_faulty_sync]
    refine ⟨safe, removed e same _, ?_⟩
    rw [Bool.not_true, if_neg Bool.false_ne_true, Disk.wp_faulty_rename,
      Disk.rename_of_file file]
    exact ⟨safe, ⟨safe, fails _⟩, after _ (same.move file data)⟩
  rw [writeFileAtomic, Disk.wp_faulty_create]
  obtain ⟨safe, fails⟩ := failed d .refl
  refine ⟨safe, ⟨safe, fails _⟩, ?_⟩
  by_cases empty : bytes.isEmpty = true
  · simp only [empty, if_true, Program.pure_eq_done, Program.done_bind]
    exact finish _ created named (by rw [Disk.data_create_self, List.isEmpty_iff.mp empty])
  · simp only [empty, if_neg, Bool.false_eq_true, not_false_eq_true]
    rw [Disk.wp_faulty_write]
    exact ⟨(failed _ created).1,
      fun n => ⟨(failed _ (created.write named _)).1, removed _ (created.write named _) _⟩,
      finish _ (created.write named bytes) named (by simp)⟩

def incarnationOf : Option Bytes → Result PublisherIncarnation
  | none => .ok 0
  | some bytes =>
      if bytes.length > 64 then .error (makeError .tooLarge "file exceeds the configured read budget")
      else
        let digits := bytes.rdropWhile fun c => c == 10 || c == 13 || c == 32
        if digits.isEmpty || !digits.all isDigit then
          .error (makeError .corrupt "boot file does not hold a decimal counter")
        else .ok (strtoull digits)

/-- The number that a boot file holds; a file that cannot be read as one holds none. -/
def bootCounter (d : Disk FileName) (path : FileName) : Nat :=
  ((incarnationOf (d.content path)).toOption.map UInt64.toNat).getD 0

theorem bootCounter_congr (same : e.content path = d.content path) :
    bootCounter e path = bootCounter d path := by
  unfold bootCounter
  rw [same]

theorem incarnationOf_written (value : PublisherIncarnation) :
    incarnationOf (some (decimal value.toNat ++ text "\n")) = .ok value := by
  have newline : text "\n" = [10] := by decide
  have size := length_decimal_le value.toNat_lt
  have digits : ∀ c ∈ decimal value.toNat, isDigit c = true := fun c mem =>
    isDigit_iff.mpr (mem_decimal mem)
  have stops : ((decimal value.toNat).rdropWhile fun c => c == 10 || c == 13 || c == 32) =
      decimal value.toNat := by
    rw [List.rdropWhile_eq_self_iff]
    intro filled space
    have digit := mem_decimal (List.getLast_mem filled)
    simp only [Bool.or_eq_true, beq_iff_eq] at space
    rcases space with (space | space) | space <;> rw [space] at digit <;>
      exact absurd digit.1 (by decide)
  have number : IsNumber (decimal value.toNat) := ⟨decimal_ne_nil _, digits⟩
  unfold incarnationOf
  dsimp only
  rw [newline, if_neg (by rw [List.length_append, List.length_singleton]; omega),
    List.rdropWhile_concat_pos _ _ _ (by rfl), stops,
    if_neg (by simp [decimal_ne_nil, List.all_eq_true.mpr digits]), strtoull_of_number number,
    parseDecimal_decimal value.toNat_lt, UInt64.ofNat_toNat]

theorem bootCounter_of_replaced {value : PublisherIncarnation}
    (replaced : Replaced d e path (decimal value.toNat ++ text "\n")) :
    bootCounter e path = value.toNat := by
  unfold bootCounter
  rw [replaced.content_self, incarnationOf_written]
  rfl

theorem bootCounter_of_sameBut (same : SameBut d e (tempName path)) :
    bootCounter e path = bootCounter d path :=
  bootCounter_congr (same.content_of_ne path (tempName_ne path).symm)

theorem wp_readIncarnation (named : path ≠ []) {crash : Disk FileName → Prop}
    {post : Result PublisherIncarnation → Disk FileName → Prop} (safe : crash d)
    (done : post (incarnationOf (d.content path)) d) :
    (readIncarnation path).wp Disk.faultyWorld crash post d := by
  unfold readIncarnation readFile readEntry
  rw [if_neg (by simpa using named), Program.bind_assoc, Disk.wp_faulty_read]
  refine ⟨safe, ?_⟩
  cases content : d.content path with
  | none =>
      rw [content] at done
      exact ⟨safe, done⟩
  | some bytes =>
      rw [content] at done
      unfold incarnationOf at done
      dsimp only at done ⊢
      split
      next large =>
        rw [if_pos large] at done
        exact ⟨safe, done⟩
      next fits =>
        rw [if_neg fits] at done
        exact ⟨safe, done⟩

def Advances (path : FileName) (d e : Disk FileName) : Prop :=
  bootCounter e path = bootCounter d path ∨ bootCounter e path = bootCounter d path + 1

def Claims (path : FileName) (d : Disk FileName) :
    Result PublisherIncarnation → Disk FileName → Prop
  | .ok incarnation, e =>
      incarnation.toNat = bootCounter d path + 1 ∧ bootCounter e path = bootCounter d path + 1
  | .error _, e => Advances path d e

theorem wp_claimIncarnation (named : path ≠ []) (room : bootCounter d path + 1 < 2 ^ 64) :
    (claimIncarnation path).wp Disk.faultyWorld (Advances path d) (Claims path d) d := by
  unfold claimIncarnation
  rw [Program.wp_bind]
  refine wp_readIncarnation named (.inl rfl) ?_
  cases read : incarnationOf (d.content path) with
  | error reason => exact ⟨.inl rfl, .inl rfl⟩
  | ok previous =>
      have counter : bootCounter d path = previous.toNat := by
        unfold bootCounter
        rw [read]
        rfl
      rw [counter] at room
      have next : (previous + 1).toNat = bootCounter d path + 1 := by
        rw [counter, UInt64.toNat_add]
        exact Nat.mod_eq_of_lt room
      dsimp only
      unfold writeIncarnation
      rw [if_neg (by simpa using named), Program.wp_bind]
      apply wp_writeFileAtomic_faulty
      · intro e same
        have kept : Advances path d e := .inl (bootCounter_of_sameBut same)
        exact ⟨kept, fun reason => ⟨kept, kept⟩⟩
      · intro e replaced
        have claimed : bootCounter e path = bootCounter d path + 1 :=
          (bootCounter_of_replaced replaced).trans next
        exact ⟨.inr claimed, .inr claimed, next, claimed⟩

/-- The starts of processes with one boot file, one after another, and the incarnations that they
claimed. A start may fail or be cut off; what happens to other files does not matter. -/
inductive Boots (path : FileName) (d : Disk FileName) :
    Nat → List PublisherIncarnation → Disk FileName → Prop where
  | start : Boots path d 0 [] d
  | claimed {n : Nat} {issued : List PublisherIncarnation} {incarnation : PublisherIncarnation}
      {e e' : Disk FileName} (boots : Boots path d n issued e)
      (run : (claimIncarnation path).Ends Disk.faultyWorld e (.ok incarnation) e') :
      Boots path d (n + 1) (issued ++ [incarnation]) e'
  | failed {n : Nat} {issued : List PublisherIncarnation} {reason : Error} {e e' : Disk FileName}
      (boots : Boots path d n issued e)
      (run : (claimIncarnation path).Ends Disk.faultyWorld e (.error reason) e') :
      Boots path d (n + 1) issued e'
  | crashed {n : Nat} {issued : List PublisherIncarnation} {e e' : Disk FileName}
      (boots : Boots path d n issued e)
      (run : (claimIncarnation path).Crashes Disk.faultyWorld e e') :
      Boots path d (n + 1) issued e'
  | beside {n : Nat} {issued : List PublisherIncarnation} {e e' : Disk FileName}
      (boots : Boots path d n issued e) (kept : e'.content path = e.content path) :
      Boots path d n issued e'

/-- No start reuses an incarnation, wherever an earlier one was cut off: the incarnations that are
claimed rise as long as the counter has room. -/
theorem incarnations_rise {n : Nat} {issued : List PublisherIncarnation} (named : path ≠ [])
    (boots : Boots path d n issued e) (room : bootCounter d path + n < 2 ^ 64) :
    issued.Pairwise (· < ·) ∧
      (∀ i ∈ issued, bootCounter d path < i.toNat ∧ i.toNat ≤ bootCounter e path) ∧
      bootCounter d path ≤ bootCounter e path ∧ bootCounter e path ≤ bootCounter d path + n := by
  induction boots with
  | start => exact ⟨.nil, fun _ mem => absurd mem List.not_mem_nil, le_rfl, le_rfl⟩
  | claimed boots run ih =>
      obtain ⟨rise, within, low, high⟩ := ih (by omega)
      obtain ⟨next, counter⟩ := Program.wp_ends (wp_claimIncarnation named (by omega)) run
      refine ⟨?_, ?_, by omega, by omega⟩
      · rw [List.pairwise_append]
        refine ⟨rise, List.pairwise_singleton _ _, fun older mem newer last => ?_⟩
        obtain rfl := List.mem_singleton.mp last
        have := (within older mem).2
        exact UInt64.lt_iff_toNat_lt.mpr (by omega)
      · intro i mem
        rcases List.mem_append.mp mem with mem | mem
        · have := within i mem
          omega
        · obtain rfl := List.mem_singleton.mp mem
          omega
  | failed boots run ih =>
      obtain ⟨rise, within, low, high⟩ := ih (by omega)
      have left := Program.wp_ends (wp_claimIncarnation named (by omega)) run
      refine ⟨rise, fun i mem => ?_, ?_⟩
      · have := within i mem
        rcases left with left | left <;> omega
      · rcases left with left | left <;> omega
  | crashed boots run ih =>
      obtain ⟨rise, within, low, high⟩ := ih (by omega)
      have left := Program.wp_crashes (wp_claimIncarnation named (by omega)) run
      refine ⟨rise, fun i mem => ?_, ?_⟩
      · have := within i mem
        rcases left with left | left <;> omega
      · rcases left with left | left <;> omega
  | beside boots kept ih =>
      rw [bootCounter_congr kept]
      exact ih room

/-- Two processes, the first of which is cut off before it claims anything. -/
theorem incarnations_rise_restarted : ∃ issued e, Boots (text "boot") Disk.empty 3 issued e ∧
    issued = [1, 2] ∧ issued.Pairwise (· < ·) := by
  let p := claimIncarnation (text "boot")
  have first : p.Ends Disk.world Disk.empty _ _ := Program.ends_run p _
  have second : p.Ends Disk.world _ _ _ := Program.ends_run p (p.run Disk.answer Disk.empty).2
  have one : (p.run Disk.answer Disk.empty).1 = .ok 1 := by decide +kernel
  have two : (p.run Disk.answer (p.run Disk.answer Disk.empty).2).1 = .ok 2 := by decide +kernel
  rw [one] at first
  rw [two] at second
  have boots := ((Boots.start.crashed .here).claimed (Disk.ends_faulty first)).claimed
    (Disk.ends_faulty second)
  exact ⟨_, _, boots, rfl, (incarnations_rise (by decide) boots (by decide +kernel)).1⟩

end QoSFabric
