import QoSFabric.Proof.Store.Survival

namespace QoSFabric

open FileSystem Interaction
open Framing (Outcome)

variable {options : StoreOptions} {budget : Nat} {d : Disk FileName} {payload boot : Bytes}
  {j : Journal} {bytes torn : Bytes} {f : Frame} {frames : List Frame}

def StoreOptions.Reads (options : StoreOptions) (d : Disk FileName) : Prop :=
  ∀ f ∈ (framesOf Limits.maxWalRecordBytes (walOf d)).map Prod.fst, f.Fits options.maxRecordBytes

theorem Frame.Fits.mono {small large : Nat} (fits : f.Fits small) (le : small ≤ large) :
    f.Fits large :=
  ⟨fits.1.trans le, fits.2⟩

theorem parseFrame_incomplete {small large size : Nat}
    (whole : parseFrame small bytes = .whole f size) : parseFrame large bytes ≠ .incomplete := by
  have stands := standsWhole whole
  have within := stands.within
  rw [stands.covers] at within
  unfold parseFrame
  rw [if_neg (Nat.not_lt.mpr stands.header)]
  dsimp only
  rw [if_neg (Nat.not_lt.mpr within)]
  split
  · exact nofun
  split
  · exact nofun
  split
  · exact nofun
  split <;> exact nofun

theorem unframed_torn (torn : (walFormat budget).Torn bytes) (other : Nat) :
    (walFormat other).Unframed bytes := by
  intro ne f size whole
  exact parseFrame_incomplete whole ((walFormat budget).parse_log_ne torn ne)

theorem unframed_large (fits : f.Fits budget) (large : ¬f.Fits options.maxRecordBytes)
    (rest : Bytes) : (walFormat options.maxRecordBytes).Unframed (encodeFrame f ++ rest) := by
  intro _ g size whole
  have above : options.maxRecordBytes < f.payload.length := by
    rw [Frame.length_payload]
    exact Nat.not_le.mp fun le => large ⟨le, fits.2⟩
  have length : LittleEndian.decode ((encodeFrame f ++ rest).take 4) = f.payload.length := by
    rw [encodeFrame, List.append_assoc]
    exact decode_header_length fits.payload_lt _
  have whole : parseFrame options.maxRecordBytes (encodeFrame f ++ rest) = .whole g size := whole
  have within := (standsWhole whole).budget
  rw [length] at within
  omega

theorem log_under (options : StoreOptions) (fits : ∀ f ∈ frames, f.Fits budget)
    (cut : (walFormat budget).Torn torn) :
    ∃ kept lost tail, frames = kept ++ lost ∧ (∀ f ∈ kept, f.Fits options.maxRecordBytes) ∧
      ((∀ f ∈ frames, f.Fits options.maxRecordBytes) → lost = []) ∧
      (walFormat options.maxRecordBytes).Unframed tail ∧
      (walFormat budget).log frames ++ torn = (walFormat options.maxRecordBytes).log kept ++ tail := by
  induction frames with
  | nil => exact ⟨[], [], torn, rfl, nofun, fun _ => rfl, unframed_torn cut _, rfl⟩
  | cons f frames ih =>
      by_cases fit : f.Fits options.maxRecordBytes
      · obtain ⟨kept, lost, tail, rfl, small, whole, unframed, eq⟩ :=
          ih fun g mem => fits g (List.mem_cons_of_mem _ mem)
        refine ⟨f :: kept, lost, tail, rfl, List.forall_mem_cons.mpr ⟨fit, small⟩, ?_, unframed, ?_⟩
        · intro all
          exact whole fun g mem => all g (List.mem_cons_of_mem _ mem)
        · rw [Framing.Format.log_cons, Framing.Format.log_cons, List.append_assoc, List.append_assoc,
            eq]
          rfl
      · refine ⟨[], f :: frames, (walFormat budget).log (f :: frames) ++ torn, rfl, nofun, ?_, ?_, rfl⟩
        · intro all
          exact absurd (all f List.mem_cons_self) fit
        · rw [Framing.Format.log_cons, List.append_assoc]
          exact unframed_large (fits f List.mem_cons_self) fit _

def Found (budget : Nat) (d : Disk FileName) (payload : Bytes) (j : Journal) : Prop :=
  ∃ m snapshot covered torn,
    Shows d m snapshot ((walFormat budget).log (covered ++ j.frames) ++ torn) ∧
      (walFormat budget).Unframed torn ∧ Holding budget m snapshot covered payload j

theorem Rests.reads_iff (options : StoreOptions) (rests : Rests budget d payload j)
    (small : budget ≤ Limits.maxWalRecordBytes) :
    ∃ m snapshot covered torn,
      Shows d m snapshot ((walFormat budget).log (covered ++ j.frames) ++ torn) ∧
        (walFormat budget).Torn torn ∧ Holding budget m snapshot covered payload j ∧
        (options.Reads d ↔ ∀ f ∈ covered ++ j.frames, f.Fits options.maxRecordBytes) := by
  obtain ⟨m, snapshot, covered, torn, shows, cut, holding⟩ := rests
  refine ⟨m, snapshot, covered, torn, shows, cut, holding, ?_⟩
  have shown : walOf d = (walFormat Limits.maxWalRecordBytes).log (covered ++ j.frames) ++ torn := by
    rw [walOf, shows.log, Option.getD_some]
    rfl
  have fits : ∀ f ∈ covered ++ j.frames, (walFormat Limits.maxWalRecordBytes).Fits f :=
    fun f mem => Frame.Fits.mono (holding.fits f mem) small
  have enough : (covered ++ j.frames).length ≤
      ((walFormat Limits.maxWalRecordBytes).log (covered ++ j.frames) ++ torn).length :=
    ((walFormat Limits.maxWalRecordBytes).length_le_log _).trans (List.prefix_append _ torn).length_le
  have framed : (framesOf Limits.maxWalRecordBytes (walOf d)).map Prod.fst = covered ++ j.frames := by
    rw [shown]
    exact (walFormat Limits.maxWalRecordBytes).frames_log fits (unframed_torn cut _) enough
  rw [StoreOptions.Reads, framed]

theorem Rests.wp_openUnder {crash : Disk FileName → Prop}
    {post : Result Store → Disk FileName → Prop} (valid : options.Valid)
    (rests : Rests budget d payload j) (small : budget ≤ Limits.maxWalRecordBytes)
    (safe : ∀ e, Rests budget e payload j → crash e)
    (reopens : ∀ k lost, j = k ++ lost → (options.Reads d → lost = []) →
      Found options.maxRecordBytes d payload k → Reopens options boot payload k crash post) :
    (Store.open options boot).wp Disk.world crash post d := by
  obtain ⟨m, snapshot, covered, torn, shows, cut, holding, reads⟩ :=
    rests.reads_iff options small
  obtain ⟨kept, rest, tail, split, fits, whole, unframed, eq⟩ := log_under options holding.fits cut
  obtain ⟨covered', k, lost, rfl, rfl, before, all⟩ := frames_front split
  have found := holding.front before fits
  have resting (e : Disk FileName) (shows : Shows e m snapshot
      ((walFormat budget).log (covered ++ Journal.frames (k ++ lost)) ++ torn)) :
      Rests budget e payload (k ++ lost) := ⟨m, snapshot, covered, torn, shows, cut, holding⟩
  rw [eq] at shows resting
  apply shows.wp_open valid found unframed fun e shows => safe e (resting e shows)
  exact reopens k lost rfl (fun read => all (whole (reads.mp read)))
    ⟨m, snapshot, covered', tail, shows, unframed, found⟩

theorem Rests.lawful (rests : Rests budget d payload j) : j.Lawful := by
  obtain ⟨m, snapshot, covered, torn, -, -, holding⟩ := rests
  exact holding.lawful

theorem Found.lawful (found : Found budget d payload j) : j.Lawful := by
  obtain ⟨m, snapshot, covered, torn, -, -, holding⟩ := found
  exact holding.lawful

end QoSFabric
