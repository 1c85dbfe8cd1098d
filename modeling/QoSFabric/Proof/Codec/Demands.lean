import QoSFabric.Proof.Codec.Snapshot
import QoSFabric.Proof.Codec.Strict

namespace QoSFabric

open Decode

variable {α β σ : Type} {limit : Nat} {R : Bytes → Prop} {C D : Prop}

def DemandsBefore (R : Bytes → Prop) (emit : ByteWriter limit → ByteWriter limit) (p : Decode α)
    (a : α) (C : Prop) : Prop :=
  ∀ w out, (emit w).data = some out → ∃ before bytes, w.data = some before ∧ out = before ++ bytes ∧
    ∀ rest, R rest → (p ⟨some (bytes ++ rest)⟩ = .ok (a, ⟨some rest⟩) ∧ C) ∨
      ∃ e, p ⟨some (bytes ++ rest)⟩ = .error e

abbrev Demands (emit : ByteWriter limit → ByteWriter limit) (p : Decode α) (a : α) (C : Prop) : Prop :=
  DemandsBefore (fun _ => True) emit p a C

namespace Demands

variable {emit field : ByteWriter limit → ByteWriter limit}
  {fields : List (ByteWriter limit → ByteWriter limit)} {p : Decode α} {k : α → Decode β} {a : α}
  {b : β}

theorem of_yields {post : α → Prop} (codes : CodesBefore R emit p a False) (yields : Yields p post) :
    DemandsBefore R emit p a (post a) := by
  intro w out written
  obtain ⟨before, bytes, data, eq, reads⟩ := codes w out written
  refine ⟨before, bytes, data, eq, fun rest may => ?_⟩
  cases reads rest may with
  | inl read => exact .inl ⟨read, yields.ok _ _ _ read⟩
  | inr refused => exact .inr refused.2

theorem of_codes (codes : CodesBefore R emit p a False) : DemandsBefore R emit p a True :=
  of_yields codes ⟨fun _ _ _ _ => trivial⟩

theorem mono (demands : DemandsBefore R emit p a C) (le : C → D) : DemandsBefore R emit p a D := by
  intro w out written
  obtain ⟨before, bytes, data, eq, reads⟩ := demands w out written
  exact ⟨before, bytes, data, eq, fun rest may => (reads rest may).imp_left fun both =>
    ⟨both.1, le both.2⟩⟩

theorem step (first : Demands field p a C) (rest : DemandsBefore R (emitAll fields) (k a) b D) :
    DemandsBefore R (emitAll (field :: fields)) (p >>= k) b (C ∧ D) := by
  intro w out written
  obtain ⟨between, second, data, rfl, reads₂⟩ := rest (field w) out written
  obtain ⟨before, first', data', rfl, reads₁⟩ := first w between data
  refine ⟨before, first' ++ second, data', List.append_assoc .., fun tail may => ?_⟩
  rw [List.append_assoc]
  rcases reads₁ (second ++ tail) trivial with ⟨read, holds⟩ | ⟨e, failed⟩
  · rw [run_bind read]
    exact (reads₂ tail may).imp_left fun both => ⟨both.1, holds, both.2⟩
  · exact .inr ⟨e, run_bind_error failed⟩

theorem pass (first : Codes field p a False) (rest : DemandsBefore R (emitAll fields) (k a) b C) :
    DemandsBefore R (emitAll (field :: fields)) (p >>= k) b C :=
  mono (step (of_codes first) rest) And.right

theorem assoc {q : α → Decode β} {next : β → Decode σ} {c : σ} (first : Demands field (p >>= q) b C)
    (rest : DemandsBefore R (emitAll fields) (next b) c D) :
    DemandsBefore R (emitAll (field :: fields)) (p >>= fun a => q a >>= next) c (C ∧ D) := by
  rw [← bind_assoc]
  exact step first rest

theorem skip (settles : p.Settles (fun _ => True) a False)
    (rest : DemandsBefore R field (k a) b C) : DemandsBefore R field (p >>= k) b C := by
  intro w out written
  obtain ⟨before, bytes, data, eq, reads⟩ := rest w out written
  refine ⟨before, bytes, data, eq, fun tail may => ?_⟩
  rcases settles (bytes ++ tail) trivial with read | ⟨-, e, failed⟩
  · rw [List.nil_append] at read
    rw [run_bind read]
    exact reads tail may
  · rw [List.nil_append] at failed
    exact .inr ⟨e, run_bind_error failed⟩

theorem loop {items : List α} {write : ByteWriter limit → α → ByteWriter limit}
    {turn : σ → Decode σ} {next : σ → α → σ} {maxCount : Nat} {detail : String} {N : α → Prop}
    (each : ∀ a ∈ items, ∀ s, Demands (fun w => write w a) (turn s) (next s a) (N a)) (s : σ) :
    Demands (fun w => w.counted items write)
      (decodeCount maxCount detail >>= fun n => Decode.loop turn n s) (items.foldl next s)
      (items.length ≤ maxCount ∧ ∀ a ∈ items, N a) := by
  have list (items : List α) (s : σ)
      (each : ∀ a ∈ items, ∀ s, Demands (fun w => write w a) (turn s) (next s a) (N a)) :
      Demands (emitAll (items.map fun item w => write w item)) (Decode.loop turn items.length s)
        (items.foldl next s) (∀ a ∈ items, N a) := by
    induction items generalizing s with
    | nil => exact mono (of_codes Codes.done) fun _ => List.forall_mem_nil N
    | cons a items ih =>
        refine mono (step (each a List.mem_cons_self s)
          (ih (next s a) fun a mem => each a (List.mem_cons_of_mem _ mem))) ?_
        exact List.forall_mem_cons.mpr
  intro w out written
  dsimp only at written
  by_cases small : items.length > 0xFFFFFFFF
  · rw [ByteWriter.counted, if_pos small] at written
    cases written
  · rw [counted_eq_emitAll small] at written
    exact step (of_yields (codes_count detail (by omega) False.elim) yields_count)
      (list items s each) w out written

end Demands

namespace Registry

variable {r : Registry}

theorem yields_blob {item : Decode α} {post : α → Prop} (yields : Yields item post) :
    Yields (readBlob item) post := by
  constructor
  intro reader a reader' read
  obtain ⟨raw, inner, -, -, taken⟩ := readBlob_eq_ok read
  exact yields.ok _ _ _ taken

theorem demands_generation (kind : EntityKind) (value : kind.Carrier) (s : Registry) :
    Demands (fun w : ByteWriter limit => w.blob (kind.encode value)) (s.readGeneration kind)
      (s.push kind (kind.readBack value)) (¬kind.Undeclared value) := by
  unfold readGeneration
  show Demands (emitAll [fun w => w.blob (kind.encode value)]) _ _ _
  have blob : Codes (fun w : ByteWriter limit => w.blob (kind.encode value)) (readBlob kind.decode)
      (kind.readBack value) False := codes_blob (codes_entity kind value False.elim) trivial
  refine Demands.mono (Demands.step (Demands.of_yields blob (yields_blob (yields_entity kind)))
    (Demands.of_codes Codes.done)) ?_
  exact fun both undeclared => both.1.declares (undeclared_readBack.mpr undeclared)

def Contained (r : Registry) (kind : EntityKind) : Prop :=
  ∀ id list, (r.tables kind).lookup id = some list →
    list.length ≤ Limits.maxGenerationsPerId ∧ ∀ value ∈ list, ¬kind.Undeclared value

theorem demands_table (kind : EntityKind) (s : Registry) :
    Demands (fun w : ByteWriter limit => encodeTable w kind (r.tables kind))
      (s.readGenerationTable kind) (r.loadTable s kind) (r.Contained kind) := by
  refine Demands.mono (Demands.loop (N := fun entry : Text × List kind.Carrier =>
    entry.2.length ≤ Limits.maxGenerationsPerId ∧ ∀ value ∈ entry.2, ¬kind.Undeclared value)
    (fun entry _ s => Demands.loop (fun value _ s => demands_generation kind value s) s) s) ?_
  rintro ⟨-, entries⟩ id list found
  refine entries (id, list) (Table.select_keys_mem.mpr ⟨?_, found⟩)
  exact mem_sortTexts.mpr (AList.mem_keys.mp (AList.lookup_isSome.mp (by rw [found]; rfl)))

theorem demands_tables (kinds : List EntityKind) (s : Registry) :
    Demands (emitAll (kinds.map fun kind (w : ByteWriter limit) => encodeTable w kind (r.tables kind)))
      (s.readTables kinds) (kinds.foldl (loadTable r) s) (∀ kind ∈ kinds, r.Contained kind) := by
  induction kinds generalizing s with
  | nil => exact Demands.mono (Demands.of_codes Codes.done) fun _ => List.forall_mem_nil r.Contained
  | cons kind kinds ih =>
      exact Demands.mono (Demands.step (demands_table kind s) (ih (r.loadTable s kind)))
        List.forall_mem_cons.mpr

theorem demands_state (s : Registry) :
    DemandsBefore (· = []) (emitAll [fun w : ByteWriter Limits.maxSnapshotBytes =>
      w.u16 snapshotTag, fun w => w.u16 snapshotVersion, fun w => w.u64 r.durableEpoch,
      fun w => w.u64 r.currentEpoch,
      fun w => w.counted (r.publisherWatermark.select (sortTexts r.publisherWatermark.keys))
        encodeWatermark,
      emitAll (EntityKind.all.map fun kind w => encodeTable w kind (r.tables kind)),
      fun w => w.counted r.conflicts encodeMarker,
      fun w => w.counted (r.decisions.select (sortTexts r.decisions.keys)) encodeRetained])
      s.readState (r.load s)
      ((∀ kind ∈ EntityKind.all, r.Contained kind) ∧
        Table.size r.decisions ≤ Limits.maxDecisionsRetained) := by
  unfold readState
  refine Demands.pass (codes_u16 _) (Demands.pass (codes_u16 _) (Demands.skip .sound ?_))
  rw [if_neg (by decide)]
  refine Demands.pass (codes_u64 _) (Demands.pass (codes_u64 _) ?_)
  refine Demands.mono (Demands.assoc (Demands.loop
    (fun entry _ s => Demands.of_codes (codes_watermark entry False.elim s)) _) ?_) And.right
  refine Demands.step (demands_tables EntityKind.all _) ?_
  refine Demands.mono (Demands.assoc (Demands.loop
    (fun marker _ s => Demands.of_codes (codes_conflict marker s)) _) ?_) And.right
  refine Demands.mono (Demands.assoc (Demands.loop
    (fun entry _ s => Demands.of_codes (codes_retained entry False.elim s)) _)
    (Demands.skip .sound (Demands.of_codes Codes.ended))) ?_
  rintro ⟨⟨few, -⟩, -⟩
  rwa [length_select_sorted] at few

theorem contained_of_loaded {s s' : Registry} {bytes : Bytes}
    (encoded : r.encodeSnapshotState = .ok bytes) (loaded : s.loadSnapshotState bytes = .ok s') :
    (∀ kind, r.Contained kind) ∧ Table.size r.decisions ≤ Limits.maxDecisionsRetained := by
  have filled : bytes.isEmpty = false := by
    rw [List.isEmpty_eq_false_iff]
    exact snapshot_ne_nil encoded
  unfold loadSnapshotState at loaded
  rw [if_neg (by rw [filled]; exact Bool.false_ne_true)] at loaded
  obtain ⟨before, written, data, rfl, reads⟩ :=
    demands_state s .empty bytes (encodeSnapshotState_eq_ok.mp encoded)
  obtain rfl : before = [] := (Option.some.inj data).symm
  rw [List.nil_append, ← List.append_nil written] at loaded
  rcases reads [] rfl with ⟨-, tables, few⟩ | ⟨e, failed⟩
  · exact ⟨fun kind => tables kind (by cases kind <;> decide), few⟩
  · rw [ByteReader.ofBytes, failed] at loaded
    cases loaded

end Registry

end QoSFabric
