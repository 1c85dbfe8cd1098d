import QoSFabric.Model.Registry

namespace QoSFabric

variable {α β σ : Type} {limit : Nat} {G : Prop} {R : Bytes → Prop}

def Decode.Reads (R : Bytes → Prop) (p : Decode α) (bytes : Bytes) (a : α) (G : Prop) : Prop :=
  ∀ rest, R rest → p ⟨some (bytes ++ rest)⟩ = .ok (a, ⟨some rest⟩) ∨
    ¬G ∧ ∃ e, p ⟨some (bytes ++ rest)⟩ = .error e

def CodesBefore (R : Bytes → Prop) (emit : ByteWriter limit → ByteWriter limit) (p : Decode α)
    (a : α) (G : Prop) : Prop :=
  ∀ w out, (emit w).data = some out →
    ∃ before bytes, w.data = some before ∧ out = before ++ bytes ∧ p.Reads R bytes a G

abbrev Codes (emit : ByteWriter limit → ByteWriter limit) (p : Decode α) (a : α) (G : Prop) : Prop :=
  CodesBefore (fun _ => True) emit p a G

def emitAll (fields : List (ByteWriter limit → ByteWriter limit)) (w : ByteWriter limit) :
    ByteWriter limit :=
  fields.foldl (fun w field => field w) w

namespace Decode

theorem run_bind {p : Decode α} {k : α → Decode β} {reader reader' : ByteReader} {a : α}
    (first : p reader = .ok (a, reader')) : (p >>= k) reader = k a reader' := by
  show (p reader >>= fun x => k x.1 x.2) = _
  rw [first]
  rfl

theorem run_bind_error {p : Decode α} {k : α → Decode β} {reader : ByteReader} {e : Error}
    (first : p reader = .error e) : (p >>= k) reader = .error e := by
  show (p reader >>= fun x => k x.1 x.2) = _
  rw [first]
  rfl

theorem Reads.bind {S : Bytes → Prop} {p : Decode α} {k : α → Decode β} {a : α} {b : β}
    {first second : Bytes} (head : p.Reads S first a G) (tail : (k a).Reads R second b G)
    (follows : ∀ rest, R rest → S (second ++ rest)) :
    (p >>= k).Reads R (first ++ second) b G := by
  intro rest may
  rw [List.append_assoc]
  cases head (second ++ rest) (follows rest may) with
  | inl read =>
      rw [run_bind read]
      exact tail rest may
  | inr refused =>
      obtain ⟨bad, e, failed⟩ := refused
      exact .inr ⟨bad, e, run_bind_error failed⟩

/-- A decoder that looks at no bytes, and goes on with a value. -/
def Settles (R : Bytes → Prop) (p : Decode α) (a : α) (G : Prop) : Prop := p.Reads R [] a G

theorem Settles.sound {code : ErrorCode} {detail : String} : (sound code detail).Settles R () G :=
  fun _ _ => .inl rfl

theorem Settles.require {code : ErrorCode} {detail : String} {option : Option α} {a : α}
    (known : option = some a) : (require code detail option).Settles R a G := by
  subst known
  exact fun _ _ => .inl rfl

theorem Settles.lift {result : Result Unit} (valid : G → result = .ok ()) :
    (lift result).Settles R () G := by
  intro rest _
  cases result with
  | ok done => exact .inl rfl
  | error e => exact .inr ⟨fun good => (nomatch valid good), e, rfl⟩

theorem Settles.atEnd : QoSFabric.atEnd.Settles (· = []) true G := by
  rintro rest rfl
  exact .inl rfl

end Decode

namespace Codes

open Decode

theorem mono {G' : Prop} {emit : ByteWriter limit → ByteWriter limit} {p : Decode α} {a : α}
    (codes : CodesBefore R emit p a G) (well : G' → G) : CodesBefore R emit p a G' := by
  intro w out written
  obtain ⟨before, bytes, data, eq, reads⟩ := codes w out written
  refine ⟨before, bytes, data, eq, fun rest may => ?_⟩
  cases reads rest may with
  | inl read => exact .inl read
  | inr refused => exact .inr ⟨fun good => refused.1 (well good), refused.2⟩

theorem ofRaw {p : Decode α} {a : α} {bytes : Bytes} (reads : p.Reads R bytes a G) :
    CodesBefore R (fun w : ByteWriter limit => w.raw bytes) p a G := by
  intro w out written
  obtain ⟨before, data, fit⟩ := Option.bind_eq_some_iff.mp written
  split at fit
  · exact ⟨before, bytes, data, (Option.some.inj fit).symm, reads⟩
  · cases fit

theorem last {p : Decode α} {a : α} (settles : p.Settles R a G) :
    CodesBefore R (emitAll ([] : List (ByteWriter limit → ByteWriter limit))) p a G := by
  intro w out written
  exact ⟨out, [], written, (List.append_nil out).symm, settles⟩

theorem done {a : α} :
    CodesBefore R (emitAll ([] : List (ByteWriter limit → ByteWriter limit))) (pure a) a G :=
  last fun _ _ => .inl rfl

section Steps

variable {field : ByteWriter limit → ByteWriter limit}
  {fields : List (ByteWriter limit → ByteWriter limit)} {p : Decode α} {k : α → Decode β} {a : α}
  {b : β}

theorem step (first : Codes field p a G) (rest : CodesBefore R (emitAll fields) (k a) b G) :
    CodesBefore R (emitAll (field :: fields)) (p >>= k) b G := by
  intro w out written
  obtain ⟨between, second, data, rfl, reads₂⟩ := rest (field w) out written
  obtain ⟨before, first', data', rfl, reads₁⟩ := first w between data
  exact ⟨before, first' ++ second, data', List.append_assoc ..,
    reads₁.bind reads₂ fun _ _ => trivial⟩

theorem skip (settles : p.Settles (fun _ => True) a G) (rest : CodesBefore R field (k a) b G) :
    CodesBefore R field (p >>= k) b G := by
  intro w out written
  obtain ⟨before, bytes, data, eq, reads⟩ := rest w out written
  exact ⟨before, bytes, data, eq, Reads.bind settles reads fun _ _ => trivial⟩

theorem ended {refused : Decode α} {a : α} :
    CodesBefore (· = []) (emitAll ([] : List (ByteWriter limit → ByteWriter limit)))
      (do if ← atEnd then pure a else refused) a G := by
  apply last
  exact Reads.bind Settles.atEnd (fun _ _ => .inl rfl) fun _ may => may

theorem passing {c : Prop} [Decidable c] {refused : Decode β} {q : Decode β} (passes : ¬c)
    (rest : CodesBefore R field q b G) : CodesBefore R field (if c then refused else q) b G := by
  rw [if_neg passes]
  exact rest

end Steps

end Codes

section Fields

open Decode

theorem codes_u8 (value : UInt8) :
    Codes (fun w : ByteWriter limit => w.u8 value) (.read Read.u8) value G :=
  .ofRaw fun rest _ => .inl (congrArg Except.ok (Read.u8_cons value rest))

theorem codes_u16 (value : UInt16) :
    Codes (fun w : ByteWriter limit => w.u16 value) (.read Read.u16) value G :=
  .ofRaw fun rest _ => .inl (congrArg Except.ok (Read.u16_encode value rest))

theorem codes_u32 (value : UInt32) :
    Codes (fun w : ByteWriter limit => w.u32 value) (.read Read.u32) value G :=
  .ofRaw fun rest _ => .inl (congrArg Except.ok (Read.u32_encode value rest))

theorem codes_u64 (value : UInt64) :
    Codes (fun w : ByteWriter limit => w.u64 value) (.read Read.u64) value G :=
  .ofRaw fun rest _ => .inl (congrArg Except.ok (Read.u64_encode value rest))

theorem codes_presence (present : Bool) :
    Codes (fun w : ByteWriter limit => w.presence present) (.read Read.presence) present G := by
  apply Codes.ofRaw
  intro rest _
  left
  show Except.ok (Read.presence ⟨some ((if present then 1 else 0) :: rest)⟩) = _
  cases present <;> simp [Read.presence, ByteReader.failed]

theorem codes_raw {size : Nat} {view : Bytes} (length : view.length = size) :
    Codes (fun w : ByteWriter limit => w.raw view) (.read (Read.raw size)) (some view) G :=
  .ofRaw fun rest _ => .inl (congrArg Except.ok (Read.raw_append length rest))

theorem Read.str_append {value : Text} {maxLen : Nat} (short : value.length ≤ maxLen)
    (bound : value.length < 2 ^ 32) (rest : Bytes) :
    Read.str maxLen ⟨some (LittleEndian.encode 4 value.length ++ value ++ rest)⟩ =
      (value, ⟨some rest⟩) := by
  have same : (UInt32.ofNat value.length).toNat = value.length := by
    rw [UInt32.toNat_ofNat', Nat.mod_eq_of_lt bound]
  rw [Read.str, List.append_assoc, Read.u32_length bound]
  simp only [ByteReader.failed, Option.isNone_some, Bool.false_eq_true, if_false, same,
    Nat.not_lt.mpr short, Read.raw_append rfl rest]

theorem codes_str (value : Text) {maxLen : Nat} (bound : maxLen < 2 ^ 32) :
    Codes (fun w : ByteWriter limit => w.str value maxLen) (.read (Read.str maxLen)) value G := by
  intro w out written
  unfold ByteWriter.str at written
  split at written
  · cases written
  next short =>
    dsimp only at written
    rw [ByteWriter.u32_ofNat, ByteWriter.raw_raw] at written
    refine Codes.ofRaw (p := .read (Read.str maxLen)) (a := value) (G := G) ?_ w out written
    exact fun rest _ => .inl (congrArg Except.ok (Read.str_append (by omega) (by omega) rest))

theorem codes_identifier {value : Text} {maxLen : Nat} (bound : maxLen < 2 ^ 32)
    (valid : G → isValidIdentifier value maxLen = true) :
    Codes (fun w : ByteWriter limit => w.str value maxLen) (decodeIdentifier maxLen) value G := by
  unfold decodeIdentifier
  show Codes (emitAll [fun w => w.str value maxLen]) _ value G
  apply Codes.step (codes_str value bound)
  apply Codes.skip .sound
  apply Codes.last
  intro rest _
  split
  · exact .inl rfl
  next invalid => exact .inr ⟨fun good => invalid (valid good), _, rfl⟩

theorem codes_enum {members : List α} {value : α → UInt8} {a : α} (detail : String)
    (known : QoSFabric.ofRaw members value (value a) = some a) :
    Codes (fun w : ByteWriter limit => w.u8 (value a)) (decodeEnum members value detail) a G := by
  unfold decodeEnum
  show Codes (emitAll [fun w => w.u8 (value a)]) _ a G
  apply Codes.step (codes_u8 _)
  apply Codes.skip .sound
  exact Codes.last (.require known)

theorem codes_absent (value : Read α) (detail : String) :
    Codes (fun w : ByteWriter limit => w.presence false) (decodeOptional value detail) none G := by
  unfold decodeOptional
  show Codes (emitAll [fun w => w.presence false]) _ none G
  apply Codes.step (codes_presence _)
  apply Codes.skip .sound
  exact Codes.done

theorem codes_present {field : ByteWriter limit → ByteWriter limit} {value : Read α} {a : α}
    (detail : String) (codes : Codes field (.read value) a G) :
    Codes (fun w => field (w.presence true)) (decodeOptional value detail) (some a) G := by
  unfold decodeOptional
  show Codes (emitAll [fun w => w.presence true, field]) _ (some a) G
  apply Codes.step (codes_presence _)
  apply Codes.skip .sound
  apply Codes.step codes
  apply Codes.skip .sound
  exact Codes.done

theorem codes_optionalU64 (value : Option UInt64) (detail : String) :
    Codes (fun w : ByteWriter limit => w.optionalU64 value) (decodeOptional Read.u64 detail) value
      G := by
  cases value with
  | none => exact codes_absent _ detail
  | some value => exact codes_present detail (codes_u64 value)

theorem codes_optionalU32 (value : Option UInt32) (detail : String) :
    Codes (fun w : ByteWriter limit => w.optionalU32 value) (decodeOptional Read.u32 detail) value
      G := by
  cases value with
  | none => exact codes_absent _ detail
  | some value => exact codes_present detail (codes_u32 value)

theorem codes_optionalResource (value : Option Text) (detail : String) :
    Codes (fun w : ByteWriter limit => w.optionalResource value)
      (decodeOptional (Read.str Limits.maxIdentifierLen) detail) value G := by
  cases value with
  | none => exact codes_absent _ detail
  | some value => exact codes_present detail (codes_str value (by decide))

theorem codes_digest (value : Digest256) (detail : String) :
    Codes (fun w : ByteWriter limit => w.digest value) (decodeDigest detail) value G := by
  unfold decodeDigest
  show Codes (emitAll [fun w => w.raw value.bytes]) _ value G
  apply Codes.step (codes_raw value.size)
  dsimp only
  rw [Digest256.ofBuffer_bytes]
  exact Codes.done

theorem codes_header (tag : UInt16) :
    Codes (fun w : ByteWriter limit => w.header tag) (expectHeader tag) () G := by
  unfold expectHeader
  show Codes (emitAll [fun w => w.u16 tag, fun w => w.u16 schemaVersion]) _ () G
  apply Codes.step (codes_u16 _)
  apply Codes.step (codes_u16 _)
  apply Codes.skip .sound
  apply Codes.passing (not_not.mpr rfl)
  apply Codes.passing (not_not.mpr rfl)
  exact Codes.done

theorem Provenance.make_of_short {value : Provenance}
    (short : value.origin.length ≤ Limits.maxOriginLen) :
    Provenance.make value.origin value.epoch value.generation value.sequence = value := by
  unfold Provenance.make
  rw [List.take_of_length_le short]

theorem codes_provenance (value : Provenance) (detail : String) :
    Codes (fun w : ByteWriter limit => w.provenance value) (decodeProvenance detail) value G := by
  intro w out written
  have short : value.origin.length ≤ Limits.maxOriginLen := by
    by_contra long
    unfold ByteWriter.provenance ByteWriter.str at written
    dsimp only at written
    rw [if_pos (Nat.lt_of_not_le long)] at written
    cases written
  refine (?_ : Codes (fun w : ByteWriter limit => w.provenance value) (decodeProvenance detail)
    value G) w out written
  unfold decodeProvenance
  show Codes (emitAll [fun w => w.str value.origin Limits.maxOriginLen, fun w => w.u64 value.epoch,
    fun w => w.u64 value.generation, fun w => w.u64 value.sequence]) _ value G
  apply Codes.step (codes_str _ (by decide))
  apply Codes.step (codes_u64 _)
  apply Codes.step (codes_u64 _)
  apply Codes.step (codes_u64 _)
  apply Codes.skip .sound
  rw [Provenance.make_of_short short]
  exact Codes.done

theorem codes_count {n : Nat} {maxCount : Nat} (detail : String) (small : n ≤ 0xFFFFFFFF)
    (few : G → n ≤ maxCount) :
    Codes (fun w : ByteWriter limit => w.u32 (UInt32.ofNat n)) (decodeCount maxCount detail) n
      G := by
  have same : (UInt32.ofNat n).toNat = n := by
    rw [UInt32.toNat_ofNat', Nat.mod_eq_of_lt (by omega)]
  have field : (fun w : ByteWriter limit => w.u32 (UInt32.ofNat n)) =
      fun w => w.raw (LittleEndian.encode 4 n) := by
    funext w
    exact ByteWriter.u32_ofNat w n
  rw [field]
  apply Codes.ofRaw
  intro rest _
  have counted : decodeCount maxCount detail ⟨some (LittleEndian.encode 4 n ++ rest)⟩ =
      Decode.require .tooLarge detail (Read.count maxCount ⟨some (LittleEndian.encode 4 n ++ rest)⟩).1
        (Read.count maxCount ⟨some (LittleEndian.encode 4 n ++ rest)⟩).2 := rfl
  rw [counted, Read.count, Read.u32_length (by omega)]
  simp only [ByteReader.failed, Option.isNone_some, Bool.false_eq_true, if_false, same]
  by_cases many : n > maxCount
  · rw [if_pos many]
    exact .inr ⟨fun good => absurd (few good) (Nat.not_le_of_lt many), _, rfl⟩
  · rw [if_neg many]
    exact .inl rfl

theorem Codes.assoc {fields : List (ByteWriter limit → ByteWriter limit)}
    {field : ByteWriter limit → ByteWriter limit} {p : Decode α} {q : α → Decode β}
    {k : β → Decode σ} {b : β} {c : σ} (first : Codes field (p >>= q) b G)
    (rest : CodesBefore R (emitAll fields) (k b) c G) :
    CodesBefore R (emitAll (field :: fields)) (p >>= fun a => q a >>= k) c G := by
  rw [← bind_assoc]
  exact Codes.step first rest

theorem counted_eq_emitAll {items : List α} {emit : ByteWriter limit → α → ByteWriter limit}
    (small : ¬items.length > 0xFFFFFFFF) (w : ByteWriter limit) :
    w.counted items emit = emitAll ((fun w => w.u32 (UInt32.ofNat items.length)) ::
      items.map fun item w => emit w item) w := by
  unfold ByteWriter.counted emitAll
  rw [if_neg small, List.foldl_cons, List.foldl_map]

theorem Codes.counted {items : List α} {emit : ByteWriter limit → α → ByteWriter limit}
    {p : Nat → Decode β} {b : β} {maxCount : Nat} {detail : String}
    (few : G → items.length ≤ maxCount)
    (list : Codes (emitAll (items.map fun item w => emit w item)) (p items.length) b G) :
    Codes (fun w => w.counted items emit) (decodeCount maxCount detail >>= p) b G := by
  intro w out written
  dsimp only at written
  by_cases small : items.length > 0xFFFFFFFF
  · rw [ByteWriter.counted, if_pos small] at written
    cases written
  · rw [counted_eq_emitAll small] at written
    exact Codes.step (codes_count detail (by omega) few) list w out written

theorem codes_times {items : List α} {emit : ByteWriter limit → α → ByteWriter limit}
    {item : Decode β} {f : α → β} {maxCount : Nat} {detail : String}
    (few : G → items.length ≤ maxCount)
    (each : ∀ a ∈ items, Codes (fun w => emit w a) item (f a) G) :
    Codes (fun w => w.counted items emit) (decodeCount maxCount detail >>= Decode.times item)
      (items.map f) G := by
  apply Codes.counted few
  clear few
  induction items with
  | nil => exact Codes.done
  | cons a items ih =>
      show Codes (emitAll ((fun w => emit w a) :: items.map fun a w => emit w a)) (do
        let head ← item
        let tail ← Decode.times item items.length
        pure (head :: tail)) (f a :: items.map f) G
      apply Codes.step (each a List.mem_cons_self)
      have tail := ih fun a mem => each a (List.mem_cons_of_mem _ mem)
      intro w out written
      obtain ⟨before, bytes, data, eq, reads⟩ := tail w out written
      refine ⟨before, bytes ++ [], data, by rw [List.append_nil, eq],
        reads.bind (fun _ _ => .inl rfl) fun _ _ => trivial⟩

theorem codes_list {items : List α} {emit : ByteWriter limit → α → ByteWriter limit}
    {item : Decode α} {maxCount : Nat} {detail : String} (few : G → items.length ≤ maxCount)
    (each : ∀ a ∈ items, Codes (fun w => emit w a) item a G) :
    Codes (fun w => w.counted items emit) (decodeCount maxCount detail >>= Decode.times item) items
      G := by
  have codes : Codes (fun w => w.counted items emit)
      (decodeCount maxCount detail >>= Decode.times item) (items.map id) G := codes_times few each
  rwa [List.map_id] at codes

theorem codes_loop {items : List α} {emit : ByteWriter limit → α → ByteWriter limit}
    {step : σ → Decode σ} {next : σ → α → σ} {maxCount : Nat} {detail : String}
    (few : G → items.length ≤ maxCount)
    (each : ∀ a ∈ items, ∀ s, Codes (fun w => emit w a) (step s) (next s a) G) (s : σ) :
    Codes (fun w => w.counted items emit)
      (decodeCount maxCount detail >>= fun n => Decode.loop step n s) (items.foldl next s) G := by
  apply Codes.counted few
  clear few
  induction items generalizing s with
  | nil => exact Codes.done
  | cons a items ih =>
      apply Codes.step (each a List.mem_cons_self s)
      exact ih (fun a mem => each a (List.mem_cons_of_mem _ mem)) (next s a)

def ByteWriter.keys (w : ByteWriter limit) (keys : List Text) (maxCount : Nat) : ByteWriter limit :=
  if keys.length > maxCount then w.fail
  else w.counted keys fun w key => w.str key Limits.maxPredicateKeyLen

theorem ByteWriter.predicates_eq_keys (w : ByteWriter limit) (keys : List Text) (maxCount : Nat) :
    w.predicates keys maxCount = w.keys (sortTexts keys) maxCount := by
  have sorted : (sortTexts keys).length = keys.length := List.length_insertionSort _ _
  unfold ByteWriter.predicates ByteWriter.keys
  rw [sorted]

theorem codes_keys {keys : List Text} {maxCount : Nat}
    (few : G → keys.length ≤ maxCount)
    (valid : G → ∀ key ∈ keys, isValidIdentifier key Limits.maxPredicateKeyLen = true) :
    Codes (fun w : ByteWriter limit => w.keys keys maxCount) (decodePredicates maxCount) keys G := by
  intro w out written
  unfold ByteWriter.keys at written
  dsimp only at written
  split at written
  · cases written
  · have codes : Codes (fun w : ByteWriter limit => w.counted keys fun w key =>
        w.str key Limits.maxPredicateKeyLen) (decodePredicates maxCount) keys G := by
      apply codes_list few
      intro key mem
      exact codes_identifier (by decide) fun good => valid good key mem
    exact codes w out written

theorem codes_predicates {keys : List Text} {maxCount : Nat}
    (few : G → keys.length ≤ maxCount)
    (valid : G → ∀ key ∈ keys, isValidIdentifier key Limits.maxPredicateKeyLen = true) :
    Codes (fun w : ByteWriter limit => w.predicates keys maxCount) (decodePredicates maxCount)
      (sortTexts keys) G := by
  have sorted : (sortTexts keys).length = keys.length := List.length_insertionSort _ _
  simp only [ByteWriter.predicates_eq_keys]
  apply codes_keys
  · rwa [sorted]
  · exact fun good key mem => valid good key ((List.mem_insertionSort _).mp mem)

theorem CodesBefore.reads {emit : ByteWriter limit → ByteWriter limit} {p : Decode α} {a : α}
    {payload : Bytes} (codes : CodesBefore R emit p a G)
    (written : (emit .empty).data = some payload) : p.Reads R payload a G := by
  obtain ⟨before, bytes, empty, eq, reads⟩ := codes .empty payload written
  obtain rfl : [] = before := Option.some.inj empty
  rw [eq]
  exact reads

theorem codes_blob {encode : ByteWriter Limits.maxCanonicalRecordBytes →
    ByteWriter Limits.maxCanonicalRecordBytes} {item : Decode α} {a : α}
    (codes : CodesBefore R encode item a G) (alone : R []) :
    Codes (fun w : ByteWriter limit => w.blob encode) (readBlob item) a G := by
  intro w out written
  unfold ByteWriter.blob at written
  dsimp only at written
  split at written
  · cases written
  next inner data =>
    have reads := codes.reads data
    have small := (encode .empty).fits inner data
    unfold ByteWriter.bytes at written
    split at written
    · cases written
    rw [ByteWriter.u32_ofNat, ByteWriter.raw_raw] at written
    refine Codes.ofRaw (p := readBlob item) (a := a) (G := G) ?_ w out written
    intro rest _
    have read : Read.bytes Limits.maxCanonicalRecordBytes
        ⟨some (LittleEndian.encode 4 inner.length ++ inner ++ rest)⟩ = (inner, ⟨some rest⟩) :=
      Read.str_append small (by omega) rest
    unfold readBlob
    have first : Decode.read (Read.bytes Limits.maxCanonicalRecordBytes)
        ⟨some (LittleEndian.encode 4 inner.length ++ inner ++ rest)⟩ =
          .ok (inner, ⟨some rest⟩) := congrArg Except.ok read
    rw [Decode.run_bind first, Decode.run_bind (a := ()) rfl]
    have whole : inner ++ [] = inner := List.append_nil inner
    have reads := reads [] alone
    rw [whole] at reads
    cases reads with
    | inl read =>
        left
        show ((item ⟨some inner⟩).map Prod.fst).map (fun a => (a, _)) = _
        rw [read]
        rfl
    | inr refused =>
        obtain ⟨bad, e, failed⟩ := refused
        refine .inr ⟨bad, e, ?_⟩
        show ((item ⟨some inner⟩).map Prod.fst).map (fun a => (a, _)) = _
        rw [failed]
        rfl

def Appends (emit : ByteWriter limit → ByteWriter limit) : Prop :=
  ∀ w out, (emit w).data = some out → ∃ before bytes, w.data = some before ∧ out = before ++ bytes

theorem CodesBefore.appends {emit : ByteWriter limit → ByteWriter limit} {p : Decode α} {a : α}
    (codes : CodesBefore R emit p a G) : Appends emit := by
  intro w out written
  obtain ⟨before, bytes, data, eq, -⟩ := codes w out written
  exact ⟨before, bytes, data, eq⟩

theorem Appends.all {fields : List (ByteWriter limit → ByteWriter limit)}
    (each : ∀ field ∈ fields, Appends field) : Appends (emitAll fields) := by
  induction fields with
  | nil => exact fun w out written => ⟨out, [], written, (List.append_nil out).symm⟩
  | cons field fields ih =>
      intro w out written
      have rest := ih fun field mem => each field (List.mem_cons_of_mem _ mem)
      obtain ⟨between, second, data, rfl⟩ := rest (field w) out written
      obtain ⟨before, first, data', rfl⟩ := each field List.mem_cons_self w between data
      exact ⟨before, first ++ second, data', List.append_assoc ..⟩

theorem Appends.counted {items : List α} {emit : ByteWriter limit → α → ByteWriter limit}
    (each : ∀ a ∈ items, Appends fun w => emit w a) :
    Appends fun w : ByteWriter limit => w.counted items emit := by
  intro w out written
  dsimp only at written
  by_cases small : items.length > 0xFFFFFFFF
  · rw [ByteWriter.counted, if_pos small] at written
    cases written
  · rw [counted_eq_emitAll small] at written
    refine Appends.all ?_ w out written
    rw [List.forall_mem_cons, List.forall_mem_map]
    exact ⟨(codes_u32 (G := True) _).appends, each⟩

theorem Codes.front {head tail : ByteWriter limit → ByteWriter limit} {p : Decode α} {a : α}
    {payload : Bytes} (codes : Codes head p a G) (appends : Appends tail)
    (written : (tail (head .empty)).data = some payload) :
    (∃ reader, p (.ofBytes payload) = .ok (a, reader)) ∨
      ¬G ∧ ∃ e, p (.ofBytes payload) = .error e := by
  obtain ⟨first, rest, data, rfl⟩ := appends (head .empty) payload written
  cases codes.reads data rest trivial with
  | inl read => exact .inl ⟨_, read⟩
  | inr refused => exact .inr refused

end Fields

end QoSFabric
