import QoSFabric.Proof.Codec.Records

namespace QoSFabric

variable {α β : Type} {limit : Nat}

def Inverts (p : Decode α) (emit : α → ByteWriter limit → ByteWriter limit) : Prop :=
  ∀ reader a rest, p reader = .ok (a, ⟨some rest⟩) →
    ∃ bytes, reader = ⟨some (bytes ++ rest)⟩ ∧ ∀ w, emit a w = w.raw bytes

def SpellsBefore (R : Bytes → Prop) (done : ByteWriter limit → ByteWriter limit) (p : Decode α)
    (encode : α → ByteWriter limit → ByteWriter limit) : Prop :=
  ∀ reader a reader', p reader = .ok (a, reader') →
    ∃ bytes rest, R rest ∧ reader' = ⟨some rest⟩ ∧ reader = ⟨some (bytes ++ rest)⟩ ∧
      ∀ w, encode a w = (done w).raw bytes

abbrev Spells (done : ByteWriter limit → ByteWriter limit) (p : Decode α)
    (encode : α → ByteWriter limit → ByteWriter limit) : Prop :=
  SpellsBefore (fun _ => True) done p encode

def Closes (done : ByteWriter limit → ByteWriter limit) (p : Decode α)
    (encode : α → ByteWriter limit → ByteWriter limit) : Prop :=
  ∀ reader a reader', p reader = .ok (a, reader') → reader' = reader ∧ ∀ w, encode a w = done w

section Rules

open Decode

variable {R : Bytes → Prop} {done : ByteWriter limit → ByteWriter limit} {p : Decode α}
  {k : α → Decode β} {emit : α → ByteWriter limit → ByteWriter limit}
  {encode : β → ByteWriter limit → ByteWriter limit}

theorem bind_eq_ok_iff {reader reader' : ByteReader} {b : β} :
    (p >>= k) reader = .ok (b, reader') ↔
      ∃ a between, p reader = .ok (a, between) ∧ k a between = .ok (b, reader') := by
  cases first : p reader with
  | error e =>
      rw [run_bind_error first]
      exact iff_of_false nofun fun ⟨_, _, never, _⟩ => nomatch never
  | ok x =>
      rw [run_bind first]
      constructor
      · exact fun second => ⟨_, _, rfl, second⟩
      · rintro ⟨a, between, same, second⟩
        cases same
        exact second

theorem SpellsBefore.inverts (spells : SpellsBefore R id p emit) : Inverts p emit := by
  intro reader a rest read
  obtain ⟨bytes, rest', -, same, eq, written⟩ := spells reader a _ read
  cases same
  exact ⟨bytes, eq, written⟩

theorem ofRaw_eq_some {γ : Type} {members : List γ} {value : γ → UInt8} {raw : UInt8} {a : γ}
    (found : ofRaw members value raw = some a) : value a = raw := by
  unfold ofRaw at found
  simpa using List.find?_some found

theorem require_eq_ok {γ : Type} {members : List γ} {value : γ → UInt8} {raw : UInt8}
    {code : ErrorCode} {detail : String} {reader reader' : ByteReader} {a : γ}
    (known : Decode.require code detail (ofRaw members value raw) reader = .ok (a, reader')) :
    value a = raw ∧ reader = reader' := by
  cases found : ofRaw members value raw with
  | none =>
      rw [found] at known
      cases known
  | some member =>
      rw [found] at known
      cases known
      exact ⟨ofRaw_eq_some found, rfl⟩

namespace Spells

theorem bind_yields {P : α → Prop} (first : Inverts p emit) (yields : Yields p P)
    (rest : ∀ a, P a → SpellsBefore R (fun w => emit a (done w)) (k a) encode) :
    SpellsBefore R done (p >>= k) encode := by
  intro reader b reader' read
  obtain ⟨a, between, read₁, read₂⟩ := bind_eq_ok_iff.mp read
  obtain ⟨second, rest', may, good, rfl, written₂⟩ :=
    rest a (yields.ok _ _ _ read₁) between b reader' read₂
  obtain ⟨bytes, eq, written₁⟩ := first reader a _ read₁
  refine ⟨bytes ++ second, rest', may, good, by rw [eq, List.append_assoc], fun w => ?_⟩
  rw [written₂]
  dsimp only
  rw [written₁, ByteWriter.raw_raw]

theorem bind (first : Inverts p emit)
    (rest : ∀ a, SpellsBefore R (fun w => emit a (done w)) (k a) encode) :
    SpellsBefore R done (p >>= k) encode :=
  have anything : Yields p fun _ => True := ⟨fun _ _ _ _ => trivial⟩
  bind_yields first anything fun a _ => rest a

theorem assoc {γ : Type} {q : α → Decode γ} {k : γ → Decode β}
    {emit : γ → ByteWriter limit → ByteWriter limit} (first : Inverts (p >>= q) emit)
    (rest : ∀ a, SpellsBefore R (fun w => emit a (done w)) (k a) encode) :
    SpellsBefore R done (p >>= fun a => q a >>= k) encode := by
  rw [← bind_assoc]
  exact bind first rest

theorem last (first : SpellsBefore R id p emit)
    (rest : ∀ a, Closes (fun w => emit a (done w)) (k a) encode) :
    SpellsBefore R done (p >>= k) encode := by
  intro reader b reader' read
  obtain ⟨a, between, read₁, read₂⟩ := bind_eq_ok_iff.mp read
  obtain ⟨rfl, written₂⟩ := rest a between b reader' read₂
  obtain ⟨bytes, rest', may, good, eq, written₁⟩ := first reader a _ read₁
  refine ⟨bytes, rest', may, good, eq, fun w => ?_⟩
  rw [written₂]
  exact written₁ (done w)

theorem guard {c : Prop} [Decidable c] {code : ErrorCode} {detail : String} {q : Decode β}
    (passes : ¬c → SpellsBefore R done q encode) :
    SpellsBefore R done (if c then Decode.refuse code detail else q) encode := by
  split
  · exact fun _ _ _ never => nomatch never
  · exact passes ‹_›

theorem require {γ : Type} {members : List γ} {value : γ → UInt8} {raw : UInt8}
    {code : ErrorCode} {detail : String} {k : γ → Decode β}
    (rest : ∀ a, value a = raw → SpellsBefore R done (k a) encode) :
    SpellsBefore R done (Decode.require code detail (ofRaw members value raw) >>= k) encode := by
  intro reader b reader' read
  obtain ⟨a, between, known, read₂⟩ := bind_eq_ok_iff.mp read
  obtain ⟨member, rfl⟩ := require_eq_ok known
  exact rest a member _ _ _ read₂

theorem ended {code : ErrorCode} {detail : String} {b : β} (written : ∀ w, encode b w = done w) :
    SpellsBefore (· = []) done
      (do if ← atEnd then Pure.pure b else Decode.refuse code detail) encode := by
  rintro ⟨remaining⟩ a reader' read
  obtain ⟨ended, between, asked, read₂⟩ := bind_eq_ok_iff.mp read
  cases asked
  split at read₂
  next nothing =>
    cases read₂
    obtain rfl : remaining = some [] := beq_iff_eq.mp nothing
    exact ⟨[], [], rfl, rfl, rfl, fun w => by rw [written, ByteWriter.raw_nil]⟩
  · cases read₂

end Spells

theorem spells_sound {code : ErrorCode} {detail : String} :
    Spells id (sound code detail) fun _ (w : ByteWriter limit) => w := by
  rintro ⟨remaining⟩ a reader' read
  cases remaining with
  | none => cases read
  | some rest =>
      cases read
      exact ⟨[], rest, trivial, rfl, rfl, fun w => w.raw_nil.symm⟩

theorem Closes.pure {b : β} (written : ∀ w, encode b w = done w) :
    Closes done (pure b) encode := by
  rintro reader a reader' read
  cases read
  exact ⟨rfl, written⟩

theorem Closes.lift {result : Result Unit} {q : Decode β} (rest : Closes done q encode) :
    Closes done (do Decode.lift result; q) encode := by
  intro reader b reader' read
  obtain ⟨⟨⟩, between, lifted, read₂⟩ := bind_eq_ok_iff.mp read
  cases result with
  | error e => cases lifted
  | ok =>
      cases lifted
      exact rest _ _ _ read₂

theorem Closes.require {γ : Type} {members : List γ} {value : γ → UInt8} {raw : UInt8}
    {code : ErrorCode} {detail : String} {k : γ → Decode β}
    (rest : ∀ a, value a = raw → Closes done (k a) encode) :
    Closes done (Decode.require code detail (ofRaw members value raw) >>= k) encode := by
  intro reader b reader' read
  obtain ⟨a, between, known, read₂⟩ := bind_eq_ok_iff.mp read
  obtain ⟨member, rfl⟩ := require_eq_ok known
  exact rest a member _ _ _ read₂

end Rules

section Fields

open Decode

theorem Read.raw_eq_some {size : Nat} {reader reader' : ByteReader} {view : Bytes}
    (read : Read.raw size reader = (some view, reader')) :
    ∃ rest, reader' = ⟨some rest⟩ ∧ reader = ⟨some (view ++ rest)⟩ ∧ view.length = size := by
  obtain ⟨remaining⟩ := reader
  cases remaining with
  | none => cases read
  | some data =>
      unfold Read.raw at read
      dsimp only at read
      split at read
      · cases read
      next fit =>
        cases read
        refine ⟨_, rfl, ?_, List.length_take_of_le (Nat.le_of_not_lt fit)⟩
        rw [List.take_append_drop]

theorem Read.raw_of_good {size : Nat} {reader : ByteReader} {found : Option Bytes} {rest : Bytes}
    (read : Read.raw size reader = (found, ⟨some rest⟩)) : ∃ view, found = some view := by
  cases found with
  | some view => exact ⟨view, rfl⟩
  | none =>
      obtain ⟨remaining⟩ := reader
      cases remaining with
      | none => cases read
      | some data =>
          unfold Read.raw at read
          dsimp only at read
          split at read <;> cases read

theorem Read.word_of_good {width n : Nat} {reader : ByteReader} {rest : Bytes}
    (read : Read.word width reader = (n, ⟨some rest⟩)) :
    reader = ⟨some (LittleEndian.encode width n ++ rest)⟩ := by
  unfold Read.word at read
  cases first : Read.raw width reader with
  | mk found between =>
      rw [first] at read
      cases found with
      | none =>
          cases read
          obtain ⟨view, never⟩ := Read.raw_of_good first
          cases never
      | some view =>
          cases read
          obtain ⟨rest', same, eq, length⟩ := Read.raw_eq_some first
          cases same
          rw [eq, ← length, LittleEndian.encode_decode]

theorem Read.map_word_of_good {width : Nat} {ofNat : Nat → α} {toNat : α → Nat}
    (kept : ∀ n, toNat (ofNat n) = n % 256 ^ width) {reader : ByteReader} {a : α} {rest : Bytes}
    (read : (Read.word width reader).map ofNat id = (a, ⟨some rest⟩)) :
    reader = ⟨some (LittleEndian.encode width (toNat a) ++ rest)⟩ := by
  obtain ⟨rfl, good⟩ := Prod.mk.inj read
  have word : Read.word width reader = ((Read.word width reader).1, ⟨some rest⟩) :=
    Prod.ext rfl good
  show _ = ByteReader.mk (some (LittleEndian.encode width (toNat (ofNat (Read.word width reader).1))
    ++ rest))
  rw [kept, LittleEndian.encode_mod]
  exact Read.word_of_good word

theorem inverts_word {width : Nat} {ofNat : Nat → α} {toNat : α → Nat}
    (kept : ∀ n, toNat (ofNat n) = n % 256 ^ width) :
    Inverts (.read fun r => (Read.word width r).map ofNat id) fun value (w : ByteWriter limit) =>
      w.raw (LittleEndian.encode width (toNat value)) :=
  fun _ _ _ read => ⟨_, Read.map_word_of_good kept (Except.ok.inj read), fun _ => rfl⟩

theorem inverts_u8 : Inverts (.read Read.u8) fun value (w : ByteWriter limit) => w.u8 value := by
  have inverts := @inverts_word UInt8 limit 1 UInt8.ofNat UInt8.toNat fun _ => rfl
  simp only [LittleEndian.encode, UInt8.ofNat_toNat] at inverts
  exact inverts

theorem inverts_u16 : Inverts (.read Read.u16) fun value (w : ByteWriter limit) => w.u16 value :=
  inverts_word fun _ => rfl

theorem inverts_u32 : Inverts (.read Read.u32) fun value (w : ByteWriter limit) => w.u32 value :=
  inverts_word fun _ => rfl

theorem inverts_u64 : Inverts (.read Read.u64) fun value (w : ByteWriter limit) => w.u64 value :=
  inverts_word fun _ => rfl

theorem inverts_presence :
    Inverts (.read Read.presence) fun present (w : ByteWriter limit) => w.presence present := by
  intro reader present rest read
  have flag : Read.presence reader = (present, ⟨some rest⟩) := Except.ok.inj read
  unfold Read.presence at flag
  cases first : Read.u8 reader with
  | mk value between =>
      rw [first] at flag
      dsimp only at flag
      split at flag
      next failed =>
        cases flag
        cases failed
      split at flag
      · cases flag
      next small =>
        cases flag
        obtain ⟨bytes, eq, written⟩ :=
          @inverts_u8 limit reader value rest (congrArg Except.ok first)
        refine ⟨bytes, eq, fun w => ?_⟩
        have bit : (if (value == 1) = true then 1 else 0) = value := by
          split
          next one => exact (beq_iff_eq.mp one).symm
          next other =>
            rw [beq_iff_eq, ← UInt8.toNat_inj] at other
            rw [gt_iff_lt, UInt8.lt_iff_toNat_lt] at small
            exact UInt8.toNat_inj.mp (show 0 = value.toNat by simp at other small; omega)
        show w.u8 _ = _
        rw [bit, ← written]

theorem yields_str {maxLen : Nat} :
    Yields (.read (Read.str maxLen)) fun value => value.length ≤ maxLen := by
  constructor
  intro reader value reader' read
  have str : Read.str maxLen reader = (value, reader') := Except.ok.inj read
  unfold Read.str at str
  cases first : Read.u32 reader with
  | mk length between =>
      rw [first] at str
      dsimp only at str
      split at str
      · cases str
        exact Nat.zero_le _
      split at str
      · cases str
        exact Nat.zero_le _
      next short =>
        cases second : Read.raw length.toNat between with
        | mk found rest =>
            rw [second] at str
            cases found with
            | none =>
                cases str
                exact Nat.zero_le _
            | some view =>
                cases str
                obtain ⟨-, -, -, exact'⟩ := Read.raw_eq_some second
                omega

theorem Read.str_of_good {maxLen : Nat} {reader : ByteReader} {value : Text} {rest : Bytes}
    (read : Read.str maxLen reader = (value, ⟨some rest⟩)) :
    reader = ⟨some (LittleEndian.encode 4 value.length ++ value ++ rest)⟩ := by
  unfold Read.str at read
  cases first : Read.u32 reader with
  | mk length between =>
      rw [first] at read
      dsimp only at read
      split at read
      next failed =>
        cases read
        cases failed
      split at read
      · cases read
      cases second : Read.raw length.toNat between with
      | mk found rest' =>
          rw [second] at read
          cases found with
          | none =>
              cases read
              obtain ⟨view, never⟩ := Read.raw_of_good second
              cases never
          | some view =>
              cases read
              obtain ⟨rest', same, rfl, exact'⟩ := Read.raw_eq_some second
              cases same
              have eq := Read.map_word_of_good (fun _ => rfl : ∀ n, (UInt32.ofNat n).toNat = _) first
              rw [eq, exact', List.append_assoc]

theorem inverts_str {maxLen : Nat} :
    Inverts (.read (Read.str maxLen)) fun value (w : ByteWriter limit) => w.str value maxLen := by
  intro reader value rest read
  have short : value.length ≤ maxLen := yields_str.ok _ _ _ read
  refine ⟨_, Read.str_of_good (Except.ok.inj read), fun w => ?_⟩
  show w.str value maxLen = _
  rw [ByteWriter.str, if_neg (Nat.not_lt.mpr short), ByteWriter.u32_ofNat, ByteWriter.raw_raw]

theorem spells_identifier {maxLen : Nat} :
    Spells id (decodeIdentifier maxLen) fun value (w : ByteWriter limit) => w.str value maxLen := by
  unfold decodeIdentifier
  apply Spells.bind inverts_str
  intro value
  apply Spells.last spells_sound
  intro _ reader a reader' read
  split at read
  · cases read
    exact ⟨rfl, fun _ => rfl⟩
  · cases read

theorem spells_enum {members : List α} {value : α → UInt8} {detail : String} :
    Spells id (decodeEnum members value detail) fun a (w : ByteWriter limit) => w.u8 (value a) := by
  unfold decodeEnum
  apply Spells.bind inverts_u8
  intro raw
  apply Spells.last spells_sound
  intro _
  rw [← bind_pure (Decode.require _ _ _)]
  apply Closes.require
  rintro a rfl
  exact Closes.pure fun _ => rfl

theorem spells_optional {value : Read α} {emit : α → ByteWriter limit → ByteWriter limit}
    {write : Option α → ByteWriter limit → ByteWriter limit} {detail : String}
    (inverts : Inverts (.read value) emit) (absent : ∀ w, write none w = w.presence false)
    (present : ∀ a w, write (some a) w = emit a (w.presence true)) :
    Spells id (decodeOptional value detail) write := by
  unfold decodeOptional
  apply Spells.bind inverts_presence
  intro flag
  cases flag with
  | false =>
      apply Spells.last spells_sound
      intro _
      exact Closes.pure absent
  | true =>
      apply Spells.bind spells_sound.inverts
      intro _
      apply Spells.bind inverts
      intro a
      apply Spells.last spells_sound
      intro _
      exact Closes.pure (present a)

theorem spells_optionalU64 {detail : String} :
    Spells id (decodeOptional Read.u64 detail) fun value (w : ByteWriter limit) =>
      w.optionalU64 value :=
  spells_optional inverts_u64 (fun _ => rfl) fun _ _ => rfl

theorem spells_optionalU32 {detail : String} :
    Spells id (decodeOptional Read.u32 detail) fun value (w : ByteWriter limit) =>
      w.optionalU32 value :=
  spells_optional inverts_u32 (fun _ => rfl) fun _ _ => rfl

theorem spells_optionalResource {detail : String} :
    Spells id (decodeOptional (Read.str Limits.maxIdentifierLen) detail)
      fun value (w : ByteWriter limit) => w.optionalResource value :=
  spells_optional inverts_str (fun _ => rfl) fun _ _ => rfl

theorem bytes_ofBuffer {bytes : Bytes} (length : bytes.length = 32) :
    (Digest256.ofBuffer bytes).bytes = bytes := by
  have whole : bytes.take 32 = bytes := List.take_of_length_le (Nat.le_of_eq length)
  unfold Digest256.ofBuffer
  rw [dif_pos (by rw [whole, length])]
  exact whole

theorem inverts_digest {detail : String} :
    Inverts (decodeDigest detail) fun value (w : ByteWriter limit) => w.digest value := by
  intro reader value rest read
  unfold decodeDigest at read
  obtain ⟨found, between, read₁, read₂⟩ := bind_eq_ok_iff.mp read
  cases found with
  | none => cases read₂
  | some bytes =>
      cases read₂
      obtain ⟨rest', same, eq, length⟩ := Read.raw_eq_some (Except.ok.inj read₁)
      cases same
      refine ⟨bytes, eq, fun w => ?_⟩
      show w.raw (Digest256.ofBuffer bytes).bytes = _
      rw [bytes_ofBuffer length]

theorem spells_header {tag : UInt16} :
    Spells id (expectHeader tag) fun _ (w : ByteWriter limit) => w.header tag := by
  unfold expectHeader
  apply Spells.bind inverts_u16
  intro actualTag
  apply Spells.bind inverts_u16
  intro actualVersion
  apply Spells.last spells_sound
  intro _ reader a reader' read
  split at read
  · cases read
  next tagged =>
    split at read
    · cases read
    next versioned =>
      cases read
      rw [not_not.mp tagged, not_not.mp versioned]
      exact ⟨rfl, fun _ => rfl⟩

theorem spells_provenance {detail : String} :
    Spells id (decodeProvenance detail) fun value (w : ByteWriter limit) => w.provenance value := by
  unfold decodeProvenance
  apply Spells.bind_yields inverts_str yields_str
  intro origin short
  apply Spells.bind inverts_u64
  intro epoch
  apply Spells.bind inverts_u64
  intro generation
  apply Spells.bind inverts_u64
  intro sequence
  apply Spells.last spells_sound
  intro _
  refine Closes.pure fun w => ?_
  rw [Provenance.make, List.take_of_length_le short]
  rfl

theorem inverts_count {maxCount : Nat} {detail : String} :
    Inverts (decodeCount maxCount detail) fun n (w : ByteWriter limit) =>
      if n > 0xFFFFFFFF then w.fail else w.u32 (UInt32.ofNat n) := by
  intro reader n rest read
  unfold decodeCount at read
  obtain ⟨found, between, read₁, read₂⟩ := bind_eq_ok_iff.mp read
  cases found with
  | none => cases read₂
  | some count =>
      cases read₂
      have counted : Read.count maxCount reader = (some n, ⟨some rest⟩) := Except.ok.inj read₁
      unfold Read.count at counted
      cases first : Read.u32 reader with
      | mk value between =>
          rw [first] at counted
          dsimp only at counted
          split at counted
          · cases counted
          split at counted
          · cases counted
          cases counted
          obtain ⟨bytes, eq, written⟩ :=
            @inverts_u32 limit reader value rest (congrArg Except.ok first)
          refine ⟨bytes, eq, fun w => ?_⟩
          have small : value.toNat < 2 ^ 32 := value.toNat_lt
          dsimp only
          rw [if_neg (by omega), UInt32.ofNat_toNat]
          exact written w

theorem inverts_times {item : Decode α} {emit : ByteWriter limit → α → ByteWriter limit}
    (inverts : Inverts item fun a w => emit w a) (n : Nat) :
    Inverts (Decode.times item n) fun items w => items.foldl emit w := by
  induction n with
  | zero =>
      intro reader items rest read
      cases read
      exact ⟨[], rfl, fun w => w.raw_nil.symm⟩
  | succ n ih =>
      intro reader items rest read
      obtain ⟨head, between, read₁, read₂⟩ := bind_eq_ok_iff.mp read
      obtain ⟨tail, between', read₃, read₄⟩ := bind_eq_ok_iff.mp read₂
      cases read₄
      obtain ⟨second, rfl, written₂⟩ := ih _ _ _ read₃
      obtain ⟨first, eq, written₁⟩ := inverts _ _ _ read₁
      refine ⟨first ++ second, by rw [eq, List.append_assoc], fun w => ?_⟩
      have here : emit w head = w.raw first := written₁ w
      have there : tail.foldl emit (w.raw first) = _ := written₂ (w.raw first)
      dsimp only
      rw [List.foldl_cons, here, there, ByteWriter.raw_raw]

theorem length_times {item : Decode α} {n : Nat} :
    Yields (Decode.times item n) fun items => items.length = n := by
  induction n with
  | zero => exact .pure rfl
  | succ n ih =>
      apply Yields.after
      intro head
      apply ih.bind
      rintro tail length
      exact .pure (congrArg (· + 1) length)

theorem inverts_list {item : Decode α} {emit : ByteWriter limit → α → ByteWriter limit}
    {maxCount : Nat} {detail : String} (inverts : Inverts item fun a w => emit w a) :
    Inverts (decodeCount maxCount detail >>= Decode.times item) fun items w =>
      w.counted items emit := by
  intro reader items rest read
  obtain ⟨n, between, read₁, read₂⟩ := bind_eq_ok_iff.mp read
  have length := length_times.ok _ _ _ read₂
  obtain ⟨second, rfl, written₂⟩ := inverts_times inverts n _ _ _ read₂
  obtain ⟨first, eq, written₁⟩ := @inverts_count limit _ _ _ _ _ read₁
  refine ⟨first ++ second, by rw [eq, List.append_assoc], fun w => ?_⟩
  have count := written₁ w
  dsimp only at count written₂ ⊢
  rw [← ByteWriter.raw_raw, ← count, ByteWriter.counted, length]
  split
  · rw [ByteWriter.raw_fail]
  · exact written₂ _

theorem inverts_predicates {maxCount : Nat} :
    Inverts (decodePredicates maxCount) fun keys (w : ByteWriter limit) => w.keys keys maxCount := by
  intro reader keys rest read
  unfold decodePredicates at read
  have few : keys.length ≤ maxCount := by
    obtain ⟨n, between, read₁, read₂⟩ := bind_eq_ok_iff.mp read
    rw [length_times.ok _ _ _ read₂]
    exact yields_count.ok _ _ _ read₁
  obtain ⟨bytes, eq, written⟩ := @inverts_list Text limit _
    (fun w key => w.str key Limits.maxPredicateKeyLen) _ _ spells_identifier.inverts _ _ _ read
  refine ⟨bytes, eq, fun w => ?_⟩
  dsimp only
  rw [ByteWriter.keys, if_neg (Nat.not_lt.mpr few)]
  exact written w

end Fields

end QoSFabric
