import QoSFabric.Proof.Registry.Invariant
import QoSFabric.Proof.Registry.Progress
import Mathlib.Data.List.Perm.Subperm

/-!
# The retained decisions

Decisions are kept by contract and generation and given up by contract, oldest first. As long as no
contract is given up that the order names again, the order names the contract of every decision, and
its budget is a budget of the table.
-/

namespace QoSFabric

/-! ## Keys -/

theorem toNat_digit {n : Nat} {c : Char} (digit : c ∈ Nat.toDigits 10 n) :
    48 ≤ c.toNat ∧ c.toNat ≤ 57 := by
  have isDigit := Nat.isDigit_of_mem_toDigits (by decide) (by decide) digit
  rw [Char.isDigit, Bool.and_eq_true, decide_eq_true_eq, decide_eq_true_eq] at isDigit
  exact ⟨UInt32.le_iff_toNat_le.mp isDigit.1, UInt32.le_iff_toNat_le.mp isDigit.2⟩

theorem chars_decimal (n : Nat) :
    (decimal n).map (fun byte => Char.ofNat byte.toNat) = Nat.toDigits 10 n := by
  unfold decimal
  rw [List.map_map]
  refine (List.map_congr_left ?_).trans (List.map_id _)
  intro c digit
  have small := (toNat_digit digit).2
  rw [Function.comp_apply, UInt8.toNat_ofNat', Nat.mod_eq_of_lt (by omega), Char.ofNat_toNat]
  rfl

theorem decimal_injective : Function.Injective decimal := by
  intro m n same
  rw [← Nat.ofDigitChars_ten_toDigits (n := m), ← chars_decimal, same, chars_decimal,
    Nat.ofDigitChars_ten_toDigits]

theorem not_mem_decimal (n : Nat) : (35 : UInt8) ∉ decimal n := by
  intro mem
  obtain ⟨c, digit, eq⟩ := List.mem_map.mp mem
  have range := toNat_digit digit
  have value := congrArg UInt8.toNat eq
  rw [UInt8.toNat_ofNat', Nat.mod_eq_of_lt (by omega)] at value
  have sharp : (35 : UInt8).toNat = 35 := rfl
  omega

theorem append_cons_injective {α : Type} {x : α} {front front' back back' : List α}
    (absent : x ∉ back) (absent' : x ∉ back') (same : front ++ x :: back = front' ++ x :: back') :
    front = front' ∧ back = back' := by
  rw [List.append_eq_append_iff] at same
  cases same with
  | inl split =>
      obtain ⟨between, longer, rest⟩ := split
      cases between with
      | nil =>
          rw [List.append_nil] at longer
          exact ⟨longer.symm, (List.cons.inj rest).2⟩
      | cons y between =>
          have rest := (List.cons.inj rest).2
          rw [rest] at absent
          exact absurd (List.mem_append_right _ (List.mem_cons_self ..)) absent
  | inr split =>
      obtain ⟨between, longer, rest⟩ := split
      cases between with
      | nil =>
          rw [List.append_nil] at longer
          exact ⟨longer, (List.cons.inj rest).2.symm⟩
      | cons y between =>
          have rest := (List.cons.inj rest).2
          rw [rest] at absent'
          exact absurd (List.mem_append_right _ (List.mem_cons_self ..)) absent'

theorem keyOf_injective {id id' : Text} {generation generation' : Generation}
    (same : keyOf id generation = keyOf id' generation') :
    id = id' ∧ generation = generation' := by
  unfold keyOf at same
  rw [List.append_assoc, List.append_assoc] at same
  obtain ⟨ids, digits⟩ := append_cons_injective (not_mem_decimal _) (not_mem_decimal _) same
  exact ⟨ids, UInt64.toNat_inj.mp (decimal_injective digits)⟩

namespace Registry

/-! ## The order and the table -/

def heldContracts (decisions : Table Text ContractDecision) : List Text :=
  decisions.entries.map fun entry => entry.2.contract

structure Ordered (order : List Text) (decisions : Table Text ContractDecision) : Prop where
  keyed : ∀ entry ∈ decisions.entries,
    entry.1 = keyOf entry.2.contract entry.2.contractGeneration
  named : (heldContracts decisions).Subperm order

variable {order : List Text} {decisions : Table Text ContractDecision} {r r' : Registry}

theorem ordered_empty : Ordered [] ∅ where
  keyed := by simp
  named := .refl _

theorem Ordered.size_le (ordered : Ordered order decisions) : Table.size decisions ≤ order.length := by
  have bound := ordered.named.length_le
  rwa [heldContracts, List.length_map] at bound

theorem Ordered.append (ordered : Ordered order decisions) (contract : Text) :
    Ordered (order ++ [contract]) decisions where
  keyed := ordered.keyed
  named := ordered.named.trans (List.sublist_append_left order [contract]).subperm

theorem Ordered.insert (ordered : Ordered order decisions) (decision : ContractDecision) :
    Ordered (if (decisions.lookup (keyOf decision.contract decision.contractGeneration)).isNone
        then order ++ [decision.contract] else order)
      (decisions.insert (keyOf decision.contract decision.contractGeneration) decision) := by
  constructor
  · intro entry mem
    rw [AList.entries_insert, List.mem_cons] at mem
    cases mem with
    | inl new =>
        subst new
        rfl
    | inr old => exact ordered.keyed entry ((List.kerase_sublist _ _).subset old)
  · cases found : decisions.lookup (keyOf decision.contract decision.contractGeneration) with
    | none =>
        rw [heldContracts, AList.entries_insert_of_notMem (AList.lookup_eq_none.mp found)]
        have one := (List.subperm_cons decision.contract).mpr ordered.named
        exact one.trans (List.perm_append_singleton _ _).symm.subperm
    | some old =>
        have mem := Table.mem_entries.mpr found
        have same : decision.contract = old.contract := (keyOf_injective (ordered.keyed _ mem)).1
        have keys : keyOf decision.contract decision.contractGeneration ∈ decisions.entries.keys :=
          List.mem_map_of_mem mem
        obtain ⟨value, before, behind, _, entries, erased⟩ := List.exists_of_kerase keys
        have old_eq : value = old := by
          have there := List.mem_append_right before
            (List.mem_cons_self (a := ⟨keyOf decision.contract decision.contractGeneration, value⟩)
              (l := behind))
          rw [← entries] at there
          exact Option.some.inj ((Table.mem_entries.mp there).symm.trans found)
        have replaced : (heldContracts (decisions.insert
            (keyOf decision.contract decision.contractGeneration) decision)).Perm
            (heldContracts decisions) := by
          unfold heldContracts
          rw [AList.entries_insert, erased, entries, old_eq]
          simp only [List.map_append, List.map_cons, same]
          exact List.perm_middle.symm
        exact replaced.subperm.trans ordered.named

theorem Ordered.erase (ordered : Ordered order decisions) (key : Text) :
    Ordered order (decisions.erase key) where
  keyed entry mem := ordered.keyed entry ((List.kerase_sublist _ _).subset mem)
  named := ((List.kerase_sublist _ _).map _).subperm.trans ordered.named

theorem Ordered.evicted {oldest : Text} {rest : List Text} (ordered : Ordered (oldest :: rest) decisions)
    (spared : oldest ∉ rest) :
    Ordered rest (decisions.keep fun decision => decision.contract != oldest) := by
  have entries : (decisions.keep fun decision => decision.contract != oldest).entries =
      decisions.entries.filter fun entry => entry.2.contract != oldest := rfl
  constructor
  · intro entry mem
    rw [entries] at mem
    exact ordered.keyed entry (List.mem_filter.mp mem).1
  · have filtered := ordered.named.filter (· != oldest)
    have others : (oldest :: rest).filter (· != oldest) = rest := by
      rw [List.filter_cons_of_neg (by simp), List.filter_eq_self]
      intro contract mem
      simp only [bne_iff_ne]
      rintro rfl
      exact spared mem
    rw [others, heldContracts, List.filter_map] at filtered
    rw [heldContracts, entries]
    exact filtered

/-! ## The registry -/

theorem evict_of_le (within : order.length ≤ Limits.maxDecisionsRetained) :
    evict order decisions = (order, decisions) := by
  cases order with
  | nil => rfl
  | cons oldest rest => rw [evict, if_neg (Nat.not_lt.mpr within)]

theorem evict_of_succ {oldest : Text} {rest : List Text}
    (full : rest.length = Limits.maxDecisionsRetained) :
    evict (oldest :: rest) decisions = (rest, if rest.contains oldest then decisions
      else decisions.keep fun decision => decision.contract != oldest) := by
  rw [evict, if_pos (by rw [List.length_cons, full]; exact Nat.lt_succ_self _)]
  exact evict_of_le (Nat.le_of_eq full)

structure Retaining (r : Registry) : Prop where
  ordered : Ordered r.decisionOrder r.decisions
  within : r.decisionOrder.length ≤ Limits.maxDecisionsRetained

def Spares (r : Registry) (contract : Text) (generation : Generation) : Prop :=
  r.decisionOrder.length = Limits.maxDecisionsRetained →
    r.decisions.lookup (keyOf contract generation) = none →
    ∀ oldest rest, r.decisionOrder = oldest :: rest → oldest ∉ rest ∧ oldest ≠ contract

theorem Retaining.prune (retaining : Retaining r) :
    r.pruneDecisions.decisionOrder = r.decisionOrder ∧ r.pruneDecisions.decisions = r.decisions := by
  unfold pruneDecisions
  rw [evict_of_le retaining.within]
  exact ⟨rfl, rfl⟩

theorem Retaining.hold (retaining : Retaining r) {decision : ContractDecision}
    (spares : r.Spares decision.contract decision.contractGeneration) :
    Retaining (r.holdDecision decision).pruneDecisions := by
  have inserted := retaining.ordered.insert decision
  unfold holdDecision pruneDecisions
  dsimp only
  by_cases fits : (if (r.decisions.lookup
      (keyOf decision.contract decision.contractGeneration)).isNone
      then r.decisionOrder ++ [decision.contract] else r.decisionOrder).length ≤
        Limits.maxDecisionsRetained
  · rw [evict_of_le fits]
    exact ⟨inserted, fits⟩
  · cases found : r.decisions.lookup (keyOf decision.contract decision.contractGeneration) with
    | some old =>
        rw [found] at fits
        exact absurd retaining.within fits
    | none =>
        rw [found, Option.isNone_none, if_pos rfl] at fits inserted
        have full : r.decisionOrder.length = Limits.maxDecisionsRetained := by
          have within := retaining.within
          rw [List.length_append, List.length_singleton] at fits
          omega
        cases named : r.decisionOrder with
        | nil =>
            rw [named] at full
            cases full
        | cons oldest rest =>
            obtain ⟨once, other⟩ := spares full found oldest rest named
            have spared : oldest ∉ rest ++ [decision.contract] := by
              rw [List.mem_append, List.mem_singleton]
              exact not_or.mpr ⟨once, other⟩
            have length : (rest ++ [decision.contract]).length = Limits.maxDecisionsRetained := by
              rw [named, List.length_cons] at full
              rw [List.length_append, List.length_singleton, full]
            rw [named, List.cons_append] at inserted
            rw [Option.isNone_none, if_pos rfl, List.cons_append, evict_of_succ length,
              if_neg (by simpa using spared)]
            exact ⟨inserted.evicted spared, Nat.le_of_eq length⟩

theorem Retaining.forget (retaining : Retaining r) (decision : ContractDecision) :
    Retaining (forgetDecision decision r (r.holdDecision decision)) := by
  have erased (value : ContractDecision) (key : Text) :
      (r.decisions.insert key value).erase key = r.decisions.erase key := by
    apply AList.ext
    show ((r.decisions.insert key value).entries).kerase key = r.decisions.entries.kerase key
    rw [AList.entries_insert]
    exact List.kerase_cons_eq (s := (⟨key, value⟩ : Sigma fun _ : Text => ContractDecision)) rfl
  have order : (forgetDecision decision r (r.holdDecision decision)).decisionOrder =
      r.decisionOrder := by
    unfold forgetDecision holdDecision
    dsimp only
    split
    · rw [List.dropLast_concat]
    · rfl
  have decisions : (forgetDecision decision r (r.holdDecision decision)).decisions =
      r.decisions.erase (keyOf decision.contract decision.contractGeneration) := by
    unfold forgetDecision holdDecision
    dsimp only
    exact erased _ _
  constructor
  · rw [order, decisions]
    exact retaining.ordered.erase _
  · rw [order]
    exact retaining.within

/-! ## Replay and loading -/

def SparesReplay : Registry → List LogRecord → Prop
  | _, [] => True
  | r, record :: records =>
      (record.type = .recordDecision → ∀ decoded,
        decodeDecision (.ofBytes record.payload) = .ok decoded →
          r.Spares decoded.1.contract decoded.1.contractGeneration) ∧
      ∀ next, r.applyRecord record = .ok next → next.SparesReplay records

theorem Retaining.congr (retaining : Retaining r) (order : r'.decisionOrder = r.decisionOrder)
    (decisions : r'.decisions = r.decisions) : Retaining r' := by
  constructor
  · rw [order, decisions]
    exact retaining.ordered
  · rw [order]
    exact retaining.within

theorem applyRecord_decisions {record : LogRecord} (applied : r.applyRecord record = .ok r')
    (other : record.type ≠ .recordDecision) :
    r'.decisionOrder = r.decisionOrder ∧ r'.decisions = r.decisions := by
  have entity {kind : EntityKind} (applied : r.applyEntity kind record.payload = .ok r') :
      r'.decisionOrder = r.decisionOrder ∧ r'.decisions = r.decisions := by
    unfold applyEntity at applied
    obtain ⟨decoded, -, rfl⟩ := Decode.map_eq_ok.mp applied
    exact ⟨rfl, rfl⟩
  unfold applyRecord at applied
  split at applied
  case h_1 =>
    split at applied
    · cases applied
    · cases applied
      exact ⟨rfl, rfl⟩
  case h_2 => exact entity applied
  case h_3 => exact entity applied
  case h_4 => exact entity applied
  case h_5 => exact entity applied
  case h_6 => exact entity applied
  case h_7 =>
    obtain ⟨⟨⟨id, parsed⟩, reader⟩, -, rfl⟩ := Decode.map_eq_ok.mp applied
    dsimp only
    split
    · exact ⟨rfl, rfl⟩
    · split <;> exact ⟨rfl, rfl⟩
  case h_8 =>
    obtain ⟨decoded, -, rfl⟩ := Decode.map_eq_ok.mp applied
    exact ⟨rfl, rfl⟩
  case h_9 is => exact absurd is other
  all_goals
    cases applied
    exact ⟨rfl, rfl⟩

theorem Retaining.applied (retaining : Retaining r) {record : LogRecord}
    (spares : record.type = .recordDecision → ∀ decoded,
      decodeDecision (.ofBytes record.payload) = .ok decoded →
        r.Spares decoded.1.contract decoded.1.contractGeneration)
    (applied : r.applyRecord record = .ok r') : Retaining r' := by
  by_cases is : record.type = .recordDecision
  · unfold applyRecord at applied
    rw [is] at applied
    obtain ⟨decoded, decodes, rfl⟩ := Decode.map_eq_ok.mp applied
    exact retaining.hold (spares is decoded decodes)
  · obtain ⟨order, decisions⟩ := applyRecord_decisions applied is
    exact retaining.congr order decisions

theorem Retaining.rebuilt {records : List LogRecord} (retaining : Retaining r)
    (spares : r.SparesReplay records) (rebuilt : r.rebuildFromLog records = .ok r') :
    Retaining r' := by
  induction records generalizing r with
  | nil =>
      cases rebuilt
      exact retaining
  | cons record records ih =>
      unfold rebuildFromLog at rebuilt
      rw [List.foldlM_cons] at rebuilt
      cases applied : r.applyRecord record with
      | error e =>
          rw [applied] at rebuilt
          cases rebuilt
      | ok next =>
          rw [applied] at rebuilt
          exact ih (retaining.applied spares.1 applied) (spares.2 next applied) rebuilt

theorem retaining_loaded {options : RegistryOptions} {store : Store} {clock : UInt64}
    {payload : Bytes} {loaded : Registry}
    (load : (fresh options store clock).loadSnapshotState payload = .ok loaded) :
    Retaining loaded := by
  unfold loadSnapshotState at load
  split at load
  · cases load
    exact ⟨ordered_empty, Nat.zero_le _⟩
  obtain ⟨decoded, read, rfl⟩ := Decode.map_eq_ok.mp load
  have loading : Loading fun r => r.decisionOrder = [] ∧ r.decisions = ∅ :=
    ⟨fun _ _ _ h => h, fun _ _ _ h => h, fun _ _ _ h => h, fun _ _ h => h⟩
  have yields := loading.yields_state
    (J := fun n r => Ordered r.decisionOrder r.decisions ∧ r.decisionOrder.length ≤ n)
    (r := fresh options store clock) ?_ ?_ ?_ ⟨rfl, rfl⟩
  · obtain ⟨n, small, ordered, within⟩ := yields.ok _ _ _ read
    exact ⟨ordered, Nat.le_trans within small⟩
  · rintro r ⟨order, decisions⟩
    rw [order, decisions]
    exact ⟨ordered_empty, Nat.le_refl _⟩
  · rintro n r value ⟨ordered, within⟩
    constructor
    · have inserted := ordered.insert value
      split at inserted
      · exact inserted
      · exact inserted.append _
    · rw [List.length_append, List.length_singleton]
      exact Nat.succ_le_succ within
  · rintro n r ⟨ordered, within⟩
    exact ⟨ordered, Nat.le_succ_of_le within⟩

theorem compactable_decisions {order : List Text} {decisions : Table Text ContractDecision}
    (within : order.length ≤ Limits.maxDecisionsRetained) :
    Compactable fun r _ => r.decisionOrder = order ∧ r.decisions = decisions := by
  have pruned {r : Registry} (h : r.decisionOrder = order ∧ r.decisions = decisions) :
      r.prune.decisionOrder = order ∧ r.prune.decisions = decisions := by
    obtain ⟨rfl, rfl⟩ := h
    unfold prune pruneDecisions
    dsimp only
    rw [evict_of_le within]
    exact ⟨rfl, rfl⟩
  exact ⟨fun _ h => h, pruned, fun h _ => pruned h⟩

theorem Spares.congr {contract : Text} {generation : Generation}
    (spares : r.Spares contract generation) (order : r'.decisionOrder = r.decisionOrder)
    (decisions : r'.decisions = r.decisions) : r'.Spares contract generation := by
  unfold Spares
  rw [order, decisions]
  exact spares

theorem tick_decisions (r : Registry) (clock : UInt64) :
    (r.tick clock).decisionOrder = r.decisionOrder ∧ (r.tick clock).decisions = r.decisions := by
  unfold tick
  split <;> exact ⟨rfl, rfl⟩

theorem invariant_retaining : Invariant (fun _ _ call => ∀ request, call ≠ .evaluate request)
    fun r _ => Retaining r where
  store _ h := h.congr rfl rfl
  pruned h := by
    obtain ⟨order, decisions⟩ := h.prune
    exact h.congr order decisions
  compacted h _ := by
    obtain ⟨order, decisions⟩ := h.prune
    exact h.congr order decisions
  clock _ _ h := h.congr rfl rfl
  equivocated _ _ _ _ _ _ _ h :=
    ⟨fun _ _ => h.congr rfl rfl, fun _ _ => h.congr rfl rfl⟩
  accepted _ _ _ _ _ _ _ _ _ h :=
    ⟨fun _ _ => h.congr rfl rfl, fun _ _ => h.congr rfl rfl⟩
  registered _ _ _ _ h := ⟨fun _ _ => h.congr rfl rfl, fun _ _ => h.congr rfl rfl⟩
  revoked _ _ _ h := ⟨fun _ _ => h.congr rfl rfl, fun _ _ => h.congr rfl rfl⟩
  decided _ other _ _ _ _ := absurd rfl (other _)
  advanced _ h _ _ := h.congr rfl rfl
  expired h := h.congr rfl rfl

variable {D D' : Durable} {clock : UInt64} {answer : Answer}

theorem Retaining.evaluated (retaining : Retaining r) {request : ContractRequest}
    (effect : Effect clock r D (.evaluate request) answer r' D')
    (spares : ∀ decision, answer = .decided (.ok decision) →
      r.Spares request.contract request.contractGeneration) : Retaining r' := by
  obtain ⟨order, decisions⟩ := r.tick_decisions clock
  cases effect with
  | undecided => exact retaining.congr order decisions
  | evaluate decided recording =>
      have prepared {r₁ : Registry} {D₁ : Durable} (ready : Readied (r.tick clock) D r₁ D₁) :=
        (compactable_decisions retaining.within).readied ready ⟨order, decisions⟩
      cases recording with
      | refused => exact retaining.congr order decisions
      | failed recorded journalled =>
          cases journalled with
          | refused _ ready =>
              obtain ⟨order, decisions⟩ := prepared ready
              exact retaining.congr order decisions
          | undone e attempt store ready =>
              obtain ⟨order, decisions⟩ := prepared ready
              exact ((retaining.congr order decisions).forget _).congr rfl rfl
      | done recorded journalled =>
          cases journalled with
          | done attempt sequence store ready =>
              obtain ⟨order, decisions⟩ := prepared ready
              obtain ⟨contract, generation⟩ := (decides decided).contract
              have spares := (spares _ rfl).congr order decisions
              rw [← contract, ← generation] at spares
              exact ((retaining.congr order decisions).hold spares).congr rfl rfl

theorem Retaining.restored {options : RegistryOptions} (restored : Restored options clock D r D')
    (spares : ∀ store loaded, (fresh options store clock).loadSnapshotState D.payload = .ok loaded →
      loaded.SparesReplay D.history) : Retaining r := by
  cases restored with
  | observed _ observes recovers =>
      obtain ⟨loaded, load, rebuilt⟩ := recovers
      exact (retaining_loaded load).rebuilt (spares _ loaded load) rebuilt
  | claimed _ claims recovers advancing =>
      obtain ⟨loaded, load, rebuilt⟩ := recovers
      have retaining := (retaining_loaded load).rebuilt (spares _ loaded load) rebuilt
      cases advancing with
      | done => exact retaining.congr rfl rfl

end Registry

open FileSystem Registry

/-- The steps that give up no contract the order names again, or that is recorded: an evaluation
that records its decision, and an opening, which replays what it finds in the directory. -/
def SparesContracts : Site → Event → Prop
  | .up r _, .called _ (.evaluate request) (.decided (.ok _)) =>
      r.Spares request.contract request.contractGeneration
  | .down d, .opened options clock _ (.ok _) => ∀ D store loaded, Finds options.store d D →
      (fresh options store clock).loadSnapshotState D.payload = .ok loaded →
      loaded.SparesReplay D.history
  | _, _ => True

theorem TurnsWhere.retaining {openings : Openings} {events : List Event} {site : Site} {D : Durable}
    (turns : TurnsWhere openings SparesContracts events site D) :
    ∀ r, site.members = some r → Retaining r := by
  induction turns with
  | start =>
      intro r up
      cases up
  | @next events event site site' D D₀ D' _ sees met turn ih =>
      intro r up
      rw [up] at turn
      cases sees with
      | down _ _ finds =>
          obtain ⟨options, clock, boot, rfl, restored⟩ := Turn.restored turn
          exact .restored restored fun store loaded load =>
            met D₀ store loaded (finds _ _ _ _ rfl) load
      | up =>
          cases turn with
          | @called clock call answer _ _ _ _ effect =>
              have retaining := ih _ rfl
              by_cases evaluates : ∃ request, call = .evaluate request
              · obtain ⟨request, rfl⟩ := evaluates
                refine retaining.evaluated effect fun decision given => ?_
                subst given
                exact met
              · exact invariant_retaining.effect retaining
                  (fun request is => evaluates ⟨request, is⟩) effect

/-- Decisions stay within their budget as long as no contract is given up that is named again. -/
theorem decisions_bounded {openings : Openings} {events : List Event} {r : Registry}
    {d : Disk FileName} (run : RunWhere openings SparesContracts events (.up r d)) :
    Table.size r.decisions ≤ Limits.maxDecisionsRetained := by
  obtain ⟨D, -, turns⟩ := run.turns
  have retaining : Retaining r := turns.retaining r rfl
  exact Nat.le_trans retaining.ordered.size_le retaining.within

/-! ## A contract that is named again -/

/-- A request of one contract, under any generation, that names a policy nobody has published. -/
def repeatedRequest (generation : Generation) : ContractRequest where
  contract := text "c"
  contractGeneration := generation
  subject := text "s"
  subjectGeneration := 1
  classId := text "gold"
  classGeneration := 1
  path := text "p"
  pathGeneration := 1
  policy := text "absent"
  policyGeneration := 1
  priority := text "q"
  priorityGeneration := 1
  observedEpoch := 1
  requestMs := 0
  provenance := .none

structure Repeated (n : Nat) (r : Registry) : Prop where
  policies : (r.tables .policy).lookup (text "absent") = none
  order : ∀ contract ∈ r.decisionOrder, contract = text "c"
  length : r.decisionOrder.length = min n Limits.maxDecisionsRetained
  later : ∀ generation : Generation, n < generation.toNat →
    r.decisions.lookup (keyOf (text "c") generation) = none
  size : Table.size r.decisions = n

theorem decide_repeated {r : Registry} {generation : Generation} (positive : generation ≠ 0)
    (policies : (r.tables .policy).lookup (text "absent") = none) :
    r.decide (repeatedRequest generation) = .ok (r.rejection (repeatedRequest generation)
      (text "policy definition is absent from the registry")) := by
  have valid : validateRequest (repeatedRequest generation) = .ok () := by
    have zero : (generation == 0) = false := by simpa using positive
    unfold validateRequest repeatedRequest
    dsimp only
    rw [zero]
    decide
  have absent : r.entityFor .policy (text "absent") 1 = .error absentGeneration := by
    unfold entityFor findEntity
    rw [if_neg (by decide), policies]
  unfold Registry.decide
  rw [valid]
  dsimp only
  rw [show (repeatedRequest generation).policy = text "absent" from rfl,
    show (repeatedRequest generation).policyGeneration = 1 from rfl, absent]

theorem short_repeated (generation : Generation) : (repeatedRequest generation).Short where
  contract := show (text "c").length ≤ _ by decide
  subject := show (text "s").length ≤ _ by decide
  classId := show (text "gold").length ≤ _ by decide
  path := show (text "p").length ≤ _ by decide
  policy := show (text "absent").length ≤ _ by decide
  priority := show (text "q").length ≤ _ by decide

theorem Repeated.hold {n : Nat} {r : Registry} (repeated : Repeated n r)
    {decision : ContractDecision} (contract : decision.contract = text "c")
    (generation : decision.contractGeneration.toNat = n + 1) :
    Repeated (n + 1) (r.holdDecision decision).pruneDecisions := by
  have new : r.decisions.lookup (keyOf decision.contract decision.contractGeneration) = none := by
    rw [contract]
    exact repeated.later _ (by omega)
  have later (g : Generation) (above : n + 1 < g.toNat) :
      (r.decisions.insert (keyOf decision.contract decision.contractGeneration) decision).lookup
        (keyOf (text "c") g) = none := by
    rw [AList.lookup_insert_ne]
    · exact repeated.later g (by omega)
    · intro same
      have equal := (keyOf_injective same).2
      rw [equal] at above
      omega
  have size : Table.size (r.decisions.insert
      (keyOf decision.contract decision.contractGeneration) decision) = n + 1 := by
    rw [Table.size_insert_new _ new, repeated.size]
  have order : ∀ c ∈ r.decisionOrder ++ [decision.contract], c = text "c" := by
    intro c mem
    rw [List.mem_append, List.mem_singleton] at mem
    cases mem with
    | inl mem => exact repeated.order c mem
    | inr mem => rw [mem, contract]
  have length := repeated.length
  unfold holdDecision pruneDecisions
  dsimp only
  rw [new, Option.isNone_none, if_pos rfl]
  by_cases room : n < Limits.maxDecisionsRetained
  · have long : (r.decisionOrder ++ [decision.contract]).length = n + 1 := by
      rw [List.length_append, List.length_singleton]
      omega
    rw [evict_of_le (by omega)]
    exact ⟨repeated.policies, order, by rw [long]; omega, later, size⟩
  · cases named : r.decisionOrder ++ [decision.contract] with
    | nil => simp at named
    | cons oldest rest =>
        have full : rest.length = Limits.maxDecisionsRetained := by
          have lengths := congrArg List.length named
          rw [List.length_append, List.length_singleton, List.length_cons] at lengths
          omega
        rw [named] at order
        have again : rest.contains oldest = true := by
          cases rest with
          | nil => cases full
          | cons second rest =>
              have first := order oldest (List.mem_cons_self ..)
              have next := order second (List.mem_cons_of_mem _ (List.mem_cons_self ..))
              rw [first, next]
              simp
        rw [evict_of_succ full, if_pos again]
        refine ⟨repeated.policies, ?_, ?_, later, size⟩
        · intro c mem
          exact order c (List.mem_cons_of_mem _ mem)
        · rw [full]
          omega

theorem initial_room :
    (match (execute (Registry.open .default 0 (List.replicate 16 7)) Disk.empty).1 with
      | .error _ => false
      | .ok r => r.store.stagedCount == 0 && r.store.walBytes.toNat == 134 &&
          r.store.lastSequence.toNat == 2 &&
          r.store.options.maxWalBytes.toNat == Limits.maxSnapshotBytes &&
          r.store.options.maxRecordBytes == Limits.maxWalRecordBytes) = true := by
  decide +kernel

theorem exists_repeated (n : Nat) (le : n ≤ 4097) : ∃ events r d,
    Run .any events (.up r d) ∧
      (n ≤ Limits.maxDecisionsRetained → RunWhere .any SparesContracts events (.up r d)) ∧
      Repeated n r ∧ Affords ((4097 - n) * 1920) r d := by
  induction n with
  | zero =>
      have room := initial_room
      cases executed : execute (Registry.open .default 0 (List.replicate 16 7)) Disk.empty with
      | mk result d =>
          rw [executed] at room
          cases result with
          | error e => cases room
          | ok r =>
              have admitted : Openings.any .default Disk.empty := trivial
              obtain ⟨store, D, members, step, drives⟩ := first_opening admitted executed rfl
              have spares : SparesContracts (.down Disk.empty)
                  (.opened .default 0 (List.replicate 16 7) (.ok r.currentEpoch)) := by
                intro D _ loaded finds _
                rw [eq_empty_of_finds finds]
                trivial
              simp only [Bool.and_eq_true, beq_iff_eq] at room
              obtain ⟨⟨⟨⟨staged, log⟩, last⟩, budget⟩, record⟩ := room
              refine ⟨_, r, d, .next .start step trivial, fun _ => .next .start step spares, ?_,
                ⟨D, drives⟩, record, staged, ?_, ?_⟩
              · rw [members]
                exact ⟨rfl, by simp [fresh], rfl, fun _ _ => rfl, rfl⟩
              · rw [log, budget]
                decide
              · rw [last]
                decide
  | succ n ih =>
      obtain ⟨events, r, d, run, sparing, repeated, affords⟩ := ih (by omega)
      have generation : (UInt64.ofNat (n + 1)).toNat = n + 1 := by
        rw [UInt64.toNat_ofNat', Nat.mod_eq_of_lt (by omega)]
      have positive : UInt64.ofNat (n + 1) ≠ 0 := by
        intro zero
        rw [zero] at generation
        cases generation
      have policies : ((r.tick 0).tables .policy).lookup (text "absent") = none := by
        rw [show (r.tick 0).tables = r.tables by unfold tick; split <;> rfl]
        exact repeated.policies
      have decided := decide_repeated positive policies
      have room : (4097 - n) * 1920 = 120 + 1800 + (4097 - (n + 1)) * 1920 := by omega
      rw [room] at affords
      have contract : ((r.tick 0).rejection (repeatedRequest (UInt64.ofNat (n + 1)))
          (text "policy definition is absent from the registry")).contract = text "c" := rfl
      obtain ⟨between, store, d', ends, affords'⟩ := affords.evaluate decided
        (within_rejection (short_repeated _) _ _) (by decide)
      have spares (le : n + 1 ≤ Limits.maxDecisionsRetained) : SparesContracts
          (.up r d) (.called 0 (.evaluate (repeatedRequest
            (UInt64.ofNat (n + 1)))) (.decided (.ok ((r.tick 0).rejection (repeatedRequest
              (UInt64.ofNat (n + 1))) (text "policy definition is absent from the registry"))))) := by
        intro full
        have length := repeated.length
        omega
      refine ⟨_, _, d', run.next (.called ends) trivial,
        fun le => (sparing (by omega)).next (.called ends) (spares le), ?_, affords'⟩
      have ticked : Repeated n ((r.tick 0).withStore between) := by
        obtain ⟨order, decisions⟩ := r.tick_decisions 0
        exact ⟨policies, order ▸ repeated.order, order ▸ repeated.length,
          decisions ▸ repeated.later, decisions ▸ repeated.size⟩
      have held := ticked.hold contract generation
      exact ⟨held.policies, held.order, held.length, held.later, held.size⟩

/-- A table filled to its budget. -/
theorem decisions_bounded_full : ∃ events r d, RunWhere .any SparesContracts events (.up r d) ∧
      4096 = Table.size r.decisions ∧ Table.size r.decisions ≤ Limits.maxDecisionsRetained := by
  obtain ⟨events, r, d, -, run, repeated, -⟩ := exists_repeated 4096 (by omega)
  have run := run (Nat.le_refl _)
  exact ⟨events, r, d, run, repeated.size.symm, decisions_bounded run⟩

/-- Evaluating one contract under 4097 generations leaves one decision too many. -/
theorem decisions_unbounded : ¬∀ openings events r d, Run openings events (.up r d) →
    Table.size r.decisions ≤ Limits.maxDecisionsRetained := by
  intro bounded
  obtain ⟨events, r, d, run, -, repeated, -⟩ := exists_repeated 4097 (Nat.le_refl _)
  have size := bounded _ events r d run
  rw [repeated.size] at size
  exact absurd size (by decide)

end QoSFabric
