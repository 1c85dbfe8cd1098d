import QoSFabric.Proof.Engine.Dispute
import QoSFabric.Proof.Engine.Gist
import QoSFabric.Proof.Engine.Soundness
import Mathlib.Data.List.FinRange

/-!
# Component order

What is composed over the components is a function of the components and not of their order, but for
the loss: it is rounded down after every component, and the roundings depend on what came before.
-/

namespace QoSFabric.Proof.Engine

open Outcome

/-! ## Another order -/

section Rearrange

variable {α : Type} {n : Nat}

def rearrange (σ : Equiv.Perm (Fin n)) (items : List α) : List α :=
  if covers : items.length = n then List.ofFn fun i => items.get ((σ i).cast covers.symm) else items

theorem rearrange_perm (σ : Equiv.Perm (Fin n)) (items : List α) :
    (rearrange σ items).Perm items := by
  unfold rearrange
  split
  next covers =>
    subst covers
    have perm := σ.ofFn_comp_perm items.get
    rwa [List.ofFn_get] at perm
  next => exact .refl _

theorem length_rearrange (σ : Equiv.Perm (Fin n)) (items : List α) :
    (rearrange σ items).length = items.length :=
  (rearrange_perm σ items).length_eq

theorem getElem?_rearrange {σ : Equiv.Perm (Fin n)} {items : List α} (covers : items.length = n)
    {i : Nat} (bound : i < n) : (rearrange σ items)[i]? = items[(σ ⟨i, bound⟩).val]? := by
  subst covers
  unfold rearrange
  rw [dif_pos rfl, List.getElem?_eq_getElem (by simpa using bound),
    List.getElem?_eq_getElem (σ ⟨i, bound⟩).isLt, List.getElem_ofFn]
  rfl

theorem getD_rearrange {σ : Equiv.Perm (Fin n)} {items : List (Option α)}
    (covers : items = [] ∨ items.length = n) {i : Nat} (bound : i < n) :
    (rearrange σ items).getD i none = items.getD (σ ⟨i, bound⟩).val none := by
  rcases covers with rfl | covers
  · have empty : rearrange σ ([] : List (Option α)) = [] :=
      List.length_eq_zero_iff.mp (length_rearrange σ [])
    rw [empty]
    rfl
  · rw [List.getD_eq_getElem?_getD, List.getD_eq_getElem?_getD, getElem?_rearrange covers bound]

end Rearrange

variable {inputs : EvaluationInputs}

/-- The inputs with the components in another order, and their evidence with them. -/
def reordered (inputs : EvaluationInputs) (σ : Equiv.Perm (Fin inputs.path.components.length))
    (digest : Digest256) : EvaluationInputs :=
  { inputs with
    path := { inputs.path with
      components := rearrange σ inputs.path.components
      digest := digest }
    capabilities := rearrange σ inputs.capabilities
    reservations := rearrange σ inputs.reservations }

variable {σ : Equiv.Perm (Fin inputs.path.components.length)} {digest : Digest256}

/-! ## Resolutions -/

def bare (r : Resolution) : Resolution := { r with index := 0 }

def resolveSlot (inputs : EvaluationInputs)
    (slot : PathComponent × Option ResourceCapability × Option Reservation) : Resolution :=
  resolveComponent inputs.policy inputs.currentEpoch inputs.nowMs 0 slot.1 slot.2.1 slot.2.2

theorem bare_resolveAt (component : PathComponent) (index : Nat) :
    bare (resolveAt inputs component index) = resolveSlot inputs (component,
      inputs.capabilities.getD index none, inputs.reservations.getD index none) := by
  unfold resolveAt resolveSlot resolveComponent bare
  dsimp only
  repeat' split
  all_goals rfl

def slots (inputs : EvaluationInputs) :
    List (PathComponent × Option ResourceCapability × Option Reservation) :=
  inputs.path.components.zipIdx.map fun (component, index) =>
    (component, inputs.capabilities.getD index none, inputs.reservations.getD index none)

theorem resolve_bare : (resolve inputs).map bare = (slots inputs).map (resolveSlot inputs) := by
  unfold resolve slots
  rw [List.map_map, List.map_map]
  apply List.map_congr_left
  rintro ⟨component, index⟩ -
  exact bare_resolveAt component index

theorem length_slots : (slots inputs).length = inputs.path.components.length := by
  rw [slots, List.length_map, List.length_zipIdx]

theorem getElem?_slots (index : Nat) :
    (slots inputs)[index]? = inputs.path.components[index]?.map fun component =>
      (component, inputs.capabilities.getD index none, inputs.reservations.getD index none) := by
  rw [slots, List.getElem?_map, List.getElem?_zipIdx, Option.map_map, Nat.zero_add]
  rfl

theorem slots_reordered (accepted : Accepted inputs) :
    slots (reordered inputs σ digest) = rearrange σ (slots inputs) := by
  apply List.ext_getElem?
  intro index
  by_cases bound : index < inputs.path.components.length
  · rw [getElem?_slots, getElem?_rearrange length_slots bound, getElem?_slots]
    show ((rearrange σ inputs.path.components)[index]?.map fun component =>
      (component, (rearrange σ inputs.capabilities).getD index none,
        (rearrange σ inputs.reservations).getD index none)) = _
    rw [getElem?_rearrange rfl bound, getD_rearrange (.inr accepted.capabilities) bound,
      getD_rearrange accepted.reservations bound]
  · have past : inputs.path.components.length ≤ index := Nat.le_of_not_lt bound
    rw [List.getElem?_eq_none, List.getElem?_eq_none]
    · rwa [length_rearrange, length_slots]
    · rw [length_slots]
      exact (length_rearrange σ inputs.path.components).symm ▸ past

theorem resolve_reordered (accepted : Accepted inputs) :
    ((resolve (reordered inputs σ digest)).map bare).Perm ((resolve inputs).map bare) := by
  rw [resolve_bare, resolve_bare, slots_reordered accepted]
  exact (rearrange_perm σ (slots inputs)).map _

/-! ## Intake and the findings before composition -/

theorem validateComponents_perm {components components' : List PathComponent}
    (perm : components'.Perm components) :
    validateComponents [] components' = .ok () ↔ validateComponents [] components = .ok () := by
  rw [validateComponents_eq_ok, validateComponents_eq_ok,
    (perm.map PathComponent.resource).nodup_iff]
  exact and_congr_left fun _ => forall_congr' fun component => by rw [perm.mem_iff]

theorem validatePath_reordered :
    validatePath (reordered inputs σ digest).path = .ok () ↔ validatePath inputs.path = .ok () := by
  have perm := rearrange_perm σ inputs.path.components
  simp only [validatePath, unit_bind_eq_ok, reordered, perm.isEmpty_eq, perm.length_eq,
    validateComponents_perm perm]
  exact Iff.rfl

theorem accepted_reordered : Accepted (reordered inputs σ digest) ↔ Accepted inputs := by
  have path : validatePath (reordered inputs σ digest).path = .ok () ↔ _ := validatePath_reordered
  have components : (reordered inputs σ digest).path.components.length =
    inputs.path.components.length := length_rearrange σ _
  have capabilities : (reordered inputs σ digest).capabilities.length = inputs.capabilities.length :=
    length_rearrange σ _
  have reservations : (reordered inputs σ digest).reservations.length = inputs.reservations.length :=
    length_rearrange σ _
  constructor
  · intro accepted
    refine ⟨accepted.request, accepted.klass, accepted.policy, path.mp accepted.path,
      accepted.classId, accepted.policyId, accepted.pathId, accepted.classPin, accepted.policyPin,
      accepted.pathPin, ?_, ?_⟩
    · rw [← capabilities, ← components, accepted.capabilities]
    · have covers := accepted.reservations
      rwa [← List.length_eq_zero_iff, reservations, components, List.length_eq_zero_iff] at covers
  · intro accepted
    refine ⟨accepted.request, accepted.klass, accepted.policy, path.mpr accepted.path,
      accepted.classId, accepted.policyId, accepted.pathId, accepted.classPin, accepted.policyPin,
      accepted.pathPin, ?_, ?_⟩
    · rw [capabilities, components, accepted.capabilities]
    · have covers := accepted.reservations
      rwa [← List.length_eq_zero_iff, ← reservations, ← components, List.length_eq_zero_iff] at covers

theorem markerApplies_reordered :
    markerApplies (reordered inputs σ digest) = markerApplies inputs := by
  funext marker
  have holders : (rearrange σ inputs.path.components).any (marker.id == ·.resource) =
      inputs.path.components.any (marker.id == ·.resource) := (rearrange_perm σ _).any_eq
  unfold markerApplies reordered
  cases marker.scope with
  | capability => exact holders
  | reservation => exact holders
  | _ => rfl

theorem conflicts_reordered (f : Findings) :
    conflicts (reordered inputs σ digest) f = conflicts inputs f := by
  unfold conflicts
  rw [markerApplies_reordered]
  rfl

theorem forall_bare {p : Resolution → Prop} (same : ∀ r, p (bare r) ↔ p r)
    {resolutions resolutions' : List Resolution}
    (perm : (resolutions'.map bare).Perm (resolutions.map bare)) :
    (∀ r ∈ resolutions', p r) ↔ ∀ r ∈ resolutions, p r := by
  have through (items : List Resolution) : (∀ r ∈ items, p r) ↔ ∀ r ∈ items.map bare, p r := by
    rw [List.forall_mem_map]
    exact forall₂_congr fun r _ => (same r).symm
  rw [through resolutions', through resolutions]
  exact forall_congr' fun r => by rw [perm.mem_iff]

theorem prior_reordered (accepted : Accepted inputs) {level : Outcome} :
    (prior (reordered inputs σ digest)).outcome ≤ level ↔ (prior inputs).outcome ≤ level := by
  have clean := intake_clean accepted
  have clean' : intake (reordered inputs σ digest) = _ :=
    intake_clean (accepted_reordered.mpr accepted)
  have contradicted : (∀ r ∈ resolve (reordered inputs σ digest),
      r.domainContradiction = true → conflict ≤ level) ↔
      ∀ r ∈ resolve inputs, r.domainContradiction = true → conflict ≤ level :=
    forall_bare (fun _ => Iff.rfl) (resolve_reordered accepted)
  unfold prior
  rw [clean, clean', conflicts_reordered]
  simp only [currency, find_le, contradictions_le_iff, contradicted]
  exact Iff.rfl

/-! ## What each obligation hangs on -/

theorem stopping_perm {statuses statuses' : List ComponentStatus} (perm : statuses'.Perm statuses) :
    stopping statuses' = stopping statuses := by
  unfold stopping
  simp only [perm.mem_iff]

theorem worstState_perm {values values' : List RawValue} (perm : values'.Perm values) :
    (worstState values' 0 (stateAvailable, 0)).1 = (worstState values 0 (stateAvailable, 0)).1 := by
  have bounds (bound : UInt64) : bound ≤ (worstState values' 0 (stateAvailable, 0)).1 ↔
      bound ≤ (worstState values 0 (stateAvailable, 0)).1 := by
    simp only [worstState_ge, perm.mem_iff]
  exact UInt64.le_antisymm ((bounds _).mp (UInt64.le_refl _)) ((bounds _).mpr (UInt64.le_refl _))

theorem compositionGist_congr {item : ObligationPlan} {composition composition' : Composition}
    (composed : composition.overflow = true ∨ ∃ value, composition.value = some value)
    (composed' : composition'.overflow = true ∨ ∃ value, composition'.value = some value)
    (same : ∀ required, Composed item.kind.direction required composition' ↔
      Composed item.kind.direction required composition) :
    compositionGist inputs item composition' = compositionGist inputs item composition := by
  cases bounded : composition.overflow with
  | true =>
      have overflow' : composition'.overflow = true := by
        rcases composed' with overflow' | ⟨value', total'⟩
        · exact overflow'
        · by_contra bounded'
          have met := (same value').mp
            ⟨Bool.eq_false_iff.mpr bounded', value', total', compliant_refl _ _⟩
          exact Bool.false_ne_true (met.1.symm.trans bounded)
      rw [compositionGist_overflow bounded, compositionGist_overflow overflow']
  | false =>
      obtain ⟨value, total⟩ := composed.resolve_left (by rw [bounded]; exact Bool.false_ne_true)
      obtain ⟨bounded', value', total', better'⟩ :=
        (same value).mpr ⟨bounded, value, total, compliant_refl _ _⟩
      obtain ⟨-, value'', total'', better⟩ :=
        (same value').mp ⟨bounded', value', total', compliant_refl _ _⟩
      obtain rfl : value = value'' := Option.some.inj (total.symm.trans total'')
      obtain rfl := compliant_antisymm better better'
      rw [compositionGist_value bounded total, compositionGist_value bounded' total']

theorem composes_perm {kind : ObligationKind} {fixed required : UInt64} {values values' : List UInt64}
    (perm : values'.Perm values)
    (loss : kind = .loss → deliverAll values' = deliverAll values) :
    Composes kind.aggregate fixed required values' ↔ Composes kind.aggregate fixed required values := by
  have each {p : UInt64 → Prop} : (∀ v ∈ values', p v) ↔ ∀ v ∈ values, p v :=
    forall_congr' fun v => by rw [perm.mem_iff]
  cases kind
  case loss =>
    simp only [ObligationKind.aggregate, Composes, loss rfl]
  case latency | jitter =>
    simp only [ObligationKind.aggregate, Composes, (perm.map UInt64.toNat).sum_eq]
  case disjointPaths => exact Iff.rfl
  all_goals exact each

theorem present_perm {values values' : List RawValue} (perm : values'.Perm values) :
    (∀ v ∈ values', v.present = true) ↔ ∀ v ∈ values, v.present = true :=
  forall_congr' fun v => by rw [perm.mem_iff]

theorem ordinaryGist_perm {item : ObligationPlan} (ordinary : Ordinary item.kind)
    {stopped : Option ObligationStatus} {values values' : List RawValue}
    (covered : values ≠ []) (perm : values'.Perm values)
    (loss : item.kind = .loss → stopped = none → (∀ v ∈ values, v.present = true) →
      deliverAll (values'.map RawValue.value) = deliverAll (values.map RawValue.value)) :
    ordinaryGist inputs item stopped values' = ordinaryGist inputs item stopped values := by
  unfold ordinaryGist
  cases stopped with
  | some status => rfl
  | none =>
      dsimp only
      by_cases present : ∀ v ∈ values, v.present = true
      · have present' := (present_perm perm).mpr present
        rw [if_pos present, if_pos present']
        cases values with
        | nil => exact absurd rfl covered
        | cons first rest =>
            cases values' with
            | nil => exact absurd perm.length_eq (by simp)
            | cons first' rest' =>
                rw [composeValues_of_present present, composeValues_of_present present']
                apply compositionGist_congr (composePresent_some ordinary _ _ _)
                  (composePresent_some ordinary _ _ _)
                intro required
                rw [composePresent_iff ordinary, composePresent_iff ordinary]
                exact composes_perm (perm.map RawValue.value) fun kind => loss kind rfl present
      · rw [if_neg present, if_neg fun present' => present ((present_perm perm).mp present')]

section Gists

variable {plan : List ObligationPlan} {resolutions resolutions' : List Resolution}

theorem map_perm_of_bare {β : Type} {f : Resolution → β} (same : ∀ r, f (bare r) = f r)
    (perm : (resolutions'.map bare).Perm (resolutions.map bare)) :
    (resolutions'.map f).Perm (resolutions.map f) := by
  have through : f ∘ bare = f := funext same
  have mapped := perm.map f
  rwa [List.map_map, List.map_map, through] at mapped

theorem qualify_bare (r : Resolution) : qualify inputs (bare r) plan = qualify inputs r plan := by
  induction plan with
  | nil => rfl
  | cons other rest ih =>
      have same : qualifiesFor inputs (bare r) other = qualifiesFor inputs r other := rfl
      unfold qualify
      rw [same, ih]

theorem mem_domains_bare {domain : Text} : domain ∈ domains inputs plan resolutions ↔
    ∃ r ∈ resolutions.map bare, Counts inputs plan r ∧ r.declaredDomain = domain := by
  have counts (r : Resolution) : Counts inputs plan (bare r) ↔ Counts inputs plan r := by
    rw [Counts, Counts, qualify_bare]
    exact Iff.rfl
  rw [mem_domains]
  constructor
  · rintro ⟨r, mem, counted, rfl⟩
    exact ⟨bare r, List.mem_map_of_mem mem, (counts r).mpr counted, rfl⟩
  · rintro ⟨_, mem, counted, rfl⟩
    obtain ⟨r, held, rfl⟩ := List.mem_map.mp mem
    exact ⟨r, held, (counts r).mp counted, rfl⟩

theorem domains_perm (perm : (resolutions'.map bare).Perm (resolutions.map bare)) :
    (domains inputs plan resolutions').length = (domains inputs plan resolutions).length := by
  refine ((List.perm_ext_iff_of_nodup (List.nodup_dedup _) (List.nodup_dedup _)).mpr
    fun domain => ?_).length_eq
  show domain ∈ domains inputs plan resolutions' ↔ domain ∈ domains inputs plan resolutions
  rw [mem_domains_bare, mem_domains_bare]
  exact exists_congr fun r => by rw [perm.mem_iff]

theorem anyUnknown_perm (perm : (resolutions'.map bare).Perm (resolutions.map bare)) :
    (diversity inputs plan resolutions').anyUnknown =
      (diversity inputs plan resolutions).anyUnknown := by
  have proven := forall_bare (p := fun r => ¬Unproven inputs plan r)
    (fun r => by rw [Unproven, Unproven, qualify_bare]; exact Iff.rfl) perm
  rw [Bool.eq_iff_iff, diversity_anyUnknown, diversity_anyUnknown]
  simpa only [not_forall, not_not, exists_prop] using not_congr proven

theorem assessGist_perm {item : ObligationPlan} (covered : resolutions ≠ [])
    (perm : (resolutions'.map bare).Perm (resolutions.map bare))
    (loss : item.kind = .loss → (∀ r ∈ resolutions, Resolution.Resolved r) →
      (∀ v ∈ scratch inputs resolutions item, v.present = true) →
      deliverAll ((scratch inputs resolutions' item).map RawValue.value) =
        deliverAll ((scratch inputs resolutions item).map RawValue.value)) :
    assessGist inputs plan resolutions' item = assessGist inputs plan resolutions item := by
  have statuses : (resolutions'.map Resolution.status).Perm (resolutions.map Resolution.status) :=
    map_perm_of_bare (fun _ => rfl) perm
  have values : (scratch inputs resolutions' item).Perm (scratch inputs resolutions item) :=
    map_perm_of_bare (fun _ => rfl) perm
  have composed (ordinary : Ordinary item.kind) :
      ordinaryGist inputs item (stopping (resolutions.map Resolution.status))
        (scratch inputs resolutions' item) =
      ordinaryGist inputs item (stopping (resolutions.map Resolution.status))
        (scratch inputs resolutions item) := by
    refine ordinaryGist_perm ordinary ?_ values fun kind stopped => ?_
    · exact fun none => covered (List.map_eq_nil_iff.mp none)
    · exact loss kind (stopping_eq_none.mp stopped)
  have seen : resolutions'.any Resolution.selfDeclaredDegraded =
      resolutions.any Resolution.selfDeclaredDegraded := by
    have degraded : (resolutions'.map Resolution.selfDeclaredDegraded).Perm
        (resolutions.map Resolution.selfDeclaredDegraded) := map_perm_of_bare (fun _ => rfl) perm
    have any := degraded.any_eq (f := id)
    rwa [List.any_map, List.any_map] at any
  unfold assessGist
  rw [stopping_perm statuses]
  cases kind : item.kind
  case disjointPaths =>
    dsimp only
    rw [domains_perm perm, anyUnknown_perm perm]
  case resourceState =>
    dsimp only
    rw [worstState_perm values, seen]
  all_goals exact composed ⟨by rw [kind]; decide, by rw [kind]; decide⟩

end Gists

/-! ## Declared losses -/

def lossOf (capability : ResourceCapability) : Option UInt64 :=
  capability.lossPpm.map UInt32.toUInt64

theorem rearrange_map {α β : Type} {n : Nat} (σ : Equiv.Perm (Fin n)) (f : α → β) (items : List α) :
    (rearrange σ items).map f = rearrange σ (items.map f) := by
  unfold rearrange
  by_cases covers : items.length = n
  · have covers' : (items.map f).length = n := by rw [List.length_map, covers]
    rw [dif_pos covers, dif_pos covers', List.map_ofFn]
    congr 1
    funext i
    simp
  · have covers' : ¬(items.map f).length = n := by rwa [List.length_map]
    rw [dif_neg covers, dif_neg covers']

theorem scratch_loss (accepted : Accepted inputs)
    (resolved : ∀ r ∈ resolve inputs, Resolution.Resolved r) (bound : UInt64) :
    scratch inputs (resolve inputs) (plain .loss bound) =
      (inputs.capabilities.map (·.bind lossOf)).map
        (.ofOption · "resource declares no loss bound") := by
  rw [← resolve_capability accepted resolved, List.map_map, List.map_map]
  apply List.map_congr_left
  intro r mem
  obtain ⟨capability, held, -⟩ := resolved_capability mem (resolved r mem)
  show scratchValue inputs (plain .loss bound) r =
    .ofOption (r.capability.bind lossOf) "resource declares no loss bound"
  unfold scratchValue componentValue
  rw [held]
  rcases resolved r mem with status | status <;>
    · rw [status]
      rfl

def rounded (losses : List UInt64) : ℕ := (losses.map UInt64.toNat).foldl delivered 1000000

/-- The one composition that hangs on the order: every component declares its loss, and the rounded
products of the two orders differ. -/
structure Sensitive (inputs : EvaluationInputs) (σ : Equiv.Perm (Fin inputs.path.components.length)) :
    Prop where
  accepted : Accepted inputs
  bounded : inputs.klass.maxLossPpm.isSome = true
  resolved : ∀ r ∈ resolve inputs, Resolution.Resolved r
  apart : ∃ losses, Declares inputs lossOf losses ∧ rounded (rearrange σ losses) ≠ rounded losses

/-- The two decisions compose every obligation to the same value, and come to the same outcome. -/
structure Unmoved (decision decision' : ContractDecision) : Prop where
  outcome : decision'.outcome = decision.outcome
  composed : decision'.obligations.map (fun a => (a.kind, a.id, a.composedValue)) =
    decision.obligations.map (fun a => (a.kind, a.id, a.composedValue))

theorem Declares.reordered {declared : ResourceCapability → Option UInt64} {losses : List UInt64}
    (declares : Declares inputs declared losses) :
    Declares (reordered inputs σ digest) declared (rearrange σ losses) := by
  show (rearrange σ inputs.capabilities).map (·.bind declared) = (rearrange σ losses).map some
  rw [rearrange_map, rearrange_map, declares]

theorem rounded_eq_iff {losses losses' : List UInt64} :
    deliverAll losses' = deliverAll losses ↔ rounded losses' = rounded losses := by
  obtain ⟨final, delivers, share⟩ := deliverAll_toNat losses
  obtain ⟨final', delivers', share'⟩ := deliverAll_toNat losses'
  rw [delivers, delivers', Option.some.injEq, ← UInt64.toNat_inj, share, share', rounded, rounded]

theorem assessGist_loss (accepted : Accepted inputs)
    (resolved : ∀ r ∈ resolve inputs, Resolution.Resolved r) {losses : List UInt64}
    (declares : Declares inputs lossOf losses) (plan : List ObligationPlan) (bound : UInt64) :
    ∃ final : UInt64, final.toNat = rounded losses ∧
      (assessGist inputs plan (resolve inputs) (plain .loss bound)).composed = some (ppm - final) := by
  have values : scratch inputs (resolve inputs) (plain .loss bound) = losses.map .declared := by
    rw [scratch_loss accepted resolved, declares, List.map_map]
    rfl
  have present : ∀ v ∈ losses.map RawValue.declared, v.present = true := by
    rw [List.forall_mem_map]
    exact fun _ _ => rfl
  have covered : losses.map RawValue.declared ≠ [] := by
    rw [← values]
    exact fun none => resolve_ne_nil accepted (List.map_eq_nil_iff.mp none)
  obtain ⟨final, delivers, share⟩ := deliverAll_toNat losses
  refine ⟨final, share, ?_⟩
  show (ordinaryGist inputs (plain .loss bound) (stopping ((resolve inputs).map Resolution.status))
    (scratch inputs (resolve inputs) (plain .loss bound))).composed = _
  rw [values, stopping_eq_none.mpr resolved, ordinaryGist, if_pos present]
  cases losses with
  | nil => exact absurd rfl covered
  | cons first rest =>
      have total : composePresent .lossCompose first rest 0 = .ofValue (ppm - final)
          (extremum (· > ·) (clampLoss first) (rest.map clampLoss)).2 := by
        unfold composePresent
        dsimp only
        rw [delivers]
        rfl
      have values : (rest.map RawValue.declared).map RawValue.value = rest := by
        rw [List.map_map]
        exact List.map_id rest
      rw [List.map_cons, composeValues_of_present (by simpa using present)]
      show (compositionGist inputs (plain .loss bound) (composePresent .lossCompose first
        ((rest.map RawValue.declared).map RawValue.value) 0)).composed = _
      rw [values, total, compositionGist_value rfl rfl]

theorem declares_of_loss (accepted : Accepted inputs)
    (resolved : ∀ r ∈ resolve inputs, Resolution.Resolved r) {bound : UInt64}
    (present : ∀ v ∈ scratch inputs (resolve inputs) (plain .loss bound), v.present = true) :
    Declares inputs lossOf
      ((scratch inputs (resolve inputs) (plain .loss bound)).map RawValue.value) := by
  rw [scratch_eq resolved] at present ⊢
  have spec : ∀ capability r, capabilityValue (plain .loss bound) capability r inputs.klass
      inputs.policy inputs.currentEpoch inputs.nowMs =
        .ofOption (lossOf capability) "resource declares no loss bound" := fun _ _ => rfl
  exact declares_of_present accepted resolved spec present

theorem resolved_reordered (accepted : Accepted inputs) :
    (∀ r ∈ resolve (reordered inputs σ digest), Resolution.Resolved r) ↔
      ∀ r ∈ resolve inputs, Resolution.Resolved r :=
  forall_bare (fun _ => Iff.rfl) (resolve_reordered accepted)

theorem alike_reordered : Alike inputs (reordered inputs σ digest) := ⟨rfl, rfl, rfl, rfl⟩

theorem assessGist_alike (plan : List ObligationPlan) (resolutions : List Resolution)
    (item : ObligationPlan) : assessGist (reordered inputs σ digest) plan resolutions item =
      assessGist inputs plan resolutions item := by
  unfold assessGist
  rw [alike_reordered.domains, alike_reordered.diversity, alike_reordered.scratch]
  rfl

theorem eq_of_loss (accepted : Accepted inputs) {item : ObligationPlan}
    (planned : item ∈ buildPlan inputs.klass inputs.policy) (kind : item.kind = .loss) :
    ∃ bound, inputs.klass.maxLossPpm = some bound ∧ item = plain .loss bound.toUInt64 := by
  have pushed := mem_pushedPlan.mp ((mem_pushedPlan_iff (validateQoSClass_ok accepted.klass)
    (validatePolicy_ok accepted.policy)).mpr (.inl planned))
  rw [kind] at pushed
  obtain ⟨value, declared, rfl⟩ := Option.map_eq_some_iff.mp (Option.mem_toList.mp pushed)
  obtain ⟨bound, stated, rfl⟩ := Option.map_eq_some_iff.mp declared
  exact ⟨bound, stated, rfl⟩

theorem loss_mem_buildPlan (accepted : Accepted inputs) {bound : UInt32}
    (stated : inputs.klass.maxLossPpm = some bound) :
    plain .loss bound.toUInt64 ∈ buildPlan inputs.klass inputs.policy := by
  apply mem_buildPlan (validateQoSClass_ok accepted.klass) (validatePolicy_ok accepted.policy)
  · exact mem_pushedPlan.mpr (by simp [plain, pushedOf, push, stated])
  · show ObligationKind.loss ∈ pathKinds
    decide

theorem assessGist_reordered (accepted : Accepted inputs) (steady : ¬Sensitive inputs σ)
    {item : ObligationPlan} (planned : item ∈ buildPlan inputs.klass inputs.policy)
    (plan : List ObligationPlan) :
    assessGist (reordered inputs σ digest) plan (resolve (reordered inputs σ digest)) item =
      assessGist inputs plan (resolve inputs) item := by
  rw [assessGist_alike]
  refine assessGist_perm (resolve_ne_nil accepted) (resolve_reordered accepted)
    fun kind resolved present => ?_
  obtain ⟨bound, stated, rfl⟩ := eq_of_loss accepted planned kind
  have declares := declares_of_loss accepted resolved present
  have moved : scratch inputs (resolve (reordered inputs σ digest)) (plain .loss bound.toUInt64) =
      rearrange σ (scratch inputs (resolve inputs) (plain .loss bound.toUInt64)) := by
    rw [← alike_reordered.scratch, scratch_loss (accepted_reordered.mpr accepted)
      ((resolved_reordered accepted).mpr resolved), scratch_loss accepted resolved, ← rearrange_map,
      ← rearrange_map]
    rfl
  rw [moved, rearrange_map, rounded_eq_iff]
  by_contra apart
  exact steady ⟨accepted, by rw [stated]; rfl, resolved, _, declares, apart⟩

theorem unmoved_of_steady {decision decision' : ContractDecision} (accepted : Accepted inputs)
    (steady : ¬Sensitive inputs σ) (evaluated : evaluate inputs = .ok decision)
    (evaluated' : evaluate (reordered inputs σ digest) = .ok decision') :
    Unmoved decision decision' := by
  have accepted' : Accepted (reordered inputs σ digest) := accepted_reordered.mpr accepted
  have plan : buildPlan (reordered inputs σ digest).klass (reordered inputs σ digest).policy =
    buildPlan inputs.klass inputs.policy := rfl
  constructor
  · rw [(evaluate_reports accepted evaluated).outcome, (evaluate_reports accepted' evaluated').outcome]
    refine Outcome.eq_of_le_iff fun level => ?_
    rw [findings_le_iff, findings_le_iff, prior_reordered accepted, plan]
    exact and_congr_right fun _ => forall₂_congr fun item planned => by
      rw [assessGist_reordered accepted steady planned]
  · rw [obligations_composed accepted evaluated, obligations_composed accepted' evaluated', plan]
    exact List.map_congr_left fun item planned => by
      rw [assessGist_reordered accepted steady planned]

/-- The order shows in the decision exactly where the rounded products of the losses differ. -/
theorem unmoved_iff {decision decision' : ContractDecision} (evaluated : evaluate inputs = .ok decision)
    (evaluated' : evaluate (reordered inputs σ digest) = .ok decision') :
    Unmoved decision decision' ↔ ¬Sensitive inputs σ := by
  by_cases accepted : Accepted inputs
  · refine ⟨fun unmoved sensitive => ?_,
      fun steady => unmoved_of_steady accepted steady evaluated evaluated'⟩
    have accepted' : Accepted (reordered inputs σ digest) := accepted_reordered.mpr accepted
    obtain ⟨losses, declares, apart⟩ := sensitive.apart
    obtain ⟨bound, stated⟩ := Option.isSome_iff_exists.mp sensitive.bounded
    have planned := loss_mem_buildPlan accepted stated
    have composed := unmoved.composed
    rw [obligations_composed accepted evaluated, obligations_composed accepted' evaluated'] at composed
    have same := congrArg (·.2.2) (List.map_inj_left.mp composed _ planned)
    obtain ⟨final, share, value⟩ := assessGist_loss accepted sensitive.resolved declares
      (buildPlan inputs.klass inputs.policy) bound.toUInt64
    obtain ⟨final', share', value'⟩ := assessGist_loss accepted'
      ((resolved_reordered accepted).mpr sensitive.resolved) declares.reordered
      (buildPlan inputs.klass inputs.policy) bound.toUInt64
    have lost : ppm - final' = ppm - final := Option.some.inj (value'.symm.trans (same.trans value))
    have most : final ≤ ppm := by
      rw [UInt64.le_iff_toNat_le, share, ppm_toNat]
      exact foldl_delivered_le
    have most' : final' ≤ ppm := by
      rw [UInt64.le_iff_toNat_le, share', ppm_toNat]
      exact foldl_delivered_le
    apply apart
    rw [← share, ← share']
    have left := congrArg UInt64.toNat lost
    rw [UInt64.toNat_sub_of_le _ _ most, UInt64.toNat_sub_of_le _ _ most'] at left
    have le := UInt64.le_iff_toNat_le.mp most
    have le' := UInt64.le_iff_toNat_le.mp most'
    omega
  · have refused' : ¬Accepted (reordered inputs σ digest) := fun h => accepted (accepted_reordered.mp h)
    rw [evaluate_refused accepted evaluated, evaluate_refused refused' evaluated']
    exact iff_of_true ⟨rfl, rfl⟩ fun sensitive => accepted sensitive.accepted

/-- Three components that lose a half, one and three parts in a million. -/
def unevenInputs : EvaluationInputs :=
  { plainInputs with
    klass := { plainClass with maxLossPpm := some 500002 }
    path := { plainPath with components := [
      ⟨text "r1", 1, text "d1", .member⟩, ⟨text "r2", 1, text "d2", .member⟩,
      ⟨text "r3", 1, text "d3", .member⟩] }
    capabilities := [
      some { plainCapability with lossPpm := some 500000 },
      some { plainCapability with
        resource := text "r2", diversityDomain := text "d2", lossPpm := some 1 },
      some { plainCapability with
        resource := text "r3", diversityDomain := text "d3", lossPpm := some 3 }] }

theorem unevenInputs_accepted : Accepted unevenInputs := by
  rw [← intake_le (show ¬Outcome.rejected ≤ .supported by decide)]
  decide +kernel

theorem unmoved_iff_reversed : ∃ decision decision', evaluate unevenInputs = .ok decision ∧
    evaluate (reordered unevenInputs Fin.revPerm .zero) = .ok decision' ∧
    (Unmoved decision decision' ↔ ¬Sensitive unevenInputs Fin.revPerm) := by
  obtain ⟨decision, evaluated⟩ := evaluate_ok unevenInputs
  obtain ⟨decision', evaluated'⟩ := evaluate_ok (reordered unevenInputs Fin.revPerm .zero)
  exact ⟨decision, decision', evaluated, evaluated', unmoved_iff evaluated evaluated'⟩

/-- The path misses its bound in one order and meets it in the other. -/
theorem reversal_moves : ¬∀ inputs σ digest decision decision', evaluate inputs = .ok decision →
    evaluate (reordered inputs σ digest) = .ok decision' → Unmoved decision decision' := by
  intro holds
  obtain ⟨decision, evaluated⟩ := evaluate_ok unevenInputs
  obtain ⟨decision', evaluated'⟩ := evaluate_ok (reordered unevenInputs Fin.revPerm .zero)
  have same := (holds _ _ _ _ _ evaluated evaluated').outcome
  have accepted' : Accepted (reordered unevenInputs Fin.revPerm .zero) :=
    accepted_reordered.mpr unevenInputs_accepted
  rw [(evaluate_reports unevenInputs_accepted evaluated).outcome,
    (evaluate_reports accepted' evaluated').outcome] at same
  revert same
  decide +kernel

end QoSFabric.Proof.Engine
