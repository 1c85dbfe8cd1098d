import QoSFabric.Model.Validate

namespace QoSFabric.Proof.Engine

theorem refuse_eq_ok {condition : Bool} {code : ErrorCode} {detail : String} :
    refuse condition code detail = .ok () ↔ condition = false := by
  cases condition <;> simp [refuse]

theorem bind_eq_ok {α β : Type} {x : Result α} {f : α → Result β} {b : β} :
    (x >>= f) = .ok b ↔ ∃ a, x = .ok a ∧ f a = .ok b := by
  cases x with
  | ok a => simp [bind, Except.bind]
  | error e => simp [bind, Except.bind]

theorem unit_bind_eq_ok {β : Type} {x : Result Unit} {f : Unit → Result β} {b : β} :
    (x >>= f) = .ok b ↔ x = .ok () ∧ f () = .ok b := by
  rw [bind_eq_ok]
  exact ⟨fun ⟨(), accepted, rest⟩ => ⟨accepted, rest⟩, fun h => ⟨(), h⟩⟩

theorem refuse_bind_eq_ok {β : Type} {condition : Bool} {code : ErrorCode} {detail : String}
    {f : Unit → Result β} {b : β} :
    (refuse condition code detail >>= f) = .ok b ↔ condition = false ∧ f () = .ok b := by
  rw [unit_bind_eq_ok, refuse_eq_ok]

instance : Std.Total textLe := ⟨fun a b => List.le_total a b⟩

instance : IsTrans Text textLe := ⟨fun _ _ _ => List.le_trans⟩

theorem sortTexts_perm (texts : List Text) : (sortTexts texts).Perm texts :=
  List.perm_insertionSort _ texts

theorem sortTexts_pairwise (texts : List Text) : (sortTexts texts).Pairwise textLe :=
  List.pairwise_insertionSort _ texts

theorem nodup_of_adjacentFind {texts : List Text} (sorted : texts.Pairwise textLe)
    (h : adjacentFind texts = false) : texts.Nodup := by
  induction texts with
  | nil => exact List.nodup_nil
  | cons a rest ih =>
      rw [List.pairwise_cons] at sorted
      cases rest with
      | nil => simp
      | cons b rest =>
          simp only [adjacentFind, Bool.or_eq_false_iff, beq_eq_false_iff_ne] at h
          refine List.nodup_cons.mpr ⟨?_, ih sorted.2 h.2⟩
          intro mem
          have below : b ≤ a := by
            rcases List.mem_cons.mp mem with eq | later
            · exact eq ▸ List.le_refl b
            · exact (List.pairwise_cons.mp sorted.2).1 a later
          exact h.1 (List.le_antisymm (sorted.1 b (by simp)) below)

theorem nodup_of_hasDuplicatePredicates {keys : List Text}
    (h : hasDuplicatePredicates keys = false) : keys.Nodup :=
  (sortTexts_perm keys).nodup_iff.mp (nodup_of_adjacentFind (sortTexts_pairwise keys) h)

structure PredicateSet (keys : List Text) : Prop where
  length_le : keys.length ≤ 64
  valid : ∀ key ∈ keys, isValidIdentifier key Limits.maxPredicateKeyLen = true
  nodup : keys.Nodup

theorem checkKeys_bind_eq_ok {β : Type} {keys : List Text} {detail : String} {f : Unit → Result β}
    {b : β} :
    (checkKeys keys detail >>= f) = .ok b ↔
      (∀ key ∈ keys, isValidIdentifier key Limits.maxPredicateKeyLen = true) ∧ f () = .ok b := by
  rw [checkKeys, refuse_bind_eq_ok]
  simp

theorem exceeds_eq_false {α : Type} [LT α] [DecidableLT α] {value : Option α} {bound : α} :
    exceeds value bound = false ↔ ∀ v, value = some v → ¬bound < v := by
  cases value <;> simp [exceeds]

structure ValidClass (klass : QoSClass) : Prop where
  predicates : PredicateSet klass.requiredPredicates
  loss : ∀ bound, klass.maxLossPpm = some bound → bound ≤ Limits.maxLossPpm
  disjointPaths : 0 < klass.minDisjointPaths

theorem validateQoSClass_ok {klass : QoSClass} (h : validateQoSClass klass = .ok ()) :
    ValidClass klass := by
  simp only [validateQoSClass, refuse_bind_eq_ok, checkKeys_bind_eq_ok, refuse_eq_ok,
    exceeds_eq_false] at h
  obtain ⟨-, -, -, -, -, -, -, -, -, -, -, -, loss, -, -, -, -, -, disjoint, length, valid,
    duplicate, -⟩ := h
  refine ⟨⟨by simpa using length, valid, nodup_of_hasDuplicatePredicates duplicate⟩, ?_, ?_⟩
  · intro bound eq
    exact UInt32.not_lt.mp (loss bound eq)
  · simp only [Bool.or_eq_false_iff, beq_eq_false_iff_ne] at disjoint
    exact UInt32.pos_iff_ne_zero.mpr disjoint.1

theorem validatePolicy_ok {policy : Policy} (h : validatePolicy policy = .ok ()) :
    PredicateSet policy.requiredPredicates := by
  simp only [validatePolicy, refuse_bind_eq_ok, checkKeys_bind_eq_ok, refuse_eq_ok] at h
  obtain ⟨-, -, -, -, -, -, -, -, length, valid, duplicate, -⟩ := h
  exact ⟨by simpa using length, valid, nodup_of_hasDuplicatePredicates duplicate⟩

theorem validatePath_ok {path : Path} (h : validatePath path = .ok ()) :
    path.components ≠ [] := by
  simp only [validatePath, refuse_bind_eq_ok] at h
  simpa using h.2.2.1

theorem validatePath_length {path : Path} (h : validatePath path = .ok ()) :
    path.components.length ≤ Limits.maxPathComponents := by
  simp only [validatePath, refuse_bind_eq_ok] at h
  simpa using h.2.2.2.1

theorem validateComponents_eq_ok {seen : List Text} {components : List PathComponent} :
    validateComponents seen components = .ok () ↔
      (∀ component ∈ components, isValid component.resource = true ∧
        component.capabilityGeneration ≠ 0 ∧ component.diversityDomain ≠ [] ∧
        isValid component.diversityDomain = true ∧ component.resource ∉ seen) ∧
      (components.map PathComponent.resource).Nodup := by
  induction components generalizing seen with
  | nil => simp [validateComponents]
  | cons component rest ih =>
      rw [List.forall_mem_cons, List.map_cons, List.nodup_cons]
      simp only [validateComponents, refuse_bind_eq_ok, Bool.or_eq_false_iff, Bool.not_eq_false',
        beq_eq_false_iff_ne, List.contains_eq_mem, decide_eq_false_iff_not, List.isEmpty_eq_false_iff,
        ih, List.mem_cons, not_or]
      constructor
      · rintro ⟨resource, generation, ⟨declared, domain⟩, fresh, valid, nodup⟩
        refine ⟨⟨⟨resource, generation, declared, domain, fresh⟩, fun other mem => ?_⟩, ?_, nodup⟩
        · obtain ⟨h₁, h₂, h₃, h₄, -, h₅⟩ := valid other mem
          exact ⟨h₁, h₂, h₃, h₄, h₅⟩
        · intro repeated
          obtain ⟨other, mem, same⟩ := List.mem_map.mp repeated
          exact (valid other mem).2.2.2.2.1 same
      · rintro ⟨⟨⟨resource, generation, declared, domain, fresh⟩, valid⟩, alone, nodup⟩
        refine ⟨resource, generation, ⟨declared, domain⟩, fresh, fun other mem => ?_, nodup⟩
        obtain ⟨h₁, h₂, h₃, h₄, h₅⟩ := valid other mem
        exact ⟨h₁, h₂, h₃, h₄, fun same => alone (List.mem_map.mpr ⟨other, mem, same⟩), h₅⟩

end QoSFabric.Proof.Engine
