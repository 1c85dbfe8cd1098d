import QoSFabric.Model.Decision

/-!
# Explanations

The rendering of a decision as bounded text, from `decision.cpp`.
-/

namespace QoSFabric

namespace Limits

abbrev maxExplainBytes : Nat := 65536
abbrev maxExplainObligations : Nat := 64
abbrev maxExplainComponents : Nat := 256

end Limits

/-! ## Names -/

def Outcome.name : Outcome → Text
  | supported => text "SUPPORTED"
  | supportedDegraded => text "SUPPORTED_DEGRADED"
  | unknown => text "UNKNOWN"
  | unsupported => text "UNSUPPORTED"
  | stale => text "STALE"
  | conflict => text "CONFLICT"
  | rejected => text "REJECTED"

def ObligationStatus.name : ObligationStatus → Text
  | satisfied => text "satisfied"
  | degraded => text "degraded"
  | violated => text "violated"
  | unknown => text "unknown"
  | unavailable => text "unavailable"
  | stale => text "stale"
  | notApplicable => text "not-applicable"

def ComponentStatus.name : ComponentStatus → Text
  | satisfied => text "satisfied"
  | degraded => text "degraded"
  | unknown => text "unknown"
  | unavailable => text "unavailable"
  | violated => text "violated"
  | stale => text "stale"

def Dimension.name : Dimension → Text
  | .class => text "class"
  | subject => text "subject"
  | path => text "path"
  | policy => text "policy"
  | priority => text "priority"
  | capability => text "capability"
  | reservation => text "reservation"
  | fabricEpoch => text "fabric-epoch"
  | count => text "invalid"

def PathRole.name : PathRole → Text
  | member => text "member"
  | primary => text "primary"
  | protection => text "protection"

def AggregateKind.name : AggregateKind → Text
  | weakestLink => text "weakest-link"
  | additive => text "additive"
  | lossCompose => text "loss-compose"
  | worstCase => text "worst-case"
  | allPresent => text "all-present"
  | pathDiversity => text "path-diversity"

/-! ## Bounded text -/

structure BoundedText where
  out : Text
  budget : Nat
  clipped : Bool

namespace BoundedText

def empty (budget : Nat) : BoundedText := ⟨[], budget, false⟩

def marker (budget : Nat) : Text :=
  text "\n[explanation truncated at " ++ decimal budget ++ text " bytes]\n"

def line (b : BoundedText) (t : Text) : BoundedText :=
  if b.clipped then b
  else if b.out.length + t.length + 1 > b.budget then
    { b with clipped := true, out := b.out ++ marker b.budget }
  else { b with out := b.out ++ t ++ [10] }

end BoundedText

/-! ## Rendering -/

structure ExplainOptions where
  maxBytes : Nat
  maxObligations : Nat
  maxResources : Nat
  includeAuthority : Bool
  includeTimings : Bool
  deriving DecidableEq, Repr

def ExplainOptions.default : ExplainOptions where
  maxBytes := Limits.maxExplainBytes
  maxObligations := Limits.maxExplainObligations
  maxResources := Limits.maxExplainComponents
  includeAuthority := true
  includeTimings := false

def ExplainOptions.budget (options : ExplainOptions) : Nat :=
  if options.maxBytes = 0 then Limits.maxExplainBytes
  else min options.maxBytes Limits.maxExplainBytes

/-- A line of an explanation, by what it lists. -/
inductive ExplainLine where
  | plain (content : Text)
  | obligation (content : Text)
  | resource (content : Text)
  deriving DecidableEq

namespace ExplainLine

def content : ExplainLine → Text
  | plain content | obligation content | resource content => content

def isObligation : ExplainLine → Bool
  | obligation _ => true
  | _ => false

def isResource : ExplainLine → Bool
  | resource _ => true
  | _ => false

end ExplainLine

def BoundedText.add (b : BoundedText) (l : ExplainLine) : BoundedText :=
  b.line l.content

def atGeneration (id : Text) (generation : Generation) : Text :=
  id ++ text "@" ++ decimal generation.toNat

def remark (detail : Text) : Text :=
  if detail.isEmpty then [] else text " (" ++ detail ++ text ")"

def obligationLine (includeTimings : Bool) (a : ObligationAssessment) : Text :=
  (text "  " ++ a.id).rightpad 24 32 ++
    (if a.direction = .atLeast then text "req>=" else text "req<=") ++
    decimal a.requiredValue.toNat ++ text " composed=" ++
    (match a.composedValue with
      | some value => decimal value.toNat
      | none => text "UNKNOWN") ++
    text " status=" ++ a.status.name ++
    (if a.relaxationAppliedPpm ≠ 0 then
      text " relax=" ++ decimal a.relaxationAppliedPpm.toNat ++ text "ppm" ++
        (if a.relaxationReportedOnly then text "(reported)" else []) ++
        text " limit=" ++ decimal a.effectiveLimit.toNat
    else []) ++
    (match a.bindingResource with
      | some resource => text " binding=" ++ resource
      | none => []) ++
    (if includeTimings then
      text " headroom=" ++ decimal a.headroomPpm.toNat ++ text "ppm aggregate=" ++ a.aggregate.name
    else []) ++
    remark a.detail

def resourceLine (a : ResourceAssessment) : Text :=
  text "  " ++ a.resource ++ text " domain=" ++ a.diversityDomain ++ text " role=" ++ a.role.name ++
    text " bound-cap=" ++ decimal a.boundCapabilityGeneration.toNat ++ text " observed-cap=" ++
    (match a.observedCapabilityGeneration with
      | some generation => decimal generation.toNat
      | none => text "none") ++
    text " status=" ++ a.status.name ++ remark a.reason

def degradationLine (d : DegradationReason) : Text :=
  text "  " ++ d.id ++
    (match d.resource with
      | some resource => text " resource=" ++ resource
      | none => []) ++
    text " relax=" ++ decimal d.relaxationPpm.toNat ++ text "ppm" ++
    (if d.reportedOnly then text " reported-only" else []) ++ remark d.detail

def authorityLine (entry : AuthorityEntry) : Text :=
  text "  " ++ entry.dimension.name ++ text " " ++ atGeneration entry.id entry.generation ++
    text " epoch=" ++ decimal entry.epoch.toNat ++
    (if entry.digestHex.isEmpty then [] else text " digest=" ++ entry.digestHex) ++
    (if entry.source.isEmpty then [] else text " source=" ++ entry.source)

def listLines {α : Type} (limit total : Nat) (line : α → ExplainLine) :
    Nat → List α → List ExplainLine
  | _, [] => []
  | shown, a :: items =>
      if shown ≥ limit then
        [.plain (text "  ... " ++ decimal (total - shown) ++ text " more")]
      else line a :: listLines limit total line (shown + 1) items

def headLines (decision : ContractDecision) : List Text :=
  [text "outcome: " ++ decision.outcome.name,
    text "contract: " ++ atGeneration decision.contract decision.contractGeneration ++
      text " subject: " ++ atGeneration decision.subject decision.subjectGeneration,
    text "class: " ++ atGeneration decision.classId decision.classGeneration ++ text " digest=" ++
      decision.classDigest.hex,
    text "path: " ++ atGeneration decision.path decision.pathGeneration ++ text " digest=" ++
      decision.pathDigest.hex,
    text "policy: " ++ atGeneration decision.policy decision.policyGeneration ++ text " digest=" ++
      decision.policyDigest.hex,
    text "priority: " ++ atGeneration decision.priority decision.priorityGeneration,
    text "fabric-epoch: " ++ decimal decision.fabricEpoch.toNat ++ text " observed-epoch: " ++
      decimal decision.observedEpoch.toNat,
    text "reason: " ++ decision.primaryReason] ++
  (match decision.bindingObligation with
    | none => []
    | some kind =>
        [text "binding-obligation: " ++ kind.name ++
          (match decision.bindingResource with
            | some resource => text " resource=" ++ resource
            | none => [])]) ++
  [text "counts: obligations=" ++ decimal decision.obligations.length ++ text " resources=" ++
    decimal decision.resources.length ++ text " degradations=" ++
    decimal decision.degradations.length ++ text " unknown-components=" ++
    decimal decision.unknownComponents.toNat ++ text " violated=" ++
    decimal decision.violatedObligations.toNat]

def degradationLines (decision : ContractDecision) : List Text :=
  if decision.degradations.isEmpty then []
  else text "degradations:" :: decision.degradations.map degradationLine

def authorityLines (decision : ContractDecision) (options : ExplainOptions) : List Text :=
  if options.includeAuthority && !decision.authority.isEmpty then
    text "authority:" :: decision.authority.map authorityLine
  else []

def tailLines (decision : ContractDecision) (options : ExplainOptions) : List Text :=
  degradationLines decision ++ authorityLines decision options ++
    [text "decision-digest: " ++ decision.decisionDigest.hex,
      text "request-digest: " ++ decision.requestDigest.hex]

def obligationLines (decision : ContractDecision) (options : ExplainOptions) : List ExplainLine :=
  listLines (min options.maxObligations Limits.maxExplainObligations) decision.obligations.length
    (fun a => .obligation (obligationLine options.includeTimings a)) 0 decision.obligations

def resourceLines (decision : ContractDecision) (options : ExplainOptions) : List ExplainLine :=
  listLines (min options.maxResources Limits.maxExplainComponents) decision.resources.length
    (fun a => .resource (resourceLine a)) 0 decision.resources

/-- The lines `explain` appends, clipped or not. -/
def explainLines (decision : ContractDecision) (options : ExplainOptions) : List ExplainLine :=
  (headLines decision ++ [text "obligations:"]).map .plain ++ obligationLines decision options ++
    .plain (text "resources:") :: resourceLines decision options ++
    (tailLines decision options).map .plain

def explain (decision : ContractDecision) (options : ExplainOptions) : Text :=
  ((explainLines decision options).foldl BoundedText.add (.empty options.budget)).out

end QoSFabric
