import Depgraph.Protocol.SemanticNode

/-!
# Semantic edges and sites

`validator.rs`: the evidence, the resolution and the stable identity of semantic edges and sites, and the
source fallbacks of sites that no semantic analysis has refined.
-/

namespace Protocol

open Json Fallible Panics OrderedMap

/-! ### Primary evidence -/

/-- A primary item of the expected kind with a span and a normalized path. -/
def primaryOfKind (kind : EvidenceKind) (word owner : String) (evidence : List Evidence) :
    Except (Failure ProtocolError) Evidence := do
  let primary ← orReject (required evidence.head?
    (.invariant (owner ++ " must include primary " ++ word ++ " evidence")))
  orReject (ensure (primary.kind = kind ∧ primary.hasCompleteSpan = true)
    (owner ++ " evidence[0] must be " ++ word ++ " evidence with a complete source span"))
  let path ← expected primary.path "complete span includes path"
  orReject (validateCanonicalRelativePath (owner ++ " primary evidence path") path)
  return primary

section

variable (S : StableIds)

def validatePrimarySemanticEvidence (owner : String) (evidence : List Evidence) :
    Except (Failure ProtocolError) Evidence := do
  let primary ← primaryOfKind .semantic "semantic" owner evidence
  let supporting ← itemsFrom evidence 1
  let supportingKeys := supporting.map fun item => canonicalJson S.floatText item.toValue
  orReject (ensure (supportingKeys.IsChain fun a b => ¬ b < a)
    (owner ++ " supporting evidence must be in canonical JSON order"))
  return primary

def validatePrimarySourceEvidence (owner : String) (evidence : List Evidence) :
    Except (Failure ProtocolError) Evidence :=
  primaryOfKind .source "source" owner evidence

def validateCandidateAlgorithm (owner : String) (primary : Evidence) : Except ProtocolError Unit :=
  ensure (∃ algorithm ∈ primary.properties.getStr "algorithm", algorithm ≠ "")
    (owner ++ " primary evidence must include a non-empty properties.algorithm")

/-- The derived `Debug` text. -/
def Precision.debug : Precision → String
  | .exact => "Exact"
  | .overapprox => "Overapprox"
  | .heuristic => "Heuristic"
  | .observed => "Observed"

/-- The precisions that a semantic resolution allows. -/
def semanticPrecisions : ResolutionStatus → List Precision
  | .resolved => [.exact]
  | .candidates => [.overapprox]
  | .external => [.exact, .heuristic]
  | .unresolved => [.heuristic]

def validateSemanticResolution (owner : String) (status : ResolutionStatus) (precision : Precision) :
    Except ProtocolError Unit :=
  ensure (precision ∈ semanticPrecisions status)
    (owner ++ " has invalid semantic resolution/precision combination " ++ status.debug ++ "/" ++
      precision.debug)

/-- The span of a stable identity. -/
def spanOf (primary : Evidence) (message : String) : Except (Failure ProtocolError) Value := do
  let endColumn ← expected primary.endColumn message
  let endLine ← expected primary.endLine message
  let startColumn ← expected primary.startColumn message
  let startLine ← expected primary.startLine message
  return .object [("end_column", natValue endColumn), ("end_line", natValue endLine),
    ("start_column", natValue startColumn), ("start_line", natValue startLine)]

/-! ### Definition relations -/

def isDefinitionRelationKind (kind : String) : Bool :=
  ["declares", "extends", "implements", "instantiates"].contains kind

/-- An edge of the semantic phase or with primary semantic evidence. -/
def GraphEdge.isSemantic (edge : GraphEdge) : Bool :=
  edge.phase == .semantic || firstIs (fun evidence => evidence.kind == .semantic) edge.evidence

def GraphEdge.isSemanticDefinitionRelation (edge : GraphEdge) : Bool :=
  isDefinitionRelationKind edge.kind && edge.isSemantic

/-- `is_framework_semantic_edge`. -/
def GraphEdge.isFrameworkSemantic (edge : GraphEdge) : Bool :=
  isFrameworkSemanticSiteKind edge.kind && edge.isSemantic

def isCommonSemanticEdgeKind (kind : String) : Bool :=
  ["type_uses", "references", "calls", "may_call"].contains kind

/-- The kinds of nodes that a definition relation joins. -/
def definitionEndpointsAllowed (kind source target : String) : Bool :=
  match kind with
  | "declares" =>
    [source, target].all fun kind => kind ∉ ["external_system", "unknown_target"]
  | "extends" | "implements" =>
    source == "type" && ["type", "external_system"].contains target
  | "instantiates" =>
    ["symbol", "type"].contains source && ["symbol", "type", "external_system"].contains target
  | _ => true

/-- Languages that definition relations join. -/
def languagesAgree (source target : String) : Bool :=
  source == target ||
    [("typescript", "javascript"), ("javascript", "typescript")].contains (source, target)

def validateDefinitionRelationEndpoints (nodes : NodeMap) (edge : GraphEdge) :
    Except (Failure ProtocolError) Unit := do
  let source ← expected nodes[edge.source]? "base validation requires relation sources to exist"
  let target ← expected nodes[edge.target]? "base validation requires relation targets to exist"
  orReject (ensure (definitionEndpointsAllowed edge.kind source.kind target.kind = true)
    ("semantic definition relation " ++ edge.id ++ " of kind " ++ edge.kind ++
      " has incompatible endpoints " ++ source.id ++ " (" ++ source.kind ++ ") -> " ++ target.id ++
      " (" ++ target.kind ++ ")"))
  match source.properties.getStr "language", target.properties.getStr "language" with
  | some sourceLanguage, some targetLanguage =>
    orReject (ensure (languagesAgree sourceLanguage targetLanguage = true)
      ("semantic definition relation " ++ edge.id ++ " crosses languages from " ++
        debugStr sourceLanguage ++ " to " ++ debugStr targetLanguage))
  | _, _ => .ok ()

def validateSemanticDefinitionRelation (edge : GraphEdge) (logicalProfileId : String) :
    Except (Failure ProtocolError) Unit := do
  let owner := "semantic definition relation " ++ edge.id
  orReject (ensure (edge.phase = .semantic)
    (owner ++ " of kind " ++ edge.kind ++ " must use phase=semantic"))
  orReject (ensure (edge.siteId = none)
    (owner ++ " of kind " ++ edge.kind ++ " must remain site-less"))
  orReject (ensure (edge.resolutionStatus = .resolved ∧ edge.precision = .exact)
    (owner ++ " of kind " ++ edge.kind ++ " must use resolved/exact"))
  let primary ← validatePrimarySemanticEvidence S owner edge.evidence
  let path ← expected primary.path "complete semantic evidence path"
  let span ← spanOf primary "complete semantic evidence span"
  let expectedId := S.stableIdFromValue "edge" (.object [
    ("condition", (edge.condition.canonicalized S.floatText).toValue), ("kind", .string edge.kind),
    ("path", .string path), ("profile_id", .string logicalProfileId),
    ("source", .string edge.source), ("span", span), ("target", .string edge.target)])
  orReject (ensure (edge.id = expectedId)
    (owner ++ " does not match its canonical identity; expected " ++ expectedId))

/-! ### Semantic edges -/

/-- The resolution of a semantic edge, by its kind. -/
def validateEdgeResolution (edge : GraphEdge) (primary : Evidence) : Except ProtocolError Unit :=
  if edge.kind = "calls" then
    ensure (edge.resolutionStatus ≠ .candidates)
      ("direct calls edge " ++ edge.id ++ " cannot use candidates; emit may_call edges")
  else if edge.kind = "references" then
    ensure (edge.resolutionStatus ≠ .candidates)
      ("value-reference edge " ++ edge.id ++ " cannot use candidates")
  else if edge.kind = "may_call" then do
    ensure (edge.resolutionStatus = .candidates ∧ edge.precision = .overapprox)
      ("may_call edge " ++ edge.id ++ " must use candidates/overapprox")
    validateCandidateAlgorithm ("may_call edge " ++ edge.id) primary
  else .ok ()

def validateSemanticEdge (edge : GraphEdge) (linkedToStrictSite : Bool)
    (logicalProfileId : String) : Except (Failure ProtocolError) Unit :=
  let owner := "semantic edge " ++ edge.id
  if edge.isSemanticDefinitionRelation then
    validateSemanticDefinitionRelation S edge logicalProfileId
  else if isCommonSemanticEdgeKind edge.kind = false ∧ linkedToStrictSite = false ∧
      edge.isFrameworkSemantic = false then
    .ok ()
  else do
    orReject (ensure (edge.phase = .semantic)
      (owner ++ " of kind " ++ edge.kind ++ " must use phase=semantic"))
    let siteId ← orReject (required edge.siteId
      (.invariant (owner ++ " of kind " ++ edge.kind ++ " must reference a dependency site")))
    let primary ← validatePrimarySemanticEvidence S owner edge.evidence
    orReject (validateSemanticResolution owner edge.resolutionStatus edge.precision)
    orReject (validateEdgeResolution edge primary)
    let expectedId := S.stableIdFromValue "edge" (.object [("kind", .string edge.kind),
      ("site_id", .string siteId), ("target", .string edge.target)])
    orReject (ensure (edge.id = expectedId)
      (owner ++ " does not match its canonical identity; expected " ++ expectedId))

/-! ### Source fallbacks -/

def validateSourceFallbackSite (nodes : NodeMap) (site : DependencySite) :
    Except (Failure ProtocolError) Unit := do
  let _ ← validatePrimarySourceEvidence ("source fallback dependency site " ++ site.id)
    site.evidence
  orReject (ensure (¬ (site.kind = "type_use" ∧ site.precision ≠ .heuristic))
    ("source fallback type-use site " ++ site.id ++ " must use heuristic precision"))
  if site.kind = "type_use" ∧ site.resolutionStatus ∈ [.resolved, .candidates] then
    site.targetIds.forM fun targetId => do
      let target ← expected nodes[targetId]?
        "base validation requires dependency-site targets to exist"
      orReject (ensure (target.kind = "type")
        ("resolved source fallback type-use site " ++ site.id ++ " target " ++ target.id ++
          " must be a type node"))
  else .ok ()

def validateSourceFallbackEdge (site : DependencySite) (edge : GraphEdge) (expectedKind : String) :
    Except (Failure ProtocolError) Unit := do
  let owner := "source fallback edge " ++ edge.id
  orReject (ensure (edge.kind = expectedKind)
    ("source dependency site requires " ++ expectedKind ++ " edges, found " ++ edge.kind))
  orReject (ensure (edge.phase = .source)
    (owner ++ " of kind " ++ edge.kind ++ " must use phase=source"))
  let sitePrimary ← validatePrimarySourceEvidence ("source fallback dependency site " ++ site.id)
    site.evidence
  let edgePrimary ← validatePrimarySourceEvidence owner edge.evidence
  let siteAnchor ← primaryEvidenceAnchor sitePrimary
  let edgeAnchor ← primaryEvidenceAnchor edgePrimary
  orReject (ensure (siteAnchor = edgeAnchor)
    (owner ++ " primary evidence anchor does not match dependency site " ++ site.id))
  orReject (ensure ((edge.condition.canonicalized S.floatText).beq
      (site.condition.canonicalized S.floatText) = true)
    (owner ++ " condition does not match dependency site " ++ site.id))
  orReject (ensure (edge.source = site.source)
    (owner ++ " source does not match dependency site " ++ site.id))
  orReject (ensure (edge.resolutionStatus = site.resolutionStatus)
    (owner ++ " status does not match dependency site " ++ site.id))
  orReject (ensure (edge.precision = site.precision)
    (owner ++ " precision does not match dependency site " ++ site.id))

end

end Protocol
