import Depgraph.Protocol.SemanticRelation

/-!
# Framework sites and edges

`validator.rs`: the evidence that static framework adapters leave, the environments of conditions, and
the endpoints of framework sites and edges.
-/

namespace Protocol

open Json Fallible Panics OrderedMap

/-! ### Kinds -/

def isFrameworkCodeLinkKind (kind : String) : Bool := ["implemented_by", "declared_in"].contains kind

/-- `semantic_edge_kind_for_site`. -/
def semanticEdgeKind (site : DependencySite) (strict : Bool) : Option String :=
  if site.kind = "call" then
    some (if site.resolutionStatus = .candidates then "may_call" else "calls")
  else if strict then
    match [("type_use", "type_uses"), ("value_reference", "references"), ("rust_use", "imports"),
        ("rust_reexport", "reexports"), ("web_import", "imports"),
        ("web_reexport", "reexports")].lookup site.kind with
    | some kind => some kind
    | none => if isFrameworkSemanticSiteKind site.kind then some site.kind else none
  else none

def frameworkSiteAllowsCandidates (kind : String) : Bool :=
  ["renders", "parent_route", "loads", "before_load", "navigates_to", "masks_to", "rpc_call",
    "handled_by", "uses_middleware"].contains kind

/-! ### Evidence -/

/-- The adapter of a framework. -/
def frameworkExtractor : String → Option String
  | "next" => some "next-static-adapter"
  | "astro" => some "astro-static-adapter"
  | "tanstack-router" => some "tanstack-router-static-adapter"
  | "tanstack-start" => some "tanstack-start-static-adapter"
  | _ => none

/-- Source evidence that supports primary framework evidence. -/
def supportsFramework (primary : Evidence) (profileId framework occurrenceKind : String)
    (support : Evidence) : Except (Failure ProtocolError) Bool :=
  if support.kind = .source ∧ support.hasCompleteSpan = true then do
    let anchor ← primaryEvidenceAnchor support
    let primaryAnchor ← primaryEvidenceAnchor primary
    return anchor == primaryAnchor &&
      support.properties.getStr "profile_id" == some profileId &&
      support.properties.getStr "framework" == some framework &&
      support.properties.getStr "occurrence_kind" == some occurrenceKind
  else return false

def validateFrameworkSemanticEvidence (owner profileId : String) (evidence : List Evidence) :
    Except (Failure ProtocolError) Unit := do
  let primary ← expected evidence.head?
    "semantic framework evidence was validated as non-empty"
  let framework ← orReject (required
    ((primary.properties.getStr "framework").filter (· ≠ ""))
    (.invariant (owner ++ " primary evidence must include non-empty properties.framework")))
  let expectedExtractor ← orReject (required (frameworkExtractor framework)
    (.invariant (owner ++ " primary evidence has unsupported framework " ++ debugStr framework)))
  orReject (ensure (primary.extractor = expectedExtractor ∧ primary.extractorVersion = "0.1.0")
    (owner ++ " primary evidence must use " ++ expectedExtractor ++ "@0.1.0"))
  orReject ([("profile_id", profileId),
      ("contract_version", "framework-semantic-graph-v1")].forM fun (property, value) =>
    ensure (primary.properties.getStr property = some value)
      (owner ++ " primary evidence must include properties." ++ property ++ "=" ++ debugStr value))
  let occurrenceKind ← orReject (required
    ((primary.properties.getStr "occurrence_kind").filter (· ≠ ""))
    (.invariant (owner ++ " primary evidence must include non-empty properties.occurrence_kind")))
  let supporting ← (evidence.drop 1).anyM (supportsFramework primary profileId framework occurrenceKind)
  orReject (ensure (supporting = true)
    (owner ++ " must include matching source supporting evidence"))

/-! ### Environments -/

/-- A string that is not empty. -/
def isNonEmptyString : Value → Bool
  | .string value => value ≠ ""
  | _ => false

mutual

/-- `condition_has_environment_predicate`. -/
def Condition.hasEnvironmentPredicate : Condition → Bool
  | .eq key value => key == "environment" && isNonEmptyString value
  | .isIn key values => key == "environment" && !values.isEmpty && values.all isNonEmptyString
  | .all conditions => anyHasEnvironmentPredicate conditions
  | .any conditions => anyHasEnvironmentPredicate conditions
  | .not _ => false
  | .defined _ => false

def anyHasEnvironmentPredicate : List Condition → Bool
  | [] => false
  | condition :: conditions =>
    condition.hasEnvironmentPredicate || anyHasEnvironmentPredicate conditions

end

mutual

/-- `condition_allows_environment`. -/
def Condition.allowsEnvironment (environment : String) : Condition → Bool
  | .eq key value => key == "environment" && stringOf value == some environment
  | .isIn key values => key == "environment" && values.any fun value => stringOf value == some environment
  | .all conditions => anyAllowsEnvironment environment conditions
  | .any conditions => anyAllowsEnvironment environment conditions
  | .not _ => false
  | .defined _ => false

def anyAllowsEnvironment (environment : String) : List Condition → Bool
  | [] => false
  | condition :: conditions =>
    (condition.hasEnvironmentPredicate && condition.allowsEnvironment environment) ||
      anyAllowsEnvironment environment conditions

end

/-! ### Endpoints of sites -/

/-- The kinds of nodes that a framework site starts at. -/
def frameworkSources : String → List String
  | "renders" => ["component", "route"]
  | "hydrates" | "client_boundary" | "server_boundary" => ["component"]
  | "route_entry" => ["file", "symbol", "component", "server_function"]
  | "loads" => ["component", "route"]
  | "parent_route" | "before_load" => ["route"]
  | "navigates_to" | "masks_to" => ["component", "route", "symbol"]
  | "rpc_call" => ["component", "route", "symbol"]
  | "client_stub_for" => ["symbol"]
  | "handled_by" => ["route", "server_function"]
  | "uses_middleware" => ["route", "server_function"]
  | "implemented_by" | "declared_in" => ["component", "server_function"]
  | _ => []

/-- The kinds of nodes that a framework site leads to. -/
def frameworkTargets : String → List String
  | "renders" | "hydrates" | "client_boundary" | "server_boundary" => ["component"]
  | "route_entry" | "parent_route" | "navigates_to" | "masks_to" => ["route"]
  | "loads" => ["file", "symbol", "server_function"]
  | "before_load" => ["symbol", "server_function"]
  | "rpc_call" | "client_stub_for" => ["server_function"]
  | "handled_by" => ["symbol"]
  | "uses_middleware" => ["middleware"]
  | "implemented_by" => ["symbol"]
  | "declared_in" => ["file"]
  | _ => []

def frameworkCodeLinkOccurrenceKind (source : GraphNode) (kind : String) : Option String := do
  let suffix ← [("implemented_by", "implementation"), ("declared_in", "declaration")].lookup kind
  let framework ← source.properties.getStr "framework"
  let codePrefix ← [(("server_function", "tanstack-start"), "tanstack_start_server_function"),
    (("component", "next"), "next_component"), (("component", "astro"), "astro_component"),
    (("component", "tanstack-router"), "tanstack_component"),
    (("component", "tanstack-start"), "tanstack_component")].lookup (source.kind, framework)
  return codePrefix ++ "_" ++ suffix

/-- The span that a node declares is the one of the evidence. -/
def isAnchoredAt (span : Value) (primary : Evidence) : Bool :=
  [("start_line", primary.startLine), ("start_column", primary.startColumn),
    ("end_line", primary.endLine), ("end_column", primary.endColumn)].all fun (field, value) =>
      (fieldOf span field).bind asU64 == value

def validateFrameworkCodeLinkSite (site : DependencySite) (source target : GraphNode) :
    Except (Failure ProtocolError) Unit := do
  let owner := "framework semantic " ++ site.kind ++ " site " ++ site.id ++ " "
  let sourcePath ← orReject (required ((source.properties.getStr "source_path").filter (· ≠ ""))
    (.invariant (owner ++ "source " ++ source.id ++ " lacks source_path")))
  if site.kind = "implemented_by" then
    let definitionId ← orReject (required (source.properties.getStr "typescript_definition_id")
      (.invariant (owner ++ "requires a string typescript_definition_id on source " ++ source.id)))
    orReject (ensure (target.kind = "symbol" ∧ target.id = definitionId)
      (owner ++ "must target typescript_definition_id symbol " ++ definitionId ++ ", found " ++
        target.id))
  else
    orReject (ensure (target.kind = "file" ∧ target.properties.getStr "path" = some sourcePath)
      (owner ++ "must target the declaring file " ++ sourcePath ++ ", found " ++ target.id))
  let expectedSpecifier :=
    if site.kind = "declared_in" then sourcePath else target.displayName.getD ""
  orReject (ensure (site.specifier = expectedSpecifier)
    (owner ++ "specifier must be " ++ debugStr expectedSpecifier))
  let primary ← itemAt site.evidence 0
  let expectedOccurrence ← orReject (required (frameworkCodeLinkOccurrenceKind source site.kind)
    (.invariant (owner ++ "has no occurrence_kind for " ++
      (source.properties.getStr "framework").getD "" ++ " " ++ source.kind)))
  orReject (ensure (primary.properties.getStr "occurrence_kind" = some expectedOccurrence)
    (owner ++ "occurrence_kind must be " ++ expectedOccurrence))
  orReject (ensure (primary.path = some sourcePath)
    (owner ++ "must be anchored at source_path " ++ sourcePath))
  match source.properties["source_span"]? with
  | none | some .null => .ok ()
  | some span =>
    orReject (ensure (isAnchoredAt span primary = true)
      (owner ++ "must be anchored at the source source_span"))

def validateFrameworkSiteEndpoints (nodes : NodeMap) (site : DependencySite) :
    Except (Failure ProtocolError) Unit := do
  let source ← expected nodes[site.source]? "base validation requires framework site sources"
  orReject (ensure (source.kind ∈ frameworkSources site.kind)
    ("framework semantic site " ++ site.id ++ " of kind " ++ site.kind ++
      " has incompatible source " ++ source.id ++ " (" ++ source.kind ++ ")"))
  orReject (ensure (¬ (isFrameworkCodeLinkKind site.kind = true ∧
      (site.resolutionStatus ≠ .resolved ∨ site.precision ≠ .exact)))
    ("framework semantic " ++ site.kind ++ " site " ++ site.id ++ " must be resolved and exact"))
  if site.resolutionStatus ∈ [.external, .unresolved] then .ok ()
  else
    site.targetIds.forM fun targetId => do
      let target ← expected nodes[targetId]? "base validation requires framework site targets"
      orReject (ensure (target.kind ∈ frameworkTargets site.kind)
        ("framework semantic site " ++ site.id ++ " of kind " ++ site.kind ++
          " has incompatible target " ++ target.id ++ " (" ++ target.kind ++ ")"))
      if isFrameworkCodeLinkKind site.kind then validateFrameworkCodeLinkSite site source target
      else .ok ()

/-! ### Edges -/

/-- The checks of one endpoint of a framework edge. -/
def validateFrameworkEndpoint (nodes : NodeMap) (edge : GraphEdge) (framework endpointId : String) :
    Except (Failure ProtocolError) Unit := do
  let endpoint ← expected nodes[endpointId]? "base validation requires framework edge endpoints"
  let owner := "framework semantic edge " ++ edge.id ++ " endpoint " ++ endpoint.id
  if isFrameworkSemanticNodeKind endpoint.kind then
    orReject (ensure ("canonical_identity" ∈ endpoint.properties)
      (owner ++ " did not opt into the canonical framework identity"))
    orReject (ensure (endpoint.properties.getStr "framework" = some framework)
      (owner ++ " belongs to another framework"))
    orReject (ensure (endpoint.properties.getStr "profile_id" = some edge.profileId)
      (owner ++ " belongs to another profile"))
  else .ok ()

def validateFrameworkEdgeContract (nodes : NodeMap) (site : DependencySite) (edge : GraphEdge) :
    Except (Failure ProtocolError) Unit := do
  let owner := "framework semantic edge " ++ edge.id
  let environment ← orReject (required (edge.environment.filter fun value => value ∉ ["", "any"])
    (.invariant (owner ++ " must declare a concrete environment")))
  orReject (ensure (edge.condition.allowsEnvironment environment = true)
    (owner ++ " environment " ++ debugStr environment ++ " is not allowed by its condition"))
  orReject (ensure (evidenceBeq edge.evidence site.evidence = true)
    (owner ++ " evidence must match dependency site " ++ site.id))
  if isFrameworkCodeLinkKind edge.kind then
    let sourceEnvironment := nodes[edge.source]?.bind fun source =>
      source.properties.getStr "environment"
    orReject (ensure (sourceEnvironment = some environment)
      ("framework semantic " ++ edge.kind ++ " edge " ++ edge.id ++ " environment " ++
        debugStr environment ++ " must match its source environment"))
  validateFrameworkSemanticEvidence owner edge.profileId edge.evidence
  let primary ← itemAt edge.evidence 0
  let framework ← expected (primary.properties.getStr "framework")
    "framework evidence validation requires framework"
  [edge.source, edge.target].forM (validateFrameworkEndpoint nodes edge framework)

end Protocol
