import Depgraph.Protocol.Framework

/-!
# The semantic contract of a graph

`validator.rs`: `validate_semantic_maps` and the entry points that run it after the checks of sites and
edges, on a graph whose edges carry their own evidence or on one whose edges share that of their sites.
-/

namespace Protocol

open Json Fallible Panics OrderedMap

section

variable (S : StableIds)

/-! ### Sites -/

/-- The evidence of a value reference. -/
def validateValueReference (site : DependencySite) (primary : Evidence) :
    Except ProtocolError Unit :=
  if site.kind = "value_reference" then do
    ensure (site.resolutionStatus ≠ .candidates)
      ("value-reference dependency site " ++ site.id ++ " cannot use candidates")
    ensure (primary.extractor = "go-types")
      ("Go value-reference dependency site " ++ site.id ++ " must use go-types primary evidence")
    ["object_kind", "occurrence_kind"].forM fun property =>
      ensure (∃ value ∈ primary.properties.getStr property, value ≠ "")
        ("Go value-reference dependency site " ++ site.id ++
          " primary evidence must include non-empty " ++ property)
  else .ok ()

/-- The evidence and the condition of a framework site. -/
def validateFrameworkSite (site : DependencySite) (primary : Evidence) :
    Except (Failure ProtocolError) Unit :=
  if isFrameworkSemanticSiteKind site.kind then do
    let owner := "framework semantic dependency site " ++ site.id
    validateFrameworkSemanticEvidence owner site.profileId site.evidence
    orReject (ensure (site.condition.hasEnvironmentPredicate = true)
      (owner ++ " condition must include an environment predicate"))
    if site.resolutionStatus = .candidates then
      orReject (ensure (frameworkSiteAllowsCandidates site.kind = true)
        (owner ++ " of kind " ++ site.kind ++ " cannot use candidates"))
      orReject (validateCandidateAlgorithm ("candidate framework dependency site " ++ site.id)
        primary)
    else .ok ()
  else .ok ()

def validateSemanticSite (site : DependencySite) (strict : Bool) (logicalProfileId : String) :
    Except (Failure ProtocolError) Unit :=
  if semanticEdgeKind site strict = none then .ok ()
  else do
    let owner := "semantic dependency site " ++ site.id
    orReject (ensure (¬ (site.specifier = "" ∧ site.kind ∉ ["web_import", "web_reexport"]))
      "semantic dependency_site.specifier must not be empty")
    let primary ← validatePrimarySemanticEvidence S owner site.evidence
    orReject (validateSemanticResolution owner site.resolutionStatus site.precision)
    if site.kind = "call" ∧ site.resolutionStatus = .candidates then
      orReject (validateCandidateAlgorithm ("candidate call site " ++ site.id) primary)
    validateFrameworkSite site primary
    orReject (validateValueReference site primary)
    orReject (ensure (site.targetIds.IsChain fun a b => a < b)
      (owner ++ " target IDs must be unique and sorted"))
    orReject (ensure (¬ (site.resolutionStatus = .unresolved ∧ site.reason = none))
      ("unresolved semantic dependency site " ++ site.id ++ " must include a reason"))
    let path ← expected primary.path "primary semantic evidence has a complete span"
    let span ← spanOf primary "complete span"
    let expectedId := S.stableIdFromValue "site" (.object [
      ("condition", (site.condition.canonicalized S.floatText).toValue),
      ("kind", .string site.kind), ("path", .string path),
      ("profile_id", .string logicalProfileId), ("source", .string site.source), ("span", span)])
    orReject (ensure (site.id = expectedId)
      (owner ++ " does not match its canonical identity; expected " ++ expectedId))

end

/-- The language that a node declares. -/
def GraphNode.language (node : GraphNode) : Option String := node.properties.getStr "language"

/-- A node of the Web adapter. -/
def GraphNode.isWeb (node : GraphNode) : Bool :=
  ["typescript", "javascript"].any fun language => node.language == some language

/-- `is_go_semantic_dependency_site`. -/
def DependencySite.isGoSemantic (site : DependencySite) (source : GraphNode) : Bool :=
  site.kind == "value_reference" && (source.language == some "go" ||
    firstIs (fun evidence => evidence.kind == .semantic && evidence.extractor == "go-types")
      site.evidence)

/-- `is_rust_semantic_dependency_site`. -/
def DependencySite.isRustSemantic (site : DependencySite) (source : GraphNode) : Bool :=
  isRustImportSiteKind site.kind || (site.kind == "type_use" && source.language == some "rust") ||
    (site.kind == "call" && (source.language == some "rust" ||
      firstIs (fun evidence => evidence.kind == .semantic &&
        evidence.extractor.startsWith "rust-analyzer") site.evidence))

/-- `is_web_semantic_dependency_site`. -/
def DependencySite.isWebSemantic (site : DependencySite) (source : GraphNode) : Bool :=
  ["web_import", "web_reexport"].contains site.kind ||
    (["call", "type_use"].contains site.kind && source.isWeb)

def validSemanticTypeTarget (site : DependencySite) (target : GraphNode) (web : Bool) : Bool :=
  if web && firstIs (fun evidence =>
      evidence.properties.getStr "occurrence_kind" == some "type_query") site.evidence then
    target.kind == "symbol" || (target.kind == "type" &&
      ["class", "enum"].any fun kind => target.properties.getStr "type_kind" == some kind)
  else target.kind == "type"

/-- The kind of node that a semantic site starts at. -/
def validateSemanticSource (site : DependencySite) (source : GraphNode) :
    Except ProtocolError Unit :=
  match site.kind with
  | "call" =>
    ensure (source.kind = "symbol")
      ("semantic call site " ++ site.id ++ " source " ++ source.id ++ " must be a symbol node")
  | "value_reference" =>
    ensure (source.kind = "symbol")
      ("semantic value-reference site " ++ site.id ++ " source " ++ source.id ++
        " must be a symbol node")
  | "type_use" =>
    ensure (source.kind ∈ ["symbol", "type"] ∨
        (site.isWebSemantic source = true ∧ source.kind = "file"))
      ("semantic type-use site " ++ site.id ++ " source " ++ source.id ++
        " must be a symbol/type node (or a Web file fallback)")
  | "rust_use" =>
    ensure (source.kind ∈ ["module", "symbol"])
      ("Rust semantic use site " ++ site.id ++ " source " ++ source.id ++
        " must be a module or symbol node")
  | "rust_reexport" =>
    ensure (source.kind = "module")
      ("Rust semantic re-export site " ++ site.id ++ " source " ++ source.id ++
        " must be a module node")
  | "web_import" | "web_reexport" =>
    ensure (source.kind = "file")
      ("Web semantic " ++ site.kind ++ " site " ++ site.id ++ " source " ++ source.id ++
        " must be a file node")
  | _ => .ok ()

/-- The language of the node that a semantic site starts at. -/
def validateSourceLanguage (site : DependencySite) (source : GraphNode) :
    Except ProtocolError Unit := do
  ensure (¬ (site.isRustSemantic source = true ∧ source.language ≠ some "rust"))
    ("Rust semantic dependency site " ++ site.id ++ " source " ++ source.id ++
      " must declare language=rust")
  ensure (¬ (site.isWebSemantic source = true ∧ source.isWeb = false))
    ("Web semantic dependency site " ++ site.id ++ " source " ++ source.id ++
      " must declare language=typescript or javascript")
  ensure (¬ (site.isGoSemantic source = true ∧ source.language ≠ some "go"))
    ("Go semantic dependency site " ++ site.id ++ " source " ++ source.id ++
      " must declare language=go")

/-- The kind of node that a semantic site leads to. -/
def validateSemanticTarget (site : DependencySite) (source target : GraphNode) :
    Except ProtocolError Unit :=
  match site.kind with
  | "call" =>
    ensure (target.kind = "symbol")
      ("semantic call site " ++ site.id ++ " concrete target " ++ target.id ++
        " must be a symbol node")
  | "type_use" =>
    ensure (validSemanticTypeTarget site target (site.isWebSemantic source) = true)
      ("semantic type-use site " ++ site.id ++ " concrete target " ++ target.id ++
        " must be a type node")
  | "value_reference" =>
    ensure (target.kind = "symbol")
      ("semantic value-reference site " ++ site.id ++ " concrete target " ++ target.id ++
        " must be a symbol node")
  | "rust_use" | "rust_reexport" =>
    ensure (target.kind ∈ ["module", "symbol", "type"])
      ("Rust semantic " ++ site.kind ++ " site " ++ site.id ++ " concrete target " ++ target.id ++
        " must be a module, symbol, or type node")
  | "web_import" | "web_reexport" =>
    ensure (target.kind ∈ ["file", "symbol", "type"])
      ("Web semantic " ++ site.kind ++ " site " ++ site.id ++ " concrete target " ++ target.id ++
        " must be a file, symbol, or type node")
  | _ => .ok ()

/-- The language of the node that a semantic site leads to. -/
def validateTargetLanguage (site : DependencySite) (source target : GraphNode) :
    Except ProtocolError Unit := do
  ensure (¬ (site.isRustSemantic source = true ∧ target.language ≠ some "rust"))
    ("Rust semantic dependency site " ++ site.id ++ " concrete target " ++ target.id ++
      " must declare language=rust")
  ensure (¬ (site.isWebSemantic source = true ∧ target.isWeb = false))
    ("Web semantic dependency site " ++ site.id ++ " concrete target " ++ target.id ++
      " must declare language=typescript or javascript")

/-- The nodes that a semantic site leads to. -/
def validateSemanticTargets (nodes : NodeMap) (site : DependencySite) (source : GraphNode) :
    Except (Failure ProtocolError) Unit := do
  if site.isGoSemantic source then
    site.targetIds.forM fun targetId => do
      let target ← expected nodes[targetId]?
        "base validation requires dependency-site targets to exist"
      orReject (ensure (target.language = some "go")
        ("Go semantic dependency site " ++ site.id ++ " target " ++ target.id ++
          " must declare language=go"))
  if site.resolutionStatus ∈ [.resolved, .candidates] then
    site.targetIds.forM fun targetId => do
      let target ← expected nodes[targetId]?
        "base validation requires dependency-site targets to exist"
      orReject (validateSemanticTarget site source target)
      orReject (validateTargetLanguage site source target)
  else .ok ()

section

variable (S : StableIds)

/-- Whether the edges of a site repeat its condition. -/
def requiresSameCondition (site : DependencySite) (source : GraphNode) : Bool :=
  site.isRustSemantic source || site.isGoSemantic source || isFrameworkSemanticSiteKind site.kind ||
    (site.isWebSemantic source && site.kind == "call")

/-- The checks of one edge of a semantic site. -/
def validateSemanticSiteEdge (nodes : NodeMap) (site : DependencySite) (source : GraphNode)
    (expectedEdgeKind : String) (mode : EdgeEvidence) (edge : GraphEdge) :
    Except (Failure ProtocolError) Unit := do
  let edge := edgeWithEvidence edge (some site) mode
  orReject (ensure (edge.kind = expectedEdgeKind)
    ("semantic dependency site " ++ site.id ++ " requires " ++ expectedEdgeKind ++
      " edges, found " ++ edge.kind))
  let sitePrimary ← itemAt site.evidence 0
  let siteAnchor ← primaryEvidenceAnchor sitePrimary
  let edgePrimary ← itemAt edge.evidence 0
  let edgeAnchor ← primaryEvidenceAnchor edgePrimary
  orReject (ensure (siteAnchor = edgeAnchor)
    ("semantic edge " ++ edge.id ++ " primary evidence anchor does not match dependency site " ++
      site.id))
  orReject (ensure (¬ (requiresSameCondition site source = true ∧
      (edge.condition.canonicalized S.floatText).beq
        (site.condition.canonicalized S.floatText) = false))
    ("semantic edge " ++ edge.id ++ " condition does not match dependency site " ++ site.id))
  if isFrameworkSemanticSiteKind site.kind then validateFrameworkEdgeContract nodes site edge
  else .ok ()

/-! ### The maps -/

/-- The sites with semantic evidence. -/
def strictDependencySites (sites : SiteMap) : IdSet :=
  .ofList (((values sites).filter DependencySite.isEvidenceDriven).map DependencySite.id)

/-- The checks of one edge. -/
def validateSemanticMapEdge (profiles : ProfileMap) (nodes : NodeMap) (sites : SiteMap)
    (mode : EdgeEvidence) (edge : GraphEdge) : Except (Failure ProtocolError) Unit := do
  let linkedSite := edge.siteId.bind (sites[·]?)
  let edge := edgeWithEvidence edge linkedSite mode
  let linkedToStrictSite := linkedSite.any fun site => (strictDependencySites sites).contains site.id
  match linkedSite.bind sourceFallbackEdgeKind with
  | some expectedKind => do
    let site ← expected linkedSite "source fallback edge has a linked site"
    validateSourceFallbackEdge S site edge expectedKind
  | none => do
    let logicalProfileId ← orReject (semanticIdentityProfileId S edge.profileId profiles)
    validateSemanticEdge S edge linkedToStrictSite logicalProfileId
    if edge.isSemanticDefinitionRelation then validateDefinitionRelationEndpoints nodes edge
    match linkedSite with
    | none => .ok ()
    | some site =>
      match semanticEdgeKind site linkedToStrictSite with
      | none =>
        orReject (ensure (¬ (isCommonSemanticEdgeKind edge.kind = true ∨
            edge.isFrameworkSemantic = true))
          ("semantic edge " ++ edge.id ++ " of kind " ++ edge.kind ++
            " requires a compatible semantic dependency site, found " ++ site.kind))
      | some expectedEdgeKind =>
        orReject (ensure (edge.kind = expectedEdgeKind)
          ("semantic dependency site " ++ site.id ++ " of kind " ++ site.kind ++ " requires " ++
            expectedEdgeKind ++ " edges, found " ++ edge.kind))

/-- The sources of code links that have been seen. -/
abbrev CodeLinkSources := List (String × String × String)

/-- The checks of one site; the sources of code links are carried along. -/
def validateSemanticMapSite (profiles : ProfileMap) (nodes : NodeMap) (edges : EdgeMap)
    (sites : SiteMap) (mode : EdgeEvidence) (codeLinkSources : CodeLinkSources)
    (site : DependencySite) : Except (Failure ProtocolError) CodeLinkSources := do
  let strict := (strictDependencySites sites).contains site.id
  let logicalProfileId ← orReject (semanticIdentityProfileId S site.profileId profiles)
  validateSemanticSite S site strict logicalProfileId
  let source := (site.kind, site.profileId, site.source)
  orReject (ensure (¬ (isFrameworkCodeLinkKind site.kind = true ∧ source ∈ codeLinkSources))
    ("framework semantic source " ++ site.source ++ " must have at most one " ++ site.kind ++
      " site"))
  let codeLinkSources :=
    if isFrameworkCodeLinkKind site.kind then source :: codeLinkSources else codeLinkSources
  if (sourceFallbackEdgeKind site).isSome then do
    validateSourceFallbackSite nodes site
    return codeLinkSources
  else
    match semanticEdgeKind site strict with
    | none => return codeLinkSources
    | some _ => do
      let sourceNode ← expected nodes[site.source]?
        "base validation requires dependency-site sources to exist"
      if isFrameworkSemanticSiteKind site.kind then validateFrameworkSiteEndpoints nodes site
      orReject (validateSemanticSource site sourceNode)
      orReject (validateSourceLanguage site sourceNode)
      validateSemanticTargets nodes site sourceNode
      let expectedEdgeKind ← expected (semanticEdgeKind site strict)
        "semantic site kind matched above"
      (edgesOfSite edges site.id).forM
        (validateSemanticSiteEdge S nodes site sourceNode expectedEdgeKind mode)
      return codeLinkSources

def validateSemanticMaps (profiles : ProfileMap) (nodes : NodeMap) (edges : EdgeMap)
    (sites : SiteMap) (mode : EdgeEvidence) : Except (Failure ProtocolError) Unit := do
  (values nodes).forM fun node => do
    validateSemanticNode S node
    orReject (validateSymbolOrigins nodes node)
  (values edges).forM (validateSemanticMapEdge S profiles nodes sites mode)
  let _ ← (values sites).foldlM (validateSemanticMapSite S profiles nodes edges sites mode) []
  return ()

def validateGraphMaps (nodes : NodeMap) (edges : EdgeMap) (sites : SiteMap) (mode : EdgeEvidence) :
    Except (Failure ProtocolError) Unit := do
  orReject (validateSiteEdgeMaps S nodes edges sites mode)
  validateSemanticMaps S ∅ nodes edges sites mode

def validateSemanticGraphMaps (nodes : NodeMap) (edges : EdgeMap) (sites : SiteMap) :
    Except (Failure ProtocolError) Unit :=
  validateGraphMaps S nodes edges sites .required

def validateSemanticGraphMapsWithSharedSiteEvidence (nodes : NodeMap) (edges : EdgeMap)
    (sites : SiteMap) : Except (Failure ProtocolError) Unit :=
  validateGraphMaps S nodes edges sites .sharedWithSite

end

end Protocol
