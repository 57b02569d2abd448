import Depgraph.Protocol.CrossLanguage

/-!
# Kinds of semantic records

`validator.rs`: which sites carry semantic evidence, which ones are fallbacks to the source, the kind
of edge each of them requires, and the anchor of a piece of evidence.
-/

namespace Protocol

open Json Fallible Panics OrderedMap

/-! ### Kinds -/

def isFrameworkSemanticSiteKind (kind : String) : Bool :=
  ["renders", "hydrates", "client_boundary", "server_boundary", "route_entry", "parent_route",
    "loads", "before_load", "navigates_to", "masks_to", "rpc_call", "client_stub_for",
    "handled_by", "uses_middleware", "implemented_by", "declared_in"].contains kind

def isRustImportSiteKind (kind : String) : Bool := ["rust_use", "rust_reexport"].contains kind

/-- `is_evidence_driven_semantic_site`. -/
def DependencySite.isEvidenceDriven (site : DependencySite) : Bool :=
  (["call", "type_use", "value_reference", "rust_use", "rust_reexport", "web_import",
      "web_reexport"].contains site.kind || isFrameworkSemanticSiteKind site.kind) &&
    firstIs (fun evidence => evidence.kind == .semantic) site.evidence

/-- `source_fallback_edge_kind_for_site`. -/
def sourceFallbackEdgeKind (site : DependencySite) : Option String :=
  if firstIs (fun evidence => evidence.kind == .source) site.evidence then
    [("type_use", "type_uses"), ("rust_use", "imports"), ("rust_reexport", "reexports")].lookup
      site.kind
  else none

/-! ### Anchors -/

/-- The extractor and the span of a piece of evidence. -/
structure EvidenceAnchor where
  extractor : String
  extractorVersion : String
  path : String
  startLine : Nat
  startColumn : Nat
  endLine : Nat
  endColumn : Nat
deriving DecidableEq

def primaryEvidenceAnchor (evidence : Evidence) :
    Except (Failure ProtocolError) EvidenceAnchor := do
  let path ← expected evidence.path "primary evidence has a path"
  let startLine ← expected evidence.startLine "primary evidence has a start line"
  let startColumn ← expected evidence.startColumn "primary evidence has a start column"
  let endLine ← expected evidence.endLine "primary evidence has an end line"
  let endColumn ← expected evidence.endColumn "primary evidence has an end column"
  return ⟨evidence.extractor, evidence.extractorVersion, path, startLine, startColumn, endLine,
    endColumn⟩

/-- The import sites that supporting source evidence of a semantic site refines. -/
def refinedImports (sites : List DependencySite) (profileId : String) :
    Except (Failure ProtocolError) (List (String × EvidenceAnchor)) := do
  let refining := sites.filter fun site =>
    site.profileId == profileId && isRustImportSiteKind site.kind && site.isEvidenceDriven
  let refined ← refining.mapM fun site => do
    let supporting ← itemsFrom site.evidence 1
    let spanned := supporting.filter fun evidence =>
      evidence.kind == .source && evidence.hasCompleteSpan
    spanned.mapM fun evidence => do
      let anchor ← primaryEvidenceAnchor evidence
      return (site.kind, anchor)
  return refined.flatten

/-- A source fallback site of the profile that no semantic site refines. -/
def isUnrefinedFallback (refined : List (String × EvidenceAnchor)) (profileId : String)
    (site : DependencySite) : Except (Failure ProtocolError) Bool :=
  if site.profileId = profileId ∧ (sourceFallbackEdgeKind site).isSome = true then
    if isRustImportSiteKind site.kind then do
      let primary ← itemAt site.evidence 0
      if primary.hasCompleteSpan then do
        let anchor ← primaryEvidenceAnchor primary
        return !decide ((site.kind, anchor) ∈ refined)
      else return true
    else return true
  else return false

def unrefinedRustSourceFallbackSite (sites : SiteMap) (profileId : String) :
    Except (Failure ProtocolError) (Option DependencySite) := do
  let refined ← refinedImports (values sites) profileId
  (values sites).findM? (isUnrefinedFallback refined profileId)

end Protocol
