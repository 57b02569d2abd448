import Depgraph.Protocol.Condition
import Depgraph.Protocol.StableId
import Std.Data.ExtTreeMap
import Std.Data.ExtTreeSet

/-!
# The property graph

`model.rs`: nodes, edges, dependency sites and evidence records, with the JSON values they are
serialized to, and the coverage counters. Counters, lines and ordinals are natural numbers; the
operations on them check the width of the source's integers.
-/

namespace Protocol

open Json

/-- `Properties`: an ordered map of JSON values. -/
abbrev Properties := Std.ExtTreeMap String Value

/-- A property as a string. -/
def Properties.getStr (properties : Properties) (key : String) : Option String :=
  match properties[key]? with
  | some (.string value) => some value
  | _ => none

/-- `Value::Object(properties.clone().into_iter().collect())`. -/
def Properties.toValue (properties : Properties) : Value := .object properties.toList

inductive EvidenceKind where
  | source | semantic | build | runtime
deriving DecidableEq

def EvidenceKind.asStr : EvidenceKind → String
  | .source => "source"
  | .semantic => "semantic"
  | .build => "build"
  | .runtime => "runtime"

inductive Phase where
  | source | semantic | build | runtime
deriving DecidableEq

def Phase.asStr : Phase → String
  | .source => "source"
  | .semantic => "semantic"
  | .build => "build"
  | .runtime => "runtime"

/-- The authoritative classification of a recognized dependency occurrence. -/
inductive ResolutionStatus where
  | resolved | candidates | external | unresolved
deriving DecidableEq

def ResolutionStatus.asStr : ResolutionStatus → String
  | .resolved => "resolved"
  | .candidates => "candidates"
  | .external => "external"
  | .unresolved => "unresolved"

/-- The derived `Debug` text. -/
def ResolutionStatus.debug : ResolutionStatus → String
  | .resolved => "Resolved"
  | .candidates => "Candidates"
  | .external => "External"
  | .unresolved => "Unresolved"

inductive Precision where
  | exact | overapprox | heuristic | observed
deriving DecidableEq

def Precision.asStr : Precision → String
  | .exact => "exact"
  | .overapprox => "overapprox"
  | .heuristic => "heuristic"
  | .observed => "observed"

inductive CompletenessLevel where
  | syntaxComplete | semanticComplete | buildObserved | runtimeObserved
deriving DecidableEq

def CompletenessLevel.asStr : CompletenessLevel → String
  | .syntaxComplete => "syntax-complete"
  | .semanticComplete => "semantic-complete"
  | .buildObserved => "build-observed"
  | .runtimeObserved => "runtime-observed"

def CompletenessLevel.debug : CompletenessLevel → String
  | .syntaxComplete => "SyntaxComplete"
  | .semanticComplete => "SemanticComplete"
  | .buildObserved => "BuildObserved"
  | .runtimeObserved => "RuntimeObserved"

/-- The position of a level in the derived order. -/
def CompletenessLevel.rank : CompletenessLevel → Nat
  | .syntaxComplete => 0
  | .semanticComplete => 1
  | .buildObserved => 2
  | .runtimeObserved => 3

/-- One node in the common property graph. -/
structure GraphNode where
  id : String
  kind : String
  locator : String
  displayName : Option String
  properties : Properties

structure Evidence where
  kind : EvidenceKind
  extractor : String
  extractorVersion : String
  path : Option String
  startLine : Option Nat
  startColumn : Option Nat
  endLine : Option Nat
  endColumn : Option Nat
  detail : Option String
  properties : Properties

/-- A logical graph edge. -/
structure GraphEdge where
  id : String
  source : String
  target : String
  kind : String
  siteId : Option String
  phase : Phase
  environment : Option String
  profileId : String
  condition : Condition
  resolutionStatus : ResolutionStatus
  precision : Precision
  generated : Bool
  evidence : List Evidence

/-- A dependency site. -/
structure DependencySite where
  id : String
  source : String
  kind : String
  specifier : String
  resolutionStatus : ResolutionStatus
  targetIds : List String
  profileId : String
  condition : Condition
  precision : Precision
  reason : Option String
  evidence : List Evidence

structure Coverage where
  profiles : Nat
  filesDiscovered : Nat
  filesAnalyzed : Nat
  filesSkipped : Nat
  dependencySites : Nat
  resolved : Nat
  candidates : Nat
  external : Nat
  unresolved : Nat
  unsupportedSyntax : Nat
  projectCodeExecuted : Bool
  completeness : List CompletenessLevel
  reasons : List String
deriving DecidableEq

/-! ### Equality of evidence -/

/-- The derived `PartialEq` of `Properties`: entry by entry in the order of the keys. -/
def Properties.beq (p q : Properties) : Bool :=
  p.toList.map Prod.fst == q.toList.map Prod.fst &&
    beqItems (p.toList.map Prod.snd) (q.toList.map Prod.snd)

/-- The derived `PartialEq`. -/
def Evidence.beq (a b : Evidence) : Bool :=
  a.kind == b.kind && a.extractor == b.extractor && a.extractorVersion == b.extractorVersion &&
    a.path == b.path && a.startLine == b.startLine && a.startColumn == b.startColumn &&
    a.endLine == b.endLine && a.endColumn == b.endColumn && a.detail == b.detail &&
    a.properties.beq b.properties

/-! ### Serialization -/

/-- An integer as a JSON value. -/
def natValue (n : Nat) : Value := .number (.int n)

/-- `skip_serializing_if = "Option::is_none"`. -/
def optionalMember (key : String) (value : Option Value) : List (String × Value) :=
  value.toList.map (key, ·)

def stringsValue (values : List String) : Value := .array (values.map .string)

def GraphNode.toValue (node : GraphNode) : Value :=
  .object ([("id", .string node.id), ("kind", .string node.kind),
      ("locator", .string node.locator)] ++
    optionalMember "display_name" (node.displayName.map .string) ++
    [("properties", node.properties.toValue)])

def Evidence.toValue (evidence : Evidence) : Value :=
  .object ([("kind", .string evidence.kind.asStr), ("extractor", .string evidence.extractor),
      ("extractor_version", .string evidence.extractorVersion)] ++
    optionalMember "path" (evidence.path.map .string) ++
    optionalMember "start_line" (evidence.startLine.map natValue) ++
    optionalMember "start_column" (evidence.startColumn.map natValue) ++
    optionalMember "end_line" (evidence.endLine.map natValue) ++
    optionalMember "end_column" (evidence.endColumn.map natValue) ++
    optionalMember "detail" (evidence.detail.map .string) ++
    [("properties", evidence.properties.toValue)])

def GraphEdge.toValue (edge : GraphEdge) : Value :=
  .object ([("id", .string edge.id), ("source", .string edge.source),
      ("target", .string edge.target), ("kind", .string edge.kind)] ++
    optionalMember "site_id" (edge.siteId.map .string) ++
    [("phase", .string edge.phase.asStr)] ++
    optionalMember "environment" (edge.environment.map .string) ++
    [("profile_id", .string edge.profileId), ("condition", edge.condition.toValue),
      ("resolution_status", .string edge.resolutionStatus.asStr),
      ("precision", .string edge.precision.asStr), ("generated", .bool edge.generated),
      ("evidence", .array (edge.evidence.map Evidence.toValue))])

def DependencySite.toValue (site : DependencySite) : Value :=
  .object ([("id", .string site.id), ("source", .string site.source),
      ("kind", .string site.kind), ("specifier", .string site.specifier),
      ("resolution_status", .string site.resolutionStatus.asStr),
      ("target_ids", stringsValue site.targetIds), ("profile_id", .string site.profileId),
      ("condition", site.condition.toValue), ("precision", .string site.precision.asStr)] ++
    optionalMember "reason" (site.reason.map .string) ++
    [("evidence", .array (site.evidence.map Evidence.toValue))])

def Coverage.toValue (coverage : Coverage) : Value :=
  .object [("profiles", natValue coverage.profiles),
    ("files_discovered", natValue coverage.filesDiscovered),
    ("files_analyzed", natValue coverage.filesAnalyzed),
    ("files_skipped", natValue coverage.filesSkipped),
    ("dependency_sites", natValue coverage.dependencySites),
    ("resolved", natValue coverage.resolved), ("candidates", natValue coverage.candidates),
    ("external", natValue coverage.external), ("unresolved", natValue coverage.unresolved),
    ("unsupported_syntax", natValue coverage.unsupportedSyntax),
    ("project_code_executed", .bool coverage.projectCodeExecuted),
    ("completeness", stringsValue (coverage.completeness.map CompletenessLevel.asStr)),
    ("reasons", stringsValue coverage.reasons)]

end Protocol
