import Depgraph.Library.Panics
import Depgraph.Protocol.ConditionText
import Depgraph.Protocol.DeltaState
import Depgraph.Protocol.Event

/-!
# Coverage and completeness

`validator.rs`: the counters of a coverage record against the graph and against each other, and what
a profile declares when it reports that its semantic analysis is complete.
-/

namespace Protocol

open Json Fallible Panics OrderedMap

/-! ### Texts -/

/-- `format!("{value:?}")` of an optional value. -/
def debugOption {α : Type} (debug : α → String) : Option α → String
  | none => "None"
  | some a => "Some(" ++ debug a ++ ")"

/-- `format!("{items:?}")` of a vector of strings. -/
def debugStrings (items : List String) : String :=
  "[" ++ String.intercalate ", " (items.map debugStr) ++ "]"

def debugBool (b : Bool) : String := if b then "true" else "false"

/-! ### Properties -/

def asU64 : Value → Option Nat
  | .number (.int n) => if 0 ≤ n ∧ n < 2 ^ 64 then some n.toNat else none
  | _ => none

def asBool : Value → Option Bool
  | .bool b => some b
  | _ => none

def asArray : Value → Option (List Value)
  | .array items => some items
  | _ => none

def asObject : Value → Option (List (String × Value))
  | .object members => some members
  | _ => none

/-- The value of a decimal digit. -/
def digitValue (c : Char) : Nat := c.toNat - 48

/-- `str::parse::<usize>`. -/
def parseUsize (s : String) : Option Nat :=
  let digits := match s.toList with
    | '+' :: rest => rest
    | chars => chars
  let value := digits.foldl (fun n c => 10 * n + digitValue c) 0
  if digits = [] ∨ digits.all Char.isDigit = false ∨ 2 ^ 64 ≤ value then none else some value

/-! ### Counters -/

def Stream.validateCoverage (overflowChecks : Bool) (coverage : Coverage) :
    Except (Failure ProtocolError) Unit := do
  let classified ← addU64 overflowChecks coverage.resolved coverage.candidates
  let classified ← addU64 overflowChecks classified coverage.external
  let classified ← addU64 overflowChecks classified coverage.unresolved
  orReject (ensure (classified = coverage.dependencySites)
    (s!"coverage dependency_sites={coverage.dependencySites} but classified statuses total " ++
      toString classified))
  let accounted ← addU64 overflowChecks coverage.filesAnalyzed coverage.filesSkipped
  orReject (ensure (accounted = coverage.filesDiscovered)
    s!"coverage files_discovered={coverage.filesDiscovered} but analyzed+skipped={accounted}")
  orReject (ensure (coverage.completeness.dedup.length = coverage.completeness.length)
    "coverage completeness values must be unique")

def validateSiteCounts (scope : String) (coverage : Coverage) (sites : List DependencySite) :
    Except ProtocolError Unit :=
  ensure (siteCounts sites = coverage.siteCounts)
    (scope ++ " coverage site counts " ++ debugCounts coverage.siteCounts ++
      " do not match emitted counts " ++ debugCounts (siteCounts sites))

def Stream.validateProfileCoverage (profileId : String) (coverage : Coverage) (sites : SiteMap) :
    Except ProtocolError Unit := do
  ensure (coverage.profiles = 1)
    ("profile " ++ profileId ++ s!" coverage must report profiles=1, found {coverage.profiles}")
  validateSiteCounts ("profile " ++ profileId) coverage
    ((values sites).filter fun site => site.profileId = profileId)

abbrev ProfileMap := Std.ExtTreeMap String Profile

abbrev ProfileCoverage := Std.ExtTreeMap String Coverage

def validateAggregateProfileCoverage (aggregate : Coverage) (profiles : ProfileCoverage) :
    Except ProtocolError Unit :=
  match values profiles with
  | [] => .ok ()
  | first :: rest => do
    let profiles := first :: rest
    let expected := commonLevels first rest
    let reported := levelSet aggregate.completeness
    ensure (reported = expected)
      ("scan completeness " ++ debugLevels reported ++
        " does not equal the profile intersection " ++ debugLevels expected)
    [("files_discovered", Coverage.filesDiscovered), ("files_analyzed", Coverage.filesAnalyzed),
      ("files_skipped", Coverage.filesSkipped),
      ("unsupported_syntax", Coverage.unsupportedSyntax)].forM fun (field, counter) =>
        let minimum := maximum (profiles.map counter)
        ensure (¬ counter aggregate < minimum)
          ("scan coverage " ++ field ++ s!"={counter aggregate}, below the profile maximum " ++
            toString minimum)
    ensure (¬ (profiles.any Coverage.projectCodeExecuted = true ∧
        aggregate.projectCodeExecuted = false))
      "scan coverage hides project code execution reported by a profile"
    blockingReasons.forM fun blockingReason =>
      ensure (¬ (profiles.any (·.reasons.contains blockingReason) = true ∧
          aggregate.reasons.contains blockingReason = false))
        ("scan coverage omits blocking profile reason " ++ blockingReason)

/-- A `file_completed` event. -/
structure FileCompleted where
  path : String
  discoveredSites : Nat
  emittedSites : Nat
  skippedSites : Nat
  skipped : Bool
  reason : Option String

/-- The file of a payload that completes one. -/
def EventPayload.file? : EventPayload → Option FileCompleted
  | .fileCompleted path discoveredSites emittedSites skippedSites skipped reason =>
    some ⟨path, discoveredSites, emittedSites, skippedSites, skipped, reason⟩
  | _ => none

def validateScanCoverage (overflowChecks : Bool) (coverage : Coverage) (profiles : ProfileMap)
    (sites : SiteMap) (events : List ProtocolEvent) : Except (Failure ProtocolError) Unit := do
  orReject (ensure (coverage.profiles = profiles.size)
    s!"scan coverage profiles={coverage.profiles} but {profiles.size} profiles were declared")
  orReject (validateSiteCounts "scan" coverage (values sites))
  let files := events.filterMap fun event => event.payload.file?
  let filesSkipped := files.countP FileCompleted.skipped
  let emittedSites ← sumU64 overflowChecks (files.map FileCompleted.emittedSites)
  orReject (ensure (coverage.filesDiscovered = files.length)
    (s!"scan coverage files_discovered={coverage.filesDiscovered} but {files.length} " ++
      "file_completed events were emitted"))
  orReject (ensure (coverage.filesSkipped = filesSkipped)
    (s!"scan coverage files_skipped={coverage.filesSkipped} but {filesSkipped} " ++
      "file_completed events are skipped"))
  orReject (ensure (¬ coverage.dependencySites < emittedSites)
    (s!"file coverage emitted_sites total {emittedSites} exceeds scan coverage's " ++
      s!"{coverage.dependencySites} dependency sites"))

/-! ### Completeness of Rust profiles -/

/-- What a `semantic-complete` Rust profile declares. -/
def rustSemanticProperties : List (String × String) :=
  [("analysis", "syntax+hir-imports-types-calls"),
    ("analysis_backend", "static-syntax+rust-analyzer-hir"),
    ("rust_hir_backend", "rust-analyzer-hir"),
    ("rust_hir_status", "import-type-call-graph-emitted"),
    ("rust_hir_project_model", "ready"),
    ("rust_hir_sysroot_status", "attested"),
    ("rust_hir_sysroot_contract_version", "rust-src-data-tree-v1"),
    ("rust_hir_sysroot_component_version",
      "1.93.1+rustc.01f6ddf7588f42ae2d7eb0a2f21d44e8e96674cf"),
    ("rust_hir_sysroot_source_layout", "rustup-rust-src-library-v1"),
    ("crate_graph_source", "confined-cargo-metadata"),
    ("cargo_metadata_input", "confined-mirror"),
    ("rust_hir_toolchain_status", "compatible"),
    ("proc_macro_expansion", "disabled"),
    ("build_script_policy", "disabled"),
    ("proc_macro_policy", "disabled")]

/-- Properties that have the expected texts. -/
def requireProperties (owner : String) (properties : Properties)
    (expected : List (String × String)) : Except ProtocolError Unit :=
  expected.forM fun (property, value) =>
    ensure (properties.getStr property = some value)
      (owner ++ " requires properties." ++ property ++ "=" ++ debugStr value ++ ", found " ++
        debugOption debugStr (properties.getStr property))

/-- Counters that are zero. -/
def requireZero (owner : String) (counters : List (String × Nat)) : Except ProtocolError Unit :=
  counters.forM fun (field, actual) =>
    ensure (actual = 0) (owner ++ " requires " ++ field ++ s!"=0, found {actual}")

/-- A property as an unsigned integer. -/
def Properties.getU64 (properties : Properties) (key : String) : Option Nat :=
  properties[key]?.bind asU64

/-- `u8::is_ascii_hexdigit`. -/
def isAsciiHexDigit (byte : UInt8) : Bool :=
  (48 ≤ byte && byte ≤ 57) || (97 ≤ byte && byte ≤ 102) || (65 ≤ byte && byte ≤ 70)

/-- A digest with its prefix, in either case of the letters. -/
def isPrefixedHexDigest (digest : String) : Bool :=
  (utf8 digest).length == 71 && (utf8 digest).take 7 == utf8 "sha256:" &&
    ((utf8 digest).drop 7).all isAsciiHexDigit

/-- The closure `identity_matches` of an attestation. -/
def identityMatches (attestation : List (String × Value)) (tool commit : String) : Bool :=
  match (attestation.lookup tool).bind asObject with
  | none => false
  | some identity =>
    memberStr identity "release" == some "1.93.1" &&
      memberStr identity "commit_hash" == some commit &&
      (memberStr identity "host").any (· ≠ "") &&
      (memberStr identity "sha256").any isPrefixedHexDigest

/-- `value["key"]`: null where there is no such member. -/
def memberOrNull (value : Value) (key : String) : Value :=
  ((asObject value).bind fun members => members.lookup key).getD .null

def validateVerifiedRustToolchainAttestation (profile : Profile) :
    Except (Failure ProtocolError) Unit := do
  let owner := "Rust semantic-complete profile " ++ profile.id
  let attestation ← orReject (required
    (profile.properties.getObject "rust_hir_toolchain_attestation")
    (.invariant (owner ++ " requires a verified toolchain attestation")))
  orReject (ensure (memberStr attestation "contract" = some "installed-verified-rust-toolchain-v1" ∧
      memberStr attestation "status" = some "compatible" ∧
      ∃ selection ∈ memberStr attestation "selection",
        selection ∈ ["host-default", "installed-verified-baseline"])
    (owner ++ " has an incompatible toolchain attestation header"))
  let incompatible := owner ++ " has an incompatible rustc/Cargo attestation"
  orReject (ensure
    (identityMatches attestation "rustc" "01f6ddf7588f42ae2d7eb0a2f21d44e8e96674cf" = true ∧
      identityMatches attestation "cargo" "083ac5135f967fd9dc906ab057a2315861c7a80d" = true)
    incompatible)
  let rustc ← expected (attestation.lookup "rustc") "no entry found for key"
  let cargo ← expected (attestation.lookup "cargo") "no entry found for key"
  orReject (ensure ((memberOrNull rustc "host").beq (memberOrNull cargo "host") = true)
    incompatible)

def validateRustSemanticCompleteness (profile : Profile) (coverage : Coverage) :
    Except (Failure ProtocolError) Unit := do
  let owner := "Rust semantic-complete profile " ++ profile.id
  let properties := profile.properties
  orReject do
    ensure (.syntaxComplete ∈ coverage.completeness) (owner ++ " must also report syntax-complete")
    ensure ("rust-hir-backend-failure" ∉ coverage.reasons)
      (owner ++ " cannot report rust-hir-backend-failure")
    ensure (coverage.reasons = [])
      (owner ++ " requires no coverage reasons, found " ++ debugStrings coverage.reasons)
    requireZero owner [("files_skipped", coverage.filesSkipped),
      ("unsupported_syntax", coverage.unsupportedSyntax), ("candidates", coverage.candidates),
      ("external", coverage.external), ("unresolved", coverage.unresolved)]
    ensure (coverage.projectCodeExecuted = false)
      (owner ++ " requires coverage project_code_executed=false")
    requireProperties owner properties rustSemanticProperties
  validateVerifiedRustToolchainAttestation profile
  orReject do
    let releaseGate := properties.getStr "rust_hir_enable_gate"
    ensure (releaseGate = some "release-gate-verified")
      (owner ++ " requires properties.rust_hir_enable_gate=\"release-gate-verified\", found " ++
        debugOption debugStr releaseGate)
    let sysrootFileCount := properties.getU64 "rust_hir_sysroot_file_count"
    ensure (sysrootFileCount.any (· ≠ 0) = true)
      (owner ++ " requires properties.rust_hir_sysroot_file_count>0, found " ++
        debugOption toString sysrootFileCount)
    [("rust_hir_sysroot_crate_count", 3), ("rust_hir_project_external_count", 0),
      ("rust_hir_semantic_issue_count", 0)].forM fun (property, count) =>
        ensure (properties.getU64 property = some count)
          (owner ++ " requires properties." ++ property ++ s!"={count}, found " ++
            debugOption toString (properties.getU64 property))
    ["project_code_executed", "project_toolchain_executed", "build_scripts_executed",
      "proc_macros_executed"].forM fun property =>
        let actual := properties[property]?.bind asBool
        ensure (actual = some false)
          (owner ++ " requires properties." ++ property ++ "=false, found " ++
            debugOption debugBool actual)

/-! ### Completeness of Web profiles -/

/-- What a `semantic-complete` Web profile declares. -/
def webSemanticProperties : List (String × String) :=
  [("bundled_typescript", "true"),
    ("typescript_syntax_compiler", "native-7.0.2"),
    ("typescript_compiler_source", "bundled"),
    ("typescript_compiler_version", "7.0.2"),
    ("typescript_compiler_selection", "bundled-only"),
    ("typescript_compiler_fallback", "fail-closed"),
    ("typescript_analysis_mode", "semantic-import-type-call-graph"),
    ("typescript_project_local_policy", "metadata-only"),
    ("typescript_project_local_loaded", "false"),
    ("typescript_typechecker_status", "definition-import-type-call-graph-emitted"),
    ("typescript_project_model_status", "ready"),
    ("typescript_project_model_failure_reason", "none"),
    ("typescript_project_config", "worker-neutral-allowlist"),
    ("typescript_standard_library_source", "bundled"),
    ("typescript_semantic_graph_emission", "definition-import-type-call-graph-v2"),
    ("typescript_compiler_processes", "1"),
    ("typescript_project_filesystem", "isolated-virtual"),
    ("typescript_definition_graph_status", "ready"),
    ("typescript_semantic_diagnostics", "0"),
    ("typescript_emitted_semantic_diagnostics", "0"),
    ("typescript_semantic_issue_count", "0"),
    ("project_code_executed", "false")]

/-- The properties that declare the completeness of frameworks. -/
def frameworkCompletenessProperties : List String :=
  ["web_framework_completeness_capability", "web_framework_completeness_status",
    "web_framework_completeness_issue_count", "web_framework_completeness_ledger"]

/-- The capability of a framework. -/
def frameworkCapability : String → Option String
  | "next" => some "next-route-component-boundary-v1"
  | "astro" => some "astro-component-render-hydration-v1"
  | "tanstack-router" => some "tanstack-router-typed-route-v1"
  | "tanstack-start" => some "tanstack-start-rpc-middleware-v1"
  | _ => none

/-- The closure `capabilities`: an array of strings. -/
def capabilities (object : List (String × Value)) (field : String) : Option (List String) :=
  ((object.lookup field).bind asArray).bind fun values => values.mapM stringOf

/-- What the loop over the framework ledger keeps. -/
structure LedgerState where
  previous : Option String
  observed : IdSet

/-- A turn of the loop over the framework ledger. -/
def validateLedgerEntry (profileId : String) (state : LedgerState) (entry : Value) :
    Except ProtocolError LedgerState := do
  let owner := "Web semantic-complete profile " ++ profileId
  let object ← required (asObject entry)
    (.invariant (owner ++ " has a non-object framework ledger entry"))
  let framework ← required (memberStr object "framework")
    (.invariant (owner ++ " has a framework ledger entry without a name"))
  ensure (∀ previous ∈ state.previous, previous < framework)
    (owner ++ " framework ledger is not strictly sorted")
  ensure (memberStr object "status" = some "complete" ∧
      ((object.lookup "reasons").bind asArray).any List.isEmpty = true)
    (owner ++ " has an incomplete framework ledger entry for " ++ framework)
  let required' := capabilities object "required_capabilities"
  let emitted := capabilities object "emitted_capabilities"
  let capability ← required (frameworkCapability framework)
    (.invariant (owner ++ " named unsupported framework " ++ framework))
  let expected := distinctStrings ["framework-semantic-graph-v1", capability,
    "typescript-definition-import-type-call-graph-v2"]
  ensure (required' = emitted ∧ ∃ values ∈ required',
      (distinctStrings values).toList = expected.toList ∧
        (distinctStrings values).size = values.length ∧ values.IsChain (· < ·))
    (owner ++ " did not emit every required capability for " ++ framework)
  return ⟨some framework, state.observed.insert framework⟩

section Web

variable (fromStr : String → Option Value)

def validateWebFrameworkSemanticCompleteness (profile : Profile) : Except ProtocolError Unit := do
  let owner := "Web semantic-complete profile " ++ profile.id
  let frameworkOwner := "Web semantic-complete framework profile " ++ profile.id
  let properties := profile.properties
  let present := frameworkCompletenessProperties.countP fun property => property ∈ properties
  if present = 0 then
    ensure (profile.features = [])
      (frameworkOwner ++ " omitted its framework completeness ledger")
  else
    ensure (present = frameworkCompletenessProperties.length)
      (owner ++ " has a partial framework completeness declaration")
    ensure (properties.getStr "web_framework_completeness_capability" =
        some "framework-semantic-completeness-v1")
      (owner ++ " has an unsupported framework completeness capability")
    let status := properties.getStr "web_framework_completeness_status"
    let issueCount := (properties.getStr "web_framework_completeness_issue_count").bind parseUsize
    let ledger ← required
      (((properties.getStr "web_framework_completeness_ledger").bind fromStr).bind asArray)
      (.invariant (owner ++ " has an invalid framework completeness ledger"))
    if profile.features = [] then
      ensure (status = some "not-detected" ∧ issueCount = some 0 ∧ ledger.isEmpty = true)
        (owner ++ " without framework features must report an empty not-detected ledger")
    else
      ensure (status = some "complete" ∧ issueCount = some 0)
        (frameworkOwner ++ " must report complete with zero issues")
      let expectedFrameworks := distinctStrings profile.features
      ensure (expectedFrameworks.size = profile.features.length ∧
          ledger.length = expectedFrameworks.size)
        (owner ++ " framework features and ledger cardinality disagree")
      let last ← ledger.foldlM (validateLedgerEntry profile.id) ⟨none, ∅⟩
      ensure (last.observed.toList = expectedFrameworks.toList)
        (owner ++ " framework features and ledger names disagree")

def validateWebSemanticCompleteness (profile : Profile) (coverage : Coverage) :
    Except ProtocolError Unit := do
  let owner := "Web semantic-complete profile " ++ profile.id
  let properties := profile.properties
  validateWebFrameworkSemanticCompleteness fromStr profile
  ensure (.syntaxComplete ∈ coverage.completeness) (owner ++ " must also report syntax-complete")
  requireZero owner [("files_skipped", coverage.filesSkipped),
    ("unsupported_syntax", coverage.unsupportedSyntax), ("unresolved", coverage.unresolved)]
  ensure (coverage.projectCodeExecuted = false)
    (owner ++ " requires coverage project_code_executed=false")
  ensure (coverage.reasons = [])
    (owner ++ " requires no coverage reasons, found " ++ debugStrings coverage.reasons)
  requireProperties owner properties webSemanticProperties
  let resolution := properties.getStr "typescript_module_resolution"
  ensure (∃ value ∈ resolution, value ∈ ["inventory-only", "inventory-and-confined-declarations"])
    (owner ++ " requires confined properties.typescript_module_resolution, found " ++
      debugOption debugStr resolution)
  let releaseGate := properties.getStr "typescript_release_gate"
  let integrity := properties.getStr "typescript_standard_library_integrity"
  ensure ((releaseGate, integrity) ∈
      [(some "release-gate-pending", some "build-produced-pending-core-attestation"),
        (some "release-gate-verified", some "core-attested-whole-tree")])
    (owner ++ " requires a matching TypeScript release gate and standard-library integrity, " ++
      "found gate=" ++ debugOption debugStr releaseGate ++ ", integrity=" ++
      debugOption debugStr integrity)

def validateProfileCompleteness (profile : Profile) (coverage : Coverage) :
    Except (Failure ProtocolError) Unit :=
  if .semanticComplete ∉ coverage.completeness then .ok ()
  else if profile.language = "rust" then validateRustSemanticCompleteness profile coverage
  else if profile.language ∈ ["web", "typescript", "javascript"] then
    orReject (validateWebSemanticCompleteness fromStr profile coverage)
  else .ok ()

end Web

end Protocol
