import Depgraph.Health.Findings

/-!
# Surfaces

`classify_surface`: whether a node can be reached in ways that the graph does not show.
-/

namespace Health

open Json Protocol Store

inductive SurfaceRole
  | entryPoint
  | publicSurface
  | dynamicLoading
  | generated
  | internal
  | insufficientEvidence
deriving DecidableEq

/-- `SurfaceClassification`, without the language. -/
structure SurfaceClassification where
  role : SurfaceRole
  reasons : List String

def pathOf (node : NodeRecord) : Option String :=
  (((stringProperty node "path").or (stringProperty node "source_path")).or
    (stringProperty node "src_path")).or (stringProperty node "relative_path")

def isProjectMetadataPath (path : String) : Bool :=
  let fileName := (splitAt '/' path).getLast?.getD path
  ["Cargo.toml", "Cargo.lock", "go.mod", "go.sum", "go.work", "go.work.sum", "package.json",
    "package-lock.json", "npm-shrinkwrap.json", "pnpm-lock.yaml", "yarn.lock", "bun.lock",
    "bun.lockb", "deno.json", "deno.jsonc", "jsconfig.json", "tsconfig.json"].contains fileName ||
  (startsWith fileName "tsconfig." && endsWith fileName ".json") ||
  (startsWith fileName "jsconfig." && endsWith fileName ".json")

/-- The paths that are entry points by convention. -/
def isEntryPath (path : String) : Bool :=
  path == "src/lib.rs" ||
  ["main.rs", "main.go", "main.ts", "main.js", "index.ts", "index.js"].contains path ||
  ["/src/lib.rs", "/main.rs", "/main.go", "/main.ts", "/main.js", "/index.ts",
    "/index.js"].any (endsWith path) ||
  containsText path "/bin/" || containsText path "/cmd/"

/-- `is_entry_point`: the reason, if it is one. -/
def entryPointReason (node : NodeRecord) : Option String :=
  if node.kind = "route" ∨ node.kind = "server_function" ∨ node.kind = "middleware" ∨
      ((stringProperty node "target_kind").any
        fun kind => ["bin", "test", "bench", "example"].contains kind) = true ∨
      ((stringProperty node "variant").any
        fun variant => ["main", "test", "xtest"].contains variant) = true then
    some ("node kind " ++ node.kind ++ " is an entry surface")
  else
    (pathOf node).bind fun path =>
      if isEntryPath path then some ("path " ++ path ++ " is an entry-point convention")
      else if isProjectMetadataPath path then
        some ("path " ++ path ++ " is a project manifest or compiler configuration")
      else none

def exportedGoIdent (node : NodeRecord) : Bool :=
  let name := ((stringProperty node "name").or (stringProperty node "ident")).getD node.displayName
  name.toList.head?.any fun first => 'A' ≤ first && first ≤ 'Z'

/-- `is_public_surface`: the reason, if it is one. -/
def publicSurfaceReason (node : NodeRecord) (language : Option String) : Option String :=
  if boolProperty node "exported" || boolProperty node "public" ||
      (stringProperty node "visibility").any
        fun visibility => ["pub", "public", "exported"].contains visibility then
    if (language.any fun language => ["typescript", "javascript", "ts", "js"].contains language) &&
        (node.kind == "symbol" || node.kind == "type") && boolProperty node "exported" then
      some "TypeScript/JavaScript export"
    else some "exported/public property"
  else if node.kind = "route" ∨ node.kind = "component" then some "framework public surface"
  else if language = some "go" ∧ exportedGoIdent node = true then some "Go exported identifier"
  else none

def isDynamicLoading (node : NodeRecord) : Bool :=
  boolProperty node "dynamic" ||
  ((stringProperty node "load_kind").any fun kind => ["dynamic", "lazy", "import()"].contains kind) ||
  (node.kind == "unknown_target" && (stringProperty node "reason").any
    fun reason => containsText reason "dynamic" || containsText reason "plugin")

def needsVisibilityEvidence (node : NodeRecord) (language : Option String) : Bool :=
  ["symbol", "type"].contains node.kind && (language == some "rust" || language.isNone) &&
    !boolProperty node "exported" && !boolProperty node "public" &&
    (stringProperty node "visibility").isNone

/-- The marks of generated files. -/
def isGenerated (node : NodeRecord) : Bool :=
  boolProperty node "generated" || containsText node.locator "generated" ||
    (pathOf node).any fun path =>
      containsText path "/generated/" || containsText path ".generated." || endsWith path ".g.rs"

def classifySurface (node : NodeRecord) : SurfaceClassification :=
  let language := stringProperty node "language"
  if isGenerated node then ⟨.generated, ["generated artifact marker"]⟩
  else if isDynamicLoading node then ⟨.dynamicLoading, ["dynamic loading marker"]⟩
  else
    match entryPointReason node with
    | some reason => ⟨.entryPoint, [reason]⟩
    | none =>
      match publicSurfaceReason node language with
      | some reason => ⟨.publicSurface, [reason]⟩
      | none =>
        if needsVisibilityEvidence node language then
          ⟨.insufficientEvidence, ["visibility is not recorded on the node"]⟩
        else ⟨.internal, ["no public or entry marker"]⟩

end Health
