import Depgraph.Health.Findings
import Depgraph.Library.Grouping

/-!
# Build conditions of Go files

The conditions under which Go files are built, as far as the profiles decide them. What serde decodes
a condition from is a parameter.
-/

namespace Health

open Json Protocol Store SortDedup OrderedMap Std

inductive GoConditionState
  | true
  | false
  | unknown
deriving DecidableEq

def combineGoConditionStates (states : List GoConditionState) : GoConditionState :=
  if .true ∈ states then .true
  else if .unknown ∈ states then .unknown
  else .false

/-- The conjunction of the states of the operands. -/
def allStates (states : List GoConditionState) : GoConditionState :=
  if .false ∈ states then .false
  else if .unknown ∈ states then .unknown
  else .true

def GoConditionState.negate : GoConditionState → GoConditionState
  | .true => .false
  | .false => .true
  | .unknown => .unknown

def goosTags : List String :=
  ["aix", "android", "darwin", "dragonfly", "freebsd", "hurd", "illumos", "ios", "js", "linux",
    "netbsd", "openbsd", "plan9", "solaris", "wasip1", "windows", "zos"]

def goarchTags : List String :=
  ["386", "amd64", "arm", "arm64", "loong64", "mips", "mips64", "mips64le", "mipsle", "ppc64",
    "ppc64le", "riscv64", "s390x", "sparc64", "wasm"]

def unixGoosTags : List String :=
  ["aix", "android", "darwin", "dragonfly", "freebsd", "hurd", "illumos", "ios", "linux", "netbsd",
    "openbsd", "solaris"]

def profileString (profile : ProfileRecord) (key : String) : Option String :=
  (profile.environment.get key).bind Proper.asStr

def goosDefinesTag (goos tag : String) : Bool :=
  goos == tag || [("android", "linux"), ("ios", "darwin"), ("illumos", "solaris")].contains (goos, tag)

def isWhitespace (c : Char) : Bool :=
  (9 ≤ c.toNat && c.toNat ≤ 13) || (0x2000 ≤ c.toNat && c.toNat ≤ 0x200A) ||
    [0x20, 0x85, 0xA0, 0x1680, 0x2028, 0x2029, 0x202F, 0x205F, 0x3000].contains c.toNat

/-- `str::trim`. -/
def trimText (text : String) : String :=
  String.ofList ((text.toList.dropWhile isWhitespace).reverse.dropWhile isWhitespace).reverse

/-- A state that is decided when a value is there. -/
def decidedBy (value : Option String) (test : String → Bool) : GoConditionState :=
  value.elim .unknown fun value => if test value then .true else .false

def evaluateGoBuildTag (key : String) (profile : ProfileRecord) : GoConditionState :=
  if !startsWith key "go.build_tag:" then .unknown
  else
    let tag := String.ofList (key.toList.drop "go.build_tag:".length)
    if profileString profile "GOOS" = some tag ∨ profileString profile "GOARCH" = some tag then .true
    else if goosTags.contains tag then
      decidedBy (profileString profile "GOOS") fun value => goosDefinesTag value tag
    else if goarchTags.contains tag then decidedBy (profileString profile "GOARCH") fun _ => false
    else if tag = "unix" then decidedBy (profileString profile "GOOS") unixGoosTags.contains
    else if tag = "cgo" then
      (profileString profile "CGO_ENABLED").elim .unknown fun value =>
        if value = "1" then .true else if value = "0" then .false else .unknown
    else if ["gc", "gccgo"].contains tag || startsWith tag "go1." || startsWith tag "goexperiment." then
      .unknown
    else if profile.features.contains tag then .true
    else decidedBy (profileString profile "GO_TAGS") fun tags =>
      (splitAt ',' tags).any fun value => trimText value == tag

/-- The state of a condition on a value of the environment. -/
def environmentState (profile : ProfileRecord) (key : String) (test : Value → Bool) :
    GoConditionState :=
  (profile.environment.get key).elim .unknown fun actual =>
    if test actual.value then .true else .false

mutual

def evaluateGoCondition (profile : ProfileRecord) (depth : Nat) : Condition → GoConditionState
  | .all conditions =>
    if 128 < depth then .unknown
    else allStates (evaluateGoConditions profile (depth + 1) conditions)
  | .any conditions =>
    if 128 < depth then .unknown
    else combineGoConditionStates (evaluateGoConditions profile (depth + 1) conditions)
  | .not condition =>
    if 128 < depth then .unknown
    else (evaluateGoCondition profile (depth + 1) condition).negate
  | .eq key value =>
    if 128 < depth then .unknown else environmentState profile key fun actual => actual == value
  | .isIn key values =>
    if 128 < depth then .unknown
    else environmentState profile key fun actual => values.any fun value => value == actual
  | .defined key => if 128 < depth then .unknown else evaluateGoBuildTag key profile

def evaluateGoConditions (profile : ProfileRecord) (depth : Nat) :
    List Condition → List GoConditionState
  | [] => []
  | condition :: rest =>
    evaluateGoCondition profile depth condition :: evaluateGoConditions profile depth rest

end

/-- What the analysis rests on outside this code: stable identities and the decoder that serde
derives for conditions. -/
structure Libraries extends StableIds where
  decodeCondition : Proper → Option Condition

variable (L : Libraries)

/-- `parse_go_condition`: an empty object is the condition that always holds. -/
def parseGoCondition (value : Proper) : Option Condition :=
  if (asObject value.value).any List.isEmpty then some (.all []) else L.decodeCondition value

def goConditionIsAlways (value : Proper) : Bool :=
  match parseGoCondition L value with
  | some (.all []) => true
  | _ => false

/-- The profile of an id. Of two with one id the last counts. -/
def profileById (profiles : List ProfileRecord) (id : String) : Option ProfileRecord :=
  profiles.reverse.find? fun profile => profile.id = id

def goConditionState (profiles : List ProfileRecord) (condition : Proper) (profileId : String) :
    GoConditionState :=
  match profileById profiles profileId, parseGoCondition L condition with
  | some profile, some condition => evaluateGoCondition profile 0 condition
  | _, _ => .unknown

/-! ### Condition groups -/

/-- `GoConditionKey`: what conditions inspect of a profile. -/
abbrev GoConditionKey := Bool ×ₗ String ×ₗ List String

def goConditionKey (profile : Option ProfileRecord) : GoConditionKey :=
  profile.elim (toLex (false, toLex ("", []))) fun profile =>
    toLex (true, toLex (canonicalJson L.floatText profile.environment.value,
      exact id profile.features))

/-- The Go profiles by what conditions inspect of them. The first of a group represents it. -/
def goConditionGroups (profiles : List ProfileRecord) (goProfileIds : List String) :
    List (List String) :=
  values (groupBy (fun id => some (goConditionKey L (profileById profiles id))) goProfileIds)

/-- The representative of a Go profile. -/
def representativeOf (groups : List (List String)) (profileId : String) : Option String :=
  (groups.find? fun members => members.contains profileId).bind List.head?

/-- The group that a profile represents. -/
def membersOf (groups : List (List String)) (representative : String) : Option (List String) :=
  groups.find? fun members => members.head? = some representative

def goProfileRepresentative (groups : List (List String)) (profileId : String) : String :=
  (representativeOf groups profileId).getD profileId

def goProfileGroupMembers (groups : List (List String)) (representative : String) : List String :=
  (membersOf groups representative).getD [representative]

/-! ### The conditions of a file -/

/-- `GoFileConditions`: the state of a file under each profile that differs from the default. -/
structure GoFileConditions where
  default : GoConditionState
  overrides : List (String × GoConditionState)

/-- What the loop over the incoming edges of a file keeps: the states that have been evaluated for a
group and a condition, and the states of the profiles with the mark of a fallback. -/
structure ConditionStates where
  cache : List ((String × String) × GoConditionState)
  states : List (String × GoConditionState × Bool)

/-- A turn of that loop. -/
def ConditionStates.add (profiles : List ProfileRecord) (groups : List (List String))
    (hasBuildConstraint : Bool) (found : ConditionStates) (edge : EdgeRecord) : ConditionStates :=
  if edge.kind ≠ "contains" then found
  else
    match representativeOf groups edge.profileId with
    | none => found
    | some representative =>
      let key := (representative, canonicalJson L.floatText edge.condition.value)
      let fallback := hasBuildConstraint && goConditionIsAlways L edge.condition
      match found.cache.find? fun entry => entry.1 = key with
      | some entry => { found with states := found.states ++ [(edge.profileId, entry.2, fallback)] }
      | none =>
        let state := goConditionState L profiles edge.condition edge.profileId
        { cache := found.cache ++ [(key, state)]
          states := found.states ++ [(edge.profileId, state, fallback)] }

/-- The state of a profile with conditions. -/
def profileState (states : List (String × GoConditionState × Bool)) (profileId : String) :
    GoConditionState :=
  let own := states.filter fun entry => entry.1 = profileId
  if own.any fun entry => entry.2.2 then .unknown
  else combineGoConditionStates (own.map fun entry => entry.2.1)

def GoFileConditions.build (profiles : List ProfileRecord) (groups : List (List String))
    (hasBuildConstraint : Bool) (incoming : List EdgeRecord) : GoFileConditions :=
  let default : GoConditionState := if hasBuildConstraint then .unknown else .true
  let found := incoming.foldl (ConditionStates.add L profiles groups hasBuildConstraint) ⟨[], []⟩
  let profileIds := exact id (found.states.map Prod.fst)
  { default
    overrides := (profileIds.map fun profileId => (profileId, profileState found.states profileId)).filter
      fun entry => entry.2 ≠ default }

namespace GoFileConditions

variable (conditions : GoFileConditions) (groups : List (List String)) (representative : String)

/-- The overrides of a group. -/
def group : List (String × GoConditionState) :=
  conditions.overrides.filter fun entry => representativeOf groups entry.1 = some representative

def state (profileId : String) : GoConditionState :=
  (((conditions.group groups representative).find? fun entry => entry.1 = profileId).map
    Prod.snd).getD conditions.default

/-- The number of overrides of a group with this state. -/
def countOf (wanted : GoConditionState) : Nat :=
  (conditions.group groups representative).countP fun entry => entry.2 = wanted

def groupHasState (size : Nat) (wanted : GoConditionState) : Bool :=
  let group := conditions.group groups representative
  if conditions.default = wanted then decide (group.length < size)
  else
    match wanted with
    | .true => decide (0 < conditions.countOf groups representative .true)
    | .unknown => decide (0 < conditions.countOf groups representative .unknown)
    | .false => decide (conditions.countOf groups representative .true +
        conditions.countOf groups representative .unknown < group.length)

def hasUsage (usage : List String) : Bool :=
  let group := conditions.group groups representative
  if usage = [] then false
  else if group = [] then conditions.default = .true
  else if usage.length < group.length then
    usage.any fun profileId => conditions.state groups representative profileId = .true
  else
    let exceptional := group.filter fun entry => usage.contains entry.1
    (exceptional.any fun entry => entry.2 = .true) ||
      (decide (conditions.default = .true) && decide (exceptional.length < usage.length))

/-- `GoFileConditions::add_unknown_blockers`: the profiles that get a blocker. -/
def unknownProfiles (members : List String) : List String :=
  if !conditions.groupHasState groups representative members.length .unknown then []
  else if conditions.default = .unknown then
    members.filter fun profileId => conditions.state groups representative profileId = .unknown
  else ((conditions.group groups representative).filter fun entry => entry.2 = .unknown).map Prod.fst

end GoFileConditions

end Health
