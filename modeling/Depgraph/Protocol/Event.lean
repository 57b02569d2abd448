import Depgraph.Protocol.Delta

/-!
# Protocol events

`event.rs`: the events of a worker stream. The fields that all events have in common stand beside the
payload.
-/

namespace Protocol

open Json

structure Profile where
  id : String
  language : String
  toolchain : Option Value
  command : Option String
  target : Option String
  features : List String
  environment : Properties
  sourceRevision : Option String
  properties : Properties

inductive DiagnosticSeverity where
  | info | warning | error
deriving DecidableEq

structure Diagnostic where
  id : String
  severity : DiagnosticSeverity
  code : String
  message : String
  profileId : Option String
  path : Option String
  startLine : Option Nat
  startColumn : Option Nat
  endLine : Option Nat
  endColumn : Option Nat
  evidence : List Evidence
  properties : Properties

/-- The variants of `ProtocolEvent` without their common fields. -/
inductive EventPayload where
  | scanStarted (root : String) (projectCodeExecuted safeMode : Bool)
  | profileDeclared (profile : Profile)
  | nodeUpsert (node : GraphNode)
  | edgeUpsert (edge : GraphEdge)
  | dependencySite (site : DependencySite)
  | diagnostic (diagnostic : Diagnostic)
  | fileCompleted (path : String) (discoveredSites emittedSites skippedSites : Nat)
      (skipped : Bool) (reason : Option String)
  | profileCompleted (profileId : String) (coverage : Coverage)
  | scanCompleted (coverage : Coverage)

structure ProtocolEvent where
  common : CommonFields
  payload : EventPayload

end Protocol
