import HeuristicEvolution.Failure

/-!
# Services and models

Models are asked for under short names. Each is offered by a service, which wants a key from the
environment.

## Main definitions

* `Service`: the services.
* `OfferedModel`: the models that can be asked for.
* `Endpoint`: a model of a service with the key to it.
-/

namespace HeuristicEvolution

/-- A service that answers chat requests. -/
inductive Service where
  | openAI
  | gemini
  deriving DecidableEq, Repr, Inhabited

namespace Service

/-- The name of a service in reports. -/
def name : Service → String
  | .openAI => "openai"
  | .gemini => "gemini"

/-- The variable of the environment that holds the key to a service. -/
def keyVariable : Service → String
  | .openAI => "OPENAI_API_KEY"
  | .gemini => "GEMINI_API_KEY"

end Service

/-- A model that can be asked for. -/
structure OfferedModel where
  shortName : String
  /-- The name under which the service knows the model. -/
  id : String
  service : Service
  deriving DecidableEq, Repr, Inhabited

namespace OfferedModel

/-- All models that can be asked for. -/
def all : List OfferedModel :=
  [⟨"gemini-2.0", "gemini-2.0-flash", .gemini⟩,
   ⟨"gemini-2.5", "gemini-2.5-pro-exp-03-25", .gemini⟩,
   ⟨"gpt-4o-mini", "gpt-4o-mini", .openAI⟩]

/-- The model of a short name. -/
def ofShortName (shortName : String) : Except Failure OfferedModel :=
  match all.find? fun m => m.shortName == shortName with
  | some m => .ok m
  | none =>
    .error (.configuration ("model '" ++ shortName ++ "' is not supported (options: "
      ++ ", ".intercalate (all.map OfferedModel.shortName) ++ ")"))

end OfferedModel

/-- A model of a service, with the key to the service. -/
structure Endpoint where
  service : Service
  model : String
  key : String
  deriving DecidableEq, Repr, Inhabited

/-- The endpoint of a short name, with the key from the environment. -/
def Endpoint.ofShortName (lookup : String → Option String) (shortName : String) :
    Except Failure Endpoint := do
  let m ← OfferedModel.ofShortName shortName
  match lookup m.service.keyVariable with
  | some key => return ⟨m.service, m.id, key⟩
  | none =>
    throw (.configuration (m.service.keyVariable ++ " is not set (required by model '" ++ shortName
      ++ "')"))

end HeuristicEvolution
