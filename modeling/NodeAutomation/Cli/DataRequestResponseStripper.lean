import NodeAutomation.Interfaces
import NodeAutomation.TaskRunner.BuiltInsParser

/-! The data that a task asks for, out of all that a Code node could read
(`packages/cli/src/task-runners/task-managers/data-request-response-stripper.ts`). -/

namespace NodeAutomation.BuiltIns

structure SourceData where
  previousNode : String
  deriving DecidableEq

structure EnvProviderState where
  env : OrderedMap String String
  isEnvAccessBlocked : Bool
  isProcessAvailable : Bool
  deriving DecidableEq

/-- `kept` are the start data, the error and metadata of the result, the execution data and the
resume token; `dropped` is what `createRunExecutionData` is not given. -/
structure RunExecutionData where
  runData : OrderedMap String JsValue
  pinData : Option (OrderedMap String JsValue)
  kept : JsValue
  dropped : Option JsValue
  deriving DecidableEq

structure DataRequestResponse where
  inputData : OrderedMap String (List (Option (List JsValue)))
  connectionInputSource : Option (OrderedMap String (List (Option SourceData)))
  envProviderState : EnvProviderState
  runExecutionData : RunExecutionData
  other : JsValue
  deriving DecidableEq

def determinePrevNodeName (response : DataRequestResponse) : String :=
  match ((response.connectionInputSource.bind fun source => source.get "main").bind (·[0]?)).bind id with
  | some sourceData => sourceData.previousNode
  | none => ""

/-- The names in `requestedNodeNames`, where not all nodes are requested. -/
def requestedNodeNames (params : TaskDataRequestParams) (names : OrderedSet String)
    (response : DataRequestResponse) : OrderedSet String :=
  if params.prevNode then names.add (determinePrevNodeName response) else names

def stripRunExecutionData (params : TaskDataRequestParams) (response : DataRequestResponse) :
    RunExecutionData :=
  match params.dataOfNodes with
  | .all => response.runExecutionData
  | .names names =>
    let requested := (requestedNodeNames params names response).contains
    { runData := response.runExecutionData.runData.filterKeys requested
      pinData := response.runExecutionData.pinData.map (·.filterKeys requested)
      kept := response.runExecutionData.kept
      dropped := none }

def stripEnvProviderState (params : TaskDataRequestParams) (state : EnvProviderState) : EnvProviderState :=
  if params.env then state else { state with env := ∅ }

def stripChunkedInputData (chunk : InputDataChunkDefinition)
    (inputData : OrderedMap String (List (Option (List JsValue)))) :
    OrderedMap String (List (Option (List JsValue))) :=
  match ((inputData.get "main").bind (·[0]?)).bind id with
  | none => inputData
  | some inputItems => inputData.set "main" [some ((inputItems.drop chunk.startIndex).take chunk.count)]

def chunkedInputData (chunk : Option InputDataChunkDefinition)
    (inputData : OrderedMap String (List (Option (List JsValue)))) :
    OrderedMap String (List (Option (List JsValue))) :=
  match chunk with
  | none => inputData
  | some chunk => stripChunkedInputData chunk inputData

def stripInputData (params : TaskDataRequestParams)
    (inputData : OrderedMap String (List (Option (List JsValue)))) :
    OrderedMap String (List (Option (List JsValue))) :=
  if params.includeInput then chunkedInputData params.chunk inputData else ∅

def strip (params : TaskDataRequestParams) (response : DataRequestResponse) : DataRequestResponse :=
  { response with
    inputData := stripInputData params response.inputData
    envProviderState := stripEnvProviderState params response.envProviderState
    runExecutionData := stripRunExecutionData params response }

end NodeAutomation.BuiltIns
