import DdsOrchestrator.Lib.Assoc
import DdsOrchestrator.Dataspace.Samples

/-!
The tool calls of the dataspace. An instance is keyed by its `call_id`; whoever
asks for the call and the gateways that serve it write the same instance. The
interface is what the gateways use of a backend, and the backend in memory is
one of it.
-/

namespace DdsOrchestrator.Dataspace

/-- A backend of tool calls with states of type `D`. A write can fail, and can
leave a change behind when it does. -/
class DataSpaceApi (D : Type) where
  writeToolCall : ToolCallRequest → D → Except DataSpaceError Unit × D
  writeToolCallWithoutOwnership : ToolCallRequest → D → Except DataSpaceError Unit × D
  readToolCall : String → D → Except DataSpaceError (Option ToolCallRequest)

def maxTasksInCache : Nat := 2048

/-- What the backend in memory holds: the last sample of each call. -/
structure InMemoryDataSpace where
  toolCalls : Map String ToolCallRequest

namespace InMemoryDataSpace

def new : InMemoryDataSpace := ⟨∅⟩

def acceptsKey (space : InMemoryDataSpace) (key : String) : Bool :=
  (space.toolCalls.lookup key).isSome || space.toolCalls.keys.length < maxTasksInCache

/-- A call beyond the capacity is dropped, and the write succeeds all the same. -/
def writeToolCall (call : ToolCallRequest) (space : InMemoryDataSpace) :
    Except DataSpaceError Unit × InMemoryDataSpace :=
  if space.acceptsKey call.callId then (.ok (), ⟨space.toolCalls.insert call.callId call⟩)
  else (.ok (), space)

def readToolCall (callId : String) (space : InMemoryDataSpace) :
    Except DataSpaceError (Option ToolCallRequest) :=
  .ok (space.toolCalls.lookup callId)

end InMemoryDataSpace

instance : DataSpaceApi InMemoryDataSpace where
  writeToolCall := InMemoryDataSpace.writeToolCall
  writeToolCallWithoutOwnership := InMemoryDataSpace.writeToolCall
  readToolCall := InMemoryDataSpace.readToolCall

end DdsOrchestrator.Dataspace
