import DocumentStore.Engine.Memory
import DocumentStore.Engine.Scripted

/-!
Contract: the engines a workspace can hold.

Owns: the choice between them.

Does not own: what either of them does.
-/

set_option autoImplicit false

namespace DocumentStore

/-- An engine of either kind. -/
inductive Engine where
  | memory (state : Memory)
  | scripted (state : Scripted)

instance [Machine] : DocumentEngine Engine where
  perform store request
    | .memory state =>
        let (outcome, after) := DocumentEngine.perform store request state
        (outcome, .memory after)
    | .scripted state =>
        let (outcome, after) := DocumentEngine.perform store request state
        (outcome, .scripted after)

/-- A call taken as it is. Only a scripted engine takes calls, the other one requests. -/
def Engine.take (call : Call) : Engine → Outcome × Engine
  | .memory state => (.answer .nothing, .memory state)
  | .scripted state =>
      let (outcome, after) := state.take call
      (outcome, .scripted after)

end DocumentStore
