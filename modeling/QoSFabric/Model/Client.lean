import QoSFabric.Model.Store

/-!
# The calls of a store

The public interface of `Store`: the calls that change it, and what those that succeed hand back.
-/

namespace QoSFabric

inductive StoreCall where
  | append (type : RecordType) (payload : Bytes)
  | stage (type : RecordType) (payload : Bytes)
  | commit (attempt : AttemptId) (appliedDigest : Digest256)
  | abort (attempt : AttemptId) (reason : Text)
  | writeSnapshot (snapshot : Bytes)
  | adoptStoreIdentity (storeId : Text)
  | close

inductive StoreAnswer where
  | appended (sequence : Sequence)
  | staged (attempt : AttemptId)
  | finished
  deriving DecidableEq

def answered {α : Type} (answer : α → StoreAnswer) (operation : Files (Result α × Store)) :
    Files (Result StoreAnswer × Store) := do
  let (result, s) ← operation
  pure (result.map answer, s)

namespace Store

def call (s : Store) : StoreCall → Files (Result StoreAnswer × Store)
  | .append type payload => answered .appended (s.append type payload)
  | .stage type payload => answered .staged (s.stage type payload)
  | .commit attempt appliedDigest => answered (fun _ => .finished) (s.commit attempt appliedDigest)
  | .abort attempt reason => answered (fun _ => .finished) (s.abort attempt reason)
  | .writeSnapshot snapshot => answered (fun _ => .finished) (s.writeSnapshot snapshot)
  | .adoptStoreIdentity storeId => answered (fun _ => .finished) (s.adoptStoreIdentity storeId)
  | .close => answered (fun _ => .finished) s.close

end Store

/-- A call that has succeeded, or an opening of the directory. -/
inductive StoreEvent where
  | opened (boot : Bytes)
  | called (call : StoreCall) (answer : StoreAnswer)

end QoSFabric
