import DiStore.Common.Bytes

/-!
Contract: what a lock holder and the threads that lost to it share.

Owns: `ConcurrencyContextType`, `ConcurrencyRequests`, `ConcurrencyContext`.

Does not own: the order of steps in which they are used
(`Cluster.LockMachine`).
-/

set_option autoImplicit false

namespace DiStore.Concurrency

/-- A registered thread. `cctx` maps it to its only `ConcurrencyContext`, so a
pointer to a context is the thread that owns it. -/
abbrev ThreadId := Nat

inductive ConcurrencyContextType where
  | insert
  | update
  | delete
deriving DecidableEq, Repr

/-- What a request ends with once `is_done` is set. -/
structure Reply where
  succeed : Bool
  retry : Bool
deriving DecidableEq, Repr

/-- A request that waits for its reply. `tag` and `content` point to the strings on
the requester's stack, and a thread waits for at most one request at a time. -/
structure ConcurrencyRequest where
  requester : ThreadId
  tag : Bytes16
  content : Bytes16
deriving DecidableEq

structure ConcurrencyContext where
  type : ConcurrencyContextType
  maxDepth : Int
  requests : List ConcurrencyRequest

/-- `ConcurrencyContext()`. -/
def ConcurrencyContext.initial : ConcurrencyContext where
  type := .insert
  maxDepth := 4
  requests := []

end DiStore.Concurrency
