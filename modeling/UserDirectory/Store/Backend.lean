import UserDirectory.Store.Fault
import UserDirectory.Store.Memory
import UserDirectory.Store.Relational.Engine
/-!
# What stands behind the service

A store of either kind, with the failures that are planned for it and the names of the operations
that have been asked of it.
-/

namespace UserDirectory.Store

open UserDirectory.Telemetry (Note)
open UserDirectory.Time (Instant)

/-! ## §1. Stores. -/

/-- A store: one in memory, or a database and what has been asked of it. -/
inductive Engine
  | memory (table : Table)
  | relational (server : Relational.Server) (history : List Relational.Query)

namespace Engine

/-- A database to which no connection can be had any more. -/
def unreachable : Engine := relational .unreachable []

/-- Performs an operation: what it gives, the store after it, and what is noted.  A database is not
asked what cannot be asked. -/
def perform (e : Engine) (now : Instant) (op : Operation) : op.Outcome × Engine × List Note :=
  match e with
  | memory t =>
    let (outcome, t') := t.perform now op
    (outcome, memory t', [])
  | relational server history =>
    match Relational.queryOf now op with
    | .error e => (.error e, relational server history, [])
    | .ok q =>
      let reply := server history q
      (Relational.interpret op reply, relational server (history ++ [q]),
        Relational.noteOf op reply)

end Engine

/-! ## §2. Stores with planned failures. -/

/-- A store with the failures planned for it. -/
structure Backend where
  engine : Engine
  faults : List Fault
  /-- the names of the operations that calls have asked for, in order -/
  asked : List String

namespace Backend

/-- An empty store without planned failures. -/
def empty : Backend := ⟨.memory .empty, [], []⟩

/-- Asks for an operation: what befalls it. -/
def ask (b : Backend) (op : Operation) : Fault × Backend :=
  let (fault, left) := Fault.meet op.name b.faults
  (fault, { b with faults := left, asked := b.asked ++ [op.name] })

/-- Performs an operation that nothing befalls any more. -/
def perform (b : Backend) (now : Instant) (op : Operation) : op.Outcome × Backend × List Note :=
  let (outcome, engine, notes) := b.engine.perform now op
  (outcome, { b with engine }, notes)

end Backend

end UserDirectory.Store
