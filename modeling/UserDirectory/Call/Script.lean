import UserDirectory.Call.Handler
/-!
# Scripted handlers

A handler for trying out the chain: a script says what it sends, how long it waits and how it ends.
There is a shape of it for each kind of call.
-/

namespace UserDirectory.Call

open UserDirectory.Access (Claims requireRole)
open UserDirectory.Service (ServiceError)

/-- What a scripted handler does; messages are of type `δ`. -/
structure Script (δ : Type) where
  /-- what is sent first, where responses come as a stream -/
  sends : List δ
  /-- the milliseconds it waits -/
  pause : Nat
  /-- whether it cancels its own call -/
  cancels : Bool
  failure : Option ServiceError
  /-- the roles of which the caller must hold one -/
  roles : Option (List Role)
  /-- whether it tells who the caller is -/
  tellsCaller : Bool
  /-- what it gives else -/
  value : Option δ
  /-- whether the end of it goes through the chain once more, where messages come as a stream -/
  again : Bool

/-- What a scripted handler gives at the end. -/
inductive ScriptEnd (δ : Type) where
  | value (v : Option δ)
  | caller (claims : Option Claims)

/-- What a scripted handler gives. -/
inductive ScriptResult (δ : Type) where
  | plain (e : ScriptEnd δ)
  /-- the messages it has got, and then its end -/
  | collected (got : List δ) (e : ScriptEnd δ)

/-- What a scripted handler sends. -/
inductive ScriptResponse (δ : Type) where
  | item (x : δ)
  /-- a message it has got -/
  | echo (x : δ)

namespace Script

variable {δ : Type}

/-- An action with messages of a script. -/
abbrev Act (δ α : Type) : Type := Action (ScriptResponse δ) α

/-- Asks that the caller be known and hold one of some roles. -/
def checkRoles (roles : List Role) : Act δ Unit := do
  match ← Action.claims with
  | none => throw (.unauthenticated .noClaims)
  | some claims =>
    match requireRole claims roles with
    | .ok () => pure ()
    | .error e => throw (.permissionDenied e)

/-- Waits and does what may stop the call. -/
def hazards (s : Script δ) : Act δ Unit := do
  Action.ofProgram (.pause s.pause (.done ()))
  if s.cancels then Action.ofProgram (.cancel (.done ()))
  match s.failure with
  | some e => throw e
  | none => pure ()
  match s.roles with
  | some roles => checkRoles roles
  | none => pure ()

/-- The end of a script. -/
def ending (s : Script δ) : Act δ (ScriptEnd δ) := do
  s.hazards
  if s.tellsCaller then
    let claims ← Action.claims
    pure (.caller claims)
  else pure (.value s.value)

/-- Does an action inside of another pass through the chain. -/
def nested {α : Type} (a : Act δ α) : Act δ α := do
  match ← Action.ofProgram (.enter .done) with
  | some e => throw e
  | none =>
    match ← Action.outcome a with
    | .ok r => do
      Action.ofProgram (.leave none (.done ()))
      pure r
    | .error e => do
      Action.ofProgram (.leave (some e) (.done ()))
      throw e

/-- The end of a script where messages come as a stream. -/
def streamedEnding (s : Script δ) : Act δ (ScriptEnd δ) :=
  if s.again then nested s.ending else s.ending

/-- Sends messages one after another. -/
def sendItems : List δ → Act δ Unit
  | [] => pure ()
  | x :: more => do
    Action.send (.item x)
    sendItems more

/-- What a script does where it takes no stream of requests. -/
def alone (s : Script δ) : CallKind → Act δ (ScriptResult δ)
  | .serverStreaming => do
    sendItems s.sends
    let e ← s.streamedEnding
    pure (.plain e)
  | _ => do
    let e ← s.ending
    pure (.plain e)

/-- What a script does with a request of a stream: it echoes or keeps it. -/
def onItem (kind : CallKind) (got : List δ) (x : δ) : Act δ (List δ) :=
  match kind with
  | .bidirectional => do
    Action.send (.echo x)
    pure got
  | _ => pure (got ++ [x])

/-- What a script does after the last request of a stream. -/
def onEnd (s : Script δ) (kind : CallKind) (got : List δ) : Act δ (ScriptResult δ) := do
  let e ← s.streamedEnding
  match kind with
  | .clientStreaming => pure (.collected got e)
  | _ => pure (.plain e)

/-- Where a script starts. -/
def begin (s : Script δ) (kind : CallKind) : Stage (ScriptResponse δ) (List δ) (ScriptResult δ) :=
  match kind with
  | .clientStreaming => .awaiting []
  | .bidirectional => .awaiting []
  | _ => .closing (s.alone kind).program

/-- The handler of a script for a kind of call. -/
def handler (s : Script δ) (kind : CallKind) :
    Handler δ (ScriptResponse δ) (List δ) (ScriptResult δ) where
  onItem got x := (onItem kind got x).program
  onEnd got := (s.onEnd kind got).program
  start := s.begin kind

end Script

end UserDirectory.Call
