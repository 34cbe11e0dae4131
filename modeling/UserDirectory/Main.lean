import Std.Time.DateTime.Timestamp
import UserDirectory.Lifecycle
import UserDirectory.Telemetry.Line
import UserDirectory.TokenTool
/-!
# The command line

With the word `token`, a token is issued for whoever the environment names and printed.  Without it, the
server starts and runs until its standard input ends.
-/

namespace UserDirectory.CommandLine

/-- The variables that mean something to the server or to the token tool. -/
def variableNames : List String :=
  ["DATABASE_URL", "AUTH_ENABLED", "JWT_SECRET", "JWT_ISSUER", "JWT_EXPIRY", "AUTHZ_POLICY",
   "AUTHZ_REFRESH_INTERVAL", "PRINT_METRICS", "STREAM_BUFFER", "TOKEN_USER_ID", "TOKEN_USERNAME",
   "TOKEN_EMAIL", "TOKEN_ROLES"]

/-- The variables of the environment that are set. -/
def environment : IO Environment := do
  let found ← variableNames.filterMapM fun name => do
    let value ← IO.getEnv name
    pure (value.map fun v => (name, v))
  pure (.ofList found)

/-- The second on the wall. -/
def second : IO Int64 := do
  let now ← Std.Time.Timestamp.now
  pure (Int64.ofInt now.toSecondsSinceUnixEpoch.val)

/-- Issues a token and prints it. -/
def token : IO UInt32 := do
  match TokenTool.run (← environment) (← second) with
  | .ok text =>
    IO.println text
    pure 0
  | .error e =>
    IO.eprint e.report
    pure 1

/-- Prints some lines of the log. -/
def log (notes : List Telemetry.Note) : IO Unit := notes.forM fun n => IO.println n.line

/-- Runs the server until the standard input ends. -/
def server : IO UInt32 := do
  match Settings.ofEnvironment (← environment) with
  | .ok s =>
    log (Lifecycle.startNotes s)
    let _ ← (← IO.getStdin).readToEnd
    log (Lifecycle.stopNotes s .zero)
    pure 0
  | .error e =>
    IO.eprint (Lifecycle.report e)
    pure 1

end UserDirectory.CommandLine

/-- The program. -/
def main (args : List String) : IO UInt32 :=
  match args with
  | ["token"] => UserDirectory.CommandLine.token
  | _ => UserDirectory.CommandLine.server
