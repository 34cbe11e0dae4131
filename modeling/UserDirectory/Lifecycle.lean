import UserDirectory.Settings
import UserDirectory.Telemetry.Note
/-!
# The life of the server

What the server notes from its start to its end, when it keeps its users in memory and is
interrupted as soon as it is ready.
-/

namespace UserDirectory.Lifecycle

open UserDirectory.Access (Snapshot)
open UserDirectory.Telemetry (Metrics Note)

/-- Whether the server keeps a snapshot of its users. -/
def refreshes (s : Settings) : Bool := s.authEnabled && s.policy = .snapshot

/-- What is noted until the server is ready. -/
def startNotes (s : Settings) : List Note :=
  [.serverStarting s.authEnabled, .storeInMemory]
    ++ (if refreshes s then [.snapshotRefreshed (Snapshot.ofUsers []).userCount] else [])
    ++ (if s.authEnabled then [.authenticationOn s.policy s.issuer] else [])
    ++ [.serverReady s.authEnabled]

/-- What is noted from the interruption on. -/
def stopNotes (s : Settings) (metrics : Metrics) : List Note :=
  [.serverInterrupted]
    ++ (if refreshes s then [.refresherStopped] else [])
    ++ (if s.printMetrics then Note.ofStatistics metrics else [])
    ++ [.serverStopped]

/-- What is noted in a life without calls. -/
def idleNotes (s : Settings) : List Note := startNotes s ++ stopNotes s .zero

/-- What is printed where the settings cannot be had. -/
def report (e : SettingsError) : String := "Error: " ++ e.message ++ "\n"

end UserDirectory.Lifecycle
