/-!
# Kinds of calls

A call takes one message or many and is answered by one or many.
-/

namespace UserDirectory.Call

/-- How many messages go each way. -/
inductive CallKind
  /-- one request, one response -/
  | unary
  /-- one request, many responses -/
  | serverStreaming
  /-- many requests, one response -/
  | clientStreaming
  /-- many requests, many responses -/
  | bidirectional
  deriving DecidableEq, Repr

/-- The name that stands in the log. -/
def CallKind.name : CallKind → String
  | .unary => "unary"
  | .serverStreaming => "server_streaming"
  | .clientStreaming => "client_streaming"
  | .bidirectional => "bidirectional"

end UserDirectory.Call
