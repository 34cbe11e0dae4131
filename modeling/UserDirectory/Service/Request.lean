import UserDirectory.Call.Context
import UserDirectory.Call.Stream
import UserDirectory.Service.Activity
import UserDirectory.Service.Batch
import UserDirectory.Service.Listing
import UserDirectory.Service.Method
import UserDirectory.Service.Sync
/-!
# Requests

A request names a method and brings what the method takes: a message, or a stream of them.  What
answers it is the handler of that very method.

Main statement: `Request.context_method`, a request is judged by the full name of its method.
-/

namespace UserDirectory.Service

open UserDirectory.Call

/-! ## §1. What a method takes and gives. -/

namespace Method

/-- How many messages go each way. -/
def kind : Method → CallKind
  | listUsers => .serverStreaming
  | listUsersByRole => .serverStreaming
  | batchAddUsers => .clientStreaming
  | userActivityStream => .bidirectional
  | syncUsers => .bidirectional
  | _ => .unary

/-- What arrives in the stream of requests. -/
def Item : Method → Type
  | batchAddUsers => User
  | userActivityStream => UserActivity
  | syncUsers => User
  | _ => Empty

/-- What is sent in the stream of responses. -/
def Response : Method → Type
  | listUsers => User
  | listUsersByRole => User
  | userActivityStream => UserActivityResponse
  | syncUsers => SyncUserResponse
  | _ => Empty

/-- What is given at the end. -/
def Result : Method → Type
  | getUser => User
  | updateUser => User
  | batchAddUsers => BatchAddUsersResponse
  | _ => Unit

/-- What is kept between two messages. -/
def Progress : Method → Type
  | batchAddUsers => BatchTotals
  | _ => Unit

end Method

/-! ## §2. Requests. -/

/-- A request. -/
inductive Request
  | addUser (user : User)
  | getUser (request : GetUserRequest)
  | updateUser (request : UpdateUserRequest)
  | deleteUser (request : DeleteUserRequest)
  | listUsers (request : ListUsersRequest)
  | listUsersByRole (request : UserRoleRequest)
  | batchAddUsers (users : Inbound User)
  | userActivityStream (activities : Inbound UserActivity)
  | syncUsers (users : Inbound User)

namespace Request

/-- The method that a request names. -/
def method : Request → Method
  | addUser _ => .addUser
  | getUser _ => .getUser
  | updateUser _ => .updateUser
  | deleteUser _ => .deleteUser
  | listUsers _ => .listUsers
  | listUsersByRole _ => .listUsersByRole
  | batchAddUsers _ => .batchAddUsers
  | userActivityStream _ => .userActivityStream
  | syncUsers _ => .syncUsers

/-- What answers a request. -/
def handler : (r : Request) →
    Handler r.method.Item r.method.Response r.method.Progress r.method.Result
  | addUser u => .ofAction (Service.addUser u)
  | getUser r => .ofAction (Service.getUser r)
  | updateUser r => .ofAction (Service.updateUser r)
  | deleteUser r => .ofAction (Service.deleteUser r)
  | listUsers r => .ofAction (Service.listUsers r)
  | listUsersByRole r => .ofAction (Service.listUsersByRole r)
  | batchAddUsers _ => Service.batchAddUsers
  | userActivityStream _ => Service.userActivityStream
  | syncUsers _ => Service.syncUsers

/-- The stream that a request brings. -/
def inbound : (r : Request) → Inbound r.method.Item
  | addUser _ => .empty
  | getUser _ => .empty
  | updateUser _ => .empty
  | deleteUser _ => .empty
  | listUsers _ => .empty
  | listUsersByRole _ => .empty
  | batchAddUsers users => users
  | userActivityStream activities => activities
  | syncUsers users => users

/-- What is known of the call of a request at its start. -/
def context (r : Request) (metadata : Option Metadata) : Context :=
  .start r.method.fullName r.method.kind metadata

/-- A request is judged by the full name of its method. -/
theorem context_method (r : Request) (metadata : Option Metadata) :
    Method.ofFullName? (r.context metadata).method = some r.method :=
  Method.ofFullName?_fullName r.method

end Request

end UserDirectory.Service
