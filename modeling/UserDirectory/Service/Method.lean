import UserDirectory.User.Basic
/-!
# The methods of the service

Nine methods under one name of service, and which of them each role may call.

Main statement: `ofFullName?_eq_some_iff`, a full name belongs to one method.
-/

namespace UserDirectory.Service

/-- What the service can be asked to do. -/
inductive Method
  | addUser
  | getUser
  | updateUser
  | deleteUser
  | listUsers
  | listUsersByRole
  | batchAddUsers
  | userActivityStream
  | syncUsers
  deriving DecidableEq, Repr

namespace Method

/-- Every method. -/
def all : List Method :=
  [addUser, getUser, updateUser, deleteUser, listUsers, listUsersByRole, batchAddUsers,
   userActivityStream, syncUsers]

/-- The name under the service. -/
def name : Method → String
  | addUser => "AddUser"
  | getUser => "GetUser"
  | updateUser => "UpdateUser"
  | deleteUser => "DeleteUser"
  | listUsers => "ListUsers"
  | listUsersByRole => "ListUsersByRole"
  | batchAddUsers => "BatchAddUsers"
  | userActivityStream => "UserActivityStream"
  | syncUsers => "SyncUsers"

/-- The name of the service. -/
def service : String := "/roster.v1.UserService"

/-- The name that a call is addressed with. -/
def fullName (m : Method) : String := service ++ "/" ++ m.name

/-- The method with a full name. -/
def ofFullName? (s : String) : Option Method := all.find? fun m => m.fullName = s

/-- The methods that a role may call; an admin may call every one. -/
def granted : Role → List Method
  | .guest => [getUser]
  | .member => [getUser, listUsers, userActivityStream]
  | .moderator => [getUser, listUsers, listUsersByRole, updateUser, userActivityStream]
  | .admin => all

/-- The full name of a method is that of no other. -/
theorem ofFullName?_fullName (m : Method) : ofFullName? m.fullName = some m := by
  cases m <;> decide +kernel

/-- A full name belongs to one method. -/
theorem ofFullName?_eq_some_iff {s : String} {m : Method} :
    ofFullName? s = some m ↔ m.fullName = s := by
  constructor
  · intro h
    simpa using List.find?_some h
  · rintro rfl
    exact ofFullName?_fullName m

end Method

end UserDirectory.Service
