import UserDirectory.Time.Duration
import UserDirectory.User.Basic
/-!
# Requests and responses

The payloads of the calls, each with its parts in the order in which they are written.
-/

namespace UserDirectory

open UserDirectory.Time (Duration Instant)

/-! ## §1. Requests. -/

/-- Asks for one user. -/
structure GetUserRequest where
  id : UInt32
  deriving DecidableEq

/-- Asks to remove one user. -/
structure DeleteUserRequest where
  id : UInt32
  deriving DecidableEq

/-- Asks to change some fields of one user. -/
structure UpdateUserRequest where
  user : Option User
  updateMask : List String
  deriving DecidableEq

/-- Asks for the users that satisfy all given conditions. -/
structure ListUsersRequest where
  /-- only users created at this instant or later -/
  createdSince : Option Instant
  /-- only users created longer ago than this -/
  olderThan : Option Duration
  status : Option AccountStatus
  /-- how many users at most; zero sets no limit -/
  pageSize : UInt32
  pageToken : Option String
  deriving DecidableEq

/-- Asks for the users with a role. -/
structure UserRoleRequest where
  role : Role
  deriving DecidableEq

/-- What a user can be reported to have done. -/
inductive ActivityKind
  | login
  | logout
  | updateProfile
  | viewPage
  deriving DecidableEq, Repr

namespace ActivityKind

/-- Every kind of activity. -/
def all : List ActivityKind := [login, logout, updateProfile, viewPage]

/-- The name that stands in payloads. -/
def name : ActivityKind → String
  | login => "LOGIN"
  | logout => "LOGOUT"
  | updateProfile => "UPDATE_PROFILE"
  | viewPage => "VIEW_PAGE"

end ActivityKind

/-- Reports what a user has done. -/
structure UserActivity where
  userId : UInt32
  kind : ActivityKind
  timestamp : Option Instant
  details : SortedMap String String
  deriving DecidableEq

/-! ## §2. Responses. -/

/-- Sums up a batch of new users. -/
structure BatchAddUsersResponse where
  totalReceived : UInt32
  totalAdded : UInt32
  totalFailed : UInt32
  /-- one entry for each user that was refused, in order of arrival -/
  errors : List String
  processedAt : Instant
  deriving DecidableEq

/-- Answers one reported activity. -/
structure UserActivityResponse where
  userId : UInt32
  acknowledged : Bool
  message : String
  processedAt : Instant
  deriving DecidableEq

/-- Whether a user could be brought in line. -/
inductive SyncStatus
  | success
  | failed
  deriving DecidableEq, Repr

namespace SyncStatus

/-- Every outcome. -/
def all : List SyncStatus := [success, failed]

/-- The name that stands in payloads. -/
def name : SyncStatus → String
  | success => "SUCCESS"
  | failed => "FAILED"

end SyncStatus

/-- Answers one user who was to be brought in line. -/
structure SyncUserResponse where
  userId : UInt32
  status : SyncStatus
  errorMessage : Option String
  updatedFields : List String
  deriving DecidableEq

end UserDirectory
