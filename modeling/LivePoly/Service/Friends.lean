import LivePoly.Service.GameEvents

/-!
# Service.Friends

The paginated lists of `FriendsService`: the friends of a user, and the pending requests to and from
a user. The database keeps times in microseconds; a `Date` has milliseconds, and with it the cursor.
What the cache keeps of a first page is what is loaded here.
-/

namespace LivePoly
namespace Service

/-! ## The tables -/

inductive FriendshipStatus where
  | pending | accepted | blocked
  deriving DecidableEq

structure Friendship where
  id : Nat
  requesterId : UserId
  addresseeId : UserId
  status : FriendshipStatus
  createdAt : Int
  updatedAt : Int
  deriving DecidableEq

/-- The columns of `users` that the lists read. -/
structure FriendUser where
  email : String
  username : String
  avatarObjectKey : Option String
  deletedAt : Option Int
  deriving DecidableEq

structure FriendsTables where
  friendships : List Friendship
  users : UserId → Option FriendUser
  ids : (friendships.map Friendship.id).Nodup

structure FriendSummaryRow where
  friendshipId : Nat
  userId : UserId
  email : String
  username : String
  avatarObjectKey : Option String
  createdAt : Int
  updatedAt : Int
  deriving DecidableEq

structure FriendRequestSummaryRow where
  friendshipId : Nat
  requesterId : UserId
  addresseeId : UserId
  requesterUsername : String
  requesterAvatarObjectKey : Option String
  addresseeUsername : String
  addresseeAvatarObjectKey : Option String
  status : FriendshipStatus
  createdAt : Int
  updatedAt : Int
  deriving DecidableEq

/-- `new Date` of a time of the database: what is below a millisecond is cut off. -/
def toDate (time : Int) : Int := time / 1000

/-! ## Cursors -/

/-- The texts of dates and ids, as JavaScript and the database read them. -/
structure FriendTexts where
  toISOString : Int → String
  newDate : JsonValue → Option Int
  uuidText : Nat → String
  parseUuid : String → Option Nat
  newDate_toISOString : ∀ date, newDate (.string (toISOString date)) = some date
  parseUuid_uuidText : ∀ id, parseUuid (uuidText id) = some id
  toISOString_ne_empty : ∀ date, toISOString date ≠ ""
  uuidText_ne_empty : ∀ id, uuidText id ≠ ""

structure FriendListCursor where
  friendshipId : JsonValue
  createdAt : Int
  deriving DecidableEq

inductive FriendsError where
  | badRequest | database
  deriving DecidableEq

def encodeFriendCursor (codec : CursorCodec) (texts : FriendTexts) (friendshipId : Nat)
    (createdAt : Int) : String :=
  codec.encode [("v", .number 1), ("friendshipId", .string (texts.uuidText friendshipId)),
    ("createdAt", .string (texts.toISOString createdAt))]

/-- `!value`, of a field that may be missing. -/
def isFalsy : Option JsonValue → Bool
  | none => true
  | some (.string value) => value = ""
  | some (.number value) => value = 0
  | some .other => false

def decodeFriendCursor (codec : CursorCodec) (texts : FriendTexts) (cursor : Option String) :
    Except FriendsError (Option FriendListCursor) :=
  match cursor with
  | none => .ok none
  | some text =>
    if text = "" then .ok none
    else match codec.decode text with
      | none => .error .badRequest
      | some fields =>
        if fields.lookup "v" ≠ some (.number 1) ∨ isFalsy (fields.lookup "friendshipId") = true ∨
            isFalsy (fields.lookup "createdAt") = true then
          .error .badRequest
        else match fields.lookup "friendshipId", (fields.lookup "createdAt").bind texts.newDate with
          | some friendshipId, some createdAt => .ok (some { friendshipId, createdAt })
          | _, _ => .error .badRequest

/-! ## Queries -/

/-- A row of a query with what it is sorted by. -/
structure SelectedRow (ρ : Type) where
  friendshipId : Nat
  createdAt : Int
  row : ρ
  deriving DecidableEq

/-- `desc(createdAt), desc(id)` -/
def NewestFirst {ρ : Type} (x y : SelectedRow ρ) : Prop :=
  y.createdAt < x.createdAt ∨ y.createdAt = x.createdAt ∧ y.friendshipId ≤ x.friendshipId

instance {ρ : Type} : DecidableRel (NewestFirst (ρ := ρ)) :=
  fun _ _ => inferInstanceAs (Decidable (_ ∨ _))

/-- Created before the cursor's date, or at it and with a smaller id. -/
def behindDate {ρ : Type} (friendshipId : Nat) (createdAt : Int) (x : SelectedRow ρ) : Bool :=
  x.createdAt < createdAt * 1000 ||
    (x.createdAt = createdAt * 1000 && x.friendshipId < friendshipId)

/-- The rows behind the cursor, one more than the page has. An id that is no uuid is an error of the
database. -/
def listBehind {ρ : Type} (texts : FriendTexts) (rows : List (SelectedRow ρ)) (limit : Nat)
    (cursor : Option FriendListCursor) : Except FriendsError (List (SelectedRow ρ)) :=
  match cursor with
  | none => .ok ((rows.insertionSort NewestFirst).take (limit + 1))
  | some { friendshipId := .string text, createdAt } =>
    match texts.parseUuid text with
    | some friendshipId =>
      .ok (((rows.filter (behindDate friendshipId createdAt)).insertionSort NewestFirst).take
        (limit + 1))
    | none => .error .database
  | some _ => .error .database

namespace FriendsRepository

/-- The other user of a friendship. -/
def selectFriends (tables : FriendsTables) (userId : UserId) :
    List (SelectedRow FriendSummaryRow) :=
  tables.friendships.filterMap fun friendship =>
    if friendship.status = .accepted ∧
        (friendship.requesterId = userId ∨ friendship.addresseeId = userId) then
      let friendId :=
        if friendship.requesterId = userId then friendship.addresseeId else friendship.requesterId
      (tables.users friendId).bind fun friend =>
        if friend.deletedAt = none then
          some {
            friendshipId := friendship.id
            createdAt := friendship.createdAt
            row := {
              friendshipId := friendship.id
              userId := friendId
              email := friend.email
              username := friend.username
              avatarObjectKey := friend.avatarObjectKey
              createdAt := toDate friendship.createdAt
              updatedAt := toDate friendship.updatedAt } }
        else none
    else none

inductive FriendRequestDirection where
  | incoming | outgoing
  deriving DecidableEq

def selectFriendRequests (tables : FriendsTables) (userId : UserId)
    (direction : FriendRequestDirection) : List (SelectedRow FriendRequestSummaryRow) :=
  tables.friendships.filterMap fun friendship =>
    if friendship.status = .pending ∧
        (if direction = .incoming then friendship.addresseeId else friendship.requesterId) =
          userId then
      (tables.users friendship.requesterId).bind fun requester =>
        (tables.users friendship.addresseeId).bind fun addressee =>
          if requester.deletedAt = none ∧ addressee.deletedAt = none then
            some {
              friendshipId := friendship.id
              createdAt := friendship.createdAt
              row := {
                friendshipId := friendship.id
                requesterId := friendship.requesterId
                addresseeId := friendship.addresseeId
                requesterUsername := requester.username
                requesterAvatarObjectKey := requester.avatarObjectKey
                addresseeUsername := addressee.username
                addresseeAvatarObjectKey := addressee.avatarObjectKey
                status := .pending
                createdAt := toDate friendship.createdAt
                updatedAt := toDate friendship.updatedAt } }
          else none
    else none

def listFriends (texts : FriendTexts) (tables : FriendsTables) (userId : UserId) (limit : Nat)
    (cursor : Option FriendListCursor) : Except FriendsError (List (SelectedRow FriendSummaryRow)) :=
  listBehind texts (selectFriends tables userId) limit cursor

def listFriendRequestsByDirection (texts : FriendTexts) (tables : FriendsTables) (userId : UserId)
    (direction : FriendRequestDirection) (limit : Nat) (cursor : Option FriendListCursor) :
    Except FriendsError (List (SelectedRow FriendRequestSummaryRow)) :=
  listBehind texts (selectFriendRequests tables userId direction) limit cursor

end FriendsRepository

/-! ## Pages -/

namespace FriendsService

open FriendsRepository Keyset

/-- `FRIEND_LIST.defaultLimit` and `FRIEND_LIST.maxLimit` -/
def pageLimit (limit : Option Nat) : Nat := min (limit.getD 50) 100

/-- The page of the rows a query returns. -/
def paginated {ρ : Type} (codec : CursorCodec) (texts : FriendTexts) (limit : Nat)
    (rows : List (SelectedRow ρ)) : Page ρ String where
  items := (rows.take limit).map SelectedRow.row
  nextCursor :=
    if limit < rows.length then
      (rows.take limit).getLast?.map fun row =>
        encodeFriendCursor codec texts row.friendshipId (toDate row.createdAt)
    else none

def listFriends (codec : CursorCodec) (texts : FriendTexts) (tables : FriendsTables)
    (userId : UserId) (limit : Option Nat) (cursor : Option String) :
    Except FriendsError (Page FriendSummaryRow String) := do
  let cursor ← decodeFriendCursor codec texts cursor
  let rows ← FriendsRepository.listFriends texts tables userId (pageLimit limit) cursor
  return paginated codec texts (pageLimit limit) rows

/-- The incoming and the outgoing page. -/
def listRequests (codec : CursorCodec) (texts : FriendTexts) (tables : FriendsTables)
    (userId : UserId) (limit : Option Nat) (incomingCursor outgoingCursor : Option String) :
    Except FriendsError
      (Page FriendRequestSummaryRow String × Page FriendRequestSummaryRow String) := do
  let incomingCursor ← decodeFriendCursor codec texts incomingCursor
  let outgoingCursor ← decodeFriendCursor codec texts outgoingCursor
  let incomingRows ←
    listFriendRequestsByDirection texts tables userId .incoming (pageLimit limit) incomingCursor
  let outgoingRows ←
    listFriendRequestsByDirection texts tables userId .outgoing (pageLimit limit) outgoingCursor
  return (paginated codec texts (pageLimit limit) incomingRows,
    paginated codec texts (pageLimit limit) outgoingRows)

end FriendsService

end Service
end LivePoly
