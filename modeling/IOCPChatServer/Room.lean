import IOCPChatServer.UserManager

/-!
# Rooms and the room manager

A room lists the slots of its users and counts them in a separate field.  Entering
and leaving also write the domain state and the room index of the slot, so both
operations take and return the pool of slots.
-/

namespace IOCPChatServer

/-- `class Room`; a `User*` is the index of its slot. -/
structure Room (n : Nat) where
  mUserList : List (Fin n) := []
  mMaxUserCount : Int := 0
  mCurrentUserCount : Int := 0
  mRoomNumber : Int := -1
  deriving DecidableEq

namespace Room

variable {n : Nat}

/-- `EnterUser`. -/
def enterUser (room : Room n) (pool : Fin n → User) (index : Fin n) :
    ErrorCode × Room n × (Fin n → User) :=
  if room.mMaxUserCount ≤ room.mCurrentUserCount then (.enterRoomFullUser, room, pool)
  else
    (.none,
      { room with
        mUserList := room.mUserList ++ [index]
        mCurrentUserCount := room.mCurrentUserCount + 1 },
      Function.update pool index ((pool index).enterRoom room.mRoomNumber))

/-- `LeaveUser`: `std::list::remove` takes out every occurrence, the counter drops
by one in any case. -/
def leaveUser (room : Room n) (index : Fin n) : Room n :=
  { room with
    mUserList := room.mUserList.filter (· ≠ index)
    mCurrentUserCount := room.mCurrentUserCount - 1 }

/-- `SendToAllUser`: the slots for which `SendPacketFunc` is called, in order. -/
def sendToAllUser (room : Room n) (skipUserIndex : Fin n) (skip : Bool) : List (Fin n) :=
  room.mUserList.filter fun index => !(skip && index == skipUserIndex)

/-- `NotifyChat`: the calls of `SendPacketFunc`, or the end of the process. -/
def notifyChat (room : Room n) (index : Fin n) (userID message : Bytes) :
    Option (List (Fin n × ServerPacket)) := do
  let UserID ← strcpyS (maxUserIDLength + 1) userID
  let Message ← strcpyS (maxChatMsg + 1) message
  pure ((room.sendToAllUser index false).map fun receiver =>
    (receiver, .roomChatNotify UserID Message))

end Room

/-- `class RoomManager`; only the first `mMaxRoomCount` entries of the list exist. -/
structure RoomManager (n : Nat) where
  mRoomList : Nat → Room n
  mBeginRoomNumber : Int := 0
  mMaxRoomCount : Nat := 0
  mEndRoomNumber : Int := 0

namespace RoomManager

variable {n : Nat}

def init (beginRoomNumber : Int) (maxRoomCount : Nat) (maxRoomUserCount : Int) :
    RoomManager n where
  mRoomList := fun position =>
    { mMaxUserCount := maxRoomUserCount, mRoomNumber := position + beginRoomNumber }
  mBeginRoomNumber := beginRoomNumber
  mMaxRoomCount := maxRoomCount
  mEndRoomNumber := beginRoomNumber + maxRoomCount

/-- `GetRoomByNumber`: the position of the room, or `none` for `nullptr`. -/
def getRoomByNumber (manager : RoomManager n) (number : Int) : Option Nat :=
  if number < manager.mBeginRoomNumber ∨ manager.mEndRoomNumber ≤ number then none
  else some (number - manager.mBeginRoomNumber).toNat

def setRoom (manager : RoomManager n) (position : Nat) (room : Room n) : RoomManager n :=
  { manager with mRoomList := Function.update manager.mRoomList position room }

/-- `EnterUser`. -/
def enterUser (manager : RoomManager n) (pool : Fin n → User) (roomNumber : Int)
    (index : Fin n) : ErrorCode × RoomManager n × (Fin n → User) :=
  match manager.getRoomByNumber roomNumber with
  | none => (.roomInvalidIndex, manager, pool)
  | some position =>
      let entered := (manager.mRoomList position).enterUser pool index
      (entered.1, manager.setRoom position entered.2.1, entered.2.2)

/-- `LeaveUser`: the slot becomes `LOGIN` and is taken off the room's list. -/
def leaveUser (manager : RoomManager n) (pool : Fin n → User) (roomNumber : Int)
    (index : Fin n) : ErrorCode × RoomManager n × (Fin n → User) :=
  match manager.getRoomByNumber roomNumber with
  | none => (.roomInvalidIndex, manager, pool)
  | some position =>
      (.none, manager.setRoom position ((manager.mRoomList position).leaveUser index),
        Function.update pool index ((pool index).setDomainState .login))

end RoomManager

end IOCPChatServer
