import IOCPChatServer.User

/-!
# The user manager

The pool of user slots, the dictionary from user IDs to client indices and the
counter of logged-in users.  A client index is below `mMaxUserCnt = n` by its type.
-/

namespace IOCPChatServer

/-- `class UserManager`; `mMaxUserCnt` is the parameter. -/
structure UserManager (n : Nat) where
  mCurrentUserCnt : Nat := 0
  mUserObjPool : Fin n → User
  mUserIDDictionary : Bytes → Option (Fin n) := fun _ => none

namespace UserManager

variable {n : Nat}

/-- `Init`, with the uninitialised reassembly buffer of each slot. -/
def init (memory : Fin n → Bytes) : UserManager n where
  mUserObjPool := fun index => User.init (memory index)

def modifyUser (manager : UserManager n) (index : Fin n) (change : User → User) :
    UserManager n :=
  { manager with
    mUserObjPool :=
      Function.update manager.mUserObjPool index (change (manager.mUserObjPool index)) }

def increaseUserCnt (manager : UserManager n) : UserManager n :=
  { manager with mCurrentUserCnt := manager.mCurrentUserCnt + 1 }

/-- `DecreaseUserCnt` stops at zero, as subtraction does here. -/
def decreaseUserCnt (manager : UserManager n) : UserManager n :=
  { manager with mCurrentUserCnt := manager.mCurrentUserCnt - 1 }

/-- `Adduser`: an existing entry makes `insert` fail and nothing changes. -/
def addUser (manager : UserManager n) (userID : Bytes) (index : Fin n) :
    ErrorCode × UserManager n :=
  match manager.mUserIDDictionary userID with
  | some _ => (.loginUserAlready, manager)
  | none =>
      (.none,
        { manager.modifyUser index (fun user => user.setLogin userID) with
          mUserIDDictionary :=
            Function.update manager.mUserIDDictionary userID (some index) })

def eraseUserID (manager : UserManager n) (userID : Bytes) : UserManager n :=
  { manager with
    mUserIDDictionary := Function.update manager.mUserIDDictionary userID none }

/-- The first half of `DeleteUserInfo`: the dictionary entry and `Clear`. -/
def eraseAndClear (manager : UserManager n) (index : Fin n) : UserManager n :=
  (manager.eraseUserID (manager.mUserObjPool index).mUserID).modifyUser index User.clear

/-- The second half of `DeleteUserInfo`: the generation and the counter. -/
def retireGeneration (manager : UserManager n) (index : Fin n) : UserManager n :=
  (manager.modifyUser index User.incrementGeneration).decreaseUserCnt

def deleteUserInfo (manager : UserManager n) (index : Fin n) : UserManager n :=
  (manager.eraseAndClear index).retireGeneration index

/-- `FindUserIndexByID`: the index, or -1. -/
def findUserIndexByID (manager : UserManager n) (userID : Bytes) : Int :=
  match manager.mUserIDDictionary userID with
  | some index => (index.val : Int)
  | none => -1

/-! ## What the composite operations do -/

theorem deleteUserInfo_slots (manager : UserManager n) (index : Fin n) :
    (manager.deleteUserInfo index).mUserObjPool =
      Function.update manager.mUserObjPool index
        (manager.mUserObjPool index).clear.incrementGeneration := by
  simp [deleteUserInfo, eraseAndClear, retireGeneration, decreaseUserCnt, eraseUserID,
    modifyUser]

theorem deleteUserInfo_dictionary (manager : UserManager n) (index : Fin n) :
    (manager.deleteUserInfo index).mUserIDDictionary =
      Function.update manager.mUserIDDictionary (manager.mUserObjPool index).mUserID none :=
  rfl

theorem deleteUserInfo_count (manager : UserManager n) (index : Fin n) :
    (manager.deleteUserInfo index).mCurrentUserCnt = manager.mCurrentUserCnt - 1 := rfl

theorem findUserIndexByID_eq_neg_one (manager : UserManager n) (userID : Bytes) :
    manager.findUserIndexByID userID = -1 ↔ manager.mUserIDDictionary userID = none := by
  unfold findUserIndexByID
  cases manager.mUserIDDictionary userID with
  | none => simp
  | some index =>
      have notNegative : (index.val : Int) ≠ -1 := by omega
      simp [notNegative]

end UserManager

end IOCPChatServer
