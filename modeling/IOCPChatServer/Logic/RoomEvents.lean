import IOCPChatServer.Library.Attendance
import IOCPChatServer.Logic.Regular
import IOCPChatServer.Logic.Residue
import Mathlib

/-!
# The log of room events

`ProcessEnterRoom` and `ProcessLeaveRoom` give MySQL one `INSERT_ROOM_EVENT` each, a
disconnect and a second login give it none.  The log is compared with the lists of the
rooms: a member is the ID of a listed slot together with the number of the room.
-/

namespace IOCPChatServer

/-- What an `INSERT_ROOM_EVENT` task says. -/
def MySQLTask.roomEvent {n : Nat} : MySQLTask n → Option (Attendance.Entry Bytes Int)
  | .insertRoomEvent _ UserID RoomNumber .enter => some (.enter UserID RoomNumber)
  | .insertRoomEvent _ UserID RoomNumber .leave => some (.leave UserID RoomNumber)
  | _ => none

/-- The room event of a packet, from the state before it. -/
def PacketEffect.logged {n : Nat} (rooms : RoomManager n) (user : User) :
    PacketEffect → List (Attendance.Entry Bytes Int)
  | .enter room => [.enter user.mUserID (rooms.mRoomList room).mRoomNumber]
  | .leave room => [.leave user.mUserID (rooms.mRoomList room).mRoomNumber]
  | _ => []

/-- The lists of all rooms: who is listed at which position. -/
def RoomManager.listings {n : Nat} (rooms : RoomManager n) : List (Nat × Fin n) :=
  (List.range rooms.mMaxRoomCount).flatMap fun position =>
    (rooms.mRoomList position).mUserList.map fun slot => (position, slot)

namespace PacketManager

variable {n : Nat}

/-- The room events among the tasks for MySQL so far. -/
def roomEvents (manager : PacketManager n) : List (Attendance.Entry Bytes Int) :=
  manager.mysqlTasks.filterMap MySQLTask.roomEvent

/-- The ID and the room number of a listed slot. -/
def member (manager : PacketManager n) (listing : Nat × Fin n) : Bytes × Int :=
  ((manager.user listing.2).mUserID, (manager.mRoomManager.mRoomList listing.1).mRoomNumber)

/-- The log of room events replays to the members of the rooms. -/
def RoomLogReplays (manager : PacketManager n) : Prop :=
  Attendance.Records manager.roomEvents (manager.mRoomManager.listings.map manager.member)

/-! ## What a call logs -/

theorem notifyChat_mysqlTasks {manager after : PacketManager n} {room : Option Nat}
    {index : Fin n} {userID message : Bytes}
    (notified : manager.notifyChat room index userID message = some after) :
    after.mysqlTasks = manager.mysqlTasks := by
  cases room with
  | none =>
      cases notified
      rfl
  | some position =>
      obtain ⟨notifications, _, rfl⟩ := Option.map_eq_some_iff.mp notified
      rfl

/-- One more task for MySQL. -/
theorem roomEvents_of_append {manager after : PacketManager n} {tasks : List (MySQLTask n)}
    (added : after.mysqlTasks = manager.mysqlTasks ++ tasks) :
    after.roomEvents = manager.roomEvents ++ tasks.filterMap MySQLTask.roomEvent := by
  rw [roomEvents, added, List.filterMap_append]
  rfl

theorem roomEvents_of_eq {manager after : PacketManager n}
    (same : after.mysqlTasks = manager.mysqlTasks) :
    after.roomEvents = manager.roomEvents ++ [] := by
  rw [roomEvents, same, List.append_nil]
  rfl

theorem processLogin_mysqlTasks (manager : PacketManager n) (index : Fin n) (packetSize : Nat)
    (pPacket : Bytes) :
    (manager.processLogin index packetSize pPacket).mysqlTasks = manager.mysqlTasks := by
  unfold processLogin
  split
  · rfl
  · dsimp only
    split
    · rfl
    · split
      · rfl
      · split
        · rfl
        · split <;> rfl

theorem clearConnectionInfo_mysqlTasks (manager : PacketManager n) (index : Fin n) :
    (manager.clearConnectionInfo index).mysqlTasks = manager.mysqlTasks := by
  unfold clearConnectionInfo leaveRoomOnClear
  dsimp only
  split <;> split <;> rfl

theorem processLoginDBResult_roomEvents {manager after : PacketManager n} {index : Fin n}
    {pPacket : Bytes} (completed : manager.processLoginDBResult index pPacket = some after) :
    after.roomEvents = manager.roomEvents ++ [] := by
  unfold processLoginDBResult at completed
  dsimp only at completed
  split at completed
  · split at completed
    · obtain ⟨userID, _, rest⟩ := Option.bind_eq_some_iff.mp completed
      have added : after.mysqlTasks =
          manager.mysqlTasks ++ [.insertLoginEvent index userID] := by
        cases rest
        rfl
      exact roomEvents_of_append added
    · cases completed
      exact roomEvents_of_eq rfl
  · cases completed
    exact roomEvents_of_eq rfl

theorem processRoomChatMessage_roomEvents {manager after : PacketManager n} {index : Fin n}
    {pPacket : Bytes}
    (completed : manager.processRoomChatMessage index pPacket = some after) :
    after.roomEvents = manager.roomEvents ++ [] := by
  unfold processRoomChatMessage at completed
  dsimp only at completed
  split at completed
  · cases completed
    exact roomEvents_of_eq rfl
  · split at completed
    · cases completed
      exact roomEvents_of_eq rfl
    · obtain ⟨userID, _, copied⟩ := Option.bind_eq_some_iff.mp completed
      obtain ⟨message, _, told⟩ := Option.bind_eq_some_iff.mp copied
      exact roomEvents_of_append (notifyChat_mysqlTasks told)

theorem processEnterRoom_roomEvents {manager after : PacketManager n} {index : Fin n}
    {pPacket : Bytes} (numbered : manager.mRoomManager.Numbered)
    (completed : manager.processEnterRoom index pPacket = some after) :
    after.roomEvents = manager.roomEvents ++
      (match manager.mRoomManager.getRoomByNumber (enterRoomNumber pPacket) with
        | none => .keep
        | some room =>
            if (manager.user index).mCurDomainState = .login ∧
                (manager.mRoomManager.mRoomList room).mCurrentUserCount <
                  (manager.mRoomManager.mRoomList room).mMaxUserCount then
              .enter room
            else .keep : PacketEffect).logged manager.mRoomManager (manager.user index) := by
  unfold processEnterRoom enterUser RoomManager.enterUser at completed
  by_cases login : (manager.user index).mCurDomainState = .login
  · simp only [login, ne_eq, not_true_eq_false, ↓reduceIte] at completed
    cases located : manager.mRoomManager.getRoomByNumber (enterRoomNumber pPacket) with
    | none =>
        simp only [located, reduceCtorEq, ↓reduceIte] at completed ⊢
        cases completed
        exact roomEvents_of_eq rfl
    | some room =>
        have number := (numbered.getRoomByNumber_eq_some.mp located).2
        simp only [located, login, true_and] at completed ⊢
        unfold Room.enterUser at completed
        by_cases isFull : (manager.mRoomManager.mRoomList room).mMaxUserCount ≤
            (manager.mRoomManager.mRoomList room).mCurrentUserCount
        · simp only [isFull, ↓reduceIte, reduceCtorEq] at completed
          simp only [Int.not_lt.mpr isFull, ↓reduceIte]
          cases completed
          exact roomEvents_of_eq rfl
        · simp only [isFull, ↓reduceIte] at completed
          simp only [Int.not_le.mp isFull, ↓reduceIte]
          obtain ⟨userID, copied, completed⟩ := Option.bind_eq_some_iff.mp completed
          obtain ⟨notified, told, completed⟩ := Option.bind_eq_some_iff.mp completed
          cases completed
          have sameID : userID = (manager.user index).mUserID :=
            (strcpyS_eq copied).trans (by simp [user, User.enterRoom])
          have added := notifyChat_mysqlTasks told
          rw [sameID, number] at added
          exact roomEvents_of_append added
  · simp only [login, ne_eq, not_false_eq_true, ↓reduceIte] at completed
    cases completed
    cases manager.mRoomManager.getRoomByNumber (enterRoomNumber pPacket) with
    | none => exact roomEvents_of_eq rfl
    | some room =>
        simp only [login, false_and, ↓reduceIte]
        exact roomEvents_of_eq rfl

theorem processLeaveRoom_roomEvents {manager after : PacketManager n} {index : Fin n}
    (numbered : manager.mRoomManager.Numbered)
    (completed : manager.processLeaveRoom index = some after) :
    after.roomEvents = manager.roomEvents ++
      (match manager.mRoomManager.getRoomByNumber (manager.user index).roomIndex with
        | none => PacketEffect.keep
        | some room => .leave room).logged manager.mRoomManager (manager.user index) := by
  unfold processLeaveRoom leaveUser RoomManager.leaveUser at completed
  cases located : manager.mRoomManager.getRoomByNumber (manager.user index).roomIndex with
  | none =>
      simp only [located, reduceCtorEq, ↓reduceIte] at completed ⊢
      cases completed
      exact roomEvents_of_eq rfl
  | some room =>
      have number := (numbered.getRoomByNumber_eq_some.mp located).2
      simp only [located, ↓reduceIte] at completed ⊢
      obtain ⟨userID, copied, completed⟩ := Option.bind_eq_some_iff.mp completed
      obtain ⟨notified, told, completed⟩ := Option.bind_eq_some_iff.mp completed
      cases completed
      have sameID : userID = (manager.user index).mUserID :=
        (strcpyS_eq copied).trans (by simp [user, User.setDomainState])
      have added := notifyChat_mysqlTasks told
      rw [sameID, number] at added
      exact roomEvents_of_append added

/-- A call logs the room event of its effect. -/
theorem recv_roomEvents {manager next : PacketManager n} {call : RecvCall n}
    (table : manager.RoomTable) (taken : manager.recv call = some next) :
    next.roomEvents = manager.roomEvents ++
      (manager.effect call).logged manager.mRoomManager (manager.caller call) := by
  unfold recv processRecvPacket at taken
  unfold effect packetEffect
  cases found : findHandler call.packetId with
  | none =>
      simp only [found] at taken ⊢
      cases taken
      exact roomEvents_of_eq rfl
  | some handler =>
      simp only [found] at taken
      cases handler with
      | processUserConnect =>
          cases taken
          exact roomEvents_of_eq rfl
      | processUserDisconnect =>
          cases taken
          exact roomEvents_of_eq (manager.clearConnectionInfo_mysqlTasks call.clientIndex)
      | processLogin =>
          cases taken
          have same := roomEvents_of_eq
            (manager.processLogin_mysqlTasks call.clientIndex call.packetSize call.pPacket)
          dsimp only
          split <;> exact same
      | processLoginDBResult =>
          have same := processLoginDBResult_roomEvents taken
          dsimp only
          split <;> exact same
      | processEnterRoom => exact processEnterRoom_roomEvents table.numbered taken
      | processLeaveRoom => exact processLeaveRoom_roomEvents table.numbered taken
      | processRoomChatMessage => exact processRoomChatMessage_roomEvents taken
      | pong =>
          cases taken
          exact roomEvents_of_eq rfl

/-! ## Who is listed -/

theorem mem_listings {rooms : RoomManager n} {listing : Nat × Fin n} :
    listing ∈ rooms.listings ↔ listing.1 < rooms.mMaxRoomCount ∧
      listing.2 ∈ (rooms.mRoomList listing.1).mUserList := by
  unfold RoomManager.listings
  simp only [List.mem_flatMap, List.mem_range, List.mem_map]
  constructor
  · rintro ⟨position, inside, slot, member, rfl⟩
    exact ⟨inside, member⟩
  · exact fun listed => ⟨listing.1, listed.1, listing.2, listed.2, rfl⟩

theorem listed_iff_mem_listings {manager : PacketManager n} {position : Nat} {slot : Fin n} :
    manager.Listed position slot ↔ (position, slot) ∈ manager.mRoomManager.listings := by
  rw [mem_listings]
  rfl

theorem count_listings (rooms : RoomManager n) (listing : Nat × Fin n) :
    rooms.listings.count listing = if listing.1 < rooms.mMaxRoomCount then
      (rooms.mRoomList listing.1).mUserList.count listing.2 else 0 := by
  unfold RoomManager.listings
  have row (position : Nat) : ((rooms.mRoomList position).mUserList.map
      fun slot => (position, slot)).count listing =
        if listing.1 = position then (rooms.mRoomList position).mUserList.count listing.2
        else 0 := by
    split
    · rename_i same
      have injective : Function.Injective fun slot : Fin n => (position, slot) :=
        fun _ _ pair => (Prod.mk.inj pair).2
      have counted := List.count_map_of_injective (rooms.mRoomList position).mUserList
        (fun slot : Fin n => (position, slot)) injective listing.2
      rw [← same] at counted ⊢
      exact counted
    · rename_i different
      refine List.count_eq_zero.mpr fun member => different ?_
      obtain ⟨slot, _, rfl⟩ := List.mem_map.mp member
      rfl
  induction rooms.mMaxRoomCount with
  | zero => rfl
  | succ bound ih =>
      rw [List.range_succ, List.flatMap_append, List.count_append, ih, List.flatMap_singleton, row]
      by_cases last : listing.1 = bound
      · rw [if_neg (by omega), if_pos last, if_pos (by omega), last, Nat.zero_add]
      · rw [if_neg last, Nat.add_zero]
        exact ite_congr (propext ⟨fun _ => by omega, fun _ => by omega⟩)
          (fun _ => rfl) (fun _ => rfl)

theorem count_listings_leaveUser (rooms : RoomManager n) (room : Nat) (index : Fin n)
    (listing : Nat × Fin n) :
    (rooms.setRoom room ((rooms.mRoomList room).leaveUser index)).listings.count listing =
      if listing = (room, index) then 0 else rooms.listings.count listing := by
  have count : (rooms.setRoom room ((rooms.mRoomList room).leaveUser index)).mMaxRoomCount =
    rooms.mMaxRoomCount := rfl
  rw [count_listings, count_leaveUser, count_listings, count]
  rcases eq_or_ne listing (room, index) with rfl | other
  · simp
  · have apart : ¬ (listing.2 = index ∧ listing.1 = room) :=
      fun both => other (Prod.ext both.2 both.1)
    rw [if_neg other, if_neg apart]

theorem count_listings_joined {rooms : RoomManager n} {room : Nat} (index : Fin n)
    (inside : room < rooms.mMaxRoomCount) (listing : Nat × Fin n) :
    (rooms.setRoom room (PacketEffect.joined (rooms.mRoomList room) index)).listings.count
        listing =
      rooms.listings.count listing + if listing = (room, index) then 1 else 0 := by
  have count : (rooms.setRoom room
    (PacketEffect.joined (rooms.mRoomList room) index)).mMaxRoomCount = rooms.mMaxRoomCount := rfl
  rw [count_listings, count_joined, count_listings, count]
  rcases eq_or_ne listing (room, index) with rfl | other
  · simp [inside]
  · have apart : ¬ (listing.2 = index ∧ listing.1 = room) :=
      fun both => other (Prod.ext both.2 both.1)
    rw [if_neg other, if_neg apart, Nat.add_zero, Nat.add_zero]

/-- A slot which is listed once leaves the room. -/
theorem listings_leaveUser {rooms : RoomManager n} {room : Nat} {index : Fin n}
    (listed : (room, index) ∈ rooms.listings) (nodup : rooms.listings.Nodup) :
    rooms.listings.Perm ((room, index) ::
      (rooms.setRoom room ((rooms.mRoomList room).leaveUser index)).listings) := by
  refine List.perm_iff_count.mpr fun listing => ?_
  rw [List.count_cons, count_listings_leaveUser]
  rcases eq_or_ne listing (room, index) with rfl | other
  · simpa using List.count_eq_one_of_mem nodup listed
  · simp [other, other.symm]

/-- A slot which is not listed changes no list by leaving. -/
theorem listings_leaveUser_of_not_mem {rooms : RoomManager n} {room : Nat} {index : Fin n}
    (unlisted : (room, index) ∉ rooms.listings) :
    rooms.listings.Perm
      (rooms.setRoom room ((rooms.mRoomList room).leaveUser index)).listings := by
  refine List.perm_iff_count.mpr fun listing => ?_
  rw [count_listings_leaveUser]
  rcases eq_or_ne listing (room, index) with rfl | other
  · rw [if_pos rfl, List.count_eq_zero.mpr unlisted]
  · rw [if_neg other]

/-- A slot joins the room. -/
theorem listings_joined {rooms : RoomManager n} {room : Nat} (index : Fin n)
    (inside : room < rooms.mMaxRoomCount) :
    ((room, index) :: rooms.listings).Perm
      (rooms.setRoom room (PacketEffect.joined (rooms.mRoomList room) index)).listings := by
  refine List.perm_iff_count.mpr fun listing => ?_
  rw [List.count_cons, count_listings_joined index inside]
  rcases eq_or_ne listing (room, index) with rfl | other
  · simp
  · simp [other, other.symm]

/-! ## One lemma for each effect -/

/-- A call keeps what it does not rename. -/
theorem ChangedBy.member_eq {before after : PacketManager n} {index : Fin n}
    {effect : PacketEffect} (changed : before.ChangedBy index effect after)
    (listing : Nat × Fin n)
    (sameID : listing.2 = index → (after.user index).mUserID = (before.user index).mUserID) :
    after.member listing = before.member listing := by
  have number := (number_onRooms effect (before.user index) index before.mRoomManager
    listing.1).1
  rw [← changed.rooms] at number
  refine Prod.ext ?_ number
  rcases eq_or_ne listing.2 index with own | other
  · simp only [member, own]
    exact sameID own
  · exact congrArg User.mUserID (changed.user_of_ne other)

/-- Members keep their names just when the slot of the call is not listed or keeps its ID. -/
theorem ChangedBy.perm_iff {before after : PacketManager n} {index : Fin n}
    {effect : PacketEffect} {listings : List (Nat × Fin n)}
    (changed : before.ChangedBy index effect after)
    (nodup : ((listings.map before.member).map Prod.fst).Nodup) :
    (listings.map before.member).Perm (listings.map after.member) ↔
      ∀ position, (position, index) ∈ listings →
        (after.user index).mUserID = (before.user index).mUserID := by
  constructor
  · intro perm position listed
    by_contra renamed
    have still := perm.mem_iff.mp (List.mem_map_of_mem listed)
    obtain ⟨listing, there, same⟩ := List.mem_map.mp still
    -- who has the old name afterwards is another slot, which had it before
    have other : listing.2 ≠ index := by
      intro own
      have name := congrArg Prod.fst same
      rw [member, own] at name
      exact renamed name
    rw [changed.member_eq listing fun own => absurd own other] at same
    rw [List.map_map] at nodup
    have one := List.inj_on_of_nodup_map nodup there listed (congrArg Prod.fst same)
    exact other (congrArg Prod.snd one)
  · intro kept
    have same : listings.map after.member = listings.map before.member := by
      refine List.map_congr_left fun listing listed =>
        changed.member_eq listing fun own => kept listing.1 ?_
      rwa [← own]
    rw [same]

/-- A login or a disconnect outside the rooms: no list changes and nothing is logged. -/
theorem RoomLogReplays.rename_iff {before after : PacketManager n} {index : Fin n}
    {effect : PacketEffect} (replays : before.RoomLogReplays)
    (changed : before.ChangedBy index effect after)
    (events : after.roomEvents = before.roomEvents ++ [])
    (listings : before.mRoomManager.listings.Perm after.mRoomManager.listings) :
    after.RoomLogReplays ↔ ∀ position, before.Listed position index →
      (after.user index).mUserID = (before.user index).mUserID := by
  unfold RoomLogReplays
  rw [events, List.append_nil, Attendance.Records.iff_perm replays]
  have same := listings.map after.member
  simp only [listed_iff_mem_listings]
  rw [← changed.perm_iff (Attendance.Records.nodup replays)]
  exact ⟨fun perm => perm.trans same.symm, fun perm => perm.trans same⟩

/-- A disconnect inside a room takes the slot off the list without a log entry. -/
theorem RoomLogReplays.disconnect_iff {before after : PacketManager n} {index : Fin n}
    {room : Nat} (replays : before.RoomLogReplays)
    (changed : before.ChangedBy index .disconnect after)
    (events : after.roomEvents = before.roomEvents ++ [])
    (rooms : after.mRoomManager = before.mRoomManager.setRoom room
      ((before.mRoomManager.mRoomList room).leaveUser index)) :
    after.RoomLogReplays ↔ ¬ before.Listed room index ∧ ∀ position,
      before.Listed position index →
        (after.user index).mUserID = (before.user index).mUserID := by
  by_cases listed : before.Listed room index
  · refine ⟨fun good => absurd good ?_, fun apart => absurd listed apart.1⟩
    unfold RoomLogReplays
    rw [events, List.append_nil, Attendance.Records.iff_perm replays]
    intro perm
    have nodup := (Attendance.Records.nodup replays).of_map.of_map
    have left := (listings_leaveUser (listed_iff_mem_listings.mp listed) nodup).length_eq
    have kept := perm.length_eq
    rw [rooms, List.length_map, List.length_map] at kept
    rw [List.length_cons] at left
    omega
  · rw [replays.rename_iff changed events, and_iff_right listed]
    rw [rooms]
    exact listings_leaveUser_of_not_mem fun member =>
      listed (listed_iff_mem_listings.mpr member)

/-- An entry into a room is logged. -/
theorem RoomLogReplays.enter_iff {before after : PacketManager n} {index : Fin n} {room : Nat}
    (replays : before.RoomLogReplays) (inside : room < before.mRoomManager.mMaxRoomCount)
    (changed : before.ChangedBy index (.enter room) after)
    (events : after.roomEvents = before.roomEvents ++
      [.enter (before.user index).mUserID (before.mRoomManager.mRoomList room).mRoomNumber]) :
    after.RoomLogReplays ↔ ∀ position slot, before.Listed position slot →
      (before.user slot).mUserID ≠ (before.user index).mUserID := by
  have sameID : (after.user index).mUserID = (before.user index).mUserID := by
    rw [changed.user_self]
    rfl
  have members : after.mRoomManager.listings.map after.member =
      after.mRoomManager.listings.map before.member :=
    List.map_congr_left fun listing _ => changed.member_eq listing fun _ => sameID
  have joined := (listings_joined index inside).map before.member
  unfold RoomLogReplays
  rw [events, Attendance.Records.enter_iff replays, members]
  constructor
  · rintro ⟨absent, _⟩ position slot listed sameName
    refine absent (List.mem_map.mpr ⟨_, List.mem_map_of_mem
      (listed_iff_mem_listings.mp listed), ?_⟩)
    exact sameName
  · intro absent
    refine ⟨fun named => ?_, ?_⟩
    · obtain ⟨member, listed, name⟩ := List.mem_map.mp named
      obtain ⟨listing, there, rfl⟩ := List.mem_map.mp listed
      exact absent listing.1 listing.2 (listed_iff_mem_listings.mpr there) name
    · rw [show after.mRoomManager = _ from changed.rooms]
      exact joined

/-- A leave request is logged, whether the slot was listed or not. -/
theorem RoomLogReplays.leave_iff {before after : PacketManager n} {index : Fin n} {room : Nat}
    (replays : before.RoomLogReplays) (changed : before.ChangedBy index (.leave room) after)
    (events : after.roomEvents = before.roomEvents ++
      [.leave (before.user index).mUserID (before.mRoomManager.mRoomList room).mRoomNumber]) :
    after.RoomLogReplays ↔ before.Listed room index := by
  have sameID : (after.user index).mUserID = (before.user index).mUserID := by
    rw [changed.user_self]
    rfl
  have members : after.mRoomManager.listings.map after.member =
      after.mRoomManager.listings.map before.member :=
    List.map_congr_left fun listing _ => changed.member_eq listing fun _ => sameID
  have nodup := (Attendance.Records.nodup replays).of_map.of_map
  unfold RoomLogReplays
  rw [events, Attendance.Records.leave_iff replays, members, listed_iff_mem_listings,
    show after.mRoomManager = _ from changed.rooms]
  constructor
  · intro perm
    by_contra unlisted
    have kept := (listings_leaveUser_of_not_mem unlisted).length_eq
    have left := perm.length_eq
    rw [List.length_cons, List.length_map, List.length_map, kept] at left
    exact absurd left (Nat.succ_ne_self _).symm
  · exact fun listed => (listings_leaveUser listed nodup).map before.member

/-! ## Runs -/

/-- A slot which is listed is not renamed, by a login or by a disconnect, and is not taken
off a list by a disconnect; who enters a room has an ID which no listed slot has; who leaves
a room is listed there. -/
structure KeepsRoomLog (manager : PacketManager n) (call : RecvCall n) : Prop where
  login : ∀ userID, manager.LogsIn call userID →
    ∀ position, manager.Listed position call.clientIndex →
      userID = (manager.caller call).mUserID
  disconnect : findHandler call.packetId = some .processUserDisconnect →
    (manager.caller call).mCurDomainState ≠ .none →
      ∀ position, manager.Listed position call.clientIndex →
        (manager.caller call).mUserID = [] ∧
          ¬ ((manager.caller call).mCurDomainState = .room ∧
            manager.mRoomManager.getRoomByNumber (manager.caller call).roomIndex =
              some position)
  enter : ∀ room, manager.EntersRoom call room → ∀ position slot,
    manager.Listed position slot →
      (manager.user slot).mUserID ≠ (manager.caller call).mUserID
  leave : ∀ room, findHandler call.packetId = some .processLeaveRoom →
    manager.mRoomManager.getRoomByNumber (manager.caller call).roomIndex = some room →
      manager.Listed room call.clientIndex

theorem roomLogReplays_init (memory : Fin n → Bytes) :
    (PacketManager.init memory).RoomLogReplays := by
  have empty : (PacketManager.init memory).mRoomManager.listings = [] :=
    List.eq_nil_iff_forall_not_mem.mpr fun listing member =>
      absurd (mem_listings.mp member).2 List.not_mem_nil
  unfold RoomLogReplays
  rw [empty]
  exact Attendance.records_nil

/-- A login keeps the log right just when the slot is not listed or keeps its ID. -/
theorem RoomLogReplays.login_iff {before after : PacketManager n} {index : Fin n}
    {effect : PacketEffect} {userID : Bytes} (replays : before.RoomLogReplays)
    (login : effect = .testLogin userID ∨ effect = .redisLogin userID)
    (changed : before.ChangedBy index effect after)
    (events : after.roomEvents = before.roomEvents ++
      effect.logged before.mRoomManager (before.user index)) :
    after.RoomLogReplays ↔ ∀ position, before.Listed position index →
      userID = (before.user index).mUserID := by
  have slot : after.user index = (before.user index).setLogin userID := by
    rw [changed.user_self]
    rcases login with rfl | rfl <;> rfl
  have rooms : after.mRoomManager = before.mRoomManager := by
    rw [changed.rooms]
    rcases login with rfl | rfl <;> rfl
  have silent : after.roomEvents = before.roomEvents ++ [] := by
    rw [events]
    rcases login with rfl | rfl <;> rfl
  rw [replays.rename_iff changed silent (rooms ▸ .refl _), slot]
  rfl

/-- A disconnect keeps the log right just when nothing of the slot is listed, or only under
the empty ID and in other rooms. -/
theorem RoomLogReplays.clear_iff {before after : PacketManager n} {index : Fin n}
    (table : before.RoomTable) (replays : before.RoomLogReplays)
    (changed : before.ChangedBy index .disconnect after)
    (silent : after.roomEvents = before.roomEvents ++ []) :
    after.RoomLogReplays ↔ ((before.user index).mCurDomainState ≠ .none →
      ∀ position, before.Listed position index → (before.user index).mUserID = [] ∧
        ¬ ((before.user index).mCurDomainState = .room ∧
          before.mRoomManager.getRoomByNumber (before.user index).roomIndex =
            some position)) := by
  have slot := changed.user_self
  simp only [PacketEffect.onSlot] at slot
  by_cases none : (before.user index).mCurDomainState = .none
  · rw [if_pos none] at slot
    have outside : (before.user index).mCurDomainState ≠ .room := by
      intro room
      cases none.symm.trans room
    have rooms : after.mRoomManager = before.mRoomManager := by
      rw [changed.rooms]
      exact if_neg outside
    rw [replays.rename_iff changed silent (rooms ▸ .refl _), slot]
    exact ⟨fun _ loggedIn => absurd none loggedIn, fun _ _ _ => rfl⟩
  · rw [if_neg none] at slot
    have cleared : (after.user index).mUserID = [] := by
      rw [slot]
      rfl
    by_cases inRoom : (before.user index).mCurDomainState = .room
    · obtain ⟨room, located⟩ :=
        Option.ne_none_iff_exists'.mp (table.located index inRoom)
      have rooms : after.mRoomManager = before.mRoomManager.setRoom room
          ((before.mRoomManager.mRoomList room).leaveUser index) := by
        rw [changed.rooms]
        simp only [PacketEffect.onRooms, inRoom, located, ↓reduceIte]
      rw [replays.disconnect_iff changed silent rooms, cleared, located]
      constructor
      · rintro ⟨unlisted, renamed⟩ _ position listed
        exact ⟨(renamed position listed).symm, fun own =>
          unlisted (Option.some.inj own.2 ▸ listed)⟩
      · intro apart
        exact ⟨fun listed => (apart none room listed).2 ⟨inRoom, rfl⟩,
          fun position listed => (apart none position listed).1.symm⟩
    · have rooms : after.mRoomManager = before.mRoomManager := by
        rw [changed.rooms]
        exact if_neg inRoom
      rw [replays.rename_iff changed silent (rooms ▸ .refl _), cleared]
      constructor
      · exact fun renamed _ position listed =>
          ⟨(renamed position listed).symm, fun own => inRoom own.1⟩
      · exact fun apart position listed => (apart none position listed).1.symm

/-- From a right log a call ends in one just when it keeps it. -/
theorem roomLogReplays_recv_iff {manager next : PacketManager n} {call : RecvCall n}
    (table : manager.RoomTable) (replays : manager.RoomLogReplays)
    (taken : manager.recv call = some next) :
    next.RoomLogReplays ↔ manager.KeepsRoomLog call := by
  have events := recv_roomEvents table taken
  have changed : manager.ChangedBy call.clientIndex (manager.effect call) next :=
    processRecvPacket_effect taken
  have numbered := table.numbered
  constructor
  · intro good
    refine ⟨fun userID logsIn => ?_, fun found => ?_, fun room enters => ?_,
      fun room found located => ?_⟩
    · exact (replays.login_iff logsIn.effect changed events).mp good
    · have effect : manager.effect call = .disconnect := by
        unfold PacketManager.effect packetEffect
        rw [found]
      rw [effect] at changed events
      exact (replays.clear_iff table changed events).mp good
    · rw [enters.effect] at changed events
      have inside := (numbered.getRoomByNumber_eq_some.mp enters.located).1
      exact (replays.enter_iff inside changed events).mp good
    · obtain ⟨room', effect, located'⟩ :=
        (manager.effectCase call).eq_leave (isRoomLeave_of_located found located)
      cases located.symm.trans located'
      rw [effect] at changed events
      exact (replays.leave_iff changed events).mp good
  · intro keeps
    have effectCase := manager.effectCase call
    generalize manager.effect call = effect at effectCase changed events
    cases effectCase with
    | keep noTest noRedis noLeave =>
        have slot : next.user call.clientIndex = manager.user call.clientIndex :=
          changed.user_self
        have rooms : next.mRoomManager = manager.mRoomManager := changed.rooms
        refine (replays.rename_iff changed events (rooms ▸ .refl _)).mpr fun _ _ => ?_
        rw [slot]
    | testLogin test =>
        exact (replays.login_iff (Or.inl rfl) changed events).mpr (keeps.login _ (.test test))
    | redisLogin redis =>
        exact (replays.login_iff (Or.inr rfl) changed events).mpr (keeps.login _ (.redis redis))
    | disconnect found =>
        exact (replays.clear_iff table changed events).mpr (keeps.disconnect found)
    | enter room found located state notFull =>
        have inside := (numbered.getRoomByNumber_eq_some.mp located).1
        exact (replays.enter_iff inside changed events).mpr
          (keeps.enter room ⟨found, located, state, notFull⟩)
    | leave room found located =>
        exact (replays.leave_iff changed events).mpr (keeps.leave room found located)

/--
In every state of a run the log of room events replays to the members of the rooms,
precisely when no listed slot is renamed or taken off a list by a login or a disconnect,
nobody enters under the ID of a listed slot and who leaves is listed.
-/
theorem roomLogReplays_iff_keepsRoomLog (memory : Fin n → Bytes) (calls : List (RecvCall n)) :
    Execution.Always recv RoomLogReplays (PacketManager.init memory) calls ↔
      Execution.Throughout recv KeepsRoomLog (PacketManager.init memory) calls :=
  Execution.always_iff_throughout
    (fun _ _ _ table taken => roomTable_recv table taken)
    (fun _ _ _ table replays taken => roomLogReplays_recv_iff table replays taken)
    (roomTable_init memory) (roomLogReplays_init memory) calls

/-- A client whose connection breaks while it is in room 0. -/
def disconnectInRoom : List (RecvCall 1) :=
  [.loginRequest 0 (testUser ++ text ['1']) [], .roomEnterRequest 0, .sysUserDisconnect 0]

/-- The log never tells that it has left. -/
theorem disconnectInRoom_not_roomLogReplays :
    ¬ Execution.Always recv RoomLogReplays (PacketManager.init fun _ => [])
      disconnectInRoom := by
  intro always
  have seen : (Execution.run? recv (PacketManager.init fun _ => []) disconnectInRoom).map
      (fun last => (last.roomEvents, last.mRoomManager.listings)) =
        some ([.enter (testUser ++ text ['1']) 0], []) := by
    decide +kernel
  obtain ⟨last, replays, observed⟩ := always.observed seen
  obtain ⟨events, listed⟩ := Prod.mk.inj observed
  obtain ⟨present, replayed, perm⟩ := replays
  rw [events] at replayed
  rw [listed] at perm
  cases perm.eq_nil
  cases replayed

end PacketManager

end IOCPChatServer
