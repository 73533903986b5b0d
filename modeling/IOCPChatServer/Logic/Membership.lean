import IOCPChatServer.Logic.Calls

/-!
# Room membership

The membership of a slot in a room is kept in the room's list, in the room's counter
and in the slot's domain state and room index.  Entering and a disconnect keep the
three together.  A second login of a slot which is in a room and a leave request of a
slot which is in none do not.
-/

namespace IOCPChatServer

/-- The slot takes itself to be in the room with this number. -/
def User.InRoom (user : User) (number : Int) : Prop :=
  user.mCurDomainState = .room ∧ user.roomIndex = number

/-! ## One room -/

namespace Room

variable {n : Nat}

/-- The list, the counter and the slots tell the same about the room. -/
structure Consistent (room : Room n) (slots : Fin n → User) : Prop where
  listed : ∀ slot, slot ∈ room.mUserList ↔ (slots slot).InRoom room.mRoomNumber
  nodup : room.mUserList.Nodup
  counted : room.mCurrentUserCount = room.mUserList.length
  nonneg : 0 ≤ room.mCurrentUserCount
  bounded : room.mCurrentUserCount ≤ room.mMaxUserCount

/-- A slot may change as long as it stays inside, or outside, the room. -/
theorem Consistent.update {room : Room n} {slots : Fin n → User} {index : Fin n}
    {user : User} (consistent : room.Consistent slots)
    (same : user.InRoom room.mRoomNumber ↔ (slots index).InRoom room.mRoomNumber) :
    room.Consistent (Function.update slots index user) := by
  refine { consistent with listed := fun slot => ?_ }
  rw [consistent.listed]
  by_cases own : slot = index
  · rw [own, Function.update_self, same]
  · rw [Function.update_of_ne own]

/-- A slot outside the room joins it while there is room. -/
theorem Consistent.join {room : Room n} {slots : Fin n → User} {index : Fin n}
    {user : User} (consistent : room.Consistent slots)
    (outside : ¬ (slots index).InRoom room.mRoomNumber)
    (inside : user.InRoom room.mRoomNumber)
    (notFull : room.mCurrentUserCount < room.mMaxUserCount) :
    (PacketEffect.joined room index).Consistent (Function.update slots index user) := by
  have missing : index ∉ room.mUserList := fun member =>
    outside ((consistent.listed index).mp member)
  have nonneg := consistent.nonneg
  refine ⟨fun slot => ?_, ?_, ?_, ?_, ?_⟩
  · simp only [PacketEffect.joined, List.mem_append, List.mem_singleton]
    by_cases own : slot = index
    · subst own
      rw [Function.update_self]
      exact ⟨fun _ => inside, fun _ => Or.inr rfl⟩
    · rw [Function.update_of_ne own, consistent.listed]
      exact ⟨fun member => member.resolve_right own, Or.inl⟩
  · exact List.nodup_append.mpr ⟨consistent.nodup, List.nodup_cons.mpr ⟨nofun, List.nodup_nil⟩,
      fun _ member _ last same => missing (List.mem_singleton.mp last ▸ same ▸ member)⟩
  · simp [PacketEffect.joined, consistent.counted]
  · simp only [PacketEffect.joined]
    omega
  · simp only [PacketEffect.joined]
    omega

/-- Taking a listed slot off a list without repetitions shortens it by one. -/
theorem length_filter_ne {list : List (Fin n)} {index : Fin n} (nodup : list.Nodup)
    (member : index ∈ list) : (list.filter (· ≠ index)).length + 1 = list.length := by
  have erased : list.filter (· ≠ index) = list.erase index := by
    rw [nodup.erase_eq_filter]
    exact List.filter_congr fun other _ => Bool.eq_iff_iff.mpr (by simp)
  have positive := List.length_pos_of_mem member
  rw [erased, List.length_erase_of_mem member]
  omega

/-- A slot inside the room leaves it. -/
theorem Consistent.leave {room : Room n} {slots : Fin n → User} {index : Fin n}
    {user : User} (consistent : room.Consistent slots)
    (inside : (slots index).InRoom room.mRoomNumber)
    (outside : ¬ user.InRoom room.mRoomNumber) :
    (room.leaveUser index).Consistent (Function.update slots index user) := by
  have member := (consistent.listed index).mpr inside
  have shorter := length_filter_ne consistent.nodup member
  have counted := consistent.counted
  have bounded := consistent.bounded
  refine ⟨fun slot => ?_, consistent.nodup.filter _, ?_, ?_, ?_⟩
  · simp only [leaveUser, List.mem_filter, decide_eq_true_eq]
    by_cases own : slot = index
    · subst own
      rw [Function.update_self]
      exact ⟨fun both => absurd rfl both.2, fun inside => absurd inside outside⟩
    · rw [Function.update_of_ne own, consistent.listed]
      exact ⟨And.left, fun inside => ⟨inside, own⟩⟩
  · simp only [leaveUser]
    omega
  · simp only [leaveUser]
    omega
  · simp only [leaveUser]
    omega

/-- A leave of a slot which is not listed drives the counter away from the list. -/
theorem Consistent.not_leave {room : Room n} {slots after : Fin n → User} {index : Fin n}
    (consistent : room.Consistent slots)
    (outside : ¬ (slots index).InRoom room.mRoomNumber) :
    ¬ (room.leaveUser index).Consistent after := by
  intro left
  have missing : index ∉ room.mUserList := fun member =>
    outside ((consistent.listed index).mp member)
  have unchanged : room.mUserList.filter (· ≠ index) = room.mUserList := by
    refine List.filter_eq_self.mpr fun other listed => ?_
    exact decide_eq_true fun same => missing (same ▸ listed)
  have counted := left.counted
  simp only [leaveUser, unchanged] at counted
  have before := consistent.counted
  omega

end Room

/-! ## All rooms -/

namespace RoomManager

variable {n : Nat}

/-- The rooms are numbered by their positions. -/
structure Numbered (rooms : RoomManager n) : Prop where
  last : rooms.mEndRoomNumber = rooms.mBeginRoomNumber + rooms.mMaxRoomCount
  number : ∀ position,
    (rooms.mRoomList position).mRoomNumber = position + rooms.mBeginRoomNumber

/-- Every room is consistent and no slot is listed in two of them. -/
structure Membership (rooms : RoomManager n) (slots : Fin n → User) : Prop where
  consistent : ∀ position < rooms.mMaxRoomCount, (rooms.mRoomList position).Consistent slots
  unique : ∀ first < rooms.mMaxRoomCount, ∀ second < rooms.mMaxRoomCount, ∀ slot,
    slot ∈ (rooms.mRoomList first).mUserList → slot ∈ (rooms.mRoomList second).mUserList →
      first = second

@[simp]
theorem setRoom_self (rooms : RoomManager n) (position : Nat) (room : Room n) :
    (rooms.setRoom position room).mRoomList position = room :=
  Function.update_self _ _ _

theorem setRoom_of_ne (rooms : RoomManager n) {position other : Nat} (room : Room n)
    (different : other ≠ position) :
    (rooms.setRoom position room).mRoomList other = rooms.mRoomList other :=
  Function.update_of_ne different _ _

theorem numbered_init (beginRoomNumber : Int) (maxRoomCount : Nat) (maxRoomUserCount : Int) :
    (RoomManager.init beginRoomNumber maxRoomCount maxRoomUserCount : RoomManager n).Numbered :=
  ⟨rfl, fun _ => rfl⟩

theorem Numbered.setRoom {rooms : RoomManager n} (numbered : rooms.Numbered)
    {position : Nat} {room : Room n}
    (number : room.mRoomNumber = (rooms.mRoomList position).mRoomNumber) :
    (rooms.setRoom position room).Numbered := by
  refine ⟨numbered.last, fun other => ?_⟩
  by_cases same : other = position
  · rw [same, setRoom_self, number]
    exact numbered.number position
  · rw [setRoom_of_ne rooms room same]
    exact numbered.number other

/-- `GetRoomByNumber` finds exactly the rooms which exist, by their numbers. -/
theorem Numbered.getRoomByNumber_eq_some {rooms : RoomManager n} (numbered : rooms.Numbered)
    {number : Int} {position : Nat} :
    rooms.getRoomByNumber number = some position ↔
      position < rooms.mMaxRoomCount ∧
        number = (rooms.mRoomList position).mRoomNumber := by
  have last := numbered.last
  rw [numbered.number]
  unfold getRoomByNumber
  split
  · constructor
    · exact nofun
    · intro inside
      omega
  · rw [Option.some.injEq]
    omega

/-- Different rooms have different numbers, so consistency alone gives membership. -/
theorem Numbered.membership {rooms : RoomManager n} (numbered : rooms.Numbered)
    {slots : Fin n → User}
    (consistent : ∀ position < rooms.mMaxRoomCount,
      (rooms.mRoomList position).Consistent slots) : rooms.Membership slots := by
  refine ⟨consistent, fun first firstIn second secondIn slot inFirst inSecond => ?_⟩
  have here := ((consistent first firstIn).listed slot).mp inFirst
  have there := ((consistent second secondIn).listed slot).mp inSecond
  have same := here.2.symm.trans there.2
  rw [numbered.number, numbered.number] at same
  omega

theorem membership_init (beginRoomNumber : Int) (maxRoomCount : Nat) {maxRoomUserCount : Int}
    (nonneg : 0 ≤ maxRoomUserCount) {slots : Fin n → User}
    (outside : ∀ slot, (slots slot).mCurDomainState ≠ .room) :
    (RoomManager.init beginRoomNumber maxRoomCount maxRoomUserCount).Membership slots := by
  refine (numbered_init _ _ _).membership fun position _ => ⟨fun slot => ?_, ?_, ?_, ?_, ?_⟩
  · exact ⟨nofun, fun inside => absurd inside.1 (outside slot)⟩
  · exact List.nodup_nil
  · rfl
  · exact Int.le_refl 0
  · exact nonneg

/-- One room changes together with one slot; the slot's standing towards the other
rooms is what it was. -/
theorem Membership.setRoom {rooms : RoomManager n} {slots : Fin n → User}
    (numbered : rooms.Numbered) (membership : rooms.Membership slots) {position : Nat}
    {room : Room n} {index : Fin n} {user : User}
    (number : room.mRoomNumber = (rooms.mRoomList position).mRoomNumber)
    (consistent : position < rooms.mMaxRoomCount →
      room.Consistent (Function.update slots index user))
    (others : ∀ other, other ≠ (rooms.mRoomList position).mRoomNumber →
      (user.InRoom other ↔ (slots index).InRoom other)) :
    (rooms.setRoom position room).Membership (Function.update slots index user) := by
  refine (numbered.setRoom number).membership fun other inside => ?_
  by_cases same : other = position
  · subst same
    rw [setRoom_self]
    exact consistent inside
  · rw [setRoom_of_ne rooms room same]
    refine (membership.consistent other inside).update (others _ ?_)
    rw [numbered.number, numbered.number]
    omega

/-- A slot which is taken out of `ROOM` without leaving its room is still listed. -/
theorem Membership.not_update {rooms : RoomManager n} {slots : Fin n → User}
    (numbered : rooms.Numbered) (membership : rooms.Membership slots) {index : Fin n}
    {user : User} (inRoom : (slots index).mCurDomainState = .room)
    (located : rooms.getRoomByNumber (slots index).roomIndex ≠ none)
    (outside : user.mCurDomainState ≠ .room) :
    ¬ rooms.Membership (Function.update slots index user) := by
  intro after
  obtain ⟨room, found⟩ := Option.ne_none_iff_exists'.mp located
  obtain ⟨inside, number⟩ := numbered.getRoomByNumber_eq_some.mp found
  have listed := ((membership.consistent room inside).listed index).mpr ⟨inRoom, number⟩
  have still := ((after.consistent room inside).listed index).mp listed
  rw [Function.update_self] at still
  exact outside still.1

/-- A slot leaves the room which it is in. -/
theorem Membership.leave {rooms : RoomManager n} {slots : Fin n → User}
    (numbered : rooms.Numbered) (membership : rooms.Membership slots) {index : Fin n}
    {user : User} {room : Nat} (inRoom : (slots index).mCurDomainState = .room)
    (located : rooms.getRoomByNumber (slots index).roomIndex = some room)
    (outside : user.mCurDomainState ≠ .room) :
    (rooms.setRoom room ((rooms.mRoomList room).leaveUser index)).Membership
      (Function.update slots index user) := by
  obtain ⟨inside, number⟩ := numbered.getRoomByNumber_eq_some.mp located
  refine membership.setRoom numbered rfl (fun _ => ?_) fun other different => ?_
  · exact (membership.consistent room inside).leave ⟨inRoom, number⟩
      fun there => outside there.1
  · exact ⟨fun there => absurd there.1 outside,
      fun there => absurd (there.2.symm.trans number) different⟩

end RoomManager

/-- The domain states in which an effect keeps the membership. -/
def PacketEffect.KeepsMembershipIn (state : DomainState) : PacketEffect → Prop
  | .testLogin _ => state ≠ .room
  | .redisLogin _ => state ≠ .room
  | .leave _ => state = .room
  | _ => True

namespace PacketManager

variable {n : Nat}

/-- The membership of the slots of this manager in its rooms. -/
def RoomMembership (manager : PacketManager n) : Prop :=
  manager.mRoomManager.Membership manager.mUserManager.mUserObjPool

/-- Rooms keep their numbers, and the room of a slot in `ROOM` exists. -/
structure RoomTable (manager : PacketManager n) : Prop where
  numbered : manager.mRoomManager.Numbered
  located : ∀ slot, (manager.user slot).mCurDomainState = .room →
    manager.mRoomManager.getRoomByNumber (manager.user slot).roomIndex ≠ none

/-- Logins happen outside the rooms, and who leaves a room is in it. -/
structure RoomStateChecked (manager : PacketManager n) (call : RecvCall n) : Prop where
  testLogin : IsTestLogin call → (manager.caller call).mCurDomainState ≠ .room
  redisLogin : manager.IsRedisLogin call → (manager.caller call).mCurDomainState ≠ .room
  leave : manager.IsRoomLeave call → (manager.caller call).mCurDomainState = .room

theorem roomTable_init (memory : Fin n → Bytes) : (PacketManager.init memory).RoomTable :=
  ⟨RoomManager.numbered_init 0 250 8, fun _ => nofun⟩

theorem roomMembership_init (memory : Fin n → Bytes) :
    (PacketManager.init memory).RoomMembership :=
  RoomManager.membership_init 0 250 (by decide) fun _ => nofun

/-- The effect of a call keeps the numbers of the rooms. -/
theorem EffectCase.numbered {manager : PacketManager n} {call : RecvCall n}
    {effect : PacketEffect} (effectCase : manager.EffectCase call effect)
    (numbered : manager.mRoomManager.Numbered) :
    (effect.onRooms (manager.caller call) call.clientIndex manager.mRoomManager).Numbered := by
  cases effectCase with
  | keep noTest noRedis noLeave => exact numbered
  | testLogin test => exact numbered
  | redisLogin redis => exact numbered
  | disconnect found =>
      simp only [PacketEffect.onRooms]
      split
      · split
        · exact numbered
        · exact numbered.setRoom rfl
      · exact numbered
  | enter room found located state notFull => exact numbered.setRoom rfl
  | leave room found located => exact numbered.setRoom rfl

/-- Which rooms exist never changes. -/
theorem getRoomByNumber_onRooms (effect : PacketEffect) (user : User) (index : Fin n)
    (rooms : RoomManager n) (number : Int) :
    (effect.onRooms user index rooms).getRoomByNumber number =
      rooms.getRoomByNumber number := by
  cases effect with
  | disconnect =>
      simp only [PacketEffect.onRooms]
      split
      · split
        · rfl
        · rfl
      · rfl
  | keep => rfl
  | testLogin userID => rfl
  | redisLogin userID => rfl
  | enter room => rfl
  | leave room => rfl

/-- The number of a room and how many rooms there are never change. -/
theorem number_onRooms (effect : PacketEffect) (user : User) (index : Fin n)
    (rooms : RoomManager n) (position : Nat) :
    ((effect.onRooms user index rooms).mRoomList position).mRoomNumber =
        (rooms.mRoomList position).mRoomNumber ∧
      (effect.onRooms user index rooms).mMaxRoomCount = rooms.mMaxRoomCount := by
  have replaced {room : Nat} {changed : Room n}
      (same : changed.mRoomNumber = (rooms.mRoomList room).mRoomNumber) :
      ((rooms.setRoom room changed).mRoomList position).mRoomNumber =
        (rooms.mRoomList position).mRoomNumber := by
    rcases eq_or_ne position room with rfl | different
    · rw [RoomManager.setRoom_self, same]
    · rw [RoomManager.setRoom_of_ne rooms changed different]
  cases effect with
  | keep => exact ⟨rfl, rfl⟩
  | testLogin userID => exact ⟨rfl, rfl⟩
  | redisLogin userID => exact ⟨rfl, rfl⟩
  | disconnect =>
      simp only [PacketEffect.onRooms]
      split
      · split
        · exact ⟨rfl, rfl⟩
        · exact ⟨replaced rfl, rfl⟩
      · exact ⟨rfl, rfl⟩
  | enter room => exact ⟨replaced rfl, rfl⟩
  | leave room => exact ⟨replaced rfl, rfl⟩

theorem roomTable_recv {manager next : PacketManager n} {call : RecvCall n}
    (table : manager.RoomTable) (taken : manager.recv call = some next) :
    next.RoomTable := by
  obtain ⟨effect, effectCase, changed⟩ := recv_cases taken
  refine ⟨changed.rooms ▸ effectCase.numbered table.numbered, ?_⟩
  rw [changed.rooms]
  simp only [getRoomByNumber_onRooms]
  refine changed.forall_user (fun user => user.mCurDomainState = .room →
    manager.mRoomManager.getRoomByNumber user.roomIndex ≠ none) table.located ?_
  have own := table.located call.clientIndex
  cases effectCase with
  | keep noTest noRedis noLeave => exact own
  | testLogin test =>
      intro room
      cases room
  | redisLogin redis =>
      intro room
      cases room
  | disconnect found =>
      simp only [PacketEffect.onSlot]
      split
      · exact own
      · intro room
        cases room
  | enter room found located state notFull =>
      intro _ missing
      have inside := (table.numbered.getRoomByNumber_eq_some).mp located
      have here := (table.numbered.getRoomByNumber_eq_some).mpr ⟨inside.1, rfl⟩
      cases here.symm.trans missing
  | leave room found located =>
      intro inRoom
      cases inRoom

/-- The condition on a call is the condition on its effect. -/
theorem EffectCase.roomStateChecked_iff {manager : PacketManager n} {call : RecvCall n}
    {effect : PacketEffect} (effectCase : manager.EffectCase call effect) :
    manager.RoomStateChecked call ↔
      effect.KeepsMembershipIn (manager.caller call).mCurDomainState := by
  constructor
  · intro checked
    cases effectCase with
    | keep noTest noRedis noLeave => trivial
    | testLogin test => exact checked.testLogin test
    | redisLogin redis => exact checked.redisLogin redis
    | disconnect found => trivial
    | enter room found located state notFull => trivial
    | leave room found located => exact checked.leave (isRoomLeave_of_located found located)
  · intro allowed
    refine ⟨fun test => ?_, fun redis => ?_, fun leave => ?_⟩
    · rw [effectCase.eq_testLogin test] at allowed
      exact allowed
    · rw [effectCase.eq_redisLogin redis] at allowed
      exact allowed
    · obtain ⟨room, isLeave, _⟩ := effectCase.eq_leave leave
      rw [isLeave] at allowed
      exact allowed

/-- A login keeps the membership just when it is made outside the rooms. -/
theorem RoomTable.membership_login_iff {manager : PacketManager n} {index : Fin n}
    {userID : Bytes} (table : manager.RoomTable) (membership : manager.RoomMembership) :
    manager.mRoomManager.Membership (Function.update manager.mUserManager.mUserObjPool index
        ((manager.user index).setLogin userID)) ↔
      (manager.user index).mCurDomainState ≠ .room := by
  constructor
  · intro after inRoom
    refine membership.not_update table.numbered inRoom (table.located index inRoom) ?_ after
    exact nofun
  · intro outside
    refine table.numbered.membership fun room inside =>
      (membership.consistent room inside).update ⟨fun there => ?_, fun there => ?_⟩
    · exact nomatch there.1
    · exact absurd there.1 outside

/-- From a good state a step ends in a good state just when the login or leave which
it makes is made in the right domain state. -/
theorem roomMembership_recv_iff {manager next : PacketManager n} {call : RecvCall n}
    (table : manager.RoomTable) (membership : manager.RoomMembership)
    (taken : manager.recv call = some next) :
    next.RoomMembership ↔ manager.RoomStateChecked call := by
  obtain ⟨effect, effectCase, changed⟩ := recv_cases taken
  have numbered := table.numbered
  rw [effectCase.roomStateChecked_iff]
  unfold RoomMembership
  rw [changed.rooms, changed.slots]
  cases effectCase with
  | keep noTest noRedis noLeave =>
      refine ⟨fun _ => trivial, fun _ => ?_⟩
      simp only [PacketEffect.onSlot, PacketEffect.onRooms]
      rw [show manager.user call.clientIndex =
        manager.mUserManager.mUserObjPool call.clientIndex from rfl, Function.update_eq_self]
      exact membership
  | testLogin test => exact table.membership_login_iff membership
  | redisLogin redis => exact table.membership_login_iff membership
  | disconnect found =>
      refine ⟨fun _ => trivial, fun _ => ?_⟩
      simp only [PacketEffect.onSlot, PacketEffect.onRooms]
      by_cases inRoom : (manager.user call.clientIndex).mCurDomainState = .room
      · obtain ⟨room, located⟩ :=
          Option.ne_none_iff_exists'.mp (table.located call.clientIndex inRoom)
        simp only [inRoom, located, reduceCtorEq, ↓reduceIte]
        refine membership.leave numbered inRoom located fun room => ?_
        cases room
      · simp only [inRoom, ↓reduceIte]
        refine numbered.membership fun room inside =>
          (membership.consistent room inside).update ⟨fun there => ?_, fun there => ?_⟩
        · split at there
          · exact there
          · cases there.1
        · exact absurd there.1 inRoom
  | enter room found located state notFull =>
      refine ⟨fun _ => trivial, fun _ => membership.setRoom numbered rfl ?_ ?_⟩
      · intro inside
        refine (membership.consistent room inside).join ?_ ⟨rfl, rfl⟩ notFull
        intro there
        cases there.1.symm.trans state
      · intro other different
        refine ⟨fun there => absurd there.2.symm different, fun there => ?_⟩
        cases there.1.symm.trans state
  | leave room found located =>
      obtain ⟨inside, number⟩ := numbered.getRoomByNumber_eq_some.mp located
      constructor
      · intro after
        by_contra outside
        have left := after.consistent room inside
        simp only [PacketEffect.onRooms, RoomManager.setRoom_self] at left
        exact (membership.consistent room inside).not_leave (fun there => outside there.1) left
      · intro inRoom
        refine membership.leave numbered inRoom located fun room => ?_
        cases room

/--
A run keeps list, counter and slots of all rooms together precisely when its logins
are made outside the rooms and its leave requests inside one.
-/
theorem roomMembership_iff_roomStateChecked (memory : Fin n → Bytes)
    (calls : List (RecvCall n)) :
    Execution.Always recv RoomMembership (PacketManager.init memory) calls ↔
      Execution.Throughout recv RoomStateChecked (PacketManager.init memory) calls :=
  Execution.always_iff_throughout
    (fun _ _ _ table taken => roomTable_recv table taken)
    (fun _ _ _ table membership taken => roomMembership_recv_iff table membership taken)
    (roomTable_init memory) (roomMembership_init memory) calls

/-- A client which asks twice to leave its room. -/
def leaveTwice : List (RecvCall 1) :=
  [.loginRequest 0 (testUser ++ text ['1']) [], .roomEnterRequest 0, .roomLeaveRequest 0,
    .roomLeaveRequest 0]

/-- After the second leave request the counter of room 0 is -1. -/
theorem leaveTwice_not_roomMembership :
    ¬ Execution.Always recv RoomMembership (PacketManager.init fun _ => []) leaveTwice := by
  intro always
  have seen : (Execution.run? recv (PacketManager.init fun _ => []) leaveTwice).map
      (fun last => (last.mRoomManager.mMaxRoomCount,
        (last.mRoomManager.mRoomList 0).mCurrentUserCount)) = some (250, -1) := by
    decide +kernel
  obtain ⟨last, membership, observed⟩ := always.observed seen
  obtain ⟨rooms, count⟩ := Prod.mk.inj observed
  have nonneg := (membership.consistent 0 (by omega)).nonneg
  omega

end PacketManager

end IOCPChatServer
