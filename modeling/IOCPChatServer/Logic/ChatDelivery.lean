import IOCPChatServer.Logic.Regular
import IOCPChatServer.Logic.Rejection
import IOCPChatServer.Logic.Residue

/-!
# Who receives a chat message

`NotifyChat` follows the list of the room; who is in a room is told by the domain states
and the room indices of the slots.  A room which nobody is in delivers nothing, so its list
may be wrong; the list of an inhabited room has to name each inhabitant once and nobody else.
-/

namespace IOCPChatServer

instance (user : User) (number : Int) : Decidable (user.InRoom number) :=
  inferInstanceAs (Decidable (_ ∧ _))

namespace RecvCall

variable {n : Nat}

/-- A `ROOM_CHAT_REQUEST` whose `Message` is NUL-terminated within its array. -/
structure IsChatRequest (call : RecvCall n) : Prop where
  packetId : call.packetId = PacketId.roomChatRequest.code
  terminated : 0 ∈ (call.pPacket.drop packetHeaderLength).take (maxChatMsg + 1)

/-- `ROOM_CHAT_REQUEST_PACKET` with a message which is padded with zeros. -/
def roomChatRequest (index : Fin n) (Message : Bytes) : RecvCall n where
  clientIndex := index
  packetId := PacketId.roomChatRequest.code
  packetSize := packetHeaderLength + (maxChatMsg + 1)
  pPacket :=
    u16Bytes (packetHeaderLength + (maxChatMsg + 1)) ++ u16Bytes PacketId.roomChatRequest.code ++
      [0] ++ Message ++ List.replicate (maxChatMsg + 1 - Message.length) 0

end RecvCall

namespace PacketManager

variable {n : Nat}

/-- The chat notifications for a slot among the calls of `SendPacketFunc` between two
states. -/
def notifications (before after : PacketManager n) (slot : Fin n) : List ServerPacket :=
  ((before.newPackets after).filter fun sent =>
    sent.1 = slot ∧ sent.2.packetId = .roomChatNotify).map Prod.snd

/-- Whoever is in a room may chat: each slot in the same room is notified once, with the ID
of the sender and the message, and no other slot is. -/
def ChatConfined (manager : PacketManager n) : Prop :=
  ∀ call : RecvCall n, call.IsChatRequest → (manager.caller call).mCurDomainState = .room →
    ∃ next, manager.recv call = some next ∧ ∀ slot,
      manager.notifications next slot =
        if (manager.user slot).InRoom (manager.caller call).roomIndex then
          [.roomChatNotify (manager.caller call).mUserID (chatMessage call.pPacket)]
        else []

/-- The list of the room at this position names every slot which is in the room once, and
no other slot. -/
def ListsInhabitants (manager : PacketManager n) (position : Nat) : Prop :=
  ∀ slot, (manager.mRoomManager.mRoomList position).mUserList.count slot =
    if (manager.user slot).InRoom (manager.mRoomManager.mRoomList position).mRoomNumber then 1
    else 0

/-- Some slot is in the room at this position. -/
def Inhabited (manager : PacketManager n) (position : Nat) : Prop :=
  position < manager.mRoomManager.mMaxRoomCount ∧
    ∃ slot, (manager.user slot).InRoom (manager.mRoomManager.mRoomList position).mRoomNumber

/-- The lists of all inhabited rooms are right. -/
def ListsMatch (manager : PacketManager n) : Prop :=
  ∀ position, manager.Inhabited position → manager.ListsInhabitants position

/-! ## One chat request -/

/-- `NotifyChat` with an ID and a message which fit sends to the whole list. -/
theorem notifyChat_of_fits (manager : PacketManager n) (position : Nat) (index : Fin n)
    {userID message : Bytes} (shortID : userID.length < maxUserIDLength + 1)
    (shortMessage : message.length < maxChatMsg + 1) :
    manager.notifyChat (some position) index userID message =
      some { manager with
        sentPackets := manager.sentPackets ++
          (manager.mRoomManager.mRoomList position).mUserList.map fun receiver =>
            (receiver, .roomChatNotify userID message) } := by
  have everyone : ((manager.mRoomManager.mRoomList position).sendToAllUser index false) =
      (manager.mRoomManager.mRoomList position).mUserList :=
    List.filter_eq_self.mpr fun _ _ => rfl
  simp only [notifyChat, Room.notifyChat, strcpyS_of_fits shortID, strcpyS_of_fits shortMessage,
    everyone]
  rfl

/-- A chat request from inside a room is answered, logged and handed to the whole list. -/
theorem recv_roomChat {manager : PacketManager n} {call : RecvCall n} {position : Nat}
    (regular : manager.Regular) (request : call.IsChatRequest)
    (inRoom : (manager.caller call).mCurDomainState = .room)
    (located : manager.mRoomManager.getRoomByNumber (manager.caller call).roomIndex =
      some position) :
    ∃ next, manager.recv call = some next ∧
      manager.newPackets next =
        (call.clientIndex, .roomChatResponse ErrorCode.none.code) ::
          (manager.mRoomManager.mRoomList position).mUserList.map fun receiver =>
            (receiver, .roomChatNotify (manager.caller call).mUserID
              (chatMessage call.pPacket)) := by
  have shortID := Nat.lt_succ_of_le (regular.members call.clientIndex inRoom)
  have shortMessage : (chatMessage call.pPacket).length < maxChatMsg + 1 :=
    length_cString_lt request.terminated
  have found : findHandler call.packetId = some .processRoomChatMessage := by
    rw [request.packetId]
    rfl
  have handled : manager.recv call =
      manager.processRoomChatMessage call.clientIndex call.pPacket := by
    unfold recv processRecvPacket
    rw [found]
    rfl
  let logged := (manager.send call.clientIndex
    (.roomChatResponse ErrorCode.none.code)).pushMySQLTask
      (.insertChatMessage call.clientIndex (manager.caller call).mUserID
        (manager.caller call).roomIndex (chatMessage call.pPacket))
  have told := notifyChat_of_fits logged position call.clientIndex shortID shortMessage
  refine ⟨_, Eq.trans ?_ told, newPackets_of_append (List.append_assoc ..)⟩
  rw [handled]
  unfold processRoomChatMessage
  unfold caller at inRoom located
  rw [if_neg (not_not.mpr inRoom)]
  dsimp only
  rw [located]
  dsimp only
  rw [strcpyS_of_fits shortMessage, show strcpyS (maxUserIDLength + 1)
    ((manager.send call.clientIndex (.roomChatResponse ErrorCode.none.code)).user
      call.clientIndex).mUserID = some _ from strcpyS_of_fits shortID]
  rfl

/-- What `NotifyChat` hands to a list reaches a slot as often as the slot is listed. -/
theorem notifications_eq_replicate {before after : PacketManager n} {sender : Fin n}
    {list : List (Fin n)} {Result : Nat} {UserID Message : Bytes}
    (sent : before.newPackets after = (sender, .roomChatResponse Result) ::
      list.map fun receiver => (receiver, .roomChatNotify UserID Message)) (slot : Fin n) :
    before.notifications after slot =
      List.replicate (list.count slot) (.roomChatNotify UserID Message) := by
  unfold notifications
  rw [sent, List.filter_cons_of_neg (by simp [ServerPacket.packetId])]
  clear sent
  induction list with
  | nil => rfl
  | cons receiver rest ih =>
      rw [List.map_cons]
      rcases eq_or_ne receiver slot with rfl | other
      · rw [List.filter_cons_of_pos (by simp [ServerPacket.packetId]), List.map_cons, ih,
          List.count_cons_self, List.replicate_succ]
      · rw [List.filter_cons_of_neg (by simp [other]), ih, List.count_cons_of_ne other]

theorem isChatRequest_roomChatRequest (index : Fin n) {Message : Bytes}
    (fits : Message.length ≤ maxChatMsg) :
    (RecvCall.roomChatRequest index Message).IsChatRequest := by
  refine ⟨rfl, ?_⟩
  have padded : (RecvCall.roomChatRequest index Message).pPacket.drop packetHeaderLength =
      Message ++ List.replicate (maxChatMsg + 1 - Message.length) 0 := rfl
  rw [padded, List.take_of_length_le (by simp; omega)]
  refine List.mem_append_right _ (List.mem_replicate.mpr ⟨?_, rfl⟩)
  omega

/-- Chat is confined just when the list of each inhabited room is right. -/
theorem chatConfined_iff_listsMatch {manager : PacketManager n} (regular : manager.Regular) :
    manager.ChatConfined ↔ manager.ListsMatch := by
  have numbered := regular.table.numbered
  constructor
  · rintro confined position ⟨inside, user, inRoom⟩ slot
    have located := numbered.getRoomByNumber_eq_some.mpr ⟨inside, inRoom.2⟩
    have empty : ([] : Bytes).length ≤ maxChatMsg := Nat.zero_le maxChatMsg
    have request := isChatRequest_roomChatRequest user empty
    obtain ⟨next, taken, delivered⟩ := confined _ request inRoom.1
    obtain ⟨next', taken', sent⟩ := recv_roomChat regular request inRoom.1 located
    cases taken.symm.trans taken'
    have count := congrArg List.length (delivered slot)
    rw [notifications_eq_replicate sent, List.length_replicate, apply_ite List.length] at count
    rw [count, ← inRoom.2]
    rfl
  · intro listed call request inRoom
    obtain ⟨position, located⟩ :=
      Option.ne_none_iff_exists'.mp (regular.table.located call.clientIndex inRoom)
    obtain ⟨inside, number⟩ := numbered.getRoomByNumber_eq_some.mp located
    obtain ⟨next, taken, sent⟩ := recv_roomChat regular request inRoom located
    refine ⟨next, taken, fun slot => ?_⟩
    have count := listed position ⟨inside, call.clientIndex, inRoom, number⟩ slot
    rw [notifications_eq_replicate sent, count, caller, number]
    split <;> rfl

/-! ## Which calls keep the lists right -/

/-- Who logs in inside a room is alone there, and a room which somebody enters lists only
slots which are in it. -/
structure KeepsChat (manager : PacketManager n) (call : RecvCall n) : Prop where
  login : ∀ userID, manager.LogsIn call userID →
    (manager.caller call).mCurDomainState = .room → ∀ other, other ≠ call.clientIndex →
      ¬ (manager.user other).InRoom (manager.caller call).roomIndex
  enter : ∀ position, manager.EntersRoom call position →
    ∀ slot ∈ (manager.mRoomManager.mRoomList position).mUserList,
      (manager.user slot).InRoom (manager.mRoomManager.mRoomList position).mRoomNumber

/-! ## One lemma for each change of a list -/

/-- A room whose list and whose inhabitants are what they were. -/
theorem ListsMatch.same {before after : PacketManager n} {index : Fin n}
    {effect : PacketEffect} (matched : before.ListsMatch)
    (changed : before.ChangedBy index effect after) {position : Nat}
    (list : ∀ slot, (after.mRoomManager.mRoomList position).mUserList.count slot =
      (before.mRoomManager.mRoomList position).mUserList.count slot)
    (inRoom : (after.user index).InRoom (before.mRoomManager.mRoomList position).mRoomNumber ↔
      (before.user index).InRoom (before.mRoomManager.mRoomList position).mRoomNumber)
    (inhabited : after.Inhabited position) : after.ListsInhabitants position := by
  obtain ⟨number, count⟩ := number_onRooms effect (before.user index) index
    before.mRoomManager position
  rw [← changed.rooms] at number count
  have standing (slot : Fin n) :
      (after.user slot).InRoom (before.mRoomManager.mRoomList position).mRoomNumber ↔
        (before.user slot).InRoom (before.mRoomManager.mRoomList position).mRoomNumber := by
    rcases eq_or_ne slot index with rfl | different
    · exact inRoom
    · rw [changed.user_of_ne different]
  obtain ⟨inside, inhabitant, there⟩ := inhabited
  rw [count] at inside
  rw [number] at there
  intro slot
  rw [list, number]
  simp only [standing]
  exact matched position ⟨inside, inhabitant, (standing inhabitant).mp there⟩ slot

/-- A slot is taken off the list of a room and is in no room afterwards. -/
theorem ListsMatch.leave {before after : PacketManager n} {index : Fin n} {room : Nat}
    {effect : PacketEffect} (matched : before.ListsMatch)
    (numbered : before.mRoomManager.Numbered)
    (changed : before.ChangedBy index effect after)
    (rooms : after.mRoomManager =
      before.mRoomManager.setRoom room ((before.mRoomManager.mRoomList room).leaveUser index))
    (outside : (after.user index).mCurDomainState ≠ .room)
    (located : before.mRoomManager.getRoomByNumber (before.user index).roomIndex = some room) :
    after.ListsMatch := by
  intro position inhabited
  rcases eq_or_ne position room with rfl | different
  · obtain ⟨inside, inhabitant, there⟩ := inhabited
    rw [rooms] at inside there
    rw [RoomManager.setRoom_self] at there
    have other : inhabitant ≠ index := by
      rintro rfl
      exact outside there.1
    rw [changed.user_of_ne other] at there
    intro slot
    have count := matched position ⟨inside, inhabitant, there⟩ slot
    rw [rooms, count_leaveUser, RoomManager.setRoom_self]
    rcases eq_or_ne slot index with rfl | elsewhere
    · rw [if_pos ⟨rfl, rfl⟩, if_neg fun inRoom => outside inRoom.1]
    · rw [if_neg fun both => elsewhere both.1, count, changed.user_of_ne elsewhere]
      rfl
  · refine matched.same changed (fun slot => ?_) ?_ inhabited
    · rw [rooms, count_leaveUser, if_neg fun both => different both.2]
    · refine ⟨fun there => absurd there.1 outside, fun there => absurd ?_ different⟩
      have number := (numbered.getRoomByNumber_eq_some.mp located).2
      rw [there.2, numbered.number, numbered.number] at number
      omega

/-- A disconnected slot is taken off the list of its room, if it is in one. -/
theorem ListsMatch.disconnect {before after : PacketManager n} {index : Fin n}
    (regular : before.Regular) (matched : before.ListsMatch)
    (changed : before.ChangedBy index .disconnect after) : after.ListsMatch := by
  have outside : (after.user index).mCurDomainState ≠ .room := by
    rw [changed.user_self]
    simp only [PacketEffect.onSlot]
    split
    · rename_i none
      intro room
      cases none.symm.trans room
    · intro room
      cases room
  by_cases inRoom : (before.user index).mCurDomainState = .room
  · obtain ⟨room, located⟩ :=
      Option.ne_none_iff_exists'.mp (regular.table.located index inRoom)
    refine matched.leave regular.table.numbered changed ?_ outside located
    rw [changed.rooms]
    simp only [PacketEffect.onRooms, inRoom, located, ↓reduceIte]
  · have rooms : after.mRoomManager = before.mRoomManager := by
      rw [changed.rooms]
      exact if_neg inRoom
    intro position inhabited
    refine matched.same changed (fun _ => by rw [rooms]) ?_ inhabited
    exact ⟨fun there => absurd there.1 outside, fun there => absurd there.1 inRoom⟩

/-- A login of a slot which is in no room, or alone in its room. -/
theorem listsMatch_login_iff {before after : PacketManager n} {index : Fin n}
    {effect : PacketEffect} {userID : Bytes} (regular : before.Regular)
    (matched : before.ListsMatch) (changed : before.ChangedBy index effect after)
    (login : effect = .testLogin userID ∨ effect = .redisLogin userID) :
    after.ListsMatch ↔ ((before.user index).mCurDomainState = .room → ∀ other, other ≠ index →
      ¬ (before.user other).InRoom (before.user index).roomIndex) := by
  have slot : after.user index = (before.user index).setLogin userID := by
    rw [changed.user_self]
    rcases login with rfl | rfl <;> rfl
  have rooms : after.mRoomManager = before.mRoomManager := by
    rw [changed.rooms]
    rcases login with rfl | rfl <;> rfl
  have outside : (after.user index).mCurDomainState ≠ .room := by
    rw [slot]
    exact nofun
  constructor
  · intro good inRoom other different there
    obtain ⟨position, located⟩ :=
      Option.ne_none_iff_exists'.mp (regular.table.located index inRoom)
    obtain ⟨inside, number⟩ := regular.table.numbered.getRoomByNumber_eq_some.mp located
    rw [number] at there
    have listed := matched position ⟨inside, other, there⟩ index
    have left := good position ⟨rooms ▸ inside, other, by
      rwa [rooms, changed.user_of_ne different]⟩ index
    rw [if_pos ⟨inRoom, number⟩] at listed
    rw [rooms, if_neg fun still => outside still.1, listed] at left
    cases left
  · intro alone position inhabited
    refine matched.same changed (fun slot => by rw [rooms]) ?_ inhabited
    refine ⟨fun there => absurd there.1 outside, fun there => ?_⟩
    obtain ⟨_, inhabitant, inRoom⟩ := inhabited
    have different : inhabitant ≠ index := by
      rintro rfl
      exact outside inRoom.1
    rw [rooms, changed.user_of_ne different, ← there.2] at inRoom
    exact absurd inRoom (alone there.1 inhabitant different)

/-- A list which names only inhabitants names each of them once, also when nobody is left. -/
theorem ListsMatch.listsInhabitants {manager : PacketManager n} (matched : manager.ListsMatch)
    {position : Nat} (inside : position < manager.mRoomManager.mMaxRoomCount)
    (listed : ∀ slot ∈ (manager.mRoomManager.mRoomList position).mUserList,
      (manager.user slot).InRoom (manager.mRoomManager.mRoomList position).mRoomNumber) :
    manager.ListsInhabitants position := by
  intro slot
  split
  · rename_i there
    exact (matched position ⟨inside, slot, there⟩ slot).trans (if_pos there)
  · rename_i elsewhere
    exact List.count_eq_zero.mpr fun member => elsewhere (listed slot member)

/-- A slot enters a room which lists nobody who is not in it. -/
theorem listsMatch_enter_iff {manager next : PacketManager n} {call : RecvCall n}
    {position : Nat} (regular : manager.Regular) (matched : manager.ListsMatch)
    (enters : manager.EntersRoom call position)
    (changed : manager.ChangedBy call.clientIndex (.enter position) next) :
    next.ListsMatch ↔ ∀ slot ∈ (manager.mRoomManager.mRoomList position).mUserList,
      (manager.user slot).InRoom (manager.mRoomManager.mRoomList position).mRoomNumber := by
  have numbered := regular.table.numbered
  have inside := (numbered.getRoomByNumber_eq_some.mp enters.located).1
  have rooms : next.mRoomManager = manager.mRoomManager.setRoom position
      (PacketEffect.joined (manager.mRoomManager.mRoomList position) call.clientIndex) :=
    changed.rooms
  have number : (next.mRoomManager.mRoomList position).mRoomNumber =
      (manager.mRoomManager.mRoomList position).mRoomNumber := by
    rw [rooms, RoomManager.setRoom_self]
    rfl
  have entered : (next.user call.clientIndex).InRoom
      (manager.mRoomManager.mRoomList position).mRoomNumber := by
    rw [changed.user_self]
    exact ⟨rfl, rfl⟩
  have outside (other : Int) : ¬ (manager.user call.clientIndex).InRoom other :=
    fun there => nomatch there.1.symm.trans enters.state
  constructor
  · intro good slot member
    have counted := good position
      ⟨by rwa [rooms], call.clientIndex, by rwa [number]⟩ slot
    have positive := List.count_pos_iff.mpr member
    rw [number, rooms, count_joined] at counted
    rcases eq_or_ne slot call.clientIndex with rfl | other
    · rw [if_pos ⟨rfl, rfl⟩, if_pos entered] at counted
      omega
    · rw [if_neg fun both => other both.1, changed.user_of_ne other] at counted
      by_contra notThere
      rw [if_neg notThere] at counted
      omega
  · intro listed other inhabited
    rcases eq_or_ne other position with rfl | different
    · have before := matched.listsInhabitants inside listed
      intro slot
      rw [number, rooms, count_joined, before slot]
      rcases eq_or_ne slot call.clientIndex with rfl | elsewhere
      · rw [if_neg (outside _), if_pos ⟨rfl, rfl⟩, if_pos entered]
      · have notJoined : ¬ (slot = call.clientIndex ∧ other = other) :=
          fun both => elsewhere both.1
        rw [if_neg notJoined, changed.user_of_ne elsewhere, Nat.add_zero]
    · refine matched.same changed (fun slot => ?_) ?_ inhabited
      · rw [rooms, count_joined, if_neg fun both => different both.2, Nat.add_zero]
      · refine ⟨fun there => absurd there.2 ?_, fun there => absurd there (outside _)⟩
        rw [changed.user_self]
        simp only [PacketEffect.onSlot, User.enterRoom]
        rw [numbered.number, numbered.number]
        omega

/-! ## Runs -/

/-- From a state in which chat is confined a call ends in one just when it keeps it. -/
theorem chatConfined_recv_iff {manager next : PacketManager n} {call : RecvCall n}
    (regular : manager.Regular) (confined : manager.ChatConfined)
    (taken : manager.recv call = some next) :
    next.ChatConfined ↔ manager.KeepsChat call := by
  have matched := (chatConfined_iff_listsMatch regular).mp confined
  rw [chatConfined_iff_listsMatch (regular.recv taken)]
  have changed : manager.ChangedBy call.clientIndex (manager.effect call) next :=
    processRecvPacket_effect taken
  constructor
  · intro good
    refine ⟨fun userID logsIn => ?_, fun position enters => ?_⟩
    · exact (listsMatch_login_iff regular matched changed logsIn.effect).mp good
    · rw [enters.effect] at changed
      exact (listsMatch_enter_iff regular matched enters changed).mp good
  · intro keeps
    have effectCase := manager.effectCase call
    generalize manager.effect call = effect at effectCase changed
    cases effectCase with
    | keep noTest noRedis noLeave =>
        have slot : next.user call.clientIndex = manager.user call.clientIndex :=
          changed.user_self
        have rooms : next.mRoomManager = manager.mRoomManager := changed.rooms
        intro position inhabited
        exact matched.same changed (fun _ => by rw [rooms]) (by rw [slot]) inhabited
    | testLogin test =>
        exact (listsMatch_login_iff regular matched changed (Or.inl rfl)).mpr
          (keeps.login _ (.test test))
    | redisLogin redis =>
        exact (listsMatch_login_iff regular matched changed (Or.inr rfl)).mpr
          (keeps.login _ (.redis redis))
    | disconnect found => exact matched.disconnect regular changed
    | enter room found located state notFull =>
        have enters : manager.EntersRoom call room := ⟨found, located, state, notFull⟩
        exact (listsMatch_enter_iff regular matched enters changed).mpr
          (keeps.enter room enters)
    | leave room found located =>
        refine matched.leave regular.table.numbered changed changed.rooms ?_ located
        rw [changed.user_self]
        exact nofun

theorem chatConfined_init (memory : Fin n → Bytes) : (PacketManager.init memory).ChatConfined :=
  fun _ _ inRoom => nomatch inRoom

/--
In every state of a run a chat message reaches each slot of the sender's room once and no
other slot, precisely when every login inside a room is made by a slot which is alone there,
and every enter request goes to a room which lists only slots which are in it.
-/
theorem chatConfined_iff_keepsChat (memory : Fin n → Bytes) (calls : List (RecvCall n)) :
    Execution.Always recv ChatConfined (PacketManager.init memory) calls ↔
      Execution.Throughout recv KeepsChat (PacketManager.init memory) calls := by
  have preserved (manager : PacketManager n) (call : RecvCall n) (next : PacketManager n)
      (regular : manager.Regular) (taken : manager.recv call = some next) : next.Regular :=
    regular.recv taken
  exact Execution.always_iff_throughout preserved
    (fun _ _ _ regular confined taken => chatConfined_recv_iff regular confined taken)
    (regular_init memory) (chatConfined_init memory) calls

/-- Two clients in room 0, of which the first logs in again. -/
def loginAmongOthers : List (RecvCall 2) :=
  [.loginRequest 0 (testUser ++ text ['1']) [], .roomEnterRequest 0,
    .loginRequest 1 (testUser ++ text ['2']) [], .roomEnterRequest 1,
    .loginRequest 0 (testUser ++ text ['1']) []]

/-- The first client still hears the room which it has left. -/
theorem loginAmongOthers_not_chatConfined :
    ¬ Execution.Always recv ChatConfined (PacketManager.init fun _ => [])
      loginAmongOthers := by
  intro always
  have seen : (Execution.run? recv (PacketManager.init fun _ => []) loginAmongOthers).map
      (fun last => ((last.user 0).mCurDomainState, (last.user 1).mCurDomainState,
        (last.recv (.roomChatRequest 1 [])).map fun next =>
          (last.notifications next 0).length)) = some (.login, .room, some 1) := by
    decide +kernel
  obtain ⟨last, confined, observed⟩ := always.observed seen
  obtain ⟨outside, observed⟩ := Prod.mk.inj observed
  obtain ⟨inRoom, heard⟩ := Prod.mk.inj observed
  have empty : ([] : Bytes).length ≤ maxChatMsg := Nat.zero_le maxChatMsg
  obtain ⟨next, taken, delivered⟩ :=
    confined _ (isChatRequest_roomChatRequest 1 empty) inRoom
  have left : ¬ (last.user 0).InRoom (last.caller (.roomChatRequest 1 [])).roomIndex :=
    fun there => nomatch outside.symm.trans there.1
  rw [taken, Option.map_some, delivered 0, if_neg left] at heard
  cases heard

end PacketManager

end IOCPChatServer
