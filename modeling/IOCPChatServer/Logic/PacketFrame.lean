import IOCPChatServer.Logic.Calls

/-!
# What one packet leaves alone

Only `DeleteUserInfo` touches a slot's reassembly buffer or generation, and only
`ProcessLogin` hands work to Redis.  The threads around the logic layer rely on both:
between two disconnects a slot is a stable mailbox, and every task of a Redis worker
goes back to one forwarded login request.
-/

namespace IOCPChatServer

/-- Two slots with the same reassembly buffer and generation. -/
structure SameMailbox (before after : User) : Prop where
  mPacketDataBuffer : after.mPacketDataBuffer = before.mPacketDataBuffer
  mGeneration : after.mGeneration = before.mGeneration

theorem SameMailbox.refl (user : User) : SameMailbox user user := ⟨rfl, rfl⟩

/-- Every effect but a disconnect keeps the mailbox of the slot. -/
theorem PacketEffect.onSlot_sameMailbox {n : Nat} (rooms : RoomManager n) (user : User)
    {effect : PacketEffect} (stays : effect ≠ .disconnect) :
    SameMailbox user (effect.onSlot rooms user) := by
  cases effect with
  | keep => exact .refl user
  | testLogin userID => exact ⟨rfl, rfl⟩
  | redisLogin userID => exact ⟨rfl, rfl⟩
  | disconnect => exact absurd rfl stays
  | enter room => exact ⟨rfl, rfl⟩
  | leave room => exact ⟨rfl, rfl⟩

namespace PacketManager

variable {n : Nat}

theorem packetEffect_ne_disconnect (manager : PacketManager n) (index : Fin n)
    {packetId : Nat} (packetSize : Nat) (pPacket : Bytes)
    (other : findHandler packetId ≠ some .processUserDisconnect) :
    manager.packetEffect index packetId packetSize pPacket ≠ .disconnect := by
  intro disconnects
  have effectCase := manager.effectCase ⟨index, packetId, packetSize, pPacket⟩
  rw [show manager.effect ⟨index, packetId, packetSize, pPacket⟩ = .disconnect
    from disconnects] at effectCase
  cases effectCase with
  | disconnect found => exact other found

/-- A packet which is no disconnect keeps the mailboxes of all slots. -/
theorem processRecvPacket_sameMailbox {manager after : PacketManager n} {index : Fin n}
    {packetId packetSize : Nat} {pPacket : Bytes}
    (completed : manager.processRecvPacket index packetId packetSize pPacket = some after)
    (other : findHandler packetId ≠ some .processUserDisconnect) (slot : Fin n) :
    SameMailbox (manager.user slot) (after.user slot) := by
  have changed := processRecvPacket_effect completed
  rcases eq_or_ne slot index with rfl | different
  · rw [changed.user_self]
    exact PacketEffect.onSlot_sameMailbox _ _
      (manager.packetEffect_ne_disconnect slot packetSize pPacket other)
  · rw [changed.user_of_ne different]
    exact .refl _

/-! ## The tasks for Redis -/

/-- A `LOGIN_REQUEST` which `ProcessLogin` forwards to Redis. -/
structure ForwardsLogin (manager : PacketManager n) (packetId packetSize : Nat)
    (pPacket : Bytes) : Prop where
  handler : findHandler packetId = some .processLogin
  size : packetSize = loginRequestPacketSize
  noTestUser : isTestUser (loginUserID pPacket) = false
  notLoggedIn : manager.mUserManager.mUserIDDictionary (loginUserID pPacket) = none
  notFull : manager.mUserManager.mCurrentUserCnt < n

theorem forwardsLogin_iff (manager : PacketManager n) (packetId packetSize : Nat)
    (pPacket : Bytes) :
    manager.ForwardsLogin packetId packetSize pPacket ↔
      findHandler packetId = some .processLogin ∧ packetSize = loginRequestPacketSize ∧
        isTestUser (loginUserID pPacket) = false ∧
        manager.mUserManager.mUserIDDictionary (loginUserID pPacket) = none ∧
        manager.mUserManager.mCurrentUserCnt < n :=
  ⟨fun ⟨handler, size, noTestUser, notLoggedIn, notFull⟩ =>
      ⟨handler, size, noTestUser, notLoggedIn, notFull⟩,
    fun ⟨handler, size, noTestUser, notLoggedIn, notFull⟩ =>
      ⟨handler, size, noTestUser, notLoggedIn, notFull⟩⟩

instance (manager : PacketManager n) (packetId packetSize : Nat) (pPacket : Bytes) :
    Decidable (manager.ForwardsLogin packetId packetSize pPacket) :=
  decidable_of_iff _ (manager.forwardsLogin_iff packetId packetSize pPacket).symm

/-- What the call of a handler adds to the tasks for Redis. -/
inductive Forwarded (manager : PacketManager n) (index : Fin n) (packetId packetSize : Nat)
    (pPacket : Bytes) : List (RedisTask n) → Prop where
  | nothing : Forwarded manager index packetId packetSize pPacket []
  | login (forwards : manager.ForwardsLogin packetId packetSize pPacket) :
      Forwarded manager index packetId packetSize pPacket [loginTask index pPacket]

theorem Forwarded.mem {manager : PacketManager n} {index : Fin n}
    {packetId packetSize : Nat} {pPacket : Bytes} {tasks : List (RedisTask n)}
    {task : RedisTask n}
    (forwarded : manager.Forwarded index packetId packetSize pPacket tasks)
    (member : task ∈ tasks) :
    task.UserIndex = index ∧ manager.ForwardsLogin packetId packetSize pPacket := by
  cases forwarded with
  | nothing => exact absurd member List.not_mem_nil
  | login forwards =>
      rw [List.mem_singleton.mp member]
      exact ⟨rfl, forwards⟩

theorem notifyChat_redisTasks {manager after : PacketManager n} {room : Option Nat}
    {index : Fin n} {userID message : Bytes}
    (notified : manager.notifyChat room index userID message = some after) :
    after.redisTasks = manager.redisTasks := by
  cases room with
  | none =>
      cases notified
      rfl
  | some position =>
      obtain ⟨notifications, _, rfl⟩ := Option.map_eq_some_iff.mp notified
      rfl

theorem processLogin_redisTasks (manager : PacketManager n) (index : Fin n)
    {packetId : Nat} (packetSize : Nat) (pPacket : Bytes)
    (found : findHandler packetId = some .processLogin) :
    ∃ tasks, manager.Forwarded index packetId packetSize pPacket tasks ∧
      (manager.processLogin index packetSize pPacket).redisTasks =
        manager.redisTasks ++ tasks := by
  have unchanged {after : PacketManager n} (same : after.redisTasks = manager.redisTasks) :
      ∃ tasks, manager.Forwarded index packetId packetSize pPacket tasks ∧
        after.redisTasks = manager.redisTasks ++ tasks :=
    ⟨[], .nothing, by rw [same, List.append_nil]⟩
  unfold processLogin
  split
  · exact unchanged rfl
  · rename_i size
    dsimp only
    split
    · exact unchanged rfl
    · rename_i noTest
      split
      · exact unchanged rfl
      · rename_i unknown
        split
        · exact unchanged rfl
        · rename_i room
          have absent := not_not.mp unknown
          rw [if_pos absent]
          refine ⟨_, .login ⟨found, (not_not.mp size).symm, ?_, ?_, Nat.not_le.mp room⟩, rfl⟩
          · exact Bool.eq_false_iff.mpr noTest
          · exact (manager.mUserManager.findUserIndexByID_eq_neg_one _).mp absent

theorem processLoginDBResult_redisTasks {manager after : PacketManager n} {index : Fin n}
    {pPacket : Bytes} (completed : manager.processLoginDBResult index pPacket = some after) :
    after.redisTasks = manager.redisTasks := by
  unfold processLoginDBResult at completed
  dsimp only at completed
  split at completed
  · split at completed
    · obtain ⟨userID, _, rest⟩ := Option.bind_eq_some_iff.mp completed
      cases rest
      rfl
    · cases completed
      rfl
  · cases completed
    rfl

theorem processEnterRoom_redisTasks {manager after : PacketManager n} {index : Fin n}
    {pPacket : Bytes} (completed : manager.processEnterRoom index pPacket = some after) :
    after.redisTasks = manager.redisTasks := by
  unfold processEnterRoom at completed
  dsimp only at completed
  split at completed
  · cases completed
    rfl
  · split at completed
    · obtain ⟨userID, _, logged⟩ := Option.bind_eq_some_iff.mp completed
      obtain ⟨notified, told, sent⟩ := Option.bind_eq_some_iff.mp logged
      cases sent
      have kept := notifyChat_redisTasks told
      exact kept
    · cases completed
      rfl

theorem processLeaveRoom_redisTasks {manager after : PacketManager n} {index : Fin n}
    (completed : manager.processLeaveRoom index = some after) :
    after.redisTasks = manager.redisTasks := by
  unfold processLeaveRoom at completed
  dsimp only at completed
  split at completed
  · obtain ⟨userID, _, logged⟩ := Option.bind_eq_some_iff.mp completed
    obtain ⟨notified, told, sent⟩ := Option.bind_eq_some_iff.mp logged
    cases sent
    have kept := notifyChat_redisTasks told
    exact kept
  · cases completed
    rfl

theorem processRoomChatMessage_redisTasks {manager after : PacketManager n} {index : Fin n}
    {pPacket : Bytes}
    (completed : manager.processRoomChatMessage index pPacket = some after) :
    after.redisTasks = manager.redisTasks := by
  unfold processRoomChatMessage at completed
  dsimp only at completed
  split at completed
  · cases completed
    rfl
  · split at completed
    · cases completed
      rfl
    · obtain ⟨userID, _, copied⟩ := Option.bind_eq_some_iff.mp completed
      obtain ⟨message, _, told⟩ := Option.bind_eq_some_iff.mp copied
      have kept := notifyChat_redisTasks told
      exact kept

/-- Only a forwarded login request adds to the tasks for Redis. -/
theorem processRecvPacket_redisTasks {manager after : PacketManager n} {index : Fin n}
    {packetId packetSize : Nat} {pPacket : Bytes}
    (completed : manager.processRecvPacket index packetId packetSize pPacket = some after)
    (other : findHandler packetId ≠ some .processUserDisconnect) :
    ∃ tasks, manager.Forwarded index packetId packetSize pPacket tasks ∧
      after.redisTasks = manager.redisTasks ++ tasks := by
  have unchanged (same : after.redisTasks = manager.redisTasks) :
      ∃ tasks, manager.Forwarded index packetId packetSize pPacket tasks ∧
        after.redisTasks = manager.redisTasks ++ tasks :=
    ⟨[], .nothing, by rw [same, List.append_nil]⟩
  unfold processRecvPacket at completed
  cases found : findHandler packetId with
  | none =>
      simp only [found] at completed
      cases completed
      exact unchanged rfl
  | some handler =>
      simp only [found] at completed
      cases handler with
      | processUserConnect =>
          cases completed
          exact unchanged rfl
      | processUserDisconnect => exact absurd found other
      | processLogin =>
          cases completed
          exact manager.processLogin_redisTasks index packetSize pPacket found
      | processLoginDBResult => exact unchanged (processLoginDBResult_redisTasks completed)
      | processEnterRoom => exact unchanged (processEnterRoom_redisTasks completed)
      | processLeaveRoom => exact unchanged (processLeaveRoom_redisTasks completed)
      | processRoomChatMessage => exact unchanged (processRoomChatMessage_redisTasks completed)
      | pong =>
          cases completed
          exact unchanged rfl

end PacketManager

end IOCPChatServer
