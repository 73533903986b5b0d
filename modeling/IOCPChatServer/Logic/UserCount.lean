import IOCPChatServer.Library.Roster
import IOCPChatServer.Logic.Dictionary

/-!
# The counter of logged-in users

`mCurrentUserCnt` decides whether another login is admitted.  It is incremented by the
handler of Redis results only and decremented by `DeleteUserInfo`, whichever way the
slot became logged in.
-/

namespace IOCPChatServer

namespace PacketManager

variable {n : Nat}

/-- Whether the slot is `LOGIN` or `ROOM`. -/
def isLoggedIn (manager : PacketManager n) (slot : Fin n) : Bool :=
  decide ((manager.user slot).mCurDomainState ≠ .none)

/-- How many slots are `LOGIN` or `ROOM`. -/
def loggedInCount (manager : PacketManager n) : Nat :=
  (List.finRange n).countP manager.isLoggedIn

/-- The counter is the number of logged-in slots, and within its bound. -/
structure CountExact (manager : PacketManager n) : Prop where
  exact : manager.mUserManager.mCurrentUserCnt = manager.loggedInCount
  bounded : manager.mUserManager.mCurrentUserCnt ≤ n

theorem loggedInCount_le (manager : PacketManager n) : manager.loggedInCount ≤ n :=
  Nat.le_trans List.countP_le_length (Nat.le_of_eq (List.length_finRange ..))

/-- The bound follows from the exactness. -/
theorem countExact_iff (manager : PacketManager n) :
    manager.CountExact ↔ manager.mUserManager.mCurrentUserCnt = manager.loggedInCount :=
  ⟨CountExact.exact, fun exact => ⟨exact, exact ▸ manager.loggedInCount_le⟩⟩

/-- A load-test login and a leave request are processed for a slot which is logged in, a
Redis login for one which is not. -/
structure CountedOnce (manager : PacketManager n) (call : RecvCall n) : Prop where
  testLogin : IsTestLogin call → manager.LoggedIn call.clientIndex
  redisLogin : manager.IsRedisLogin call → ¬ manager.LoggedIn call.clientIndex
  leave : manager.IsRoomLeave call → manager.LoggedIn call.clientIndex

/-- A call changes the number of logged-in slots by its own slot. -/
theorem loggedInCount_recv {manager next : PacketManager n} {index : Fin n}
    {effect : PacketEffect} (changed : manager.ChangedBy index effect next) :
    next.loggedInCount + (manager.isLoggedIn index).toNat =
      manager.loggedInCount + (next.isLoggedIn index).toNat := by
  refine countP_of_agree (fun other different => ?_) (List.nodup_finRange n)
    (List.mem_finRange index)
  unfold isLoggedIn
  rw [changed.user_of_ne different]

theorem countExact_init (memory : Fin n → Bytes) : (PacketManager.init memory).CountExact := by
  refine (countExact_iff _).mpr (Eq.symm (List.countP_eq_zero.mpr fun slot _ => ?_))
  exact Bool.false_ne_true

theorem isLoggedIn_iff (manager : PacketManager n) (slot : Fin n) :
    manager.isLoggedIn slot = true ↔ manager.LoggedIn slot := decide_eq_true_iff

theorem isLoggedIn_of_state {manager : PacketManager n} {slot : Fin n} {state : DomainState}
    (is : (manager.user slot).mCurDomainState = state) (active : state ≠ .none) :
    manager.isLoggedIn slot = true := by
  rw [isLoggedIn_iff, LoggedIn, is]
  exact active

/-- A slot which is logged in afterwards and was not counted by the call. -/
theorem uncounted_iff {manager next : PacketManager n} {slot : Fin n}
    (exact : manager.mUserManager.mCurrentUserCnt = manager.loggedInCount)
    (joined : next.loggedInCount + (manager.isLoggedIn slot).toNat =
      manager.loggedInCount + (next.isLoggedIn slot).toNat)
    (after : next.isLoggedIn slot = true) :
    manager.mUserManager.mCurrentUserCnt = next.loggedInCount ↔ manager.LoggedIn slot := by
  rw [after, Bool.toNat_true] at joined
  rw [← isLoggedIn_iff]
  cases loggedIn : manager.isLoggedIn slot with
  | false =>
      rw [loggedIn, Bool.toNat_false] at joined
      exact ⟨fun same => by omega, nofun⟩
  | true =>
      rw [loggedIn, Bool.toNat_true] at joined
      exact ⟨fun _ => rfl, fun _ => by omega⟩

/-- A slot which is logged in afterwards and was counted by the call. -/
theorem counted_iff {manager next : PacketManager n} {slot : Fin n}
    (exact : manager.mUserManager.mCurrentUserCnt = manager.loggedInCount)
    (joined : next.loggedInCount + (manager.isLoggedIn slot).toNat =
      manager.loggedInCount + (next.isLoggedIn slot).toNat)
    (after : next.isLoggedIn slot = true) :
    manager.mUserManager.mCurrentUserCnt + 1 = next.loggedInCount ↔ ¬ manager.LoggedIn slot := by
  rw [after, Bool.toNat_true] at joined
  rw [← isLoggedIn_iff]
  cases loggedIn : manager.isLoggedIn slot with
  | false =>
      rw [loggedIn, Bool.toNat_false] at joined
      exact ⟨nofun, fun _ => by omega⟩
  | true =>
      rw [loggedIn, Bool.toNat_true] at joined
      exact ⟨fun same => by omega, fun outside => absurd rfl outside⟩

/-- The calls which the counter is wrong about go to three handlers. -/
theorem countedOnce_of_handler {manager : PacketManager n} {call : RecvCall n}
    {handler : PacketHandler} (found : findHandler call.packetId = some handler)
    (noLogin : handler ≠ .processLogin) (noResult : handler ≠ .processLoginDBResult)
    (noLeave : handler ≠ .processLeaveRoom) : manager.CountedOnce call where
  testLogin test := absurd (Option.some.inj (found.symm.trans test.1)) noLogin
  redisLogin redis := absurd (Option.some.inj (found.symm.trans redis.1)) noResult
  leave leave := absurd (Option.some.inj (found.symm.trans leave.1)) noLeave

/-- `DeleteUserInfo` decrements the counter for a slot which is logged in. -/
theorem count_disconnect {manager next : PacketManager n} {index : Fin n}
    (exact : manager.mUserManager.mCurrentUserCnt = manager.loggedInCount)
    (changed : manager.ChangedBy index .disconnect next) :
    next.mUserManager.mCurrentUserCnt = next.loggedInCount := by
  have slots := loggedInCount_recv changed
  have slot := changed.user_self
  rw [changed.count]
  simp only [PacketEffect.onCount, PacketEffect.onSlot] at slot ⊢
  split
  · rename_i none
    rw [if_pos none] at slot
    have same : next.isLoggedIn index = manager.isLoggedIn index := by
      unfold isLoggedIn
      rw [slot]
    rw [same] at slots
    omega
  · rename_i active
    rw [if_neg active] at slot
    have left : next.isLoggedIn index = false := by
      unfold isLoggedIn
      rw [slot]
      rfl
    rw [left, (manager.isLoggedIn_iff index).mpr active, Bool.toNat_true, Bool.toNat_false] at slots
    omega

/-- From an exact counter a step ends with an exact counter just when it counts its slot
once. -/
theorem countExact_recv_iff {manager next : PacketManager n} {call : RecvCall n}
    (good : manager.CountExact) (taken : manager.recv call = some next) :
    next.CountExact ↔ manager.CountedOnce call := by
  obtain ⟨effect, effectCase, changed⟩ := recv_cases taken
  have slots := loggedInCount_recv changed
  have slot := changed.user_self
  have state := congrArg User.mCurDomainState slot
  have exact := good.exact
  have inLogin : DomainState.login ≠ .none := by decide
  have inRoom : DomainState.room ≠ .none := by decide
  rw [countExact_iff]
  cases effectCase with
  | keep noTest noRedis noLeave =>
      have same : next.isLoggedIn call.clientIndex = manager.isLoggedIn call.clientIndex := by
        unfold isLoggedIn
        rw [slot]
        rfl
      rw [same] at slots
      rw [changed.count]
      simp only [PacketEffect.onCount]
      refine ⟨fun _ => ⟨fun test => absurd test noTest, fun redis => absurd redis noRedis,
        fun leave => absurd leave noLeave⟩, fun _ => by omega⟩
  | testLogin test =>
      have uncounted := uncounted_iff exact slots (isLoggedIn_of_state state inLogin)
      rw [changed.count]
      refine uncounted.trans ⟨fun loggedIn => ⟨fun _ => loggedIn, fun redis => ?_,
        fun _ => loggedIn⟩, fun counted => counted.testLogin test⟩
      cases test.1.symm.trans redis.1
  | redisLogin redis =>
      have counted := counted_iff exact slots (isLoggedIn_of_state state inLogin)
      rw [changed.count]
      refine counted.trans ⟨fun outside => ⟨fun test => ?_, fun _ => outside, fun leave => ?_⟩,
        fun counted => counted.redisLogin redis⟩
      · cases redis.1.symm.trans test.1
      · cases redis.1.symm.trans leave.1
  | disconnect found =>
      exact ⟨fun _ => countedOnce_of_handler found (by decide) (by decide) (by decide),
        fun _ => count_disconnect exact changed⟩
  | enter room found located login notFull =>
      have loggedIn : manager.isLoggedIn call.clientIndex = true :=
        isLoggedIn_of_state login inLogin
      rw [isLoggedIn_of_state state inRoom, loggedIn] at slots
      rw [changed.count]
      simp only [PacketEffect.onCount]
      exact ⟨fun _ => countedOnce_of_handler found (by decide) (by decide) (by decide),
        fun _ => by omega⟩
  | leave room found located =>
      have uncounted := uncounted_iff exact slots (isLoggedIn_of_state state inLogin)
      rw [changed.count]
      refine uncounted.trans ⟨fun loggedIn => ⟨fun _ => loggedIn, fun redis => ?_,
        fun _ => loggedIn⟩, fun counted => counted.leave (isRoomLeave_of_located found located)⟩
      cases found.symm.trans redis.1

/--
The counter is exact in every state of a run precisely when no slot which is logged in is
logged in by Redis again, and no slot which is not becomes so by a load-test login or a
leave request.
-/
theorem countExact_iff_countedOnce (memory : Fin n → Bytes) (calls : List (RecvCall n)) :
    Execution.Always recv CountExact (PacketManager.init memory) calls ↔
      Execution.Throughout recv CountedOnce (PacketManager.init memory) calls :=
  Execution.always_iff_throughout_of_exact
    (fun _ _ _ good taken => countExact_recv_iff good taken) (countExact_init memory) calls

/-- One load-test login. -/
def testUserLogin : List (RecvCall 1) := [.loginRequest 0 (testUser ++ text ['1']) []]

theorem testUserLogin_not_countExact :
    ¬ Execution.Always recv CountExact (PacketManager.init fun _ => []) testUserLogin := by
  intro always
  have seen : (Execution.run? recv (PacketManager.init fun _ => []) testUserLogin).map
      (fun last => (last.mUserManager.mCurrentUserCnt, last.loggedInCount)) = some (0, 1) := by
    decide +kernel
  obtain ⟨last, good, observed⟩ := always.observed seen
  obtain ⟨count, loggedIn⟩ := Prod.mk.inj observed
  have same := good.exact
  rw [count, loggedIn] at same
  exact absurd same (by decide)

end PacketManager

end IOCPChatServer
