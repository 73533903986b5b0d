import IOCPChatServer.Logic.Dictionary
import IOCPChatServer.Logic.Rejection

/-!
# The reason of a login answer

A login is decided in `ProcessLogin`, before Redis is asked, or in `ProcessLoginDBResult`,
with the answer of Redis.  An ID which is logged in has one answer in the first and another
in the second, and the load-test login does not ask.
-/

namespace IOCPChatServer

namespace PacketManager

variable {n : Nat}

/-- The ID of the login which a call decides, and whether its password was accepted or not
asked for. -/
def loginDecision (call : RecvCall n) : Option (Bytes × Bool) :=
  match findHandler call.packetId with
  | some .processLogin => some (loginUserID call.pPacket, true)
  | some .processLoginDBResult =>
      some (redisUserID call.pPacket, redisResult call.pPacket = ErrorCode.none.code)
  | _ => none

/-- The `Result` of an answer to the login of a client under an ID names its reason. -/
structure TrueReason (before after : PacketManager n) (index : Fin n) (userID : Bytes)
    (accepted : Bool) (Result : Nat) : Prop where
  already : accepted = true → before.dictionary userID ≠ none →
    Result = ErrorCode.loginUserAlready.code
  full : Result = ErrorCode.loginUserUsedAllObj.code → n ≤ before.mUserManager.mCurrentUserCnt
  entered : Result = ErrorCode.none.code →
    before.dictionary userID = none ∧ after.dictionary userID = some index

/-- Every `LOGIN_RESPONSE` with which the call decides a login names its reason. -/
def NamesTrueReason (manager : PacketManager n) (call : RecvCall n) : Prop :=
  ∀ next, manager.recv call = some next →
    ∀ userID accepted, loginDecision call = some (userID, accepted) →
      ∀ receiver Result, (receiver, .loginResponse Result) ∈ manager.newPackets next →
        TrueReason manager next receiver userID accepted Result

/-- The load-test login and the successful result are for an ID which is not logged in, and a
result which says that the server is full comes when it is. -/
structure DecidesFreeID (manager : PacketManager n) (call : RecvCall n) : Prop where
  testLogin : IsTestLogin call → manager.dictionary (loginUserID call.pPacket) = none
  redisLogin : findHandler call.packetId = some .processLoginDBResult →
    redisResult call.pPacket = ErrorCode.none.code →
      manager.dictionary (redisUserID call.pPacket) = none
  redisFull : findHandler call.packetId = some .processLoginDBResult →
    redisResult call.pPacket = ErrorCode.loginUserUsedAllObj.code →
      n ≤ manager.mUserManager.mCurrentUserCnt

theorem decidesFreeID_iff (manager : PacketManager n) (call : RecvCall n) :
    manager.DecidesFreeID call ↔
      (findHandler call.packetId = some .processLogin ∧
          call.packetSize = loginRequestPacketSize ∧ isTestUser (loginUserID call.pPacket) = true →
        manager.dictionary (loginUserID call.pPacket) = none) ∧
      (findHandler call.packetId = some .processLoginDBResult →
        redisResult call.pPacket = ErrorCode.none.code →
          manager.dictionary (redisUserID call.pPacket) = none) ∧
      (findHandler call.packetId = some .processLoginDBResult →
        redisResult call.pPacket = ErrorCode.loginUserUsedAllObj.code →
          n ≤ manager.mUserManager.mCurrentUserCnt) :=
  ⟨fun free => ⟨free.testLogin, free.redisLogin, free.redisFull⟩,
    fun ⟨testLogin, redisLogin, redisFull⟩ => ⟨testLogin, redisLogin, redisFull⟩⟩

instance (manager : PacketManager n) (call : RecvCall n) :
    Decidable (manager.DecidesFreeID call) :=
  decidable_of_iff' _ (manager.decidesFreeID_iff call)

/-- What `ProcessLogin` answers, if it answers. -/
def loginAnswer (manager : PacketManager n) (call : RecvCall n) : Option ErrorCode :=
  if call.packetSize ≠ loginRequestPacketSize then none
  else if isTestUser (loginUserID call.pPacket) then some .none
  else if manager.dictionary (loginUserID call.pPacket) ≠ none then some .loginUserAlready
  else if n ≤ manager.mUserManager.mCurrentUserCnt then some .loginUserUsedAllObj
  else none

theorem processLogin_sends (manager : PacketManager n) (call : RecvCall n) :
    manager.newPackets
        (manager.processLogin call.clientIndex call.packetSize call.pPacket) =
      ((manager.loginAnswer call).map fun answer =>
        (call.clientIndex, ServerPacket.loginResponse answer.code)).toList := by
  have found := manager.mUserManager.findUserIndexByID_eq_neg_one (loginUserID call.pPacket)
  rw [processLogin, loginAnswer]
  by_cases size : call.packetSize = loginRequestPacketSize
  · rw [if_neg (not_not.mpr size.symm), if_neg (not_not.mpr size)]
    by_cases test : isTestUser (loginUserID call.pPacket) = true
    · simp only [if_pos test]
      exact newPackets_of_append rfl
    · simp only [if_neg test, ne_eq, found]
      by_cases known : manager.mUserManager.mUserIDDictionary (loginUserID call.pPacket) = none
      · have unknown : ¬¬manager.dictionary (loginUserID call.pPacket) = none := not_not.mpr known
        rw [if_neg (not_not.mpr known), if_neg unknown]
        by_cases isFull : n ≤ manager.mUserManager.mCurrentUserCnt
        · rw [if_pos isFull, if_pos isFull]
          exact newPackets_of_append rfl
        · rw [if_neg isFull, if_neg isFull, if_pos known]
          exact newPackets_of_append (List.append_nil _).symm
      · have used : ¬manager.dictionary (loginUserID call.pPacket) = none := known
        rw [if_pos known, if_pos used]
        exact newPackets_of_append rfl
  · rw [if_pos (Ne.symm size), if_pos size]
    exact newPackets_of_append (List.append_nil _).symm

theorem recv_of_login {manager : PacketManager n} {call : RecvCall n}
    (found : findHandler call.packetId = some .processLogin) :
    manager.recv call =
      some (manager.processLogin call.clientIndex call.packetSize call.pPacket) := by
  rw [recv, processRecvPacket, found]
  rfl

theorem recv_of_result {manager : PacketManager n} {call : RecvCall n}
    (found : findHandler call.packetId = some .processLoginDBResult) :
    manager.recv call = manager.processLoginDBResult call.clientIndex call.pPacket := by
  rw [recv, processRecvPacket, found]
  rfl

/-- A load-test login under a free ID enters it. -/
theorem dictionary_testLogin {manager next : PacketManager n} {call : RecvCall n}
    (test : IsTestLogin call) (free : manager.dictionary (loginUserID call.pPacket) = none)
    (taken : manager.recv call = some next) :
    next.dictionary (loginUserID call.pPacket) = some call.clientIndex := by
  obtain ⟨effect, effectCase, changed⟩ := recv_cases taken
  rw [effectCase.eq_testLogin test] at changed
  rw [changed.dictionary_eq, PacketEffect.onDictionary, if_pos free, Function.update_self]

/-- So does a successful result for a free ID. -/
theorem dictionary_redisLogin {manager next : PacketManager n} {call : RecvCall n}
    (redis : manager.IsRedisLogin call) (taken : manager.recv call = some next) :
    next.dictionary (redisUserID call.pPacket) = some call.clientIndex := by
  obtain ⟨effect, effectCase, changed⟩ := recv_cases taken
  rw [effectCase.eq_redisLogin redis] at changed
  rw [changed.dictionary_eq, PacketEffect.onDictionary, Function.update_self]

/-- A successful result for a free ID is answered with success. -/
theorem loginResultCode_of_free {manager : PacketManager n} (index : Fin n) {pPacket : Bytes}
    (success : redisResult pPacket = ErrorCode.none.code)
    (free : manager.dictionary (redisUserID pPacket) = none) :
    manager.loginResultCode index pPacket = ErrorCode.none.code := by
  have unused : manager.mUserManager.mUserIDDictionary (redisUserID pPacket) = none := free
  rw [loginResultCode, if_pos success, UserManager.addUser, unused]
  rfl

/-- One for an ID which is logged in is answered as if the server were full. -/
theorem loginResultCode_of_known {manager : PacketManager n} (index : Fin n) {pPacket : Bytes}
    (success : redisResult pPacket = ErrorCode.none.code)
    (known : manager.dictionary (redisUserID pPacket) ≠ none) :
    manager.loginResultCode index pPacket = ErrorCode.loginUserUsedAllObj.code := by
  obtain ⟨owner, used⟩ := Option.ne_none_iff_exists'.mp known
  have entry : manager.mUserManager.mUserIDDictionary (redisUserID pPacket) = some owner := used
  rw [loginResultCode, if_pos success, UserManager.addUser, entry]
  rfl

/-- `ProcessLogin` names its reason unless it skips the authentication of an ID which is
logged in. -/
theorem namesTrueReason_login_iff {manager : PacketManager n} {call : RecvCall n}
    (found : findHandler call.packetId = some .processLogin) :
    manager.NamesTrueReason call ↔
      (IsTestLogin call → manager.dictionary (loginUserID call.pPacket) = none) := by
  have decision : loginDecision call = some (loginUserID call.pPacket, true) := by
    rw [loginDecision, found]
  have taken : manager.recv call =
      some (manager.processLogin call.clientIndex call.packetSize call.pPacket) :=
    recv_of_login found
  have sent := manager.processLogin_sends call
  constructor
  · intro reason test
    have answer : manager.loginAnswer call = some .none := by
      rw [loginAnswer, if_neg (not_not.mpr test.2.1), if_pos test.2.2]
    rw [answer] at sent
    have named := reason _ taken _ _ decision call.clientIndex ErrorCode.none.code
      (sent ▸ List.mem_cons_self)
    exact (named.entered rfl).1
  · intro free next same userID accepted decided receiver Result member
    rw [taken] at same
    cases same
    rw [decision] at decided
    cases decided
    rw [sent, Option.mem_toList, Option.map_eq_some_iff] at member
    obtain ⟨answer, answered, packet⟩ := member
    obtain ⟨rfl, response⟩ := Prod.mk.inj packet
    cases response
    rw [loginAnswer] at answered
    split_ifs at answered with size test known isFull
    · cases answered
      have isTest : IsTestLogin call := ⟨found, not_not.mp size, test⟩
      exact ⟨fun _ known => absurd (free isTest) known, nofun,
        fun _ => ⟨free isTest, dictionary_testLogin isTest (free isTest) taken⟩⟩
    · cases answered
      exact ⟨fun _ _ => rfl, nofun, nofun⟩
    · cases answered
      exact ⟨fun _ used => absurd (not_not.mp known) used, fun _ => isFull, nofun⟩

/-- `ProcessLoginDBResult` names its reason unless the ID was logged in meanwhile. -/
theorem namesTrueReason_result_iff {manager next : PacketManager n} {call : RecvCall n}
    (found : findHandler call.packetId = some .processLoginDBResult)
    (taken : manager.recv call = some next) :
    manager.NamesTrueReason call ↔
      (redisResult call.pPacket = ErrorCode.none.code →
        manager.dictionary (redisUserID call.pPacket) = none) ∧
      (redisResult call.pPacket = ErrorCode.loginUserUsedAllObj.code →
        n ≤ manager.mUserManager.mCurrentUserCnt) := by
  have decision : loginDecision call = some (redisUserID call.pPacket,
      decide (redisResult call.pPacket = ErrorCode.none.code)) := by
    rw [loginDecision, found]
  have sent := newPackets_of_append
    (processLoginDBResult_sends ((recv_of_result found).symm.trans taken))
  have answer : manager.NamesTrueReason call ↔
      TrueReason manager next call.clientIndex (redisUserID call.pPacket)
        (decide (redisResult call.pPacket = ErrorCode.none.code))
        (manager.loginResultCode call.clientIndex call.pPacket) := by
    constructor
    · intro reason
      exact reason next taken _ _ decision _ _ (sent ▸ List.mem_cons_self)
    · intro reason next' same userID accepted decided receiver Result member
      cases taken.symm.trans same
      cases decision.symm.trans decided
      rw [sent] at member
      cases List.mem_singleton.mp member
      exact reason
  rw [answer]
  by_cases success : redisResult call.pPacket = ErrorCode.none.code
  · by_cases free : manager.dictionary (redisUserID call.pPacket) = none
    · have Result := loginResultCode_of_free call.clientIndex success free
      have entered := dictionary_redisLogin ⟨found, success, free⟩ taken
      rw [Result]
      refine iff_of_true ⟨fun _ known => absurd free known, nofun, fun _ => ⟨free, entered⟩⟩
        ⟨fun _ => free, fun isFull => ?_⟩
      exact nomatch success.symm.trans isFull
    · have Result := loginResultCode_of_known call.clientIndex success free
      rw [Result]
      refine iff_of_false (fun reason => ?_) fun condition => free (condition.1 success)
      exact nomatch reason.already (decide_eq_true success) free
  · rw [loginResultCode, if_neg success]
    constructor
    · exact fun reason => ⟨fun succeeded => absurd succeeded success, reason.full⟩
    · exact fun condition => ⟨fun accepted => absurd (of_decide_eq_true accepted) success,
        condition.2, fun succeeded => absurd succeeded success⟩

theorem namesTrueReason_iff {manager next : PacketManager n} {call : RecvCall n}
    (taken : manager.recv call = some next) :
    manager.NamesTrueReason call ↔ manager.DecidesFreeID call := by
  by_cases login : findHandler call.packetId = some .processLogin
  · have other : findHandler call.packetId ≠ some .processLoginDBResult := by
      rw [login]
      exact nofun
    rw [namesTrueReason_login_iff login]
    exact ⟨fun free => ⟨free, fun result => absurd result other, fun result => absurd result other⟩,
      DecidesFreeID.testLogin⟩
  have noTest : ¬IsTestLogin call := fun test => login test.1
  by_cases result : findHandler call.packetId = some .processLoginDBResult
  · rw [namesTrueReason_result_iff result taken]
    exact ⟨fun free => ⟨fun test => absurd test noTest, fun _ => free.1, fun _ => free.2⟩,
      fun free => ⟨free.redisLogin result, free.redisFull result⟩⟩
  · refine iff_of_true (fun next _ userID accepted decision => ?_)
      ⟨fun test => absurd test noTest, fun found => absurd found result,
        fun found => absurd found result⟩
    rw [loginDecision] at decision
    split at decision
    · exact absurd (by assumption) login
    · exact absurd (by assumption) result
    · cases decision

/--
Every answer of a run names its reason precisely when its load-test logins and its successful
results are for IDs which are not logged in, and no result claims without reason that the server
is full.
-/
theorem namesTrueReason_iff_decidesFreeID (memory : Fin n → Bytes) (calls : List (RecvCall n)) :
    Execution.Throughout recv NamesTrueReason (PacketManager.init memory) calls ↔
      Execution.Throughout recv DecidesFreeID (PacketManager.init memory) calls :=
  Execution.throughout_congr_of_step (fun _ _ _ taken => namesTrueReason_iff taken) _ calls

/-- The result of a login which Redis accepted. -/
def loginAccepted {n : Nat} (index : Fin n) (UserID : Bytes) : RecvCall n where
  clientIndex := index
  packetId := RedisTaskID.responseLogin.code
  packetSize := 2 + (maxUserIDLength + 1)
  pPacket := redisLoginRes ErrorCode.none.code UserID

/-- Two clients ask for one ID, and Redis accepts both. -/
def sameIDTwice : List (RecvCall 2) :=
  [.loginRequest 0 (text ['a']) [], .loginRequest 1 (text ['a']) [],
    loginAccepted 0 (text ['a']), loginAccepted 1 (text ['a'])]

theorem sameIDTwice_not_namesTrueReason :
    ¬Execution.Throughout recv NamesTrueReason (PacketManager.init fun _ => []) sameIDTwice := by
  have used : ¬Execution.Throughout recv DecidesFreeID (PacketManager.init fun _ => [])
      sameIDTwice := by decide +kernel
  exact fun reasons => used ((Execution.throughout_congr_of_step
    (fun _ _ _ taken => namesTrueReason_iff taken) _ _).mp reasons)

end PacketManager

end IOCPChatServer
