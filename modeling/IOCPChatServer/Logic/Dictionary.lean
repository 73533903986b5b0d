import IOCPChatServer.Logic.Calls

/-!
# The dictionary of user IDs

`mUserIDDictionary` should be the inverse of `mUserID` on the slots which are logged
in: every such slot is entered under its ID, and every entry is a slot logged in under
that ID.  The two halves break independently.  The load-test login writes the slot
before `Adduser` and ignores its result, which loses the first; a second login on one
connection overwrites the ID by which the entry would be erased, which loses the second.
-/

namespace IOCPChatServer

namespace PacketManager

variable {n : Nat}

/-- `mUserIDDictionary`. -/
def dictionary (manager : PacketManager n) : Bytes → Option (Fin n) :=
  manager.mUserManager.mUserIDDictionary

/-- The slot is logged in: `LOGIN` or `ROOM`. -/
def LoggedIn (manager : PacketManager n) (slot : Fin n) : Prop :=
  (manager.user slot).mCurDomainState ≠ .none

theorem ChangedBy.dictionary_eq {before after : PacketManager n} {index : Fin n}
    {effect : PacketEffect} (changed : before.ChangedBy index effect after) :
    after.dictionary = effect.onDictionary (before.user index) index before.dictionary :=
  changed.dictionary

/-! ## No duplicate login -/

/-- Every slot which is logged in is the entry of its ID, and no two have one ID. -/
structure NoDuplicateLogin (manager : PacketManager n) : Prop where
  entered : ∀ slot, manager.LoggedIn slot →
    manager.dictionary (manager.user slot).mUserID = some slot
  distinct : ∀ first second, manager.LoggedIn first → manager.LoggedIn second →
    (manager.user first).mUserID = (manager.user second).mUserID → first = second

theorem noDuplicateLogin_of_entered {manager : PacketManager n}
    (entered : ∀ slot, manager.LoggedIn slot →
      manager.dictionary (manager.user slot).mUserID = some slot) :
    manager.NoDuplicateLogin := by
  refine ⟨entered, fun first second firstIn secondIn same => ?_⟩
  have here := entered first firstIn
  rw [same, entered second secondIn] at here
  exact (Option.some.inj here).symm

/-- A slot which was not called keeps its entry unless the effect takes its ID. -/
theorem NoDuplicateLogin.of_caller {before after : PacketManager n} {index : Fin n}
    {effect : PacketEffect} (good : before.NoDuplicateLogin)
    (changed : before.ChangedBy index effect after)
    (others : ∀ slot, slot ≠ index →
      before.dictionary (before.user slot).mUserID = some slot →
      after.dictionary (before.user slot).mUserID = some slot)
    (own : after.LoggedIn index → after.dictionary (after.user index).mUserID = some index) :
    after.NoDuplicateLogin := by
  refine noDuplicateLogin_of_entered fun slot loggedIn => ?_
  by_cases same : slot = index
  · rw [same] at loggedIn ⊢
    exact own loggedIn
  · unfold LoggedIn at loggedIn
    rw [changed.user_of_ne same] at loggedIn ⊢
    exact others slot same (good.entered slot loggedIn)

/-- The load-test login uses a free ID or its own, and who leaves a room without being
logged in is the entry of its ID all the same. -/
structure EnteredOnLogin (manager : PacketManager n) (call : RecvCall n) : Prop where
  testLogin : IsTestLogin call →
    manager.dictionary (loginUserID call.pPacket) = none ∨
      manager.dictionary (loginUserID call.pPacket) = some call.clientIndex
  leave : manager.IsRoomLeave call → ¬ manager.LoggedIn call.clientIndex →
    manager.dictionary (manager.caller call).mUserID = some call.clientIndex

theorem noDuplicateLogin_init (memory : Fin n → Bytes) :
    (PacketManager.init memory).NoDuplicateLogin :=
  noDuplicateLogin_of_entered fun _ loggedIn => absurd rfl loggedIn

/-- A call which leaves the dictionary as it is. -/
theorem NoDuplicateLogin.of_dictionary {before after : PacketManager n} {index : Fin n}
    {effect : PacketEffect} (good : before.NoDuplicateLogin)
    (changed : before.ChangedBy index effect after)
    (same : after.dictionary = before.dictionary)
    (own : after.LoggedIn index → before.dictionary (after.user index).mUserID = some index) :
    after.NoDuplicateLogin := by
  refine good.of_caller changed (fun _ _ entered => ?_) fun loggedIn => ?_
  · rw [same]
    exact entered
  · rw [same]
    exact own loggedIn

/-- A call which enters its slot under an ID which is free. -/
theorem NoDuplicateLogin.of_free {before after : PacketManager n} {index : Fin n}
    {effect : PacketEffect} {userID : Bytes} (good : before.NoDuplicateLogin)
    (changed : before.ChangedBy index effect after)
    (free : before.dictionary userID = none)
    (entries : after.dictionary = Function.update before.dictionary userID (some index))
    (own : (after.user index).mUserID = userID) : after.NoDuplicateLogin := by
  refine good.of_caller changed (fun other _ entered => ?_) fun _ => ?_
  · rw [entries, Function.update_of_ne (fun same => ?_), entered]
    rw [← same, entered] at free
    cases free
  · rw [entries, own]
    exact Function.update_self ..

theorem NoDuplicateLogin.disconnect {before after : PacketManager n} {index : Fin n}
    (good : before.NoDuplicateLogin) (changed : before.ChangedBy index .disconnect after) :
    after.NoDuplicateLogin := by
  have slot := changed.user_self
  have entries := changed.dictionary_eq
  by_cases loggedIn : before.LoggedIn index
  · have erased : after.dictionary =
        Function.update before.dictionary (before.user index).mUserID none :=
      entries.trans (if_neg loggedIn)
    have cleared : after.user index = (before.user index).clear.incrementGeneration :=
      slot.trans (if_neg loggedIn)
    refine good.of_caller changed (fun other different entered => ?_) fun still => ?_
    · rw [erased, Function.update_of_ne (fun same => ?_), entered]
      rw [same, good.entered index loggedIn] at entered
      exact different (Option.some.inj entered).symm
    · rw [LoggedIn, cleared] at still
      exact absurd rfl still
  · have none : (before.user index).mCurDomainState = .none := Decidable.of_not_not loggedIn
    have same : after.user index = before.user index := slot.trans (if_pos none)
    refine good.of_dictionary changed (entries.trans (if_pos none)) fun still => ?_
    rw [LoggedIn, same] at still
    exact absurd still loggedIn

/-- What a good state after the step says about the ID of the caller. -/
theorem enteredOnLogin_of_recv {manager next : PacketManager n} {call : RecvCall n}
    (after : next.NoDuplicateLogin) (taken : manager.recv call = some next) :
    manager.EnteredOnLogin call := by
  obtain ⟨effect, effectCase, changed⟩ := recv_cases taken
  have slot := changed.user_self
  have entries := changed.dictionary_eq
  constructor
  · intro test
    rw [effectCase.eq_testLogin test] at slot entries
    have loggedIn : next.LoggedIn call.clientIndex := by
      rw [LoggedIn, slot]
      intro none
      cases none
    have own := after.entered call.clientIndex loggedIn
    rw [slot, entries] at own
    simp only [PacketEffect.onDictionary, PacketEffect.onSlot, User.setLogin] at own
    split at own
    · exact Or.inl (by assumption)
    · exact Or.inr own
  · intro leave outside
    obtain ⟨room, isLeave, _⟩ := effectCase.eq_leave leave
    rw [isLeave] at slot entries
    have loggedIn : next.LoggedIn call.clientIndex := by
      rw [LoggedIn, slot]
      intro none
      cases none
    have own := after.entered call.clientIndex loggedIn
    rw [slot, entries] at own
    exact own

theorem noDuplicateLogin_recv {manager next : PacketManager n} {call : RecvCall n}
    (good : manager.NoDuplicateLogin) (checked : manager.EnteredOnLogin call)
    (taken : manager.recv call = some next) : next.NoDuplicateLogin := by
  obtain ⟨effect, effectCase, changed⟩ := recv_cases taken
  have slot := changed.user_self
  have entries := changed.dictionary_eq
  cases effectCase with
  | keep noTest noRedis noLeave =>
      refine good.of_dictionary changed entries fun loggedIn => ?_
      rw [LoggedIn, slot] at loggedIn
      rw [slot]
      exact good.entered call.clientIndex loggedIn
  | testLogin test =>
      have own : (next.user call.clientIndex).mUserID = loginUserID call.pPacket :=
        congrArg User.mUserID slot
      simp only [PacketEffect.onDictionary] at entries
      split at entries
      · rename_i free
        exact good.of_free changed free entries own
      · rename_i used
        refine good.of_dictionary changed entries fun _ => ?_
        rw [own]
        exact (checked.testLogin test).resolve_left used
  | redisLogin redis =>
      exact good.of_free changed redis.2.2 entries (congrArg User.mUserID slot)
  | disconnect found => exact good.disconnect changed
  | enter room found located state notFull =>
      refine good.of_dictionary changed entries fun _ => ?_
      rw [slot]
      refine good.entered call.clientIndex fun none => ?_
      cases none.symm.trans state
  | leave room found located =>
      refine good.of_dictionary changed entries fun _ => ?_
      rw [slot]
      by_cases loggedIn : manager.LoggedIn call.clientIndex
      · exact good.entered call.clientIndex loggedIn
      · exact checked.leave (isRoomLeave_of_located found located) loggedIn

/--
A run never has two slots logged in under one ID, and every slot which is logged in
entered under its ID, precisely when its load-test logins use a free ID or their own
and no slot becomes logged in by leaving a room, unless it is the entry of its ID.
-/
theorem noDuplicateLogin_iff_enteredOnLogin (memory : Fin n → Bytes)
    (calls : List (RecvCall n)) :
    Execution.Always recv NoDuplicateLogin (PacketManager.init memory) calls ↔
      Execution.Throughout recv EnteredOnLogin (PacketManager.init memory) calls :=
  Execution.always_iff_throughout_of_exact
    (fun _ _ _ good taken => ⟨fun after => enteredOnLogin_of_recv after taken,
      fun checked => noDuplicateLogin_recv good checked taken⟩)
    (noDuplicateLogin_init memory) calls

/-- Two clients with one load-test ID. -/
def sameTestUser : List (RecvCall 2) :=
  [.loginRequest 0 (testUser ++ text ['1']) [], .loginRequest 1 (testUser ++ text ['1']) []]

theorem sameTestUser_not_noDuplicateLogin :
    ¬ Execution.Always recv NoDuplicateLogin (PacketManager.init fun _ => []) sameTestUser := by
  intro always
  have seen : (Execution.run? recv (PacketManager.init fun _ => []) sameTestUser).map
      (fun last => ((last.user 0).mCurDomainState, (last.user 1).mCurDomainState,
        decide ((last.user 0).mUserID = (last.user 1).mUserID))) =
        some (.login, .login, true) := by decide +kernel
  obtain ⟨last, good, observed⟩ := always.observed seen
  simp only [Prod.mk.injEq, decide_eq_true_eq] at observed
  obtain ⟨first, second, sameID⟩ := observed
  have same := good.distinct 0 1 (by rw [LoggedIn, first]; exact nofun)
    (by rw [LoggedIn, second]; exact nofun) sameID
  exact absurd same (by decide)

/-! ## No stale entry -/

/-- Every entry is a slot logged in under that ID, so its disconnect frees the ID. -/
structure LiveEntries (manager : PacketManager n) : Prop where
  live : ∀ userID slot, manager.dictionary userID = some slot →
    manager.LoggedIn slot ∧ (manager.user slot).mUserID = userID
  released : ∀ userID slot, manager.dictionary userID = some slot →
    ∀ next, manager.recv (.sysUserDisconnect slot) = some next →
      next.mUserManager.findUserIndexByID userID = -1

theorem liveEntries_of_live {manager : PacketManager n}
    (live : ∀ userID slot, manager.dictionary userID = some slot →
      manager.LoggedIn slot ∧ (manager.user slot).mUserID = userID) :
    manager.LiveEntries := by
  refine ⟨live, fun userID slot entry next taken => ?_⟩
  obtain ⟨loggedIn, same⟩ := live userID slot entry
  have changed : manager.ChangedBy slot .disconnect next := processRecvPacket_effect taken
  have erased : next.dictionary =
      Function.update manager.dictionary (manager.user slot).mUserID none :=
    changed.dictionary_eq.trans (if_neg loggedIn)
  rw [UserManager.findUserIndexByID_eq_neg_one]
  show next.dictionary userID = none
  rw [erased, same, Function.update_self]

/-- A login on a slot which is the entry of its present ID keeps that ID. -/
structure LoginKeepsID (manager : PacketManager n) (call : RecvCall n) : Prop where
  testLogin : IsTestLogin call →
    manager.dictionary (manager.caller call).mUserID = some call.clientIndex →
      (manager.caller call).mUserID = loginUserID call.pPacket
  redisLogin : manager.IsRedisLogin call →
    manager.dictionary (manager.caller call).mUserID = some call.clientIndex →
      (manager.caller call).mUserID = redisUserID call.pPacket

theorem liveEntries_init (memory : Fin n → Bytes) :
    (PacketManager.init memory).LiveEntries :=
  liveEntries_of_live fun _ _ => nofun

/-- A login enters at most the ID which it uses. -/
theorem onDictionary_login_of_ne {user : User} {index : Fin n}
    {dictionary : Bytes → Option (Fin n)} {effect : PacketEffect} {used userID : Bytes}
    (login : effect = .testLogin used ∨ effect = .redisLogin used)
    (different : userID ≠ used) :
    effect.onDictionary user index dictionary userID = dictionary userID := by
  rcases login with rfl | rfl
  · simp only [PacketEffect.onDictionary]
    split
    · exact Function.update_of_ne different _ _
    · rfl
  · exact Function.update_of_ne different _ _

/-- The entry of the ID which a login uses is its slot or what it was. -/
theorem onDictionary_login_used {user : User} {index : Fin n}
    {dictionary : Bytes → Option (Fin n)} {effect : PacketEffect} {used : Bytes}
    (login : effect = .testLogin used ∨ effect = .redisLogin used) :
    effect.onDictionary user index dictionary used = some index ∨
      effect.onDictionary user index dictionary used = dictionary used := by
  rcases login with rfl | rfl
  · simp only [PacketEffect.onDictionary]
    split
    · exact Or.inl (Function.update_self _ _ _)
    · exact Or.inr rfl
  · exact Or.inl (Function.update_self _ _ _)

/-- A login keeps the entries live just when it keeps the ID of a slot which is the
entry of its ID. -/
theorem liveEntries_login_iff {manager next : PacketManager n} {index : Fin n}
    {effect : PacketEffect} {used : Bytes} (good : manager.LiveEntries)
    (changed : manager.ChangedBy index effect next)
    (login : effect = .testLogin used ∨ effect = .redisLogin used) :
    next.LiveEntries ↔
      (manager.dictionary (manager.user index).mUserID = some index →
        (manager.user index).mUserID = used) := by
  have entries := changed.dictionary_eq
  have slot : next.user index = (manager.user index).setLogin used := by
    rw [changed.user_self]
    rcases login with rfl | rfl <;> rfl
  constructor
  · intro after entry
    by_contra different
    have kept : next.dictionary (manager.user index).mUserID = some index := by
      rw [entries, onDictionary_login_of_ne login different, entry]
    have same := (after.live _ _ kept).2
    rw [slot] at same
    exact different same.symm
  · intro keeps
    refine liveEntries_of_live fun userID owner entry => ?_
    by_cases same : userID = used
    · subst same
      by_cases own : owner = index
      · rw [own, LoggedIn, slot]
        exact ⟨nofun, rfl⟩
      · rw [LoggedIn, changed.user_of_ne own]
        rw [entries] at entry
        rcases onDictionary_login_used login with entered | kept
        · exact absurd (Option.some.inj (entry.symm.trans entered)) own
        · exact good.live userID owner (kept.symm.trans entry)
    · rw [entries, onDictionary_login_of_ne login same] at entry
      obtain ⟨loggedIn, ownID⟩ := good.live userID owner entry
      by_cases own : owner = index
      · subst own
        exact absurd (ownID.symm.trans (keeps (by rw [ownID, entry]))) same
      · rw [LoggedIn, changed.user_of_ne own]
        exact ⟨loggedIn, ownID⟩

/-- A disconnect enters nothing. -/
theorem onDictionary_disconnect_some {user : User} {index owner : Fin n}
    {dictionary : Bytes → Option (Fin n)} {userID : Bytes}
    (entry : PacketEffect.disconnect.onDictionary user index dictionary userID = some owner) :
    dictionary userID = some owner := by
  simp only [PacketEffect.onDictionary] at entry
  split at entry
  · exact entry
  · by_cases same : userID = user.mUserID
    · rw [same, Function.update_self] at entry
      cases entry
    · rwa [Function.update_of_ne same] at entry

/-- From a good state a step ends in a good state just when no login replaces an ID
which is still entered. -/
theorem liveEntries_recv_iff {manager next : PacketManager n} {call : RecvCall n}
    (good : manager.LiveEntries) (taken : manager.recv call = some next) :
    next.LiveEntries ↔ manager.LoginKeepsID call := by
  obtain ⟨effect, effectCase, changed⟩ := recv_cases taken
  by_cases test : IsTestLogin call
  · obtain rfl := effectCase.eq_testLogin test
    have noRedis : ¬ manager.IsRedisLogin call := fun redis =>
      nomatch test.1.symm.trans redis.1
    rw [liveEntries_login_iff good changed (Or.inl rfl)]
    exact ⟨fun keeps => ⟨fun _ => keeps, fun redis => absurd redis noRedis⟩,
      fun checked => checked.testLogin test⟩
  by_cases redis : manager.IsRedisLogin call
  · obtain rfl := effectCase.eq_redisLogin redis
    rw [liveEntries_login_iff good changed (Or.inr rfl)]
    exact ⟨fun keeps => ⟨fun test' => absurd test' test, fun _ => keeps⟩,
      fun checked => checked.redisLogin redis⟩
  refine ⟨fun _ => ⟨fun test' => absurd test' test, fun redis' => absurd redis' redis⟩,
    fun _ => liveEntries_of_live fun userID owner entry => ?_⟩
  rw [changed.dictionary_eq] at entry
  by_cases other : owner ≠ call.clientIndex
  · rw [LoggedIn, changed.user_of_ne other]
    refine good.live userID owner ?_
    cases effectCase with
    | keep noTest noRedis noLeave => exact entry
    | testLogin test' => exact absurd test' test
    | redisLogin redis' => exact absurd redis' redis
    | disconnect found => exact onDictionary_disconnect_some entry
    | enter room found located state notFull => exact entry
    | leave room found located => exact entry
  · obtain rfl : owner = call.clientIndex := Decidable.of_not_not other
    rw [LoggedIn, changed.user_self]
    cases effectCase with
    | keep noTest noRedis noLeave => exact good.live userID _ entry
    | testLogin test' => exact absurd test' test
    | redisLogin redis' => exact absurd redis' redis
    | disconnect found =>
        obtain ⟨loggedIn, ownID⟩ :=
          good.live userID _ (onDictionary_disconnect_some entry)
        have erased : Function.update manager.dictionary
            (manager.user call.clientIndex).mUserID none userID = some call.clientIndex :=
          (congrFun (if_neg loggedIn) userID).symm.trans entry
        rw [ownID, Function.update_self] at erased
        cases erased
    | enter room found located state notFull => exact ⟨nofun, (good.live userID _ entry).2⟩
    | leave room found located => exact ⟨nofun, (good.live userID _ entry).2⟩

/--
A run keeps every entry live, and every disconnect frees the IDs of its slot,
precisely when no login of a slot replaces an ID under which the slot is entered.
-/
theorem liveEntries_iff_loginKeepsID (memory : Fin n → Bytes) (calls : List (RecvCall n)) :
    Execution.Always recv LiveEntries (PacketManager.init memory) calls ↔
      Execution.Throughout recv LoginKeepsID (PacketManager.init memory) calls :=
  Execution.always_iff_throughout_of_exact
    (fun _ _ _ good taken => liveEntries_recv_iff good taken) (liveEntries_init memory) calls

/-- One client logs in twice under different load-test IDs and disconnects. -/
def loginTwice : List (RecvCall 1) :=
  [.loginRequest 0 (testUser ++ text ['1']) [], .loginRequest 0 (testUser ++ text ['2']) [],
    .sysUserDisconnect 0]

/-- The first ID stays entered for a slot which nobody is logged in on. -/
theorem loginTwice_not_liveEntries :
    ¬ Execution.Always recv LiveEntries (PacketManager.init fun _ => []) loginTwice := by
  intro always
  have seen : (Execution.run? recv (PacketManager.init fun _ => []) loginTwice).map
      (fun last => (last.dictionary (testUser ++ text ['1']),
        (last.user 0).mCurDomainState)) = some (some 0, .none) := by decide +kernel
  obtain ⟨last, good, observed⟩ := always.observed seen
  obtain ⟨entry, none⟩ := Prod.mk.inj observed
  exact (good.live _ _ entry).1 none

end PacketManager

end IOCPChatServer
