import IOCPChatServer.Logic.Dictionary
import IOCPChatServer.Logic.Membership

/-!
# What a disconnect leaves behind

`ClearConnectionInfo` undoes what the present state and the present ID of the slot name:
the room of a slot which is in `ROOM`, the entry under `mUserID` of a slot which is logged
in.  It is complete when the slot has no other traces, and it stays off the others when
the entry it erases is not one of theirs.
-/

namespace IOCPChatServer

namespace PacketManager

variable {n : Nat}

/-- The slot is in the list of the room at this position, and the room exists. -/
def Listed (manager : PacketManager n) (position : Nat) (slot : Fin n) : Prop :=
  position < manager.mRoomManager.mMaxRoomCount ∧
    slot ∈ (manager.mRoomManager.mRoomList position).mUserList

/-- `ClearConnectionInfo` for the slot would leave nothing of it and touch nobody else. -/
structure CleanDisconnect (manager : PacketManager n) (index : Fin n) : Prop where
  noRoom : ∀ position, ¬ (manager.clearConnectionInfo index).Listed position index
  noEntry : ∀ userID, (manager.clearConnectionInfo index).dictionary userID ≠ some index
  state : ((manager.clearConnectionInfo index).user index).mCurDomainState = .none
  otherSlot : ∀ other, other ≠ index →
    (manager.clearConnectionInfo index).user other = manager.user other
  otherEntry : ∀ other, other ≠ index → manager.LoggedIn other → ∀ userID,
    (manager.clearConnectionInfo index).dictionary userID = some other ↔
      manager.dictionary userID = some other
  otherRoom : ∀ other, other ≠ index → ∀ position,
    (manager.clearConnectionInfo index).Listed position other ↔ manager.Listed position other

/-- The slot is listed only in the room which it takes itself to be in, entered only under
its ID, and that ID is not the entry of another slot. -/
structure OwnsTraces (manager : PacketManager n) (index : Fin n) : Prop where
  room : ∀ position, manager.Listed position index →
    (manager.user index).mCurDomainState = .room ∧
      manager.mRoomManager.getRoomByNumber (manager.user index).roomIndex = some position
  entry : ∀ userID, manager.dictionary userID = some index →
    manager.LoggedIn index ∧ (manager.user index).mUserID = userID
  sole : manager.LoggedIn index → ∀ other, other ≠ index → manager.LoggedIn other →
    manager.dictionary (manager.user index).mUserID ≠ some other

/-! ## The lists of the rooms -/

theorem mem_leaveUser {rooms : RoomManager n} {room position : Nat} {index slot : Fin n} :
    slot ∈ ((rooms.setRoom room ((rooms.mRoomList room).leaveUser index)).mRoomList
        position).mUserList ↔
      slot ∈ (rooms.mRoomList position).mUserList ∧ ¬ (slot = index ∧ room = position) := by
  rcases eq_or_ne position room with rfl | different
  · rw [RoomManager.setRoom_self]
    simp [Room.leaveUser]
  · rw [RoomManager.setRoom_of_ne rooms _ different]
    exact ⟨fun member => ⟨member, fun own => different own.2.symm⟩, And.left⟩

theorem mem_joined {rooms : RoomManager n} {room position : Nat} {index slot : Fin n} :
    slot ∈ ((rooms.setRoom room (PacketEffect.joined (rooms.mRoomList room) index)).mRoomList
        position).mUserList ↔
      slot ∈ (rooms.mRoomList position).mUserList ∨ (slot = index ∧ room = position) := by
  rcases eq_or_ne position room with rfl | different
  · rw [RoomManager.setRoom_self]
    simp [PacketEffect.joined]
  · rw [RoomManager.setRoom_of_ne rooms _ different]
    exact ⟨Or.inl, fun either => either.resolve_right fun own => different own.2.symm⟩

theorem count_leaveUser (rooms : RoomManager n) (room position : Nat) (index slot : Fin n) :
    ((rooms.setRoom room ((rooms.mRoomList room).leaveUser index)).mRoomList
        position).mUserList.count slot =
      if slot = index ∧ position = room then 0
      else (rooms.mRoomList position).mUserList.count slot := by
  rcases eq_or_ne position room with rfl | different
  · rw [RoomManager.setRoom_self, Room.leaveUser]
    rcases eq_or_ne slot index with rfl | other
    · rw [if_pos ⟨rfl, rfl⟩]
      exact List.count_eq_zero.mpr fun member => by simp at member
    · rw [if_neg fun both => other both.1]
      exact List.count_filter (by simpa using other)
  · rw [RoomManager.setRoom_of_ne rooms _ different, if_neg fun both => different both.2]

theorem count_joined (rooms : RoomManager n) (room position : Nat) (index slot : Fin n) :
    ((rooms.setRoom room (PacketEffect.joined (rooms.mRoomList room) index)).mRoomList
        position).mUserList.count slot =
      (rooms.mRoomList position).mUserList.count slot +
        if slot = index ∧ position = room then 1 else 0 := by
  rcases eq_or_ne position room with rfl | different
  · rw [RoomManager.setRoom_self, PacketEffect.joined, List.count_append]
    rcases eq_or_ne slot index with rfl | other
    · rw [if_pos ⟨rfl, rfl⟩, List.count_singleton_self]
    · rw [if_neg fun both => other both.1, List.count_singleton, if_neg (by simpa using other.symm)]
  · rw [RoomManager.setRoom_of_ne rooms _ different, if_neg fun both => different both.2,
      Nat.add_zero]

/-! ## One disconnect -/

/-- A disconnect takes the slot off the room which it takes itself to be in. -/
theorem listed_disconnect {before after : PacketManager n} {index : Fin n}
    (changed : before.ChangedBy index .disconnect after) (position : Nat) (slot : Fin n) :
    after.Listed position slot ↔ before.Listed position slot ∧
      ¬ (slot = index ∧ (before.user index).mCurDomainState = .room ∧
        before.mRoomManager.getRoomByNumber (before.user index).roomIndex =
          some position) := by
  unfold Listed
  rw [changed.rooms]
  simp only [PacketEffect.onRooms]
  split
  · rename_i inRoom
    cases located : before.mRoomManager.getRoomByNumber (before.user index).roomIndex with
    | none =>
        refine ⟨fun listed => ⟨listed, fun own => ?_⟩, And.left⟩
        cases own.2.2
    | some room =>
        rw [mem_leaveUser, ← and_assoc, Option.some.injEq]
        simp only [inRoom, true_and]
        rfl
  · rename_i outside
    exact ⟨fun listed => ⟨listed, fun own => outside own.2.1⟩, And.left⟩

/-- A disconnect of a slot which is logged in erases the entry of its ID. -/
theorem dictionary_disconnect {before after : PacketManager n} {index : Fin n}
    (changed : before.ChangedBy index .disconnect after) (userID : Bytes) (slot : Fin n) :
    after.dictionary userID = some slot ↔ before.dictionary userID = some slot ∧
      ¬ (before.LoggedIn index ∧ (before.user index).mUserID = userID) := by
  rw [changed.dictionary_eq]
  simp only [PacketEffect.onDictionary]
  split
  · rename_i none
    exact ⟨fun entry => ⟨entry, fun own => own.1 none⟩, And.left⟩
  · rename_i loggedIn
    rcases eq_or_ne userID (before.user index).mUserID with rfl | different
    · rw [Function.update_self]
      refine ⟨fun entry => ?_, fun own => absurd ⟨loggedIn, rfl⟩ own.2⟩
      cases entry
    · rw [Function.update_of_ne different]
      exact ⟨fun entry => ⟨entry, fun own => different own.2.symm⟩, And.left⟩

/-- A disconnect is clean just when the slot owns its traces. -/
theorem cleanDisconnect_iff_ownsTraces (manager : PacketManager n) (index : Fin n) :
    manager.CleanDisconnect index ↔ manager.OwnsTraces index := by
  have changed := clearConnectionInfo_effect manager index
  have listed := listed_disconnect changed
  have entered := dictionary_disconnect changed
  constructor
  · intro clean
    refine ⟨fun position inList => ?_, fun userID entry => ?_, fun loggedIn => ?_⟩
    · by_contra own
      exact clean.noRoom position
        ((listed position index).mpr ⟨inList, fun all => own all.2⟩)
    · by_contra own
      exact clean.noEntry userID ((entered userID index).mpr ⟨entry, own⟩)
    · intro other different otherIn entry
      have kept := (clean.otherEntry other different otherIn _).mpr entry
      exact ((entered _ other).mp kept).2 ⟨loggedIn, rfl⟩
  · intro owns
    constructor
    case noRoom =>
      intro position still
      obtain ⟨before, notOwn⟩ := (listed position index).mp still
      exact notOwn ⟨rfl, owns.room position before⟩
    case noEntry =>
      intro userID still
      obtain ⟨before, notOwn⟩ := (entered userID index).mp still
      exact notOwn (owns.entry userID before)
    case state =>
      rw [changed.user_self]
      simp only [PacketEffect.onSlot]
      split
      · assumption
      · rfl
    case otherSlot => exact fun other different => changed.user_of_ne different
    case otherEntry =>
      intro other different otherIn userID
      refine (entered userID other).trans ⟨And.left, fun entry => ⟨entry, ?_⟩⟩
      rintro ⟨loggedIn, rfl⟩
      exact owns.sole loggedIn other different otherIn entry
    case otherRoom =>
      intro other different position
      exact (listed position other).trans
        ⟨And.left, fun inList => ⟨inList, fun own => different own.1⟩⟩

/-! ## Which calls keep the traces owned -/

/-- The call logs its slot in under this ID. -/
inductive LogsIn (manager : PacketManager n) (call : RecvCall n) : Bytes → Prop where
  | test (test : IsTestLogin call) : LogsIn manager call (loginUserID call.pPacket)
  | redis (redis : manager.IsRedisLogin call) :
      LogsIn manager call (redisUserID call.pPacket)

theorem LogsIn.effect {manager : PacketManager n} {call : RecvCall n} {userID : Bytes}
    (logsIn : manager.LogsIn call userID) :
    manager.effect call = .testLogin userID ∨ manager.effect call = .redisLogin userID := by
  cases logsIn with
  | test test => exact Or.inl ((manager.effectCase call).eq_testLogin test)
  | redis redis => exact Or.inr ((manager.effectCase call).eq_redisLogin redis)

/-- A login is made outside the rooms, keeps the ID under which the slot is entered and
uses the ID of no other slot which is logged in.  Who leaves a room without being logged
in has an ID which is not entered. -/
structure KeepsTraces (manager : PacketManager n) (call : RecvCall n) : Prop where
  outside : ∀ userID, manager.LogsIn call userID →
    ∀ position, ¬ manager.Listed position call.clientIndex
  keepsID : ∀ userID, manager.LogsIn call userID →
    manager.dictionary (manager.caller call).mUserID = some call.clientIndex →
      (manager.caller call).mUserID = userID
  freeID : ∀ userID, manager.LogsIn call userID →
    ∀ other, other ≠ call.clientIndex → manager.LoggedIn other →
      (manager.user other).mUserID ≠ userID
  leave : manager.IsRoomLeave call → ¬ manager.LoggedIn call.clientIndex →
    manager.dictionary (manager.caller call).mUserID = none

/-- The three parts of owned traces, for all slots at once. -/
structure TracesOwned (manager : PacketManager n) : Prop where
  room : ∀ slot position, manager.Listed position slot →
    (manager.user slot).mCurDomainState = .room ∧
      manager.mRoomManager.getRoomByNumber (manager.user slot).roomIndex = some position
  entry : ∀ slot userID, manager.dictionary userID = some slot →
    manager.LoggedIn slot ∧ (manager.user slot).mUserID = userID
  sole : ∀ first second, manager.LoggedIn first → second ≠ first →
    manager.LoggedIn second → manager.dictionary (manager.user first).mUserID ≠ some second

theorem tracesOwned_iff {manager : PacketManager n} :
    manager.TracesOwned ↔ ∀ slot, manager.CleanDisconnect slot := by
  simp only [cleanDisconnect_iff_ownsTraces]
  constructor
  · intro owned slot
    exact ⟨owned.room slot, owned.entry slot,
      fun loggedIn other different => owned.sole slot other loggedIn different⟩
  · intro owns
    exact ⟨fun slot => (owns slot).room, fun slot => (owns slot).entry,
      fun first second loggedIn different => (owns first).sole loggedIn second different⟩

theorem tracesOwned_init (memory : Fin n → Bytes) :
    (PacketManager.init memory).TracesOwned :=
  ⟨fun _ _ listed => absurd listed.2 List.not_mem_nil, fun _ _ => nofun,
    fun _ _ loggedIn => absurd rfl loggedIn⟩

/-- Which rooms exist is the same after a call. -/
theorem ChangedBy.getRoomByNumber_eq {before after : PacketManager n} {index : Fin n}
    {effect : PacketEffect} (changed : before.ChangedBy index effect after) (number : Int) :
    after.mRoomManager.getRoomByNumber number =
      before.mRoomManager.getRoomByNumber number := by
  rw [changed.rooms, getRoomByNumber_onRooms]

/-- The traces stay owned when the entries and the IDs are what they were. -/
theorem TracesOwned.of_dictionary {before after : PacketManager n} {index : Fin n}
    {effect : PacketEffect} (owned : before.TracesOwned)
    (changed : before.ChangedBy index effect after)
    (dictionary : after.dictionary = before.dictionary)
    (userID : (after.user index).mUserID = (before.user index).mUserID)
    (still : before.LoggedIn index → after.LoggedIn index)
    (joined : ¬ before.LoggedIn index → after.LoggedIn index →
      before.dictionary (before.user index).mUserID = none)
    (room : ∀ slot position, after.Listed position slot →
      (after.user slot).mCurDomainState = .room ∧
        before.mRoomManager.getRoomByNumber (after.user slot).roomIndex = some position) :
    after.TracesOwned := by
  have sameID (slot : Fin n) : (after.user slot).mUserID = (before.user slot).mUserID := by
    rcases eq_or_ne slot index with rfl | different
    · exact userID
    · rw [changed.user_of_ne different]
  refine ⟨fun slot position listed => ?_, fun slot used entry => ?_, ?_⟩
  · rw [changed.getRoomByNumber_eq]
    exact room slot position listed
  · rw [dictionary] at entry
    obtain ⟨loggedIn, same⟩ := owned.entry slot used entry
    refine ⟨?_, (sameID slot).trans same⟩
    rcases eq_or_ne slot index with rfl | different
    · exact still loggedIn
    · rw [LoggedIn, changed.user_of_ne different]
      exact loggedIn
  · intro first second firstIn different _ entry
    rw [dictionary, sameID] at entry
    have secondIn := (owned.entry second _ entry).1
    by_cases before : before.LoggedIn first
    · exact owned.sole first second before different secondIn entry
    · rcases eq_or_ne first index with rfl | other
      · cases (joined before firstIn).symm.trans entry
      · rw [LoggedIn, changed.user_of_ne other] at firstIn
        exact before firstIn

/-! ## One lemma for each effect -/

theorem tracesOwned_login {before after : PacketManager n} {index : Fin n}
    {effect : PacketEffect} {used : Bytes} (owned : before.TracesOwned)
    (changed : before.ChangedBy index effect after)
    (login : effect = .testLogin used ∨ effect = .redisLogin used)
    (outside : ∀ position, ¬ before.Listed position index)
    (keepsID : before.dictionary (before.user index).mUserID = some index →
      (before.user index).mUserID = used)
    (freeID : ∀ other, other ≠ index → before.LoggedIn other →
      (before.user other).mUserID ≠ used) :
    after.TracesOwned := by
  have slot : after.user index = (before.user index).setLogin used := by
    rw [changed.user_self]
    rcases login with rfl | rfl <;> rfl
  have rooms : after.mRoomManager = before.mRoomManager := by
    rw [changed.rooms]
    rcases login with rfl | rfl <;> rfl
  have listed (position : Nat) (other : Fin n) :
      after.Listed position other ↔ before.Listed position other := by
    rw [Listed, rooms, Listed]
  have entry : ∀ owner userID, after.dictionary userID = some owner →
      after.LoggedIn owner ∧ (after.user owner).mUserID = userID := by
    intro owner userID entered
    rw [changed.dictionary_eq] at entered
    rcases eq_or_ne owner index with rfl | different
    · rw [LoggedIn, slot]
      refine ⟨fun none => ?_, ?_⟩
      · cases none
      by_contra other
      rw [onDictionary_login_of_ne login (Ne.symm other)] at entered
      obtain ⟨_, same⟩ := owned.entry owner userID entered
      exact other ((keepsID (same ▸ entered)).symm.trans same)
    · rw [LoggedIn, changed.user_of_ne different]
      refine owned.entry owner userID ?_
      rcases eq_or_ne userID used with rfl | other
      · rcases onDictionary_login_used login with own | kept
        · exact absurd (Option.some.inj (entered.symm.trans own)) different
        · exact kept.symm.trans entered
      · rwa [onDictionary_login_of_ne login other] at entered
  refine ⟨fun other position inList => ?_, entry, fun first second firstIn different _ => ?_⟩
  · rw [listed] at inList
    rcases eq_or_ne other index with rfl | elsewhere
    · exact absurd inList (outside position)
    · rw [changed.user_of_ne elsewhere, rooms]
      exact owned.room other position inList
  · intro entered
    obtain ⟨secondIn, same⟩ := entry second _ entered
    rcases eq_or_ne first index with rfl | firstOther
    · rw [slot, changed.user_of_ne different] at same
      rw [LoggedIn, changed.user_of_ne different] at secondIn
      exact freeID second different secondIn same
    · rw [LoggedIn, changed.user_of_ne firstOther] at firstIn
      have notUsed := freeID first firstOther firstIn
      rcases eq_or_ne second index with rfl | secondOther
      · rw [slot, changed.user_of_ne firstOther] at same
        exact notUsed same.symm
      · rw [LoggedIn, changed.user_of_ne secondOther] at secondIn
        rw [changed.user_of_ne firstOther, changed.dictionary_eq,
          onDictionary_login_of_ne login notUsed] at entered
        exact owned.sole first second firstIn different secondIn entered

theorem tracesOwned_disconnect {before after : PacketManager n} {index : Fin n}
    (owned : before.TracesOwned) (changed : before.ChangedBy index .disconnect after) :
    after.TracesOwned := by
  have listed := listed_disconnect changed
  have entered := dictionary_disconnect changed
  have left : ¬ after.LoggedIn index := by
    rw [LoggedIn, changed.user_self]
    simp only [PacketEffect.onSlot]
    split
    · exact fun loggedIn => loggedIn (by assumption)
    · exact fun loggedIn => loggedIn rfl
  refine ⟨fun slot position inList => ?_, fun slot userID entry => ?_, ?_⟩
  · obtain ⟨before, notOwn⟩ := (listed position slot).mp inList
    rcases eq_or_ne slot index with rfl | different
    · exact absurd ⟨rfl, owned.room slot position before⟩ notOwn
    · rw [changed.user_of_ne different, changed.getRoomByNumber_eq]
      exact owned.room slot position before
  · obtain ⟨before, notOwn⟩ := (entered userID slot).mp entry
    rcases eq_or_ne slot index with rfl | different
    · exact absurd (owned.entry slot userID before) notOwn
    · rw [LoggedIn, changed.user_of_ne different]
      exact owned.entry slot userID before
  · intro first second firstIn different secondIn entry
    have firstOther : first ≠ index := fun same => left (same ▸ firstIn)
    have secondOther : second ≠ index := fun same => left (same ▸ secondIn)
    rw [LoggedIn, changed.user_of_ne firstOther] at firstIn
    rw [LoggedIn, changed.user_of_ne secondOther] at secondIn
    rw [changed.user_of_ne firstOther] at entry
    exact owned.sole first second firstIn different secondIn ((entered _ second).mp entry).1

theorem tracesOwned_keep {before after : PacketManager n} {index : Fin n}
    (owned : before.TracesOwned) (changed : before.ChangedBy index .keep after) :
    after.TracesOwned := by
  have slot : after.user index = before.user index := changed.user_self
  refine owned.of_dictionary changed changed.dictionary_eq (congrArg User.mUserID slot) ?_ ?_ ?_
  · intro loggedIn
    rw [LoggedIn, slot]
    exact loggedIn
  · intro outside loggedIn
    rw [LoggedIn, slot] at loggedIn
    exact absurd loggedIn outside
  · intro other position listed
    rw [Listed, changed.rooms] at listed
    have same : after.user other = before.user other := by
      rcases eq_or_ne other index with rfl | different
      · exact slot
      · exact changed.user_of_ne different
    rw [same]
    exact owned.room other position listed

theorem tracesOwned_enter {before after : PacketManager n} {index : Fin n} {room : Nat}
    {number : Int} (owned : before.TracesOwned) (numbered : before.mRoomManager.Numbered)
    (located : before.mRoomManager.getRoomByNumber number = some room)
    (state : (before.user index).mCurDomainState = .login)
    (changed : before.ChangedBy index (.enter room) after) : after.TracesOwned := by
  have slot : after.user index =
      (before.user index).enterRoom (before.mRoomManager.mRoomList room).mRoomNumber :=
    changed.user_self
  have loggedIn : before.LoggedIn index := by
    intro none
    cases none.symm.trans state
  refine owned.of_dictionary changed changed.dictionary_eq
    ((congrArg User.mUserID slot).trans rfl)
    (fun _ => ?_) (fun outside => absurd loggedIn outside) ?_
  · rw [LoggedIn, slot]
    intro none
    cases none
  · rintro other position ⟨inside, member⟩
    rw [changed.rooms] at inside member
    rcases mem_joined.mp member with listed | ⟨rfl, rfl⟩
    · have there := owned.room other position ⟨inside, listed⟩
      have different : other ≠ index := by
        rintro rfl
        cases there.1.symm.trans state
      rw [changed.user_of_ne different]
      exact there
    · rw [slot]
      exact ⟨rfl, numbered.getRoomByNumber_eq_some.mpr
        ⟨(numbered.getRoomByNumber_eq_some.mp located).1, rfl⟩⟩

theorem tracesOwned_leave {before after : PacketManager n} {index : Fin n} {room : Nat}
    (owned : before.TracesOwned)
    (located : before.mRoomManager.getRoomByNumber (before.user index).roomIndex = some room)
    (changed : before.ChangedBy index (.leave room) after)
    (leave : ¬ before.LoggedIn index → before.dictionary (before.user index).mUserID = none) :
    after.TracesOwned := by
  have slot : after.user index = (before.user index).setDomainState .login :=
    changed.user_self
  refine owned.of_dictionary changed changed.dictionary_eq
    ((congrArg User.mUserID slot).trans rfl)
    (fun _ => ?_) (fun outside _ => leave outside) ?_
  · rw [LoggedIn, slot]
    intro none
    cases none
  · rintro other position ⟨inside, member⟩
    rw [changed.rooms] at inside member
    obtain ⟨listed, notOwn⟩ := mem_leaveUser.mp member
    have there := owned.room other position ⟨inside, listed⟩
    have different : other ≠ index := by
      rintro rfl
      exact notOwn ⟨rfl, Option.some.inj (located.symm.trans there.2)⟩
    rw [changed.user_of_ne different]
    exact there

/-- After a login from which the traces are owned, they were the slot's alone before. -/
theorem keepsTraces_login {before after : PacketManager n} {index : Fin n}
    {effect : PacketEffect} {used : Bytes}
    (changed : before.ChangedBy index effect after)
    (login : effect = .testLogin used ∨ effect = .redisLogin used)
    (good : after.TracesOwned) :
    (∀ position, ¬ before.Listed position index) ∧
      (before.dictionary (before.user index).mUserID = some index →
        (before.user index).mUserID = used) ∧
      ∀ other, other ≠ index → before.LoggedIn other →
        (before.user other).mUserID ≠ used := by
  have slot : after.user index = (before.user index).setLogin used := by
    rw [changed.user_self]
    rcases login with rfl | rfl <;> rfl
  have rooms : after.mRoomManager = before.mRoomManager := by
    rw [changed.rooms]
    rcases login with rfl | rfl <;> rfl
  have loggedIn : after.LoggedIn index := by
    rw [LoggedIn, slot]
    intro none
    cases none
  refine ⟨fun position listed => ?_, fun entered => ?_, fun other different otherIn same => ?_⟩
  · have there := (good.room index position (by rwa [Listed, rooms])).1
    rw [slot] at there
    cases there
  · by_contra notUsed
    have kept : after.dictionary (before.user index).mUserID = some index := by
      rw [changed.dictionary_eq, onDictionary_login_of_ne login notUsed, entered]
    have own := (good.entry index _ kept).2
    rw [slot] at own
    exact notUsed own.symm
  · have otherAfter : after.LoggedIn other ∧ (after.user other).mUserID = used := by
      rw [LoggedIn, changed.user_of_ne different]
      exact ⟨otherIn, same⟩
    -- whoever is entered under the ID, one of the two slots takes the entry of the other
    have owner : ∃ owner, after.dictionary used = some owner := by
      rw [changed.dictionary_eq]
      rcases login with rfl | rfl
      · simp only [PacketEffect.onDictionary]
        split
        · exact ⟨index, Function.update_self _ _ _⟩
        · exact Option.ne_none_iff_exists'.mp (by assumption)
      · exact ⟨index, Function.update_self _ _ _⟩
    obtain ⟨owner, entered⟩ := owner
    have ownerIn := (good.entry owner used entered).1
    rcases eq_or_ne owner index with rfl | elsewhere
    · refine good.sole other owner otherAfter.1 different.symm loggedIn ?_
      rw [otherAfter.2, entered]
    · refine good.sole index owner loggedIn elsewhere ownerIn ?_
      rw [slot]
      exact entered

/-- From owned traces a call ends in owned traces just when it keeps them. -/
theorem tracesOwned_recv_iff {manager next : PacketManager n} {call : RecvCall n}
    (table : manager.RoomTable) (owned : manager.TracesOwned)
    (taken : manager.recv call = some next) :
    next.TracesOwned ↔ manager.KeepsTraces call := by
  obtain ⟨effect, effectCase, changed⟩ := recv_cases taken
  have slot := changed.user_self
  constructor
  · intro good
    have isLogin (used : Bytes) (logsIn : manager.LogsIn call used) :
        effect = .testLogin used ∨ effect = .redisLogin used := by
      cases logsIn with
      | test test => exact Or.inl (effectCase.eq_testLogin test)
      | redis redis => exact Or.inr (effectCase.eq_redisLogin redis)
    have login (used : Bytes) (logsIn : manager.LogsIn call used) :=
      keepsTraces_login changed (isLogin used logsIn) good
    refine ⟨fun used logsIn => (login used logsIn).1, fun used logsIn => (login used logsIn).2.1,
      fun used logsIn => (login used logsIn).2.2, fun leave outside => ?_⟩
    obtain ⟨room, rfl, _⟩ := effectCase.eq_leave leave
    cases entered : manager.dictionary (manager.caller call).mUserID with
    | none => rfl
    | some owner =>
        obtain ⟨ownerIn, _⟩ := owned.entry owner _ entered
        have different : owner ≠ call.clientIndex := fun same => outside (same ▸ ownerIn)
        refine absurd ?_ (good.sole call.clientIndex owner ?_ different ?_)
        · rw [slot, changed.dictionary_eq]
          exact entered
        · rw [LoggedIn, slot]
          intro none
          cases none
        · rw [LoggedIn, changed.user_of_ne different]
          exact ownerIn
  · intro keeps
    cases effectCase with
    | keep noTest noRedis noLeave => exact tracesOwned_keep owned changed
    | testLogin test =>
        have logsIn : manager.LogsIn call _ := .test test
        exact tracesOwned_login owned changed (Or.inl rfl) (keeps.outside _ logsIn)
          (keeps.keepsID _ logsIn) (keeps.freeID _ logsIn)
    | redisLogin redis =>
        have logsIn : manager.LogsIn call _ := .redis redis
        exact tracesOwned_login owned changed (Or.inr rfl) (keeps.outside _ logsIn)
          (keeps.keepsID _ logsIn) (keeps.freeID _ logsIn)
    | disconnect found => exact tracesOwned_disconnect owned changed
    | enter room found located state notFull =>
        exact tracesOwned_enter owned table.numbered located state changed
    | leave room found located =>
        exact tracesOwned_leave owned located changed
          (keeps.leave (isRoomLeave_of_located found located))

/--
In every state of a run a disconnect of any slot leaves nothing of it behind and touches
nobody else, precisely when every login is made outside the rooms, under the ID under
which its slot is entered if it is, and under the ID of no other slot, and no slot becomes
logged in by leaving a room under the ID of another.
-/
theorem cleanDisconnect_iff_keepsTraces (memory : Fin n → Bytes) (calls : List (RecvCall n)) :
    Execution.Always recv (fun manager => ∀ slot, manager.CleanDisconnect slot)
        (PacketManager.init memory) calls ↔
      Execution.Throughout recv KeepsTraces (PacketManager.init memory) calls := by
  simp only [← tracesOwned_iff]
  exact Execution.always_iff_throughout
    (fun _ _ _ table taken => roomTable_recv table taken)
    (fun _ _ _ table owned taken => tracesOwned_recv_iff table owned taken)
    (roomTable_init memory) (tracesOwned_init memory) calls

/-- A client which is in room 0 logs in again. -/
def loginInRoom : List (RecvCall 1) :=
  [.loginRequest 0 (testUser ++ text ['1']) [], .roomEnterRequest 0,
    .loginRequest 0 (testUser ++ text ['1']) []]

/-- Its disconnect leaves it in the list of the room. -/
theorem loginInRoom_not_cleanDisconnect :
    ¬ Execution.Always recv (fun manager => ∀ slot, manager.CleanDisconnect slot)
      (PacketManager.init fun _ => []) loginInRoom := by
  intro always
  have seen : (Execution.run? recv (PacketManager.init fun _ => []) loginInRoom).map
      (fun last => ((last.clearConnectionInfo 0).mRoomManager.mMaxRoomCount,
        ((last.clearConnectionInfo 0).mRoomManager.mRoomList 0).mUserList)) =
        some (250, [0]) := by decide +kernel
  obtain ⟨last, clean, observed⟩ := always.observed seen
  obtain ⟨rooms, listed⟩ := Prod.mk.inj observed
  refine (clean 0).noRoom 0 ⟨by omega, ?_⟩
  rw [listed]
  exact List.mem_singleton_self 0

end PacketManager

end IOCPChatServer
