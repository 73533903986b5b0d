import IOCPChatServer.PacketManager

/-!
# The chat service

What the logic layer is for, without its slots, its dictionary, its counter and its lists.
A connection is anonymous, logged in under an ID, or in a room under an ID.  Everything else
is decided by these sessions: whether an ID is taken, how many clients are logged in and who
the members of a room are.
-/

namespace IOCPChatServer

/-- Where a connection stands with the service. -/
inductive Session where
  | anonymous
  | loggedIn (userID : Bytes)
  | inRoom (userID : Bytes) (room : Int)
  deriving DecidableEq, Repr

/-- What is asked of the service on behalf of one connection. -/
inductive Request where
  | login (userID credentials : Bytes)
  | loginResult (result : Nat) (userID : Bytes)
  | enter (room : Int)
  | leave
  | chat (message : Bytes)
  | disconnect
  | ignored
  deriving DecidableEq, Repr

namespace Session

def userID? : Session → Option Bytes
  | .anonymous => none
  | .loggedIn userID => some userID
  | .inRoom userID _ => some userID

def room? : Session → Option Int
  | .inRoom _ room => some room
  | _ => none

end Session

/-- The sessions of the connections, what was sent to each of them, and the tasks which were
handed to the two databases. -/
@[ext]
structure ChatService (n : Nat) where
  session : Fin n → Session := fun _ => .anonymous
  outbox : Fin n → List ServerPacket := fun _ => []
  redisTasks : List (RedisTask n) := []
  mysqlTasks : List (MySQLTask n) := []

namespace ChatService

variable {n : Nat}

/-- The rooms are numbered from 0. -/
def roomCount : Int := 250

def roomCapacity : Nat := 8

/-- Some connection is logged in under the ID. -/
def Taken (service : ChatService n) (userID : Bytes) : Prop :=
  ∃ client, (service.session client).userID? = some userID

instance (service : ChatService n) (userID : Bytes) : Decidable (service.Taken userID) :=
  inferInstanceAs (Decidable (∃ _, _))

/-- The connections which are logged in. -/
def present (service : ChatService n) : Finset (Fin n) :=
  Finset.univ.filter fun client => service.session client ≠ .anonymous

/-- The connections which are in the room. -/
def members (service : ChatService n) (room : Int) : Finset (Fin n) :=
  Finset.univ.filter fun client => (service.session client).room? = some room

def setSession (service : ChatService n) (client : Fin n) (session : Session) : ChatService n :=
  { service with session := Function.update service.session client session }

/-- A packet to one client. -/
def reply (service : ChatService n) (client : Fin n) (packet : ServerPacket) : ChatService n :=
  { service with
    outbox := fun receiver =>
      service.outbox receiver ++ if receiver = client then [packet] else [] }

/-- A packet to every member of a room. -/
def announce (service : ChatService n) (room : Int) (packet : ServerPacket) : ChatService n :=
  { service with
    outbox := fun receiver =>
      service.outbox receiver ++ if receiver ∈ service.members room then [packet] else [] }

def authenticate (service : ChatService n) (task : RedisTask n) : ChatService n :=
  { service with redisTasks := service.redisTasks ++ [task] }

def log (service : ChatService n) (task : MySQLTask n) : ChatService n :=
  { service with mysqlTasks := service.mysqlTasks ++ [task] }

/-! ## What the operations change -/

@[simp]
theorem session_log (service : ChatService n) (task : MySQLTask n) :
    (service.log task).session = service.session := rfl

/-- The members depend on the sessions only. -/
theorem mem_members {service : ChatService n} {room : Int} {client : Fin n} :
    client ∈ service.members room ↔ (service.session client).room? = some room := by
  simp [members]

/-! ## Requests -/

def serveLogin (service : ChatService n) (client : Fin n) (userID credentials : Bytes) :
    ChatService n :=
  if service.Taken userID then
    service.reply client (.loginResponse ErrorCode.loginUserAlready.code)
  else if n ≤ service.present.card then
    service.reply client (.loginResponse ErrorCode.loginUserUsedAllObj.code)
  else service.authenticate ⟨client, .requestLogin, credentials⟩

def serveLoginResult (service : ChatService n) (client : Fin n) (result : Nat)
    (userID : Bytes) : ChatService n :=
  if result ≠ ErrorCode.none.code then service.reply client (.loginResponse result)
  else if service.Taken userID then
    service.reply client (.loginResponse ErrorCode.loginUserUsedAllObj.code)
  else
    ((service.setSession client (.loggedIn userID)).log (.insertLoginEvent client userID)).reply
      client (.loginResponse ErrorCode.none.code)

def serveEnter (service : ChatService n) (client : Fin n) (room : Int) : ChatService n :=
  match service.session client with
  | .loggedIn userID =>
      if room < 0 ∨ roomCount ≤ room then
        service.reply client (.roomEnterResponse ErrorCode.roomInvalidIndex.code)
      else if roomCapacity ≤ (service.members room).card then
        service.reply client (.roomEnterResponse ErrorCode.enterRoomFullUser.code)
      else
        (((service.setSession client (.inRoom userID room)).log
          (.insertRoomEvent client userID room .enter)).announce room
            (.roomChatNotify userID PacketManager.enteredText)).reply client
              (.roomEnterResponse ErrorCode.none.code)
  | _ => service.reply client (.roomEnterResponse ErrorCode.enterRoomInvalidUserStatus.code)

def serveLeave (service : ChatService n) (client : Fin n) : ChatService n :=
  match service.session client with
  | .inRoom userID room =>
      (((service.setSession client (.loggedIn userID)).log
        (.insertRoomEvent client userID room .leave)).announce room
          (.roomChatNotify userID PacketManager.leftText)).reply client
            (.roomLeaveResponse ErrorCode.none.code)
  | _ => service

def serveChat (service : ChatService n) (client : Fin n) (message : Bytes) : ChatService n :=
  match service.session client with
  | .inRoom userID room =>
      ((service.reply client (.roomChatResponse ErrorCode.none.code)).log
        (.insertChatMessage client userID room message)).announce room
          (.roomChatNotify userID message)
  | _ => service.reply client (.roomChatResponse ErrorCode.enterRoomInvalidUserStatus.code)

/-- What the service does for a client. -/
def serve (service : ChatService n) (client : Fin n) : Request → ChatService n
  | .login userID credentials => service.serveLogin client userID credentials
  | .loginResult result userID => service.serveLoginResult client result userID
  | .enter room => service.serveEnter client room
  | .leave => service.serveLeave client
  | .chat message => service.serveChat client message
  | .disconnect => service.setSession client .anonymous
  | .ignored => service

/-- What the service relies on: nobody uses the load-test IDs, a login result admits an
anonymous connection under an ID of at most `MAX_USER_ID_LENGTH` characters, who leaves a room
is in one, and chat messages are NUL-terminated in their arrays. -/
def Orderly (service : ChatService n) (client : Fin n) : Request → Prop
  | .login userID _ => PacketManager.isTestUser userID = false
  | .loginResult result userID =>
      result = ErrorCode.none.code → ¬ service.Taken userID →
        service.session client = .anonymous ∧ userID.length ≤ maxUserIDLength
  | .leave => (service.session client).room? ≠ none
  | .chat message => (service.session client).room? ≠ none → message.length ≤ maxChatMsg
  | _ => True

instance (service : ChatService n) (client : Fin n) (request : Request) :
    Decidable (service.Orderly client request) := by
  cases request <;> unfold Orderly <;> infer_instance

/-! ## The transcript of a room -/

/-- The notification which an entry of the log of a room stands for. -/
def notice? (room : Int) : MySQLTask n → Option ServerPacket
  | .insertLoginEvent _ _ => none
  | .insertRoomEvent _ userID number event =>
      if number = room then
        some (.roomChatNotify userID
          (if event = .enter then PacketManager.enteredText else PacketManager.leftText))
      else none
  | .insertChatMessage _ userID number message =>
      if number = room then some (.roomChatNotify userID message) else none

/-- What the log says about a room. -/
def transcript (room : Int) (tasks : List (MySQLTask n)) : List ServerPacket :=
  tasks.filterMap (notice? room)

/-- The chat notifications among the packets which a client gets. -/
def notices (packets : List ServerPacket) : List ServerPacket :=
  packets.filter fun packet => packet.packetId = .roomChatNotify

/-- The packets and the log entries of some requests, where the notifications to the client
tell what the log tells about the room. -/
structure Told (before after : ChatService n) (client : Fin n) (room : Int) : Prop where
  told : ∃ packets tasks, after.outbox client = before.outbox client ++ packets ∧
    after.mysqlTasks = before.mysqlTasks ++ tasks ∧ notices packets = transcript room tasks

theorem Told.refl (service : ChatService n) (client : Fin n) (room : Int) :
    service.Told service client room :=
  ⟨[], [], (List.append_nil _).symm, (List.append_nil _).symm, rfl⟩

theorem Told.trans {first second third : ChatService n} {client : Fin n} {room : Int}
    (before : first.Told second client room) (after : second.Told third client room) :
    first.Told third client room := by
  obtain ⟨packets, tasks, sent, logged, same⟩ := before.told
  obtain ⟨later, laterTasks, laterSent, laterLogged, laterSame⟩ := after.told
  refine ⟨packets ++ later, tasks ++ laterTasks, ?_, ?_, ?_⟩
  · rw [laterSent, sent, List.append_assoc]
  · rw [laterLogged, logged, List.append_assoc]
  · rw [notices, List.filter_append, transcript, List.filterMap_append]
    exact congrArg₂ (· ++ ·) same laterSame

/-- A packet to one client which is no notification. -/
theorem Told.reply {before after : ChatService n} {client : Fin n} {room : Int}
    (told : before.Told after client room) (receiver : Fin n) {packet : ServerPacket}
    (response : packet.packetId ≠ .roomChatNotify) :
    before.Told (after.reply receiver packet) client room := by
  refine told.trans ⟨_, [], rfl, (List.append_nil _).symm, ?_⟩
  split
  · exact List.filter_eq_nil_iff.mpr fun sent member => by
      rw [List.mem_singleton.mp member]
      exact fun notify => response (of_decide_eq_true notify)
  · rfl

/-- An entry about no room. -/
theorem Told.aside {before after : ChatService n} {client : Fin n} {room : Int}
    {task : MySQLTask n} (told : before.Told after client room)
    (entry : notice? room task = none) : before.Told (after.log task) client room := by
  refine told.trans ⟨[], [task], (List.append_nil _).symm, rfl, ?_⟩
  rw [transcript, List.filterMap_cons, entry]
  rfl

/-- An entry about a room, and the notification of it to the members of that room. -/
theorem Told.logged {before after : ChatService n} {client : Fin n} {room number : Int}
    {task : MySQLTask n} {userID message : Bytes}
    (told : before.Told after client room)
    (inside : (after.session client).room? = some room)
    (entry : notice? room task =
      if number = room then some (.roomChatNotify userID message) else none) :
    before.Told ((after.log task).announce number (.roomChatNotify userID message))
      client room := by
  have member : client ∈ (after.log task).members number ↔ number = room := by
    rw [mem_members, session_log, inside, Option.some.injEq]
    exact eq_comm
  refine told.trans ⟨_, [task], rfl, rfl, ?_⟩
  rw [transcript, List.filterMap_cons, entry]
  by_cases same : number = room
  · rw [if_pos (member.mpr same), if_pos same]
    rfl
  · rw [if_neg (mt member.mp same), if_neg same]
    rfl

/-- A request after which the client is in the room tells it what is logged of the room. -/
theorem told_serve {service : ChatService n} {caller client : Fin n} {request : Request}
    {room : Int} (inside : ((service.serve caller request).session client).room? = some room) :
    service.Told (service.serve caller request) client room := by
  have same := Told.refl service client room
  have moved (session : Session) : service.Told (service.setSession caller session) client room :=
    ⟨[], [], (List.append_nil _).symm, (List.append_nil _).symm, rfl⟩
  cases request with
  | login userID credentials =>
      simp only [serve, serveLogin]
      split
      · exact same.reply caller (by decide)
      · split
        · exact same.reply caller (by decide)
        · exact ⟨[], [], (List.append_nil _).symm, (List.append_nil _).symm, rfl⟩
  | loginResult result userID =>
      simp only [serve, serveLoginResult]
      split
      · exact same.reply caller (by simp [ServerPacket.packetId])
      · split
        · exact same.reply caller (by decide)
        · exact ((moved _).aside rfl).reply caller (by decide)
  | enter number =>
      simp only [serve, serveEnter] at inside ⊢
      split
      · split
        · exact same.reply caller (by decide)
        · split
          · exact same.reply caller (by decide)
          · rename_i userID session existing notFull
            simp only [session, if_neg existing, if_neg notFull] at inside
            exact ((moved _).logged inside rfl).reply caller (by decide)
      · exact same.reply caller (by decide)
  | leave =>
      simp only [serve, serveLeave] at inside ⊢
      split
      · rename_i userID number session
        simp only [session] at inside
        exact ((moved _).logged inside rfl).reply caller (by decide)
      · exact same
  | chat message =>
      simp only [serve, serveChat] at inside ⊢
      split
      · rename_i userID number session
        simp only [session] at inside
        exact (same.reply caller (by decide)).logged inside rfl
      · exact same.reply caller (by decide)
  | disconnect => exact moved _
  | ignored => exact same

/-- A request adds to the log. -/
theorem mysqlTasks_prefix (service : ChatService n) (client : Fin n) (request : Request) :
    service.mysqlTasks <+: (service.serve client request).mysqlTasks := by
  have same := List.prefix_refl service.mysqlTasks
  have logged (task : MySQLTask n) := List.prefix_append service.mysqlTasks [task]
  cases request with
  | login userID credentials =>
      simp only [serve, serveLogin]
      split
      · exact same
      · split <;> exact same
  | loginResult result userID =>
      simp only [serve, serveLoginResult]
      split
      · exact same
      · split
        · exact same
        · exact logged _
  | enter room =>
      simp only [serve, serveEnter]
      split
      · split
        · exact same
        · split
          · exact same
          · exact logged _
      · exact same
  | leave =>
      simp only [serve, serveLeave]
      split
      · exact logged _
      · exact same
  | chat message =>
      simp only [serve, serveChat]
      split
      · exact logged _
      · exact same
  | disconnect => exact same
  | ignored => exact same

end ChatService

end IOCPChatServer
