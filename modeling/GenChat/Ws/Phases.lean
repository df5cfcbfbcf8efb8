import GenChat.Library.Phases
import GenChat.Ws.Handler

/-!
# The phases of a handshake

What a thread of the pod has found out and may do next. The phases follow `ServeHTTP` from the
ceiling over the device cap to the registration and the read pump.
-/
namespace GenChat.Ws
open Library Ledger
open Gateway (WireFormat)

/-- Why a handshake past the device cap may add its device. -/
inductive Room where
  /-- The user was below the cap. -/
  | free
  /-- The device was connected. -/
  | replaces
  /-- All connections of this device have been evicted. -/
  | evicted (dev : String)

inductive Phase where
  /-- Before the ceiling, or past it without a test. -/
  | fresh (req : Request)
  /-- The ceiling let the handshake pass. -/
  | tested (userID deviceID : String) (policy : String)
  | atCap (userID deviceID : String)
  | choosing (userID deviceID dev : String)
  /-- About to send the notice to the first of the connections. -/
  | noticing (userID deviceID dev : String) (conn : Conn) (rest : List Conn)
  | evicting (userID deviceID dev : String) (conn : Conn) (rest : List Conn)
  | superseding (userID deviceID : String)
  | replacing (userID deviceID : String) (conn : Conn) (rest : List Conn)
  /-- Past the device cap. -/
  | admitted (userID deviceID : String) (room : Room)
  | accepted (userID deviceID : String) (room : Room)
  | created (conn : Conn) (room : Room)
  | serving (conn : Conn)
  /-- A thread that is no handshake. -/
  | sending
  | ended

namespace Phase

/-- The phase in which the connections are evicted. -/
def ofEvicted (userID deviceID dev : String) : List Conn → Phase
  | [] => .admitted userID deviceID (.evicted dev)
  | conn :: rest => .noticing userID deviceID dev conn rest

def ofSuperseded (userID deviceID : String) : List Conn → Phase
  | [] => .admitted userID deviceID .replaces
  | conn :: rest => .replacing userID deviceID conn rest

/-- Whether a thread may end in the phase. -/
def rests : Phase → Bool
  | .fresh _ => true
  | .sending => true
  | .ended => true
  | _ => false

end Phase

section Typestate
variable (h : Handler)

/-- The operations of the device check. -/
def checks (u d : String) (op : Op) : Prop :=
  op = .hasDevice u d ∧ d ≠ "" ∨ op = .getActiveDeviceCount u

/-- The operations of a read pump. -/
def serves (conn : Conn) : Op → Prop
  | .read conn' => conn' = conn
  | .allowTiered _ => True
  | .setWireFormat conn' => conn' = conn
  | .reply conn' _ => conn' = conn
  | .sendToUser _ _ => True
  | .userIDs _ => True
  | .relay _ => True
  | .unregister conn' reason => conn' = conn ∧ reason = .disconnected
  | _ => False

def Phase.allows : Phase → Op → Prop
  | .fresh req, op => match op with
    | .allow _ => True
    | .isOverloaded => True
    | .onlineCount => simulateCeiling h req = false ∧ 0 < effectiveMaxConns h req
    | op => effectiveMaxConns h req ≤ 0 ∧
      ∃ claims ∈ req.claims, checks claims.sub claims.deviceID op
  | .tested u d _, op => checks u d op
  | .atCap u _, op => op = .getOldestDeviceID u
  | .choosing u _ dev, op => op = .evicted u dev
  | .noticing _ _ _ conn _, op => ∃ payload, op = .notice conn payload
  | .evicting _ _ _ conn _, op => op = .unregister conn .deviceLimit
  | .superseding u d, op => op = .superseded u d
  | .replacing _ _ conn _, op => op = .unregister conn .superseded
  | .admitted u _ _, op => op = .accept u
  | .accepted u d _, op => op = .newConn u d
  | .created conn _, op => op = .register conn
  | .serving conn, op => serves conn op
  | .sending, op => (∃ u d p, op = .sendToDevice u d p) ∨ (∃ u p, op = .deliverLocal u p) ∨
      ∃ p, op = .drain p
  | .ended, _ => False

/-- What the device check leads to. -/
def Phase.checked (u d policy : String) : (op : Op) → Ret op → Phase
  | .hasDevice _ _, found => if found then .superseding u d else .tested u d policy
  | .getActiveDeviceCount _, n =>
    if h.maxDevicesPerUser ≤ (show Nat from n) then
      if policy = "evict_oldest" then .atCap u d else .ended
    else .admitted u d .free
  | _, _ => .ended

/-- The phase of a handshake that the ceiling lets pass. -/
def Phase.passed (req : Request) : Phase :=
  match req.claims with
  | none => .ended
  | some claims =>
    if claims.sub = "" then .ended else .tested claims.sub claims.deviceID (policy h req)

def Phase.next : Phase → (op : Op) → Ret op → Phase
  | .fresh req, op, r => match op, r with
    | .allow _, _ => .fresh req
    | .isOverloaded, _ => .fresh req
    | .onlineCount, n =>
      if effectiveMaxConns h req ≤ (show Nat from n) then .ended else .passed h req
    | op, r => match req.claims with
      | none => .ended
      | some claims => .checked h claims.sub claims.deviceID (policy h req) op r
  | .tested u d policy, op, r => .checked h u d policy op r
  | .atCap u d, .getOldestDeviceID _, oldest => match (show Option String from oldest) with
    | some dev => if dev ≠ "" then .choosing u d dev else .admitted u d .free
    | none => .admitted u d .free
  | .choosing u d dev, .evicted _ _, conns => .ofEvicted u d dev conns
  | .noticing u d dev conn rest, _, _ => .evicting u d dev conn rest
  | .evicting u d dev _ rest, _, _ => .ofEvicted u d dev rest
  | .superseding u d, .superseded _ _, conns => .ofSuperseded u d conns
  | .replacing u d _ rest, _, _ => .ofSuperseded u d rest
  | .admitted u d room, .accept _, ok => if ok then .accepted u d room else .ended
  | .accepted _ _ room, .newConn _ _, conn => .created conn room
  | .created conn _, _, _ => .serving conn
  | .serving _, .unregister _ _, _ => .ended
  | .serving conn, _, _ => .serving conn
  | φ, _, _ => φ

abbrev handshakes : Typestate Tag Op Ret where
  Phase := Phase
  start
    | .handshake req _ => .fresh req
    | _ => .sending
  allows _ φ op := φ.allows h op
  next φ op r := φ.next h op r

end Typestate

/-! ## What a handshake does from phase to phase -/

/-- The device check comes next. -/
def Phase.AtCheck (h : Handler) (u d policy : String) (φ : Phase) : Prop :=
  φ = .tested u d policy ∨ ∃ req claims, φ = .fresh req ∧ effectiveMaxConns h req ≤ 0 ∧
    req.claims = some claims ∧ claims.sub = u ∧ claims.deviceID = d ∧ Ws.policy h req = policy

inductive Moves (h : Handler) : Phase → (op : Op) → Ret op → Phase → Prop where
  | waiting {req : Request} {op : Op} {r : Ret op} : op.Plain → Moves h (.fresh req) op r (.fresh req)
  | refused {req : Request} {n : Nat} : Moves h (.fresh req) .onlineCount n .ended
  | passed {req : Request} {n : Nat} {u d policy : String} : simulateCeiling h req = false →
      (n : Int) < effectiveMaxConns h req → Moves h (.fresh req) .onlineCount n (.tested u d policy)
  | connected {φ : Phase} {u d policy : String} : φ.AtCheck h u d policy → d ≠ "" →
      Moves h φ (.hasDevice u d) true (.superseding u d)
  | unconnected {φ : Phase} {u d policy : String} : φ.AtCheck h u d policy →
      Moves h φ (.hasDevice u d) false (.tested u d policy)
  | full {φ : Phase} {u d policy : String} {n : Nat} : φ.AtCheck h u d policy →
      h.maxDevicesPerUser ≤ n → Moves h φ (.getActiveDeviceCount u) n (.atCap u d)
  | rejected {φ : Phase} {u d policy : String} {n : Nat} : φ.AtCheck h u d policy →
      Moves h φ (.getActiveDeviceCount u) n .ended
  | free {φ : Phase} {u d policy : String} {n : Nat} : φ.AtCheck h u d policy →
      n < h.maxDevicesPerUser → Moves h φ (.getActiveDeviceCount u) n (.admitted u d .free)
  | oldest {u d dev : String} : dev ≠ "" →
      Moves h (.atCap u d) (.getOldestDeviceID u) (some dev) (.choosing u d dev)
  | noOldest {u d : String} {r : Option String} : r = none ∨ r = some "" →
      Moves h (.atCap u d) (.getOldestDeviceID u) r (.admitted u d .free)
  | evictNone {u d dev : String} :
      Moves h (.choosing u d dev) (.evicted u dev) [] (.admitted u d (.evicted dev))
  | evict {u d dev : String} {conn : Conn} {rest : List Conn} :
      Moves h (.choosing u d dev) (.evicted u dev) (conn :: rest) (.noticing u d dev conn rest)
  | noticed {u d dev : String} {conn : Conn} {rest : List Conn} {payload : Payload}
      {r : Ret (.notice conn payload)} :
      Moves h (.noticing u d dev conn rest) (.notice conn payload) r (.evicting u d dev conn rest)
  | evictedLast {u d dev : String} {conn : Conn} {r : Ret (.unregister conn .deviceLimit)} :
      Moves h (.evicting u d dev conn []) (.unregister conn .deviceLimit) r
        (.admitted u d (.evicted dev))
  | evictedOne {u d dev : String} {conn conn' : Conn} {rest : List Conn}
      {r : Ret (.unregister conn .deviceLimit)} :
      Moves h (.evicting u d dev conn (conn' :: rest)) (.unregister conn .deviceLimit) r
        (.noticing u d dev conn' rest)
  | replaceNone {u d : String} :
      Moves h (.superseding u d) (.superseded u d) [] (.admitted u d .replaces)
  | replace {u d : String} {conn : Conn} {rest : List Conn} :
      Moves h (.superseding u d) (.superseded u d) (conn :: rest) (.replacing u d conn rest)
  | replacedLast {u d : String} {conn : Conn} {r : Ret (.unregister conn .superseded)} :
      Moves h (.replacing u d conn []) (.unregister conn .superseded) r (.admitted u d .replaces)
  | replacedOne {u d : String} {conn conn' : Conn} {rest : List Conn}
      {r : Ret (.unregister conn .superseded)} :
      Moves h (.replacing u d conn (conn' :: rest)) (.unregister conn .superseded) r
        (.replacing u d conn' rest)
  | accepted {u d : String} {room : Room} :
      Moves h (.admitted u d room) (.accept u) true (.accepted u d room)
  | failed {u d : String} {room : Room} : Moves h (.admitted u d room) (.accept u) false .ended
  | created {u d : String} {room : Room} {conn : Conn} :
      Moves h (.accepted u d room) (.newConn u d) conn (.created conn room)
  | registered {conn : Conn} {room : Room} {r : Ret (.register conn)} :
      Moves h (.created conn room) (.register conn) r (.serving conn)
  | served {conn : Conn} {op : Op} {r : Ret op} : serves conn op →
      (∀ c reason, op ≠ .unregister c reason) → Moves h (.serving conn) op r (.serving conn)
  | closed {conn : Conn} {r : Ret (.unregister conn .disconnected)} :
      Moves h (.serving conn) (.unregister conn .disconnected) r .ended
  | sent {op : Op} {r : Ret op} : op.Plain → Moves h .sending op r .sending

theorem moves_checked {h : Handler} {φ : Phase} {u d policy : String} {op : Op} {r : Ret op}
    (at_ : φ.AtCheck h u d policy) (check : checks u d op) :
    Moves h φ op r (.checked h u d policy op r) := by
  rcases check with ⟨rfl, named⟩ | rfl
  · change Bool at r
    cases r with
    | true => exact .connected at_ named
    | false => exact .unconnected at_
  · change Nat at r
    change Moves h φ (.getActiveDeviceCount u) r (if h.maxDevicesPerUser ≤ r then _ else _)
    split
    · split
      · exact .full at_ ‹_›
      · exact .rejected at_
    · exact .free at_ (by omega)

/-- A connection is created by `newConn` only. -/
theorem Moves.of_created {h : Handler} {c : Conn} {φ : Phase} {op : Op} {r : Ret op} {room : Room}
    (moves : Moves h φ op r (.created c room)) :
    ∃ u d, (⟨op, r⟩ : (op : Op) × Ret op) = ⟨.newConn u d, c⟩ := by
  cases moves
  exact ⟨_, _, rfl⟩

/-- A connection is registered by the thread that created it. -/
theorem Moves.of_register {h : Handler} {c : Conn} {φ φ' : Phase} {r : Ret (.register c)}
    (moves : Moves h φ (.register c) r φ') : (∃ room, φ = .created c room) ∧ φ' = .serving c := by
  cases moves with
  | registered => exact ⟨⟨_, rfl⟩, rfl⟩
  | waiting plain => cases plain.quiet
  | sent plain => cases plain.quiet
  | served serves _ => cases serves

theorem Phase.moves {h : Handler} {φ : Phase} {op : Op} (allowed : φ.allows h op) (r : Ret op) :
    Moves h φ op r (φ.next h op r) := by
  cases φ with
  | fresh req =>
    cases op with
    | allow ip => exact .waiting ⟨rfl, nofun, nofun⟩
    | isOverloaded => exact .waiting ⟨rfl, nofun, nofun⟩
    | onlineCount =>
      obtain ⟨unsimulated, -⟩ := allowed
      change Nat at r
      change Moves h _ .onlineCount r (if effectiveMaxConns h req ≤ r then _ else .passed h req)
      split
      · exact .refused
      · unfold Phase.passed
        split
        · exact .refused
        · split
          · exact .refused
          · exact .passed unsimulated (by omega)
    | _ =>
      obtain ⟨untested, claims, hclaims, check⟩ := allowed
      rw [Option.mem_def] at hclaims
      have moved := moves_checked (h := h) (r := r)
        (.inr ⟨req, claims, rfl, untested, hclaims, rfl, rfl, rfl⟩) check
      simpa only [Phase.next, hclaims] using moved
  | tested u d policy => exact moves_checked (.inl rfl) allowed
  | atCap u d =>
    cases allowed
    change Option String at r
    match r with
    | none => exact .noOldest (.inl rfl)
    | some dev =>
      by_cases empty : dev = ""
      · subst empty
        exact .noOldest (.inr rfl)
      · have moved : Phase.next h (.atCap u d) (.getOldestDeviceID u) (some dev) =
            .choosing u d dev := if_pos empty
        rw [moved]
        exact .oldest empty
  | choosing u d dev =>
    cases allowed
    change List Conn at r
    match r with
    | [] => exact .evictNone
    | conn :: rest => exact .evict
  | noticing u d dev conn rest =>
    obtain ⟨payload, rfl⟩ := allowed
    exact .noticed
  | evicting u d dev conn rest =>
    cases allowed
    match rest with
    | [] => exact .evictedLast
    | conn' :: rest => exact .evictedOne
  | superseding u d =>
    cases allowed
    change List Conn at r
    match r with
    | [] => exact .replaceNone
    | conn :: rest => exact .replace
  | replacing u d conn rest =>
    cases allowed
    match rest with
    | [] => exact .replacedLast
    | conn' :: rest => exact .replacedOne
  | admitted u d room =>
    cases allowed
    change Bool at r
    cases r with
    | true => exact .accepted
    | false => exact .failed
  | accepted u d room =>
    cases allowed
    exact .created
  | created conn room =>
    cases allowed
    exact .registered
  | serving conn =>
    cases op with
    | unregister conn' reason =>
      obtain ⟨rfl, rfl⟩ := allowed
      exact .closed
    | _ => exact .served allowed nofun
  | sending =>
    rcases allowed with ⟨u, d, p, rfl⟩ | ⟨u, p, rfl⟩ | ⟨p, rfl⟩ <;> exact .sent ⟨rfl, nofun, nofun⟩
  | ended => cases allowed

/-- A thread that has ended is in a phase in which that is possible. -/
def rested (_ : Tag) (_ : Unit) (φ : Phase) : Prop := φ.rests = true

/-! ## Programs follow the phases -/

section Programs
variable {S : Gateway.Platform} {r : Gateway.Router} {h : Handler} {t : Tag} {conn : Conn}
  {u d dev policy : String} {next : Proc Unit} {room : Room}

/-- The operations of a read pump that goes on. -/
def pumps (conn : Conn) (op : Op) : Prop := serves conn op ∧ ∀ c reason, op ≠ .unregister c reason

theorem next_serving {op : Op} (hop : pumps conn op) (a : Ret op) :
    Phase.next h (.serving conn) op a = .serving conn := by
  cases op <;> first | rfl | exact absurd rfl (hop.2 _ _)

theorem follows_pumps {α β : Type} {Q : α → Phase → Prop} {p : Proc β} {f : β → Proc α}
    (hp : p.All (pumps conn))
    (hf : ∀ b, Follows (handshakes h) t Q (f b) (Phase.serving conn)) :
    Follows (handshakes h) t Q (p.bind f) (Phase.serving conn) :=
  .of_all hp (fun _ hop => ⟨hop.1, next_serving hop⟩) hf

theorem broadcastEach_all (uids : List String) (payload : Payload) :
    (broadcastEach uids payload).All (pumps conn) := by
  induction uids with
  | nil => trivial
  | cons uid rest ih => exact ⟨⟨trivial, nofun⟩, fun _ => ih⟩

theorem hubOp_all (op : Gateway.Op) : (hubOp conn op).All (pumps conn) := by
  cases op with
  | connSend frame => exact ⟨⟨rfl, nofun⟩, fun _ => trivial⟩
  | broadcastAll x frame => exact ⟨⟨trivial, nofun⟩, fun uids => broadcastEach_all uids _⟩
  | _ => exact ⟨⟨trivial, nofun⟩, fun _ => trivial⟩

theorem handleMessage_all (format : WireFormat) (data : List UInt8) :
    (handleMessage S r conn format data).All (pumps conn) := by
  have routed : (route S r conn format data).All (pumps conn) :=
    ((Prog.all_true _).implement fun op _ => hubOp_all op).bind fun _ => trivial
  unfold handleMessage
  split
  · exact ⟨⟨rfl, nofun⟩, fun _ => routed.bind fun _ => trivial⟩
  · exact routed.bind fun _ => trivial

theorem readPump_follows (format : WireFormat) (messages : List Inbound) :
    Follows (handshakes h) t (rested t) (readPump S r conn format messages) (.serving conn) := by
  have closed : Follows (handshakes h) t (rested t) (closePump conn) (.serving conn) :=
    ⟨⟨rfl, rfl⟩, fun _ => rfl⟩
  induction messages generalizing format with
  | nil => exact closed
  | cons message rest ih =>
    refine ⟨rfl, fun ok => ?_⟩
    change Follows (handshakes h) t _ (if ok then _ else _) (Phase.serving conn)
    cases ok with
    | false => exact closed
    | true =>
      cases message with
      | unsupported => exact ih format
      | data bytes =>
        refine ⟨trivial, fun allowed => ?_⟩
        change Follows (handshakes h) t _ (if allowed then _ else _) (Phase.serving conn)
        cases allowed with
        | false => exact ⟨rfl, fun _ => ih format⟩
        | true => exact follows_pumps (handleMessage_all _ _) fun format => ih format

theorem connect_follows (messages : List Inbound) :
    Follows (handshakes h) t (rested t) (connect S r u d messages) (.admitted u d room) := by
  refine ⟨rfl, fun ok => ?_⟩
  cases ok with
  | false => exact rfl
  | true => exact ⟨rfl, fun conn => ⟨rfl, fun _ => readPump_follows .json messages⟩⟩

theorem unregisterEach_follows (toEvict : List Conn)
    (hn : Follows (handshakes h) t (rested t) next (.admitted u d .replaces)) :
    Follows (handshakes h) t (rested t) (unregisterEach .superseded toEvict next)
      (.ofSuperseded u d toEvict) := by
  induction toEvict with
  | nil => exact hn
  | cons conn rest ih => exact ⟨rfl, fun _ => ih⟩

theorem noticeEach_follows (notice : Payload) (toEvict : List Conn)
    (hn : Follows (handshakes h) t (rested t) next (.admitted u d (.evicted dev))) :
    Follows (handshakes h) t (rested t) (noticeEach notice toEvict next)
      (.ofEvicted u d dev toEvict) := by
  induction toEvict with
  | nil => exact hn
  | cons conn rest ih => exact ⟨⟨notice, rfl⟩, fun _ => ⟨rfl, fun _ => ih⟩⟩

theorem evictOldest_follows
    (hn : ∀ room, Follows (handshakes h) t (rested t) next (.admitted u d room)) :
    Follows (handshakes h) t (rested t) (evictOldest u next) (.atCap u d) := by
  refine ⟨rfl, fun oldest => ?_⟩
  change Option String at oldest
  cases oldest with
  | none => exact hn _
  | some dev =>
    change Follows _ _ _ (if dev ≠ "" then _ else _) (if dev ≠ "" then _ else _)
    by_cases empty : dev = ""
    · simp only [empty, ne_eq, not_true_eq_false, if_false]
      exact hn _
    · simp only [empty, ne_eq, not_false_eq_true, if_true, evictDeviceWithNotice, if_false]
      exact ⟨rfl, fun toEvict => noticeEach_follows _ toEvict (hn _)⟩

/-- The phase allows the device check and follows its answers. -/
def Phase.Checking (h : Handler) (u d policy : String) (φ : Phase) : Prop :=
  ∀ op, checks u d op → φ.allows h op ∧ ∀ a, φ.next h op a = .checked h u d policy op a

theorem Phase.AtCheck.checking {φ : Phase} (at_ : φ.AtCheck h u d policy) :
    φ.Checking h u d policy := by
  intro op hop
  rcases at_ with rfl | ⟨req, claims, rfl, untested, hclaims, rfl, rfl, rfl⟩
  · exact ⟨hop, fun _ => rfl⟩
  · have check := hop
    rcases hop with ⟨rfl, -⟩ | rfl <;>
      exact ⟨⟨untested, claims, hclaims, check⟩, fun _ => by simp [Phase.next, hclaims]⟩

theorem deviceCap_follows {φ : Phase} (hφ : φ.Checking h u d policy)
    (hn : ∀ room, Follows (handshakes h) t (rested t) next (.admitted u d room)) :
    Follows (handshakes h) t (rested t) (deviceCap h policy u next) φ := by
  obtain ⟨allowed, moved⟩ := hφ (.getActiveDeviceCount u) (.inr rfl)
  refine ⟨allowed, fun n => ?_⟩
  change Nat at n
  change Follows (handshakes h) t _ _ (Phase.next h φ (.getActiveDeviceCount u) n)
  rw [moved]
  change Follows _ _ _ (if h.maxDevicesPerUser ≤ n then _ else _)
    (if h.maxDevicesPerUser ≤ n then _ else _)
  split
  · split
    · exact evictOldest_follows hn
    · exact rfl
  · exact hn _

theorem admit_follows {φ : Phase} (hφ : φ.Checking h u d policy)
    (hn : ∀ room, Follows (handshakes h) t (rested t) next (.admitted u d room)) :
    Follows (handshakes h) t (rested t) (admitDevice h policy u d next) φ := by
  unfold admitDevice
  split
  · rename_i named
    obtain ⟨allowed, moved⟩ := hφ (.hasDevice u d) (.inl ⟨rfl, named⟩)
    refine ⟨allowed, fun found => ?_⟩
    change Bool at found
    change Follows (handshakes h) t _ _ (Phase.next h φ (.hasDevice u d) found)
    rw [moved]
    cases found with
    | true => exact ⟨rfl, fun toEvict => unregisterEach_follows toEvict (hn _)⟩
    | false => exact deviceCap_follows (Phase.AtCheck.checking (.inl rfl)) hn
  · exact deviceCap_follows hφ hn

/-- Past the ceiling: the token, the device cap and the connection. -/
theorem authenticate_follows {req : Request} {messages : List Inbound} {φ : Phase}
    (hφ : ∀ claims, req.claims = some claims → claims.sub ≠ "" →
      φ.Checking h claims.sub claims.deviceID (Ws.policy h req))
    (rests : req.claims = none ∨ (∃ claims, req.claims = some claims ∧ claims.sub = "") →
      φ.rests = true) :
    Follows (handshakes h) t (rested t) (authenticate req fun claims =>
      admitDevice h (Ws.policy h req) claims.sub claims.deviceID <|
        connect S r claims.sub claims.deviceID messages) φ := by
  unfold authenticate
  split
  · exact rests (.inl ‹_›)
  · split
    · exact rests (.inr ⟨_, ‹_›, ‹_›⟩)
    · exact admit_follows (hφ _ ‹_› ‹_›) fun room => connect_follows messages

theorem passed_checking {req : Request} (claims : JwtClaims) (hclaims : req.claims = some claims)
    (named : claims.sub ≠ "") :
    (Phase.passed h req).Checking h claims.sub claims.deviceID (Ws.policy h req) := by
  simp only [Phase.passed, hclaims, if_neg named]
  exact Phase.AtCheck.checking (.inl rfl)

theorem ceiling_follows {req : Request} {messages : List Inbound} :
    Follows (handshakes h) t (rested t) (ceiling h req <| authenticate req fun claims =>
      admitDevice h (Ws.policy h req) claims.sub claims.deviceID <|
        connect S r claims.sub claims.deviceID messages) (.fresh req) := by
  unfold ceiling
  split
  · exact rfl
  · rename_i open_
    split
    · rename_i tested
      refine ⟨⟨by simpa using open_, tested⟩, fun n => ?_⟩
      change Nat at n
      change Follows _ _ _ (if effectiveMaxConns h req ≤ n then _ else _)
        (if effectiveMaxConns h req ≤ n then _ else _)
      split
      · exact rfl
      · refine authenticate_follows passed_checking ?_
        rintro (none | ⟨claims, some, empty⟩)
        · simp [Phase.passed, none, Phase.rests]
        · simp [Phase.passed, some, empty, Phase.rests]
    · rename_i untested
      exact authenticate_follows (fun claims hclaims _ => Phase.AtCheck.checking
        (.inr ⟨req, claims, rfl, by omega, hclaims, rfl, rfl, rfl⟩)) fun _ => rfl

theorem serveHTTP_follows (req : Request) (messages : List Inbound) :
    Follows (handshakes h) t (rested t) (serveHTTP S r h req messages) (.fresh req) := by
  have shed_follows : Follows (handshakes h) t (rested t) (shed h <| ceiling h req <|
      authenticate req fun claims => admitDevice h (Ws.policy h req) claims.sub claims.deviceID <|
        connect S r claims.sub claims.deviceID messages) (.fresh req) := by
    unfold shed
    split
    · refine ⟨trivial, fun overloaded => ?_⟩
      cases overloaded with
      | true => exact rfl
      | false => exact ceiling_follows
    · exact ceiling_follows
  unfold serveHTTP preAuth
  split
  · exact shed_follows
  · refine ⟨trivial, fun ok => ?_⟩
    cases ok with
    | true => exact shed_follows
    | false => exact rfl

theorem pod_follows (t : Tag) :
    Follows (handshakes h) t (rested t) ((pod S r h).body t) ((handshakes h).start t) := by
  match t with
  | .handshake req messages => exact serveHTTP_follows req messages
  | .sendToDevice u d p => exact ⟨.inl ⟨u, d, p, rfl⟩, fun _ => rfl⟩
  | .deliverLocal u p => exact ⟨.inr (.inl ⟨u, p, rfl⟩), fun _ => rfl⟩
  | .drain none => exact rfl
  | .drain (some p) => exact ⟨.inr (.inr ⟨p, rfl⟩), fun _ => rfl⟩

/-- A thread that does not rest goes on with an operation that its phase allows. -/
theorem next_of_phase {p : Pool (pod S r h)} {phases : List (Tag × Phase)}
    (phased : Pool.Phased (handshakes h) rested p phases) {i : Nat} {φ : Phase}
    (now : phases[i]? = some (t, φ)) (active : φ.rests = false) :
    ∃ op, p.next i = some (t, op) ∧ φ.allows h op := by
  obtain ⟨program, thread, follows⟩ := phased.thread now
  cases program with
  | pure _ =>
    change φ.rests = true at follows
    rw [active] at follows
    cases follows
  | call op k => exact ⟨op, Pool.next_call thread, follows.1⟩

end Programs
end GenChat.Ws
