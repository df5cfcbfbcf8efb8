import GenChat.Library.Concurrent
import GenChat.Pqxdh.Handshake
import GenChat.Ledger.Store

/-!
# The E2EE service of a browser client

`e2ee-ratchet.ts`. A call of the service is a program over operations on the fields of the class,
on `localStorage` and on the world outside; calls run as threads of a pool. The pool lets others in
between any two operations, the event loop only where a call awaits, so every run of a page is one
of the pool.

A text in hexadecimal or base64 is kept as what decoding makes of it. Left out are the map of the
peers' identity keys and the event `genchat:session_ready`, which no call reads.
-/
namespace GenChat.E2ee
open Library Pqxdh
open Ledger (Table)

/-! ## Names -/

def startsWith (s pre : String) : Bool := pre.toList.isPrefixOf s.toList

def dropDm (conversationId : String) : String :=
  if startsWith conversationId "dm:" then String.ofList (conversationId.toList.drop 3)
  else conversationId

/-- `a || b` on strings. -/
def orElse (a b : String) : String := if a = "" then b else a

def extractPeerId (conversationId currentUserId : String) : String :=
  let cleanId := dropDm conversationId
  if ':' ∈ cleanId.toList then
    let parts := ((cleanId.toList.splitOn ':').map String.ofList).filter fun p => p ≠ "" ∧ p ≠ "dm"
    match parts.find? (· ≠ currentUserId) with
    | some p => p
    | none => parts.head?.getD cleanId
  else cleanId

/-- The UTF-16 code units of a string, by which JavaScript compares. -/
def codeUnits (s : String) : List Nat :=
  s.toList.flatMap fun c => if c.toNat < 0x10000 then [c.toNat]
    else [0xD800 + (c.toNat - 0x10000) / 0x400, 0xDC00 + (c.toNat - 0x10000) % 0x400]

/-- `[a, b].sort().join(':')`. -/
def sortedPair (a b : String) : String :=
  if codeUnits b < codeUnits a then b ++ ":" ++ a else a ++ ":" ++ b

def getCanonicalContextId (conversationId currentUserId explicitPeerId : String) : String :=
  if startsWith conversationId "chan_" then conversationId
  else
    let peerId := orElse explicitPeerId (extractPeerId conversationId currentUserId)
    if peerId ≠ "" ∧ currentUserId ≠ "" ∧ peerId ≠ currentUserId then sortedPair currentUserId peerId
    else conversationId

def getSessionStorageKey (userId peerUserId : String) : String :=
  "genchat_pq_session_" ++ userId ++ "_" ++ peerUserId

def identityStorageKey (userId : String) : String := "genchat_pqxdh_identity_" ++ userId

/-! ## Data -/

/-- The primitives: PQXDH behind WebAssembly, HKDF and AES-256-GCM of the browser. -/
structure Suite where
  Block : Type
  Bytes : Type
  Key : Type
  /-- Ciphertexts with their tags. -/
  Sealed : Type
  pqxdh : Pqxdh.Primitives Block Bytes
  empty : Bytes
  /-- HKDF over a shared secret, with the context in its info. -/
  deriveKey : Block → String → Key
  /-- HKDF over a text, under an info. -/
  deriveFallbackKey : String → String → Key
  /-- AES-256-GCM under a key and an IV, on encoded texts. -/
  aesEncrypt : Key → List UInt8 → String → Sealed
  aesDecrypt : Key → List UInt8 → Sealed → Option String
  /-- `getFingerprint`. -/
  fingerprint : String → String
  /-- The first 16 digits of a public key. -/
  keyPrefix : HexText Block → String

variable (C : Suite)

abbrev IdentityBundle := WasmIdentityBundle C.Block C.Bytes
abbrev PublicBundle := WasmPublicPreKeyBundle C.Block C.Bytes
abbrev InitMessage := WasmPqxdhInitMessage C.Block C.Bytes

inductive Protocol where
  | pq
  | fallback
  | other
  deriving DecidableEq

structure Envelope where
  protocol : Protocol
  conversationId : String
  sequenceNum : Nat
  senderId : String
  recipientId : String
  initMessage : Option (InitMessage C)
  /-- Nothing for an empty text. -/
  iv : Option (List UInt8)
  /-- Nothing for an empty text, and an error for a text that does not decode. -/
  ciphertext : Option (Except Unit C.Sealed)
  senderFingerprint : String
  insecureFallback : Bool

/-- A text on the wire: one that does not begin with a brace, one that is no JSON, an envelope. -/
inductive Wire where
  | plain (text : String)
  | broken
  | envelope (text : String) (e : Envelope C)

structure ActiveSession where
  key : C.Key
  sharedSecretHex : C.Block
  peerIdentityKeyHex : HexText C.Block
  pendingInitMessage : Option (InitMessage C)

structure PersistedSessionData where
  sharedSecretHex : C.Block
  peerIdentityKeyHex : HexText C.Block
  canonicalContextId : String
  pendingInitMessage : Option (InitMessage C)

structure DecryptResult where
  text : String
  isEncrypted : Bool
  isInsecureFallback : Bool
  warning : Option String
  fingerprint : Option String
  deriving DecidableEq

/-- What a handshake task resolves to. -/
abbrev Handshake := Option (ActiveSession C × InitMessage C)

/-- The static fields of the class, and `localStorage`. -/
structure Client where
  identityBundle : Option (IdentityBundle C)
  currentUserId : String
  currentDeviceId : String
  authToken : String
  sessionCache : Table String (ActiveSession C)
  pendingHandshakes : Table String Nat
  /-- The handshake tasks so far; nothing for one under way. -/
  handshakes : List (Option (Handshake C))
  sessions : Table String (PersistedSessionData C)
  identities : Table String (IdentityBundle C)

def Client.new : Client C := ⟨none, "", "", "", ∅, ∅, [], ∅, ∅⟩

/-! ## Operations -/

inductive Op where
  /-- A look at the fields. -/
  | client
  | setAuthToken (token : String)
  | setCurrentUserId (userId : String)
  | setCurrentDeviceId (deviceId : String)
  | setIdentityBundle (bundle : IdentityBundle C)
  | persistIdentity (storageKey : String) (bundle : IdentityBundle C)
  /-- `sessionCache.set` with what was read from `localStorage`. -/
  | restoreSession (storageKey peerUserId : String) (data : PersistedSessionData C)
      (session : ActiveSession C)
  | cacheSession (peerUserId : String) (session : ActiveSession C)
  | persistSession (storageKey : String) (data : PersistedSessionData C)
  | beginHandshake (peerUserId : String)
  | resolveHandshake (id : Nat) (result : Handshake C)
  | endHandshake (peerUserId : String)
  | awaitHandshake (id : Nat)
  | sleep (milliseconds : Nat)
  | getRandomValues
  | generatePqxdhKeys (count : Nat)
  | initiatePqxdhHandshake (identity : IdentityBundle C) (peerBundle : PublicBundle C)
  | receivePqxdhHandshake (identity : IdentityBundle C) (initMessage : InitMessage C)
  | deriveKey (secret : C.Block) (contextId : String)
  | deriveFallbackKey (ikm info : String)
  | encrypt (key : C.Key) (iv : List UInt8) (text : String)
  | decrypt (key : C.Key) (iv : List UInt8) (ciphertext : C.Sealed)
  | getFingerprint (userId : String)
  | publishPreKeyBundle (bundle : PublicBundle C) (deviceId token : String)
  | getKeyCount (deviceId token : String)
  | fetchPreKeyBundle (peerUserId token : String)

/-- Nothing stands for a rejected promise. -/
abbrev Ret : Op C → Type
  | .client => Client C
  | .setAuthToken _ | .setCurrentUserId _ | .setCurrentDeviceId _ | .setIdentityBundle _
  | .persistIdentity _ _ | .restoreSession _ _ _ _ | .cacheSession _ _ | .persistSession _ _
  | .resolveHandshake _ _ | .endHandshake _ | .sleep _ => Unit
  | .beginHandshake _ => Nat
  | .awaitHandshake _ => Handshake C
  | .getRandomValues => List UInt8
  | .generatePqxdhKeys _ => Option (IdentityBundle C × PublicBundle C)
  | .initiatePqxdhHandshake _ _ => Option (C.Block × InitMessage C)
  | .receivePqxdhHandshake _ _ => Option C.Block
  | .deriveKey _ _ | .deriveFallbackKey _ _ => C.Key
  | .encrypt _ _ _ => C.Sealed
  | .decrypt _ _ _ => Option String
  | .getFingerprint _ => String
  | .publishPreKeyBundle _ _ _ => Bool
  | .getKeyCount _ _ => Option Nat
  | .fetchPreKeyBundle _ _ => Option (PublicBundle C)

/-- What the world settles: whether something fails, random values, the answers of the server. -/
inductive Choice where
  | ok
  | fail
  | iv (bytes : List UInt8)
  | seeds (s : KeySeeds C.Block)
  | ephemeral (key random : C.Block)
  | count (n : Option Nat)
  | bundle (b : Option (PublicBundle C))

variable {C}

namespace Client

def resolveHandshake (s : Client C) (id : Nat) (result : Handshake C) : Client C :=
  { s with handshakes := s.handshakes.set id (some result) }

/-- What `initiate_pqxdh_handshake` returns to JavaScript. -/
def initiated (identity : IdentityBundle C) (peerBundle : PublicBundle C)
    (key random : C.Block) : Option (C.Block × InitMessage C) :=
  match initiatePqxdhHandshake C.pqxdh C.empty identity peerBundle ⟨key⟩ random with
  | .ok ⟨.ok secret, initMessage⟩ => some (secret, initMessage)
  | _ => none

def received (identity : IdentityBundle C) (initMessage : InitMessage C) : Option C.Block :=
  (receivePqxdhHandshake C.pqxdh identity initMessage).toOption

def exec (s : Client C) : (op : Op C) → Choice C → Option (Ret C op × Client C)
  | .client, .ok => some (s, s)
  | .setAuthToken token, .ok => some ((), { s with authToken := token })
  | .setCurrentUserId userId, .ok => some ((), { s with currentUserId := userId })
  | .setCurrentDeviceId deviceId, .ok => some ((), { s with currentDeviceId := deviceId })
  | .setIdentityBundle bundle, .ok => some ((), { s with identityBundle := some bundle })
  | .persistIdentity storageKey bundle, .ok =>
    some ((), { s with identities := s.identities.insert storageKey bundle })
  | .persistIdentity _ _, .fail => some ((), s)
  | .restoreSession _ peer _ session, .ok =>
    some ((), { s with sessionCache := s.sessionCache.insert peer session })
  | .cacheSession peer session, .ok =>
    some ((), { s with sessionCache := s.sessionCache.insert peer session })
  | .persistSession storageKey data, .ok =>
    some ((), { s with sessions := s.sessions.insert storageKey data })
  | .persistSession _ _, .fail => some ((), s)
  | .beginHandshake peer, .ok => some (s.handshakes.length, { s with
      handshakes := s.handshakes ++ [none]
      pendingHandshakes := s.pendingHandshakes.insert peer s.handshakes.length })
  | .resolveHandshake id result, .ok => some ((), s.resolveHandshake id result)
  | .endHandshake peer, .ok =>
    some ((), { s with pendingHandshakes := s.pendingHandshakes.erase peer })
  | .awaitHandshake id, .ok => match s.handshakes[id]? with
    | some (some result) => some (result, s)
    | _ => none
  | .sleep _, .ok => some ((), s)
  | .getRandomValues, .iv bytes => some (bytes, s)
  | .generatePqxdhKeys count, .seeds seeds =>
    if seeds.oneTimePreKeys.length = count then
      some (some (seeds.identityBundle C.pqxdh, seeds.publicBundle C.pqxdh), s)
    else none
  | .generatePqxdhKeys _, .fail => some (none, s)
  | .initiatePqxdhHandshake identity peerBundle, .ephemeral key random =>
    some (initiated identity peerBundle key random, s)
  | .initiatePqxdhHandshake _ _, .fail => some (none, s)
  | .receivePqxdhHandshake identity initMessage, .ok => some (received identity initMessage, s)
  | .receivePqxdhHandshake _ _, .fail => some (none, s)
  | .deriveKey secret contextId, .ok => some (C.deriveKey secret contextId, s)
  | .deriveFallbackKey ikm info, .ok => some (C.deriveFallbackKey ikm info, s)
  | .encrypt key iv text, .ok => some (C.aesEncrypt key iv text, s)
  | .decrypt key iv ciphertext, .ok => some (C.aesDecrypt key iv ciphertext, s)
  | .getFingerprint userId, .ok => some (C.fingerprint userId, s)
  | .publishPreKeyBundle _ _ _, .ok => some (true, s)
  | .publishPreKeyBundle _ _ _, .fail => some (false, s)
  | .getKeyCount _ _, .count n => some (n, s)
  | .fetchPreKeyBundle _ _, .bundle b => some (b, s)
  | _, _ => none

end Client

/-- The operations over a client. -/
abbrev system (C : Suite) : System (Op C) (Ret C) := ⟨Client C, Choice C, Client.exec⟩

abbrev Proc (C : Suite) := Prog (Op C) (Ret C)

@[simp] def issue (op : Op C) : Proc C (Ret C op) := Prog.perform op

/-! ## Identity keys -/

/-- New keys, in memory and in `localStorage`; nothing if they cannot be generated. -/
def newKeys (userId : String) : Proc C (Option (PublicBundle C)) := do
  match ← issue (.generatePqxdhKeys 30) with
  | none => pure none
  | some (identity, publicBundle) =>
    issue (.setIdentityBundle identity)
    issue (.persistIdentity (identityStorageKey userId) identity)
    pure (some publicBundle)

/-- `initUserKeys` with the device id that it finds to be effective; false if it is rejected. A key
count of 0 stands for an error status as well. -/
def initUserKeys (userId deviceId accessToken : String) : Proc C Bool := do
  if accessToken ≠ "" then issue (.setAuthToken accessToken)
  issue (.setCurrentUserId userId)
  issue (.setCurrentDeviceId deviceId)
  let client ← issue .client
  match client.identities.lookup (identityStorageKey userId) with
  | none =>
    match ← newKeys userId with
    | none => pure false
    | some publicBundle =>
      let client ← issue .client
      if client.authToken ≠ "" ∧ deviceId ≠ "" then
        let _ ← issue (.publishPreKeyBundle publicBundle deviceId client.authToken)
      pure true
  | some stored =>
    issue (.setIdentityBundle stored)
    if client.authToken ≠ "" ∧ deviceId ≠ "" then
      match ← issue (.getKeyCount deviceId client.authToken) with
      | some 0 =>
        match ← newKeys userId with
        | none => pure true
        | some publicBundle =>
          let client ← issue .client
          let _ ← issue (.publishPreKeyBundle publicBundle deviceId client.authToken)
          pure true
      | _ => pure true
    else pure true

/-! ## Sessions -/

/-- The context under which a persisted session derives its key again. -/
def PersistedSessionData.contextId (data : PersistedSessionData C)
    (conversationId userId peerUserId : String) : String :=
  if data.canonicalContextId ≠ "" ∧
      (':' ∈ data.canonicalContextId.toList ∨ startsWith data.canonicalContextId "chan_") then
    data.canonicalContextId
  else getCanonicalContextId conversationId userId peerUserId

def getOrRestoreSession (peerUserId userId conversationId : String) :
    Proc C (Option (ActiveSession C)) :=
  if peerUserId = "" then pure none
  else do
    let client ← issue .client
    match client.sessionCache.lookup peerUserId with
    | some session => pure (some session)
    | none =>
      let storageKey := getSessionStorageKey userId peerUserId
      match client.sessions.lookup storageKey with
      | none => pure none
      | some data =>
        let key ← issue (.deriveKey data.sharedSecretHex
          (data.contextId conversationId userId peerUserId))
        let session : ActiveSession C :=
          ⟨key, data.sharedSecretHex, data.peerIdentityKeyHex, data.pendingInitMessage⟩
        issue (.restoreSession storageKey peerUserId data session)
        pure (some session)

def ActiveSession.persisted (session : ActiveSession C) (contextId : String) :
    PersistedSessionData C :=
  ⟨session.sharedSecretHex, session.peerIdentityKeyHex, contextId, session.pendingInitMessage⟩

def saveSession (peerUserId userId conversationId : String) (session : ActiveSession C) :
    Proc C Unit := do
  issue (.cacheSession peerUserId session)
  issue (.persistSession (getSessionStorageKey userId peerUserId)
    (session.persisted (getCanonicalContextId conversationId userId peerUserId)))

/-- One attempt of a handshake task. -/
def attemptHandshake (peerUserId conversationId : String) : Proc C (Handshake C) := do
  let client ← issue .client
  if client.authToken = "" then pure none
  else
    match ← issue (.fetchPreKeyBundle peerUserId client.authToken) with
    | none => pure none
    | some peerBundle =>
      let client ← issue .client
      match client.identityBundle with
      | none => pure none
      | some identity =>
        match ← issue (.initiatePqxdhHandshake identity peerBundle) with
        | none => pure none
        | some (secret, initMessage) =>
          let client ← issue .client
          let key ← issue (.deriveKey secret
            (getCanonicalContextId conversationId client.currentUserId peerUserId))
          let session : ActiveSession C :=
            ⟨key, secret, peerBundle.identityKeyHex, some initMessage⟩
          let client ← issue .client
          saveSession peerUserId client.currentUserId conversationId session
          pure (some (session, initMessage))

/-- The loop of a handshake task, with the attempts that are left. -/
def handshakeTask (peerUserId conversationId : String) : (left attempt : Nat) → Proc C (Handshake C)
  | 0, _ => pure none
  | left + 1, attempt => do
    match ← attemptHandshake peerUserId conversationId with
    | some result => pure (some result)
    | none =>
      if left ≠ 0 then issue (.sleep (attempt * 300))
      handshakeTask peerUserId conversationId left (attempt + 1)

def establishSessionWithRetry (peerUserId conversationId : String) : Proc C (Handshake C) := do
  let client ← issue .client
  match client.identityBundle with
  | none => pure none
  | some _ =>
    match client.pendingHandshakes.lookup peerUserId with
    | some id => issue (.awaitHandshake id)
    | none =>
      let id ← issue (.beginHandshake peerUserId)
      let result ← handshakeTask peerUserId conversationId 3 1
      issue (.resolveHandshake id result)
      let result ← issue (.awaitHandshake id)
      issue (.endHandshake peerUserId)
      pure result

end GenChat.E2ee
