import GenChat.Group.Manager
import Mathlib.Data.UInt

/-!
# Welcomes and those who join

`createGroup` puts the secret into a Welcome in three ways and `addMember` in a fourth; `joinGroup`
knows two. It never refuses a Welcome, so what it cannot unwrap it takes for the secret. The
result is the producer's state exactly where the secret came in plain and does not open by chance,
or where the private key of the browser agrees on the wrapping key.
-/
namespace GenChat.Group
open Library BrowserText
open Ledger (Table)
open Call (Member MlsLocalGroupState)

/-- The calls that produce Welcomes. -/
inductive Invitation (Private : Type) where
  | createGroup (creatorUserId : String) (invited : List (String × Option MlsKeyPackageData))
      (epochSecret : Vector UInt8 32) (random : String → WelcomeRandom Private)
      (rawChannelId : String)
  | addMember (state : MlsLocalGroupState) (channelId newUserId committerUserId : String)
      (keyPkg : Option MlsKeyPackageData)

section
variable {Private Public : Type} (W : WebCrypto Private Public)

/-- The state of the producer, and the Welcomes by user id. -/
def Invitation.produce : Invitation Private →
    Option (MlsLocalGroupState × List (String × MlsWelcomeEnvelope))
  | .createGroup creatorUserId invited epochSecret random rawChannelId =>
    Group.createGroup W creatorUserId invited epochSecret random (some rawChannelId)
  | .addMember state channelId newUserId committerUserId keyPkg =>
    (Group.addMember W state channelId newUserId committerUserId keyPkg).map fun (next, welcome) =>
      (next, [(newUserId, welcome)])

/-- The leaf is that of the user, who has no other. -/
def OwnLeaf (members : List Member) (userId : String) (leaf : Nat) : Prop :=
  (∃ m ∈ members, m.userId = userId) ∧ ∀ m ∈ members, m.userId = userId → m.leafIndex = leaf

/-- The outcome of `joinGroup`: the producer's state with the user's own leaf, or nothing at all. -/
def Admitted (before : Client) (producer : MlsLocalGroupState) (userId : String) :
    Option MlsLocalGroupState × Client → Prop
  | (some state, _) => state.epochSecretHex = producer.epochSecretHex ∧
      state.epoch = producer.epoch ∧ state.members = producer.members ∧
      OwnLeaf producer.members userId state.myLeafIndex
  | (none, after) => after = before

/-- A Welcome of `createGroup` fits the private key: the ECDH secrets are the same, or there is no
recipient key and the secret, in plain, does not open under the private key. A wrapping key that
comes from the package alone never fits. -/
def Fits (privHex : String) (pkg : MlsKeyPackageData) (random : WelcomeRandom Private)
    (epochSecret : Vector UInt8 32) : Prop :=
  pkg.claimsKey = true ∧
    match pkg.recipientPubKey W with
    | some recipientPubKey => ∃ privKey, importPrivate W privHex = some privKey ∧
        W.deriveBits privKey (W.publicKey random.encapKeyPair) =
          W.deriveBits random.encapKeyPair recipientPubKey
    | none => ∀ privKey, importPrivate W privHex = some privKey →
        W.decrypt (W.deriveBits privKey (W.publicKey random.encapKeyPair)) random.welcomeIv.toList
          epochSecret.toList = none

/-- The Welcome for the user, if there is one, fits the private key. -/
def Invitation.Opens (privHex userId : String) : Invitation Private → Prop
  | .createGroup creatorUserId invited epochSecret random _ =>
    ∀ pkg ∈ (memberPackages creatorUserId invited).lookup userId,
      Fits W privHex pkg (random userId) epochSecret
  | .addMember .. => True

/-- No key but the one it was encrypted under gives back a secret. -/
def WebCrypto.Committing : Prop :=
  ∀ key key' iv, ∀ secret : Vector UInt8 32,
    W.decrypt key' iv (W.encrypt key iv secret.toList) = some secret.toList → key' = key

end

/-! ## Maps in order -/

section
variable {α β : Type} {key uid : String} {value : α}

theorem setEntry_keys (key : String) (value : α) (entries : List (String × α)) :
    (setEntry key value entries).map Prod.fst =
      if key ∈ entries.map Prod.fst then entries.map Prod.fst
      else entries.map Prod.fst ++ [key] := by
  induction entries with
  | nil => rfl
  | cons entry rest ih =>
    unfold setEntry
    by_cases same : entry.1 = key
    · simp [same]
    · have other : ¬ key = entry.1 := fun h => same h.symm
      rw [if_neg same, List.map_cons, ih]
      simp only [List.map_cons, List.mem_cons, other, false_or]
      split <;> simp

theorem nodup_setEntry {entries : List (String × α)} (h : (entries.map Prod.fst).Nodup) :
    ((setEntry key value entries).map Prod.fst).Nodup := by
  rw [setEntry_keys]
  split
  · exact h
  · rename_i new
    exact List.nodup_append.mpr ⟨h, List.nodup_singleton _, fun x hx y hy => by
      rw [List.mem_singleton.mp hy]
      exact fun same => new (same ▸ hx)⟩

theorem mem_keys_setEntry {entries : List (String × α)} :
    uid ∈ (setEntry key value entries).map Prod.fst ↔ uid = key ∨ uid ∈ entries.map Prod.fst := by
  rw [setEntry_keys]
  split
  · rename_i known
    exact ⟨.inr, fun h => h.elim (fun same => same ▸ known) id⟩
  · simp [or_comm]

theorem lookup_map (f : String → α → β) (entries : List (String × α)) :
    (entries.map fun (uid, a) => (uid, f uid a)).lookup key = (entries.lookup key).map (f key) := by
  induction entries with
  | nil => rfl
  | cons entry rest ih =>
    obtain ⟨uid, a⟩ := entry
    simp only [List.map_cons, List.lookup_cons, ih]
    by_cases same : key = uid
    · subst same
      simp
    · have other : (key == uid) = false := beq_eq_false_iff_ne.mpr same
      simp only [other]

theorem mem_of_lookup {entries : List (String × α)} (h : entries.lookup key = some value) :
    key ∈ entries.map Prod.fst := by
  induction entries with
  | nil => cases h
  | cons entry rest ih =>
    rw [List.lookup_cons] at h
    by_cases same : key = entry.1
    · simp [same]
    · simp only [beq_eq_false_iff_ne.mpr same] at h
      exact List.mem_cons_of_mem _ (ih h)

end

/-! ## Leaves -/

/-- Nobody has two packages, and the creator has none. -/
theorem memberPackages_keys (creator : String)
    (invited : List (String × Option MlsKeyPackageData)) :
    (creator :: (memberPackages creator invited).map Prod.fst).Nodup := by
  unfold memberPackages
  generalize start : ([] : List (String × MlsKeyPackageData)) = packages
  have before : (creator :: packages.map Prod.fst).Nodup := by simp [← start]
  clear start
  induction invited generalizing packages with
  | nil => exact before
  | cons invitation invited ih =>
    refine ih _ ?_
    obtain ⟨uid, pkg⟩ := invitation
    dsimp only
    split
    · exact before
    · rename_i other
      cases pkg with
      | none => exact before
      | some pkg =>
        obtain ⟨fresh, nodup⟩ := List.nodup_cons.mp before
        refine List.nodup_cons.mpr ⟨fun mem => ?_, nodup_setEntry nodup⟩
        exact (mem_keys_setEntry.mp mem).elim (fun same => other same.symm) fresh

theorem treeMembers_users (creator : String) (packages : List (String × MlsKeyPackageData)) :
    (treeMembers creator packages).map Member.userId = creator :: packages.map Prod.fst := by
  refine List.ext_getElem (by simp [treeMembers]) fun i _ _ => ?_
  cases i <;> simp [treeMembers]

theorem ownLeaf_find {members : List Member} {userId : String}
    (one : (members.filter (·.userId = userId)).length = 1) :
    OwnLeaf members userId
      (((members.find? (·.userId = userId)).map Member.leafIndex).getD 1) := by
  obtain ⟨m, only⟩ := List.length_eq_one_iff.mp one
  have mem (x : Member) : x ∈ members ∧ x.userId = userId ↔ x = m := by
    have filtered : x ∈ members.filter (·.userId = userId) ↔ x ∈ [m] := by rw [only]
    simpa using filtered
  obtain ⟨inside, user⟩ := (mem m).mpr rfl
  refine ⟨⟨m, inside, user⟩, fun x hx same => ?_⟩
  rw [← List.head?_filter, only, (mem x).mp ⟨hx, same⟩]
  rfl

/-! ## Wrapped secrets -/

variable {Private Public : Type} {W : WebCrypto Private Public} {privHex uid : String}
  {pkg : MlsKeyPackageData} {random : WelcomeRandom Private} {secret : Vector UInt8 32}

theorem unwrapSecret_plain {welcome : MlsWelcomeEnvelope}
    (plain : welcome.ephemeralPublicKeyHex = "") :
    unwrapSecret W privHex welcome = welcome.encryptedEpochSecret := by
  simp [unwrapSecret, plain]

/-- With an ephemeral key, the private key decides. -/
theorem unwrapSecret_ephemeral (correct : W.Correct) {welcome : MlsWelcomeEnvelope} {k : Private}
    (key : welcome.ephemeralPublicKeyHex = Hex.encode (W.exportRaw (W.publicKey k)).toList) :
    unwrapSecret W privHex welcome =
      ((importPrivate W privHex).bind fun privKey =>
        W.decrypt (W.deriveBits privKey (W.publicKey k)) welcome.iv
          welcome.encryptedEpochSecret).getD welcome.encryptedEpochSecret := by
  have bytes : (W.exportRaw (W.publicKey k)).toList ≠ [] := by
    intro empty
    have := congrArg List.length empty
    simp at this
  have found := hexBytes_encode bytes
  have present : welcome.ephemeralPublicKeyHex ≠ "" := by
    intro empty
    rw [← key, empty] at found
    cases found
  unfold unwrapSecret
  by_cases absent : privHex = ""
  · have nothing : importPrivate W "" = none := rfl
    simp [absent, nothing]
  · rw [if_pos ⟨present, absent⟩, key, found]
    simp [correct.raw]

theorem secret_ne_of_length {bytes : List UInt8} (h : bytes.length ≠ 32) :
    bytes ≠ secret.toList := fun same => h (by simp [same])

/-- The browser takes the secret out of a Welcome of `createGroup` exactly if it fits. -/
theorem unwrap_iff (correct : W.Correct) (committing : W.Committing) (creator : String)
    (tree : List Member) (draws : String → WelcomeRandom Private) :
    unwrapSecret W privHex (createdWelcome W creator tree draws secret uid pkg) = secret.toList ↔
      Fits W privHex pkg (draws uid) secret := by
  unfold Fits
  by_cases claims : pkg.claimsKey = true
  · have key : (createdWelcome W creator tree draws secret uid pkg).ephemeralPublicKeyHex =
        Hex.encode (W.exportRaw (W.publicKey (draws uid).encapKeyPair)).toList := by
      simp only [createdWelcome, wrapSecret, claims, if_true]
      split <;> rfl
    rw [unwrapSecret_ephemeral correct key]
    simp only [createdWelcome, wrapSecret, claims, if_true, true_and]
    cases recipient : pkg.recipientPubKey W with
    | none =>
      cases stored : importPrivate W privHex with
      | none => simp
      | some privKey =>
        -- The secret came in plain, and is taken unless it happens to open.
        simp only [Option.bind_some, Option.some.injEq, forall_eq']
        cases opened : W.decrypt (W.deriveBits privKey (W.publicKey (draws uid).encapKeyPair))
            (draws uid).welcomeIv.toList secret.toList with
        | none => simp
        | some msg =>
          have size : 32 = msg.length + 16 := by simpa using correct.opened _ _ _ _ opened
          refine iff_of_false (secret_ne_of_length ?_) (by simp)
          rw [Option.getD_some]
          omega
    | some recipientPubKey =>
      have boxed := correct.sealed (W.deriveBits (draws uid).encapKeyPair recipientPubKey)
        (draws uid).welcomeIv.toList secret.toList
      cases stored : importPrivate W privHex with
      | none =>
        refine iff_of_false (secret_ne_of_length ?_) (by simp)
        simp [boxed]
      | some privKey =>
        simp only [Option.bind_some, Option.some.injEq, exists_eq_left']
        constructor
        · intro same
          cases opened : W.decrypt (W.deriveBits privKey (W.publicKey (draws uid).encapKeyPair))
              (draws uid).welcomeIv.toList
              (W.encrypt (W.deriveBits (draws uid).encapKeyPair recipientPubKey)
                (draws uid).welcomeIv.toList secret.toList) with
          | none =>
            rw [opened, Option.getD_none] at same
            exact absurd same (secret_ne_of_length (by simp [boxed]))
          | some msg =>
            rw [opened, Option.getD_some] at same
            exact committing _ _ _ _ (same ▸ opened)
        · intro agreed
          rw [agreed, correct.decrypts, Option.getD_some]
  · have derived : unwrapSecret W privHex (createdWelcome W creator tree draws secret uid pkg) ≠
        secret.toList := by
      rw [unwrapSecret_plain (by simp [createdWelcome, wrapSecret, claims])]
      refine secret_ne_of_length ?_
      simp [createdWelcome, wrapSecret, claims, correct.sealed]
    simp [claims, derived]

/-- Whoever has the private key of the package can open its Welcome. -/
theorem fits_own (correct : W.Correct) {privKey : Private}
    (own : pkg.publicKeyHex = Hex.encode (W.exportRaw (W.publicKey privKey)).toList)
    (stored : importPrivate W privHex = some privKey) (claims : pkg.claimsKey = true) :
    Fits W privHex pkg random secret := by
  have bytes : (W.exportRaw (W.publicKey privKey)).toList ≠ [] := by
    intro empty
    have := congrArg List.length empty
    simp at this
  have recipient : pkg.recipientPubKey W = some (W.publicKey privKey) := by
    rw [MlsKeyPackageData.recipientPubKey, own, hexBytes_encode bytes]
    exact correct.raw _
  refine ⟨claims, ?_⟩
  rw [recipient]
  exact ⟨privKey, stored, correct.agree _ _⟩

/-! ## Joining -/

theorem createGroup_cases (uid : String) {creator : String}
    {invited : List (String × Option MlsKeyPackageData)}
    {draws : String → WelcomeRandom Private} {response : Option String}
    {producer : MlsLocalGroupState} {welcomes : List (String × MlsWelcomeEnvelope)}
    (h : createGroup W creator invited secret draws response = some (producer, welcomes)) :
    let tree := treeMembers creator (memberPackages creator invited)
    producer.epoch = 0 ∧ producer.members = tree ∧
      producer.epochSecretHex = Hex.encode secret.toList ∧
      welcomes.lookup uid = ((memberPackages creator invited).lookup uid).map
        (createdWelcome W creator tree draws secret uid) := by
  simp only [createGroup, Option.ite_none_right_eq_some, Option.map_eq_some_iff] at h
  obtain ⟨-, rawChannelId, -, same⟩ := h
  obtain ⟨rfl, rfl⟩ := Prod.mk.inj same
  exact ⟨rfl, rfl, rfl, lookup_map _ _⟩

/-- A user with a package has one leaf in the tree. -/
theorem treeMembers_one {creator : String} {invited : List (String × Option MlsKeyPackageData)}
    (known : (memberPackages creator invited).lookup uid = some pkg) :
    ((treeMembers creator (memberPackages creator invited)).filter
      (·.userId = uid)).length = 1 := by
  have nodup := memberPackages_keys creator invited
  rw [← treeMembers_users] at nodup
  have mem : uid ∈ (treeMembers creator (memberPackages creator invited)).map Member.userId := by
    rw [treeMembers_users]
    exact List.mem_cons_of_mem _ (mem_of_lookup known)
  have once := List.count_eq_one_of_mem nodup mem
  rw [List.count_eq_countP, List.countP_map, List.countP_eq_length_filter] at once
  rw [← once]
  rfl

theorem addMember_cases {state next : MlsLocalGroupState} {channelId newUserId committer : String}
    {keyPkg : Option MlsKeyPackageData} {welcome : MlsWelcomeEnvelope}
    (h : addMember W state channelId newUserId committer keyPkg = some (next, welcome)) :
    welcome.epoch = next.epoch ∧ welcome.ratchetTree = next.members ∧
      welcome.ephemeralPublicKeyHex = "" ∧
      next.epochSecretHex = Hex.encode welcome.encryptedEpochSecret ∧
      (next.members.filter (·.userId = newUserId)).length = 1 := by
  simp only [addMember, Option.bind_eq_bind, Option.bind_eq_some_iff,
    Option.ite_none_right_eq_some, Option.some.injEq] at h
  obtain ⟨next', moved, secret, derived, -, same⟩ := h
  obtain ⟨rfl, rfl⟩ := Prod.mk.inj same
  obtain ⟨new, moved⟩ := Option.ite_none_left_eq_some.mp moved
  have advanced := Option.some.inj moved
  obtain ⟨prev, bytes, rfl⟩ := Option.map_eq_some_iff.mp derived
  refine ⟨rfl, rfl, rfl, ?_, ?_⟩
  · rw [← advanced]
    simp [MlsLocalGroupState.advanced, MlsLocalGroupState.nextSecret, WebCrypto.kdf, bytes]
  · have others : state.members.filter (·.userId = newUserId) = [] := by
      refine List.filter_eq_nil_iff.mpr fun m hm => ?_
      simpa using fun same => new (List.mem_map.mpr ⟨m, hm, same⟩)
    rw [← advanced]
    simp [MlsLocalGroupState.advanced, others]

/-- What comes of the Welcome for a user: the producer's state exactly if the browser takes the
secret out of it. -/
theorem admitted_iff {c : Client} {producer : MlsLocalGroupState} {welcome : MlsWelcomeEnvelope}
    {channelId : String} {persisted : Bool} {bytes : List UInt8}
    (epoch : welcome.epoch = producer.epoch) (members : welcome.ratchetTree = producer.members)
    (hex : producer.epochSecretHex = Hex.encode bytes)
    (one : (producer.members.filter (·.userId = uid)).length = 1) :
    Admitted c producer uid (c.joinGroup W channelId uid (some welcome) persisted) ↔
      unwrapSecret W (c.privHex uid) welcome = bytes := by
  simp only [Client.joinGroup, Admitted, epoch, members, hex, true_and]
  constructor
  · rintro ⟨same, -⟩
    exact Hex.encode_inj same
  · intro same
    exact ⟨by rw [same], ownLeaf_find one⟩

theorem Admitted.sameSecret {before : Client} {producer : MlsLocalGroupState}
    {result : Option MlsLocalGroupState × Client} (h : Admitted before producer uid result) :
    ∀ state ∈ result.1, state.epochSecretHex = producer.epochSecretHex := by
  obtain ⟨joined, after⟩ := result
  rintro state ⟨rfl⟩
  exact h.1

/-- Joining with the Welcome that was produced for a user gives the producer's state, or nothing
where there is none, exactly if the Welcome opens for the private key in the browser. -/
theorem joinGroup_admits_iff (correct : W.Correct) (committing : W.Committing)
    (invitation : Invitation Private) {producer : MlsLocalGroupState}
    {welcomes : List (String × MlsWelcomeEnvelope)}
    (produced : invitation.produce W = some (producer, welcomes))
    (c : Client) (channelId userId : String) (persisted : Bool) :
    Admitted c producer userId
        (c.joinGroup W channelId userId (welcomes.lookup userId) persisted) ↔
      invitation.Opens W (c.privHex userId) userId := by
  cases invitation with
  | createGroup creator invited secret draws rawChannelId =>
    obtain ⟨epoch, members, hex, found⟩ := createGroup_cases userId produced
    rw [found]
    cases known : (memberPackages creator invited).lookup userId with
    | none => simp [Invitation.Opens, known, Client.joinGroup, Admitted]
    | some pkg =>
      have one := treeMembers_one known
      rw [← members] at one
      simp only [Invitation.Opens, known, Option.mem_def, Option.some.injEq, forall_eq',
        Option.map_some]
      rw [admitted_iff (by rw [epoch]; rfl) (by rw [members]; rfl) hex one]
      exact unwrap_iff correct committing creator _ draws
  | addMember state channelId' newUserId committer keyPkg =>
    obtain ⟨⟨next, welcome⟩, added, same⟩ := Option.map_eq_some_iff.mp produced
    obtain ⟨rfl, rfl⟩ := Prod.mk.inj same
    obtain ⟨epoch, members, plain, hex, one⟩ := addMember_cases added
    simp only [Invitation.Opens, iff_true]
    by_cases invitee : userId = newUserId
    · subst invitee
      rw [List.lookup_cons_self, admitted_iff epoch members hex one]
      exact unwrapSecret_plain plain
    · have other : (userId == newUserId) = false := beq_eq_false_iff_ne.mpr invitee
      simp [List.lookup_cons, other, Client.joinGroup, Admitted]

/-! ## Bob joins over stand-in primitives -/

namespace Sample

/-- Bytes under a key, as far as the key goes. -/
def mask : List UInt8 → List UInt8 → List UInt8
  | [], msg => msg
  | _, [] => []
  | k :: key, b :: msg => (k ^^^ b) :: mask key msg

theorem mask_mask (key msg : List UInt8) : mask key (mask key msg) = msg := by
  induction key generalizing msg with
  | nil => rfl
  | cons k key ih => cases msg <;> simp [mask, ih, ← UInt8.xor_assoc]

theorem length_mask (key msg : List UInt8) : (mask key msg).length = msg.length := by
  induction key generalizing msg with
  | nil => rfl
  | cons k key ih => cases msg <;> simp [mask, ih]

theorem mask_inj {key key' msg : List UInt8} (size : key.length = msg.length)
    (size' : key'.length = msg.length) (h : mask key' (mask key msg) = msg) : key' = key := by
  induction msg generalizing key key' with
  | nil =>
    rw [List.length_eq_zero_iff.mp size, List.length_eq_zero_iff.mp size']
  | cons b msg ih =>
    obtain ⟨k, key, rfl⟩ := List.exists_cons_of_length_eq_add_one size
    obtain ⟨k', key', rfl⟩ := List.exists_cons_of_length_eq_add_one size'
    simp only [List.length_cons, Nat.add_right_cancel_iff] at size size'
    obtain ⟨first, rest⟩ := List.cons.inj h
    rw [ih size size' rest]
    rw [← UInt8.xor_assoc] at first
    have cancel := (UInt8.xor_left_inj b).mp (first.trans UInt8.zero_xor.symm)
    rw [UInt8.xor_eq_zero_iff.mp cancel]

/-- Keys of one byte that agree on their sum, and a tag of zeros. -/
def crypto : WebCrypto UInt8 UInt8 where
  publicKey k := k
  exportRaw k := Vector.replicate 65 k
  importRaw bytes :=
    if bytes = List.replicate 65 (bytes.headD 0) then some (bytes.headD 0) else none
  importPkcs8 bytes := bytes.head?
  deriveBits a b := Vector.replicate 32 (a + b)
  hkdf secret salt info := Vector.replicate 32 (secret.sum + salt.sum + info.sum)
  encrypt key _ msg := mask key.toList msg ++ List.replicate 16 0
  decrypt key _ ct :=
    if 16 ≤ ct.length ∧ ct.drop (ct.length - 16) = List.replicate 16 0 then
      some (mask key.toList (ct.take (ct.length - 16)))
    else none

theorem crypto_correct : crypto.Correct where
  raw k := by simp [crypto]
  agree a b := by simp [crypto, UInt8.add_comm]
  decrypts key iv msg := by simp [crypto, mask_mask]
  sealed key iv msg := by simp [crypto, length_mask]
  opened key iv ct msg h := by
    obtain ⟨⟨long, -⟩, rfl⟩ := by simpa [crypto] using h
    simp [length_mask]
    omega

theorem crypto_committing : crypto.Committing := by
  intro key key' iv secret h
  have opened : mask key'.toList (mask key.toList secret.toList) = secret.toList := by
    simpa [crypto] using h
  exact Vector.toList_inj.mp (mask_inj (by simp) (by simp) opened)

def sampleSecret : Vector UInt8 32 := Vector.replicate 32 66

/-- Alice creates a group with Bob, who has published the key of the byte 5. -/
def withBob : Invitation UInt8 :=
  .createGroup "alice" [("bob", some ⟨Hex.encode (List.replicate 65 5)⟩)] sampleSecret
    (fun _ => ⟨9, Vector.replicate 12 1⟩) "g"

def bobMember : Member := ⟨1, "bob", Hex.encode (List.replicate 65 5)⟩

/-- The state of Alice. -/
def aliceState : MlsLocalGroupState :=
  ⟨"chan_g", 0, 0, Hex.encode sampleSecret.toList, [⟨0, "alice", "creator_root_key"⟩, bobMember]⟩

/-- A browser with these texts in its session storage. -/
def browser (entries : List (String × String)) : Client :=
  ⟨entries.foldr (fun e t => t.insert e.1 e.2) ∅, ∅, ∅, ∅⟩

def withKey : Client := browser [("genchat_mls_hpke_bob", "05")]

def welcomesOf (invitation : Invitation UInt8) : List (String × MlsWelcomeEnvelope) :=
  ((invitation.produce crypto).map Prod.snd).getD []

set_option maxRecDepth 20000

theorem withBob_produced : withBob.produce crypto = some (aliceState, welcomesOf withBob) := by
  rfl

theorem joinGroup_admits_iff_sample :
    Admitted withKey aliceState "bob"
        (withKey.joinGroup crypto "chan_g" "bob" ((welcomesOf withBob).lookup "bob") true) ↔
      withBob.Opens crypto (withKey.privHex "bob") "bob" :=
  joinGroup_admits_iff crypto_correct crypto_committing withBob withBob_produced withKey "chan_g"
    "bob" true

/-- In a browser without the private key, the ciphertext becomes the secret of the group. -/
theorem ciphertext_installed : ∃ producer welcomes, crypto.Correct ∧ crypto.Committing ∧
    withBob.produce crypto = some (producer, welcomes) ∧
    ¬ Admitted (browser []) producer "bob"
      ((browser []).joinGroup crypto "chan_g" "bob" (welcomes.lookup "bob") true) := by
  refine ⟨aliceState, welcomesOf withBob, crypto_correct, crypto_committing, withBob_produced,
    mt Admitted.sameSecret ?_⟩
  decide

end Sample

end GenChat.Group
