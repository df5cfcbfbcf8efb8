import GenChat.Crypto.Primitives
import GenChat.Library.Base64
import GenChat.Library.Machine
import GenChat.Offline.ChangedStore

/-!
# The encrypted cache

`LocalEncryptedCache` of `local-cache.ts` encrypts the text of a message before it is stored, and
writes it after the marker `ENC_GCM:`. An attempt that fails stores the text as it is, and so does
an edit. Where no attempt fails and no edit reaches a message, the store holds no text in the
clear, and what is read is what a store without encryption would hold.
-/
namespace GenChat.Offline
open Library

/-- What the browser gives: AES-GCM under a key and an initialisation vector, `atob`, and the
decoder of UTF-8, which drops a byte order mark at the beginning. -/
structure Browser (Key : Type) where
  aesGcmEncrypt : Key → List UInt8 → List UInt8 → List UInt8
  aesGcmDecrypt : Key → List UInt8 → List UInt8 → Option (List UInt8)
  atob : String → Option (List UInt8)
  textDecode : List UInt8 → String

def byteOrderMark : Char := Char.ofNat 0xFEFF

structure Browser.Correct {Key : Type} (P : Browser Key) : Prop where
  decrypt_encrypt (key : Key) (iv bytes : List UInt8) :
    P.aesGcmDecrypt key iv (P.aesGcmEncrypt key iv bytes) = some bytes
  atob_btoa (bytes : List UInt8) : P.atob (Base64.encodeToString bytes) = some bytes
  decode_encode (s : String) : s.toList.head? ≠ some byteOrderMark →
    P.textDecode (Crypto.utf8 s) = s

variable {Key : Type} (P : Browser Key)

/-! ## Encryption -/

def marker : String := "ENC_GCM:"

/-- The stored form of an encrypted text. -/
def marked (ciphertextB64 ivB64 : String) : String := marker ++ ivB64 ++ ":" ++ ciphertextB64

/-- How an encryption goes: the key that is made if there is none, and the fresh initialisation
vector; either may fail. -/
structure Attempt (Key : Type) where
  generated : Option Key
  iv : Option (List UInt8)

def encrypted (key : Key) (iv : List UInt8) (plaintext : String) : String :=
  marked (Base64.encodeToString (P.aesGcmEncrypt key iv (Crypto.utf8 plaintext)))
    (Base64.encodeToString iv)

/-- A text that cannot be decrypted is given back as it is. -/
def decryptText (key : Option Key) (ciphertextB64 ivB64 : String) : String :=
  (do
    let key ← key
    let cipherBytes ← P.atob ciphertextB64
    let iv ← P.atob ivB64
    let plainBuffer ← P.aesGcmDecrypt key iv cipherBytes
    some (P.textDecode plainBuffer)).getD ciphertextB64

/-- What `loadMessages` makes of a stored text. -/
def revealText (key : Option Key) (text : String) : String :=
  if marker.toList <+: text.toList then
    match (text.toList.splitOn ':').map String.ofList with
    | [_, ivB64, ciphertextB64] => decryptText P key ciphertextB64 ivB64
    | _ => text
  else text

def reveal (key : Option Key) (m : StoredMessage) : StoredMessage :=
  { m with text := m.text.map (revealText P key) }

/-! ## The cache -/

structure LocalEncryptedCache (Key : Type) where
  /-- In memory or in the key store. -/
  cryptoKey : Option Key
  localDb : LocalStorageDb

namespace LocalEncryptedCache
variable (s : LocalEncryptedCache Key)

/-- The key that an attempt finds or makes. -/
def keyAfter (attempt : Attempt Key) : Option Key := s.cryptoKey <|> attempt.generated

/-- The text that is stored, and whether it is the one that was to be stored. -/
def storedText (attempt : Attempt Key) (text : String) : String :=
  match s.keyAfter attempt, attempt.iv with
  | some key, some iv => encrypted P key iv text
  | _, _ => text

/-- A message without a text is stored without an attempt. -/
def saveMessage (now : Int) (attempt : Attempt Key) (msg : StoredMessage) :
    LocalEncryptedCache Key :=
  if msg.text.getD "" = "" then { s with localDb := s.localDb.saveMessage now msg }
  else
    { cryptoKey := s.keyAfter attempt
      localDb := s.localDb.saveMessage now
        { msg with text := msg.text.map (s.storedText P attempt) } }

def updateMessageText (name channelId newText : String) (editedAt : Int) :
    LocalEncryptedCache Key :=
  { s with localDb := s.localDb.updateMessageText name channelId newText editedAt }

/-- A key that is missing may be made for reading, too. -/
def loadMessages (now : Int) (generated : Option Key) (channelId : String) : List StoredMessage :=
  (s.localDb.getMessagesByChannel now channelId).map (reveal P (s.cryptoKey <|> generated))

end LocalEncryptedCache

inductive CacheCall (Key : Type) where
  | saveMessage (msg : StoredMessage) (attempt : Attempt Key)
  | updateMessageText (name channelId newText : String) (editedAt : Int)

/-- The cache beside a store of the texts that have been written successfully. -/
structure Written (Key : Type) where
  cache : LocalEncryptedCache Key
  plain : LocalStorageDb

namespace Written

/-- The attempt gives a key and an initialisation vector. -/
def Succeeds (w : Written Key) (attempt : Attempt Key) : Bool :=
  (w.cache.keyAfter attempt).isSome ∧ attempt.iv.isSome

def call (w : Written Key) (now : Int) : CacheCall Key → Written Key
  | .saveMessage msg attempt =>
    { cache := w.cache.saveMessage P now attempt msg
      plain := if msg.text.getD "" = "" ∨ w.Succeeds attempt then w.plain.saveMessage now msg
        else w.plain }
  | .updateMessageText name channelId newText editedAt =>
    { cache := w.cache.updateMessageText name channelId newText editedAt
      plain := w.plain.updateMessageText name channelId newText editedAt }

/-- Nothing is stored at first, with IndexedDB or without. -/
def machine : Machine (Written Key) (Int × CacheCall Key) where
  start w := (w.plain = ⟨some .empty, .empty⟩ ∨ w.plain = ⟨none, .empty⟩) ∧
    w.cache.localDb = w.plain
  step w := fun (now, op) => some (w.call P now op)

/-- An encryption succeeds, for a text without a byte order mark, and an edit with a text finds no
stored message. -/
def Sealing (w : Written Key) : Int × CacheCall Key → Prop
  | (_, .saveMessage msg attempt) => ∀ text ∈ msg.text, text ≠ "" →
    w.Succeeds attempt ∧ text.toList.head? ≠ some byteOrderMark
  | (_, .updateMessageText name channelId newText _) =>
    newText = "" ∨ w.cache.localDb.Spares name channelId fun _ => True

end Written

/-- The text is none, or a ciphertext under the key. -/
def Sealed (key : Option Key) (m : StoredMessage) : Prop :=
  ∀ text ∈ m.text, text ≠ "" → ∃ k ∈ key, ∃ iv plaintext, text = encrypted P k iv plaintext

/-! ## Round trip -/

section RoundTrip
variable {P}

theorem inPlace_reveal (key : Option Key) : StoredMessage.InPlace (reveal P key) :=
  ⟨fun _ => rfl, fun _ => rfl, fun _ => rfl, fun _ => rfl, fun _ => rfl⟩

theorem revealText_empty (key : Option Key) : revealText P key "" = "" := by
  rw [revealText, if_neg (by decide)]

theorem splitOn_marked {ciphertextB64 ivB64 : String} (hc : ':' ∉ ciphertextB64.toList)
    (hi : ':' ∉ ivB64.toList) :
    ((marked ciphertextB64 ivB64).toList.splitOn ':').map String.ofList =
      ["ENC_GCM", ivB64, ciphertextB64] := by
  have other {l : List Char} (h : ':' ∉ l) : ∀ c ∈ l, (c == ':') = false := fun c hc =>
    beq_false_of_ne fun same => h (same ▸ hc)
  have text : (marked ciphertextB64 ivB64).toList =
      "ENC_GCM".toList ++ ':' :: (ivB64.toList ++ ':' :: ciphertextB64.toList) := by
    have colon : marker.toList = "ENC_GCM".toList ++ [':'] := by decide
    simp [marked, colon]
  rw [text, List.splitOn_eq_splitOnP,
    List.splitOnP_append_cons_of_forall_mem (other (by decide)) _ (by simp),
    List.splitOnP_append_cons_of_forall_mem (other hi) _ (by simp),
    List.splitOnP_eq_singleton (other hc)]
  simp

/-- What was encrypted under the key is read back. -/
theorem revealText_encrypted (correct : P.Correct) (key : Key) (iv : List UInt8) {text : String}
    (noMark : text.toList.head? ≠ some byteOrderMark) :
    revealText P (some key) (encrypted P key iv text) = text := by
  have begins : marker.toList <+: (encrypted P key iv text).toList := by
    simp [encrypted, marked, String.toList_append]
  rw [revealText, if_pos begins, encrypted,
    splitOn_marked (Base64.colon_not_mem _) (Base64.colon_not_mem _)]
  simp [decryptText, correct.atob_btoa, correct.decrypt_encrypt, correct.decode_encode text noMark]

theorem reveal_blank (key : Option Key) {m : StoredMessage} (blank : m.text.getD "" = "") :
    reveal P key m = m := by
  have text : m.text.map (revealText P key) = m.text := by
    cases h : m.text with
    | none => rfl
    | some text =>
      rw [h, Option.getD_some] at blank
      rw [blank, Option.map_some, revealText_empty]
  rw [reveal, text]

theorem sealed_blank (key : Option Key) {m : StoredMessage} (blank : m.text.getD "" = "") :
    Sealed P key m := by
  intro text found nonempty
  rw [Option.mem_def.mp found] at blank
  exact absurd blank nonempty

theorem blank_of_sealed {m : StoredMessage} (h : Sealed P none m) : m.text.getD "" = "" := by
  by_contra nonempty
  cases found : m.text with
  | none => exact nonempty (by rw [found]; rfl)
  | some text =>
    rw [found] at nonempty
    obtain ⟨k, none', -⟩ := h text found nonempty
    cases none'

end RoundTrip

/-! ## Runs -/

namespace Written
variable {P} {w : Written Key}

/-- Every stored text is sealed, and the texts behind are those that have been written. -/
structure Sound (P : Browser Key) (w : Written Key) : Prop where
  sealed (m : StoredMessage) : w.cache.localDb.Stored m → Sealed P w.cache.cryptoKey m
  plain : w.plain = w.cache.localDb.map (inPlace_reveal (P := P) w.cache.cryptoKey)

theorem Sound.saveBlank {now : Int} {msg : StoredMessage} (sound : w.Sound P)
    (blank : msg.text.getD "" = "") :
    Sound P ⟨⟨w.cache.cryptoKey, w.cache.localDb.saveMessage now msg⟩,
      w.plain.saveMessage now msg⟩ := by
  refine ⟨fun m stored => ?_, ?_⟩
  · obtain rfl | stored := LocalStorageDb.stored_saveMessage stored
    · exact sealed_blank _ blank
    · exact sound.sealed m stored
  · rw [LocalStorageDb.saveMessage_map, reveal_blank _ blank, ← sound.plain]

/-- The key that is found or made reads what has been stored before. -/
theorem Sound.plain_key (sound : w.Sound P) {attempt : Attempt Key} {key : Key}
    (made : w.cache.keyAfter attempt = some key) :
    w.plain = w.cache.localDb.map (inPlace_reveal (P := P) (some key)) := by
  rw [sound.plain]
  cases found : w.cache.cryptoKey with
  | some old =>
    rw [LocalEncryptedCache.keyAfter, found] at made
    cases made
    rfl
  | none =>
    refine LocalStorageDb.map_congr _ _ fun m stored => ?_
    have blank := blank_of_sealed (found ▸ sound.sealed m stored)
    rw [reveal_blank _ blank, reveal_blank _ blank]

theorem Sound.saveEncrypted {now : Int} {msg : StoredMessage} {text : String}
    {attempt : Attempt Key} {key : Key} {iv : List UInt8} (correct : P.Correct)
    (sound : w.Sound P) (made : w.cache.keyAfter attempt = some key) (given : msg.text = some text)
    (noMark : text.toList.head? ≠ some byteOrderMark) :
    Sound P ⟨⟨some key, w.cache.localDb.saveMessage now
      { msg with text := some (encrypted P key iv text) }⟩, w.plain.saveMessage now msg⟩ := by
  have revealed :
      reveal P (some key) { msg with text := some (encrypted P key iv text) } = msg := by
    rw [reveal, Option.map_some, revealText_encrypted correct key iv noMark, ← given]
  refine ⟨fun m stored => ?_, ?_⟩
  · obtain rfl | stored := LocalStorageDb.stored_saveMessage stored
    · rintro _ ⟨⟩ -
      exact ⟨key, rfl, iv, text, rfl⟩
    · intro stored' found nonempty
      obtain ⟨k, same, rest⟩ := sound.sealed m stored stored' found nonempty
      rw [LocalEncryptedCache.keyAfter, Option.mem_def.mp same] at made
      cases made
      exact ⟨_, rfl, rest⟩
  · rw [LocalStorageDb.saveMessage_map, revealed, ← sound.plain_key made]

theorem Sound.edit {name channelId newText : String} {editedAt : Int} (sound : w.Sound P)
    (ok : newText = "" ∨ w.cache.localDb.Spares name channelId fun _ => True) :
    Sound P ⟨w.cache.updateMessageText name channelId newText editedAt,
      w.plain.updateMessageText name channelId newText editedAt⟩ := by
  have cleared (m : StoredMessage)
      (reached : ¬ w.cache.localDb.Spares name channelId (· = m)) : newText = "" := by
    refine ok.resolve_right fun spares => reached ⟨fun m' hm _ => ?_, fun c m' hm _ => ?_⟩
    · exact spares.1 m' hm trivial
    · exact spares.2 c m' hm trivial
  refine ⟨fun m stored => ?_, ?_⟩
  · obtain ⟨old, before, ⟨rfl, reached⟩ | ⟨rfl, -⟩⟩ :=
      LocalStorageDb.stored_update (StoredMessage.inPlace_edit newText editedAt) stored
    · exact sealed_blank _ (cleared old reached)
    · exact sound.sealed m before
  · refine Eq.trans ?_ (LocalStorageDb.update_map _ fun m reached => ?_).symm
    · rw [sound.plain]
      rfl
    · rw [cleared m reached]
      simp [reveal, StoredMessage.edit, revealText_empty]

theorem Sound.step {now : Int} {op : CacheCall Key} (correct : P.Correct) (sound : w.Sound P)
    (ok : w.Sealing (now, op)) : (w.call P now op).Sound P := by
  cases op with
  | saveMessage msg attempt =>
    unfold call LocalEncryptedCache.saveMessage
    by_cases blank : msg.text.getD "" = ""
    · simp only [if_pos blank, if_pos (Or.inl blank)]
      exact sound.saveBlank blank
    · obtain ⟨text, given⟩ : ∃ text, msg.text = some text := by
        cases given : msg.text with
        | none => exact absurd (by rw [given]; rfl) blank
        | some text => exact ⟨text, rfl⟩
      have nonempty : text ≠ "" := by simpa [given] using blank
      obtain ⟨succeeds, noMark⟩ := ok text given nonempty
      obtain ⟨made, fresh⟩ := of_decide_eq_true succeeds
      obtain ⟨key, made⟩ := Option.isSome_iff_exists.mp made
      obtain ⟨iv, fresh⟩ := Option.isSome_iff_exists.mp fresh
      have stored : w.cache.storedText P attempt text = encrypted P key iv text := by
        rw [LocalEncryptedCache.storedText, made, fresh]
      simp only [if_neg blank, if_pos (Or.inr succeeds)]
      rw [made, given, Option.map_some, stored]
      exact sound.saveEncrypted correct made given noMark
  | updateMessageText name channelId newText editedAt => exact sound.edit ok

theorem sound (correct : P.Correct) (h : (machine P).Reach Sealing w) : w.Sound P := by
  induction h with
  | start new =>
    obtain ⟨empty, same⟩ := new
    refine ⟨fun m stored => ?_, ?_⟩
    · rw [same] at stored
      obtain empty | empty := empty <;> rw [empty] at stored <;>
        obtain stored | ⟨c, stored⟩ := stored <;> cases stored
    · rw [same]
      obtain empty | empty := empty <;> rw [empty] <;> rfl
  | step _ ok step ih =>
    cases step
    exact ih.step correct ok

end Written

/-- No stored text is in the clear, and the cache reads what has been written. -/
theorem texts_sealed (correct : P.Correct) {w : Written Key}
    (h : (Written.machine P).Reach Written.Sealing w) :
    (∀ m, w.cache.localDb.Stored m → Sealed P w.cache.cryptoKey m) ∧
    ∀ now generated c,
      w.cache.loadMessages P now generated c = w.plain.getMessagesByChannel now c := by
  have sound := Written.sound correct h
  refine ⟨sound.sealed, fun now generated c => ?_⟩
  have read : w.plain = w.cache.localDb.map
      (inPlace_reveal (P := P) (w.cache.cryptoKey <|> generated)) := by
    cases made : w.cache.cryptoKey <|> generated with
    | none =>
      cases found : w.cache.cryptoKey with
      | none => rw [sound.plain, found]
      | some key => simp [found] at made
    | some key =>
      let attempt : Attempt Key := ⟨generated, none⟩
      have after : w.cache.keyAfter attempt = some key := made
      exact sound.plain_key after
  rw [read, LocalStorageDb.getMessagesByChannel_map, LocalEncryptedCache.loadMessages]

/-! ## A cache with one message -/

namespace Sample

/-- A byte order mark at the beginning is dropped, and what is no UTF-8 is no text. -/
def textDecode (bytes : List UInt8) : String :=
  match String.fromUTF8? ⟨bytes.toArray⟩ with
  | some s => if s.toList.head? = some byteOrderMark then String.ofList s.toList.tail else s
  | none => ""

/-- Keys are bytes, and a ciphertext begins with its key and initialisation vector. -/
def browser : Browser UInt8 where
  aesGcmEncrypt key iv bytes := key :: iv ++ bytes
  aesGcmDecrypt key iv ciphertext :=
    if key :: iv <+: ciphertext then some (ciphertext.drop (iv.length + 1)) else none
  atob s := if (Base64.decodeString s).2 then some (Base64.decodeString s).1 else none
  textDecode := textDecode

theorem browser_correct : browser.Correct where
  decrypt_encrypt key iv bytes := by simp [browser]
  atob_btoa bytes := by simp [browser, Base64.decodeString_encodeToString]
  decode_encode s noMark := by
    have bytes : (⟨(Crypto.utf8 s).toArray⟩ : ByteArray) = s.toByteArray := by
      simp [Crypto.utf8]
    have valid : String.fromUTF8? s.toByteArray = some s := by
      rw [String.fromUTF8?, dif_pos s.isValidUTF8]
      rfl
    simp only [browser, textDecode, bytes, valid, if_neg noMark]

abbrev sealing := Written.machine browser

/-- With IndexedDB, before a key is there. -/
def unwritten : Written UInt8 := ⟨⟨none, ⟨some .empty, .empty⟩⟩, ⟨some .empty, .empty⟩⟩

def cached : CacheCall UInt8 :=
  .saveMessage (message "m1" "c1" "ENC_GCM:hi" 1) ⟨some 7, some [1, 2]⟩

def edited (newText : String) : Written UInt8 :=
  (unwritten.call browser 1 cached).call browser 2 (.updateMessageText "m1" "channel" newText 2)

theorem edited_reachable (newText : String) : sealing.Reachable (edited newText) :=
  .step (l := (2, CacheCall.updateMessageText "m1" "channel" newText 2))
    (.step (l := (1, cached)) (.start ⟨.inl rfl, rfl⟩) trivial rfl) trivial rfl

/-- An edit is stored as it is, and read as something else if it looks like a ciphertext. -/
theorem edit_in_the_clear : browser.Correct ∧
    (∃ w, sealing.Reachable w ∧ ∃ m, w.cache.localDb.Stored m ∧
      ¬ Sealed browser w.cache.cryptoKey m) ∧
    ∃ w, sealing.Reachable w ∧ w.cache.loadMessages browser 3 none "channel" ≠
      w.plain.getMessagesByChannel 3 "channel" := by
  let clear := (message "m1" "c1" "" 1).edit "hello" 2
  refine ⟨browser_correct, ⟨_, edited_reachable "hello", clear, .inl (by decide),
    fun isSealed => ?_⟩, _, edited_reachable "ENC_GCM:a:b", by decide⟩
  obtain ⟨key, -, iv, plaintext, same⟩ := isSealed "hello" rfl (by decide)
  have first := congrArg (fun s => s.toList.head?) same
  simp [encrypted, marked, marker] at first

/-- A text that looks like a ciphertext is encrypted and read back. -/
theorem texts_sealed_sample : ∃ w, sealing.Reach Written.Sealing w ∧
    (w.cache.loadMessages browser 3 none "channel").map StoredMessage.text = [some "ENC_GCM:hi"] ∧
    (∀ m, w.cache.localDb.Stored m → Sealed browser w.cache.cryptoKey m) ∧
    ∀ now generated c,
      w.cache.loadMessages browser now generated c = w.plain.getMessagesByChannel now c := by
  have start : sealing.Reach Written.Sealing unwritten := .start ⟨.inl rfl, rfl⟩
  have ok : unwritten.Sealing (1, cached) := by
    rintro _ ⟨⟩ -
    decide
  have saved := start.step ok rfl
  exact ⟨_, saved, by rfl, texts_sealed browser browser_correct saved⟩

end Sample

end GenChat.Offline
