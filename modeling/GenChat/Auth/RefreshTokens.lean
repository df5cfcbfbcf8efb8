import GenChat.Auth.Passkeys

/-!
# Exchanging a refresh token

An exchange revokes the old session and then writes a new one, with two statements outside a
transaction. If the second fails, the old token is spent and no new one has been handed out.
-/
namespace GenChat.Auth.Passkeys
open Library
open Ledger (Bytes)

/-! ## What a refused exchange costs -/

/-- The sessions that can be exchanged, with the hashes of their tokens. -/
def LiveTokens (s : Accounts) : Set (UUID × Bytes) := { t | ∃ row,
  s.db.sessions.lookup t.1 = some row ∧ row.refreshTokenHash = t.2 ∧ row.revoked = false ∧
    s.clock ≤ row.expiresAt }

/-- The token can be exchanged, if the statements are accepted. -/
def CanRefresh (S : Platform) (token : String) (s : Accounts) : Prop :=
  ∃ trace response s', Executes system (refreshToken S token) s trace (.ok response) s'

/-- The revocation of a session takes effect. -/
def RevocationApplied (trace : List (Op × Choice)) : Prop :=
  ∃ id c, (.revokeAuthSession id, c) ∈ trace ∧ c ≠ .fail

def Op.isRevocation : Op → Bool
  | .revokeAuthSession _ => true
  | _ => false

section Runs
variable {S : Platform} {s s' : Accounts} {trace : List (Op × Choice)} {a : Answer Response}
  {token : String} {u d id : UUID} {c : Choice} {hash : Bytes}

theorem executes_getAuthSession {r : Except StoreError (UUID × AuthSession)}
    (h : s.exec (.getAuthSession hash) c = some (r, s')) : s' = s ∧ ∀ found, r = .ok found →
      s.db.sessions.lookup found.1 = some found.2 ∧ found.2.refreshTokenHash = hash := by
  cases c
  case row n =>
    obtain ⟨⟨id, row⟩, found, h⟩ := Option.map_eq_some_iff.mp h
    cases h
    refine ⟨rfl, ?_⟩
    rintro found ⟨⟩
    obtain ⟨⟨id, row⟩, mem, same⟩ := List.mem_map.mp (List.mem_of_getElem? found)
    cases same
    obtain ⟨there, hashed⟩ := List.mem_filter.mp mem
    exact ⟨AList.mem_lookup_iff.mpr there, by simpa using hashed⟩
  case ok =>
    simp only [Accounts.exec] at h
    split at h <;> cases h
    exact ⟨rfl, by rintro _ ⟨⟩⟩
  all_goals cases h
  exact ⟨rfl, by rintro _ ⟨⟩⟩

/-- An exchange ends before it writes, or it goes through the revocation of a live session. -/
theorem refreshToken_cases (run : Executes system (refreshToken S token) s trace a s') :
    s' = s ∧ (∃ err, a = .error err) ∧ (∀ x ∈ trace, x.1.isRevocation = false) ∨
    ∃ before later id row c r s₁,
      trace = before ++ (.revokeAuthSession id, c) :: later ∧
      (∀ x ∈ before, x.1.isRevocation = false) ∧
      s.db.sessions.lookup id = some row ∧ row.refreshTokenHash = S.sha256 token ∧
      row.revoked = false ∧ s.clock ≤ row.expiresAt ∧
      s.write (some { s with db := s.db.revokeSession id }) c = some (r, s₁) ∧
      match r with
      | .error _ => later = [] ∧ (∃ err, a = .error err) ∧ s' = s₁
      | .ok () => ∃ tokens, Executes system (issueTokens S row.userID row.deviceID (some id)) s₁
          later tokens s' ∧ ((∃ response, a = .ok response) ↔ ∃ t, tokens = .ok t) := by
  obtain ⟨c₀, found, s₀, t₀, got, run₀, rfl⟩ := executes_call.mp run
  obtain ⟨rfl, row⟩ := executes_getAuthSession got
  rcases found with err | ⟨id, session⟩
  · obtain ⟨rfl, rfl, rfl⟩ := executes_pure.mp run₀
    exact .inl ⟨rfl, ⟨_, rfl⟩, by simp [Op.isRevocation]⟩
  obtain ⟨there, hashed⟩ := row _ rfl
  simp only [Prog.pure_bind] at run₀
  split at run₀
  · obtain ⟨rfl, rfl, rfl⟩ := executes_pure.mp run₀
    exact .inl ⟨rfl, ⟨_, rfl⟩, by simp [Op.isRevocation]⟩
  rename_i unrevoked
  obtain ⟨c₁, now, s₁, t₁, asked, run₁, rfl⟩ := executes_call.mp run₀
  obtain ⟨rfl, rfl⟩ : now = s₀.clock ∧ s₁ = s₀ := by
    cases c₁ <;> cases asked
    exact ⟨rfl, rfl⟩
  simp only [Prog.pure_bind] at run₁
  split at run₁
  · obtain ⟨rfl, rfl, rfl⟩ := executes_pure.mp run₁
    exact .inl ⟨rfl, ⟨_, rfl⟩, by simp [Op.isRevocation]⟩
  rename_i unexpired
  obtain ⟨c, r, s₂, later, wrote, run₂, rfl⟩ := executes_call.mp run₁
  refine .inr ⟨[(.getAuthSession (S.sha256 token), c₀), (.now, c₁)], later, id, session, c, r, s₂,
    rfl, by simp [Op.isRevocation], there, hashed, by simpa using unrevoked, not_lt.mp unexpired,
    wrote, ?_⟩
  cases r with
  | error =>
    obtain ⟨rfl, rfl, rfl⟩ := executes_pure.mp run₂
    exact ⟨rfl, ⟨_, rfl⟩, rfl⟩
  | ok =>
    simp only [Prog.pure_bind] at run₂
    obtain ⟨first, tokens, s₃, rest, issued, run₃, rfl⟩ := executes_bind.mp run₂
    refine ⟨tokens, ?_⟩
    cases tokens <;> obtain ⟨rfl, rfl, rfl⟩ := executes_pure.mp run₃
    · simpa using issued
    · simpa using issued

theorem revokeSession_lookup {db : Database} {row : AuthSession}
    (there : db.sessions.lookup id = some row) :
    (db.revokeSession id).sessions.lookup id = some { row with revoked := true } := by
  simp [Database.revokeSession, there]

/-- The tokens of an exchange leave the old session as it is. -/
theorem issueTokens_keeps {origin : Option UUID} {row : AuthSession}
    {tokens : Except StoreError (Token × String)} (there : s.db.sessions.lookup id = some row)
    (run : Executes system (issueTokens S u d origin) s trace tokens s') :
    s'.db.sessions.lookup id = some row := by
  obtain ⟨before, id', hash, time, c, answer, -, -, wrote, -⟩ := executes_issueTokens run
  obtain ⟨-, rfl, -⟩ | ⟨inserted, -⟩ := Accounts.write_eq_some wrote
  · exact there
  · obtain ⟨⟨fresh, -⟩, rfl⟩ := Accounts.insertSession_eq_some inserted
    have other : id ≠ id' := by
      rintro rfl
      exact fresh (AList.lookup_isSome.mp (by simp [there]))
    rw [AList.lookup_insert_ne other]
    exact there

/-- A refused exchange leaves every live token live, and a retry as possible as it was, exactly if
the revocation of the old session has not taken effect. -/
theorem refused_refresh_free_iff {err : Status}
    (run : Executes system (refreshToken S token) s trace (.error err) s') :
    (LiveTokens s' = LiveTokens s ∧ (CanRefresh S token s → CanRefresh S token s')) ↔
      ¬ RevocationApplied trace := by
  rcases refreshToken_cases run with ⟨rfl, -, none⟩ | ⟨before, later, id, row, c, r, s₁, rfl, none,
    there, hashed, unrevoked, unexpired, wrote, rest⟩
  · refine iff_of_true ⟨rfl, fun can => can⟩ ?_
    rintro ⟨id, c, mem, -⟩
    cases none _ mem
  obtain ⟨rfl, rfl, ⟨⟨⟩⟩ | rfl⟩ | ⟨written, outcome⟩ := Accounts.write_eq_some wrote
  · obtain ⟨rfl, -, rfl⟩ := rest
    refine iff_of_true ⟨rfl, fun can => can⟩ ?_
    rintro ⟨id', c, mem, applied⟩
    obtain early | here := List.mem_append.mp mem
    · cases none _ early
    · cases List.mem_singleton.mp here
      exact applied rfl
  · have applied : c ≠ .fail := by
      rintro rfl
      obtain ⟨⟨⟩, -⟩ | ⟨⟨⟩, -⟩ := outcome
    refine iff_of_false (fun kept => ?_) (not_not.mpr ⟨id, c, by simp, applied⟩)
    have revoked : s₁.db.sessions.lookup id = some { row with revoked := true } := by
      rw [← Option.some.inj written]
      exact revokeSession_lookup there
    have spent : s'.db.sessions.lookup id = some { row with revoked := true } := by
      cases r with
      | error => rw [rest.2.2, revoked]
      | ok =>
        obtain ⟨tokens, issued, -⟩ := rest
        exact issueTokens_keeps revoked issued
    have live : (id, row.refreshTokenHash) ∈ LiveTokens s :=
      ⟨row, there, rfl, unrevoked, unexpired⟩
    rw [← kept.1] at live
    obtain ⟨row', found, -, alive, -⟩ := live
    rw [spent] at found
    cases found
    cases alive

end Runs

namespace Sample
open Auth.Sample (alice alicePhone)

/-- Alice has one session, whose token is "r". -/
def oneSession : Accounts where
  db := { Database.empty with
    users := [alice]
    devices := (∅ : Ledger.Table UUID Device).insert alicePhone ⟨alice, [1]⟩
    sessions := (∅ : Ledger.Table UUID AuthSession).insert ⟨"s1"⟩
      ⟨alice, alicePhone, platform.sha256 "r", Auth.Sample.clock + 30 * day, false⟩ }
  profiles := (∅ : Ledger.Table UUID Profile).insert alice ⟨"Alice", [1]⟩
  passkeys := ∅
  ceremonies := ∅
  clock := Auth.Sample.clock
  begun := []
  origins := ∅

/-- An exchange with these outcomes of the revocation and of the new session. -/
def exchange (choices : List Choice) : Option (List (Op × Choice) × Answer Response × Accounts) :=
  play system (refreshToken platform "r") oneSession ([.row 0, .ok] ++ choices)

def newSession (c : Choice) : List Choice :=
  [.ok, .ok, .bytes (List.replicate 32 3), .ok, .uuid ⟨"s2"⟩, c]

theorem unrevoked_isSome : (exchange [.fail]).isSome := by rfl

theorem spent_isSome : (exchange (newSession .fail)).isSome := by rfl

end Sample

open Passkeys.Sample in
theorem refused_refresh_free_sample : ∃ trace err s',
    Executes system (refreshToken platform "r") oneSession trace (.error err) s' ∧
      LiveTokens s' = LiveTokens oneSession := by
  let run := (exchange [.fail]).get unrevoked_isSome
  let err : Status := ⟨.internal, "failed to revoke old session"⟩
  have refused : run.2.1 = .error err := by rfl
  have executes : Executes system (refreshToken platform "r") oneSession run.1 (.error err)
      run.2.2 := by
    rw [← refused]
    exact Executes.of_play _ (Option.some_get unrevoked_isSome).symm
  refine ⟨run.1, err, run.2.2, executes, ((refused_refresh_free_iff executes).mpr ?_).1⟩
  have quiet : ∀ x ∈ run.1, x.1.isRevocation → x.2 = .fail := by decide
  rintro ⟨id, c, mem, applied⟩
  exact applied (quiet _ mem rfl)

open Passkeys.Sample in
/-- The new session cannot be written, and the old token is spent. -/
theorem refresh_token_lost : ∃ trace err s',
    Executes system (refreshToken platform "r") oneSession trace (.error err) s' ∧
      LiveTokens s' ≠ LiveTokens oneSession := by
  let run := (exchange (newSession .fail)).get spent_isSome
  let err : Status := ⟨.internal, "failed to create new auth session"⟩
  have refused : run.2.1 = .error err := by rfl
  have executes : Executes system (refreshToken platform "r") oneSession run.1 (.error err)
      run.2.2 := by
    rw [← refused]
    exact Executes.of_play _ (Option.some_get spent_isSome).symm
  have spent : (run.2.2.db.sessions.lookup ⟨"s1"⟩).map AuthSession.revoked = some true := by
    rfl
  refine ⟨run.1, err, run.2.2, executes, fun same => ?_⟩
  have live : (⟨"s1"⟩, platform.sha256 "r") ∈ LiveTokens oneSession :=
    ⟨_, AList.lookup_insert _, rfl, rfl, by decide⟩
  rw [← same] at live
  obtain ⟨row, found, -, alive, -⟩ := live
  rw [found] at spent
  simp [alive] at spent

end GenChat.Auth.Passkeys
