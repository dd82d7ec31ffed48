import SubmissionsChecker.Effects.Attempts
import SubmissionsChecker.Library.Runs
import SubmissionsChecker.Routes.Auth

/-! What a new password ends. A session of the same second goes on, and so does every reset link but
the one that was used. -/

namespace SubmissionsChecker

open Runs

namespace Account

section

variable (checkpw : String → String → Bool) (sha256 : String → String) (acc : Account)

/-- What was handed out before the password was last set is refused, and the sessions since then go on
until they expire. -/
structure Ended : Prop where
  sessions : ∀ (k : ℕ) token, acc.sessions[k]? = some token → k < acc.oldSessions → acc.accepts token = false
  links : ∀ (k : ℕ) token, acc.links[k]? = some token → k < acc.oldLinks → acc.acceptsLink sha256 token = false
  current : ∀ (k : ℕ) token, acc.sessions[k]? = some token → acc.oldSessions ≤ k → acc.now < token.exp * 1000000 →
    acc.accepts token = true

/-- No session began in this second, and no reset link is good but the one in use. -/
def NoneLeft (link : Option ℕ) : Prop :=
  (∀ token ∈ acc.sessions, token.iat ≠ some (timestamp acc.now)) ∧
    ∀ (k : ℕ) row, acc.resetTokens[k]? = some row → row.isValid acc.now = true → link = some k

/-- A request that sets the password finds nothing left. -/
def FindsNoneLeft : AuthOp → Prop
  | .resetPassword token newPassword confirmPassword _ =>
    ∀ k, acc.checkReset sha256 token newPassword confirmPassword = .ok k → acc.NoneLeft (some k)
  | .changePassword session currentPassword newPassword confirmPassword _ =>
    acc.checkChange checkpw session currentPassword newPassword confirmPassword = .ok () → acc.NoneLeft none
  | _ => True

/-- An account before its first login. -/
structure Fresh : Prop where
  sessions : acc.sessions = []
  resetTokens : acc.resetTokens = []
  links : acc.links = []
  oldSessions : acc.oldSessions = 0
  oldLinks : acc.oldLinks = 0
  changed : ∀ c, acc.passwordChangedAt = some c → c ≤ acc.now

/-- Sessions are minted by the account at a time not in the future, those not old after the password was
set; and the rows of the links are theirs, one each. -/
structure Ok : Prop where
  minted : ∀ (k : ℕ) token, acc.sessions[k]? = some token →
    ∃ t ≤ acc.now, token = createAccessToken acc.id acc.username acc.role t ∧
      (acc.oldSessions ≤ k → ∀ c, acc.passwordChangedAt = some c → c ≤ t)
  active : acc.sessions ≠ [] → acc.isActive = true
  counts : acc.oldSessions ≤ acc.sessions.length ∧ acc.oldLinks ≤ acc.links.length
  changed : ∀ c, acc.passwordChangedAt = some c → c ≤ acc.now
  hashes : acc.resetTokens.map (·.tokenHash) = acc.links.map fun token => some (sha256 token)
  hashed : ∀ row ∈ acc.resetTokens, row.token = none
  unique : (acc.links.map sha256).Nodup

/-- What a request did. -/
inductive Does : AuthOp → Account → Prop
  | refused {op} (h : acc.FindsNoneLeft checkpw sha256 op) : Does op acc
  | login {username password blocked} (hactive : acc.isActive = true) :
      Does (.login username password blocked)
        { acc with sessions := acc.sessions ++ [createAccessToken acc.id acc.username acc.role acc.now] }
  | link {username token blocked} (hnew : ∀ row ∈ acc.resetTokens, row.tokenHash ≠ some (sha256 token)) :
      Does (.forgotPassword username token blocked)
        { acc with resetTokens := acc.resetTokens ++ [.create sha256 token acc.now], links := acc.links ++ [token] }
  | reset {token newPassword confirmPassword hashed k}
      (h : acc.checkReset sha256 token newPassword confirmPassword = .ok k) :
      Does (.resetPassword token newPassword confirmPassword hashed)
        { acc.setPassword hashed with resetTokens := acc.resetTokens.modify k ({ · with used := true }) }
  | changed {session currentPassword newPassword confirmPassword hashed}
      (h : acc.checkChange checkpw session currentPassword newPassword confirmPassword = .ok ()) :
      Does (.changePassword session currentPassword newPassword confirmPassword hashed)
        { acc.setPassword hashed with
          sessions := acc.sessions ++ [createAccessToken acc.id acc.username acc.role acc.now] }
  | tick {microseconds} : Does (.tick microseconds) { acc with now := acc.now + microseconds }

end

section

variable {checkpw : String → String → Bool} {sha256 : String → String} {acc acc' acc₀ : Account} {k t : ℕ}
  {token : AccessToken} {link : String} {op : AuthOp} {ops : List AuthOp}

/-! What is accepted -/

theorem accepts_iff {expiry : ℕ} (hactive : acc.isActive = true) (hid : token.sub = acc.id)
    (hdecodes : token.decodes acc.now = decide (acc.now < expiry))
    (hbefore : ∀ c, token.issuedBeforePasswordChange (some c) = decide (timestamp t < timestamp c)) :
    acc.accepts token = true ↔ acc.now < expiry ∧ ∀ c, acc.passwordChangedAt = some c → timestamp c ≤ timestamp t := by
  unfold accepts currentUser
  rw [hdecodes, hactive, hid]
  by_cases hexp : acc.now < expiry
  · rcases hc : acc.passwordChangedAt with _ | c
    · simp [hexp, AccessToken.issuedBeforePasswordChange, Except.isOk, Except.toBool]
    · rw [hbefore]
      by_cases hlater : timestamp t < timestamp c
      · simp [hexp, hlater, Except.isOk, Except.toBool]
      · simp [hexp, hlater, Except.isOk, Except.toBool, not_lt.mp hlater]
  · simp [hexp, Except.isOk, Except.toBool]

/-- A session of an active account is accepted until it expires or the password is set in a later second. -/
theorem accepts_minted (hactive : acc.isActive = true) (ht : t ≤ acc.now) :
    acc.accepts (createAccessToken acc.id acc.username acc.role t) = true ↔
      acc.now < (createAccessToken acc.id acc.username acc.role t).exp * 1000000 ∧
        ∀ c, acc.passwordChangedAt = some c → timestamp c ≤ timestamp t :=
  accepts_iff hactive rfl (createAccessToken_decodes _ _ _ ht) (createAccessToken_issuedBefore _ _ _ t)

/-- A session of the current second has not expired. -/
theorem unexpired_of_second {now : ℕ} (h : timestamp t = timestamp now) :
    now < (createAccessToken acc.id acc.username acc.role t).exp * 1000000 := by
  change now < timestamp (t + jwtExpiry) * 1000000
  unfold timestamp jwtExpiry at *
  omega

theorem timestamp_mono {a b : ℕ} (h : a ≤ b) : timestamp a ≤ timestamp b := Nat.div_le_div_right h

theorem Ok.row (ok : acc.Ok sha256) (hk : acc.links[k]? = some link) : ∃ row, acc.resetTokens[k]? = some row := by
  have hlen : acc.resetTokens.length = acc.links.length := by simpa using congrArg List.length ok.hashes
  have hlt := (List.getElem?_eq_some_iff.mp hk).1
  exact ⟨_, List.getElem?_eq_getElem (hlen ▸ hlt)⟩

/-- The row of a link is the only one that matches it. -/
theorem Ok.find_link (ok : acc.Ok sha256) (hk : acc.links[k]? = some link) :
    acc.findResetToken sha256 link = .ok (some k) := by
  have hmatch : ∀ (j : ℕ) row, acc.resetTokens[j]? = some row →
      ((row.tokenHash == some (sha256 link) || row.token == some link) = true ↔ j = k) := by
    intro j row hrow
    have hplain := ok.hashed row (List.mem_of_getElem? hrow)
    have hhash : (acc.links.map fun token => some (sha256 token))[j]? = some row.tokenHash := by
      rw [← ok.hashes, List.getElem?_map, hrow, Option.map_some]
    rw [List.getElem?_map] at hhash
    obtain ⟨link', hlink', hhash⟩ := Option.map_eq_some_iff.mp hhash
    rw [hplain, ← hhash]
    simp only [Option.some_beq_some, beq_iff_eq, Option.none_beq_some, Bool.or_false]
    constructor
    · intro hsame
      have hj : (acc.links.map sha256)[j]? = some (sha256 link) := by rw [List.getElem?_map, hlink', Option.map_some, hsame]
      have hk' : (acc.links.map sha256)[k]? = some (sha256 link) := by rw [List.getElem?_map, hk, Option.map_some]
      have hlt : j < (acc.links.map sha256).length := (List.getElem?_eq_some_iff.mp hj).1
      exact (List.getElem?_inj hlt ok.unique).mp (hj.trans hk'.symm)
    · rintro rfl
      rw [hk, Option.some_inj] at hlink'
      rw [hlink']
  unfold findResetToken
  obtain ⟨row, hrow⟩ := ok.row hk
  rw [Table.idsWhere_eq_singleton hrow hmatch]

/-- A link is accepted exactly when its row is valid. -/
theorem Ok.acceptsLink (ok : acc.Ok sha256) {row : PasswordResetToken} (hk : acc.links[k]? = some link)
    (hrow : acc.resetTokens[k]? = some row) : acc.acceptsLink sha256 link = row.isValid acc.now := by
  unfold Account.acceptsLink validResetToken
  rw [ok.find_link hk]
  simp only [hrow, Option.any_some]
  cases row.isValid acc.now <;> rfl

/-! Requests -/

/-- A request that was refused set no password. -/
theorem findsNoneLeft_of_refused {e : Raised} (h : acc.request checkpw sha256 op = .error e) :
    acc.FindsNoneLeft checkpw sha256 op := by
  cases op with
  | resetPassword token newPassword confirmPassword hashed =>
    intro k hk
    change acc.resetPassword sha256 token newPassword confirmPassword hashed = _ at h
    unfold resetPassword at h
    rw [hk] at h
    cases h
  | changePassword session currentPassword newPassword confirmPassword hashed =>
    intro hok
    change acc.changePassword checkpw session currentPassword newPassword confirmPassword hashed = _ at h
    unfold changePassword at h
    rw [hok] at h
    cases h
  | _ => trivial

theorem does_request (h : acc.request checkpw sha256 op = .ok acc') : Does checkpw sha256 acc op acc' := by
  cases op with
  | login username password blocked =>
    change acc.login checkpw username password blocked = _ at h
    unfold login at h
    split_ifs at h with hblocked hwrong
    cases h
    simp only [Bool.not_eq_true, Bool.not_eq_false', Bool.and_eq_true] at hwrong
    exact .login hwrong.1.2
  | forgotPassword username token blocked =>
    change acc.forgotPassword sha256 username token blocked = _ at h
    unfold forgotPassword at h
    split_ifs at h with hblocked hother htaken
    · cases h
      exact .refused trivial
    · cases h
      refine .link fun row hrow hhash => htaken ?_
      exact List.any_eq_true.mpr ⟨row, hrow, by rw [hhash]; exact beq_self_eq_true _⟩
  | resetPassword token newPassword confirmPassword hashed =>
    change acc.resetPassword sha256 token newPassword confirmPassword hashed = _ at h
    unfold resetPassword at h
    obtain ⟨k, hcheck, h⟩ := bind_ok h
    cases h
    exact .reset hcheck
  | changePassword session currentPassword newPassword confirmPassword hashed =>
    change acc.changePassword checkpw session currentPassword newPassword confirmPassword hashed = _ at h
    unfold changePassword at h
    obtain ⟨_, hcheck, h⟩ := bind_ok h
    cases h
    exact .changed hcheck
  | tick microseconds =>
    cases h
    exact .tick

theorem does_step (checkpw : String → String → Bool) (sha256 : String → String) (acc : Account) (op : AuthOp) :
    Does checkpw sha256 acc op (acc.step checkpw sha256 op) := by
  unfold step
  rcases hreq : acc.request checkpw sha256 op with e | acc'
  · exact .refused (findsNoneLeft_of_refused hreq)
  · exact does_request hreq

theorem active_of_checkChange {currentPassword newPassword confirmPassword : String}
    (h : acc.checkChange checkpw token currentPassword newPassword confirmPassword = .ok ()) : acc.isActive = true := by
  unfold checkChange at h
  rcases huser : acc.currentUser token with e | u
  · rw [huser] at h
    cases h
  · unfold currentUser at huser
    split_ifs at huser with hdecodes hsub hactive
    simpa using hactive

/-! Every step -/

theorem Ok.step (ok : acc.Ok sha256) (h : Does checkpw sha256 acc op acc') : acc'.Ok sha256 := by
  cases h with
  | refused => exact ok
  | login hactive =>
    refine ⟨fun k token hk => ?_, fun _ => hactive, ⟨?_, ok.counts.2⟩, ok.changed, ok.hashes, ok.hashed, ok.unique⟩
    · rcases Table.getElem?_concat_some hk with hk | ⟨-, rfl⟩
      · exact ok.minted k token hk
      · exact ⟨acc.now, le_rfl, rfl, fun _ => ok.changed⟩
    · exact ok.counts.1.trans (by simp)
  | @link _ token _ hnew =>
    refine ⟨ok.minted, ok.active, ⟨ok.counts.1, ok.counts.2.trans (by simp)⟩, ok.changed, ?_, ?_, ?_⟩
    · change (acc.resetTokens ++ [_]).map _ = (acc.links ++ [token]).map _
      rw [List.map_append, List.map_append, ok.hashes]
      rfl
    · intro row hrow
      rcases List.mem_append.mp hrow with hrow | hrow
      · exact ok.hashed row hrow
      · rw [List.mem_singleton] at hrow
        subst hrow
        rfl
    · change ((acc.links ++ [token]).map sha256).Nodup
      rw [List.map_append, List.map_singleton, List.nodup_append]
      refine ⟨ok.unique, List.nodup_singleton _, fun x hx y hy hxy => ?_⟩
      rw [List.mem_singleton] at hy
      subst hy hxy
      obtain ⟨link, hlink, hsame⟩ := List.mem_map.mp hx
      have hrow : some (sha256 token) ∈ acc.resetTokens.map (·.tokenHash) := by
        rw [ok.hashes, List.mem_map]
        exact ⟨link, hlink, congrArg some hsame⟩
      obtain ⟨row, hrow, hhash⟩ := List.mem_map.mp hrow
      exact hnew row hrow hhash
  | @reset _ _ _ _ k =>
    refine ⟨fun j token hj => ?_, ok.active, ⟨le_rfl, le_rfl⟩, fun c hc => ?_, ?_, ?_, ok.unique⟩
    · obtain ⟨t, ht, htoken, -⟩ := ok.minted j token hj
      refine ⟨t, ht, htoken, fun hold => ?_⟩
      have hlt := (List.getElem?_eq_some_iff.mp hj).1
      exact absurd hold (not_le.mpr hlt)
    · cases hc
      exact le_rfl
    · have hkept : (acc.resetTokens.modify k ({ · with used := true })).map (·.tokenHash) =
          acc.resetTokens.map (·.tokenHash) := Table.map_modify (f := fun row : PasswordResetToken => { row with used := true }) (fun _ => rfl) _ k
      exact hkept.trans ok.hashes
    · intro row hrow
      obtain ⟨j, hj⟩ := List.mem_iff_getElem?.mp hrow
      obtain ⟨row₀, hrow₀, rfl⟩ := Table.getElem?_modify_some hj
      have hplain := ok.hashed row₀ (List.mem_of_getElem? hrow₀)
      split_ifs <;> exact hplain
  | changed hcheck =>
    refine ⟨fun j token hj => ?_, fun _ => ?_, ⟨?_, le_rfl⟩, fun c hc => ?_, ok.hashes, ok.hashed, ok.unique⟩
    · rcases Table.getElem?_concat_some hj with hj | ⟨-, rfl⟩
      · obtain ⟨t, ht, htoken, -⟩ := ok.minted j token hj
        refine ⟨t, ht, htoken, fun hold => ?_⟩
        exact absurd hold (not_le.mpr (List.getElem?_eq_some_iff.mp hj).1)
      · exact ⟨acc.now, le_rfl, rfl, fun _ c hc => by cases hc; exact le_rfl⟩
    · change acc.isActive = true
      exact active_of_checkChange hcheck
    · simp [setPassword]
    · cases hc
      exact le_rfl
  | tick =>
    refine ⟨fun k token hk => ?_, ok.active, ok.counts, fun c hc => ?_, ok.hashes, ok.hashed, ok.unique⟩
    · obtain ⟨t, ht, htoken, hsince⟩ := ok.minted k token hk
      exact ⟨t, ht.trans (Nat.le_add_right _ _), htoken, hsince⟩
    · exact (ok.changed c hc).trans (Nat.le_add_right _ _)

theorem Fresh.ok (h : acc.Fresh) : acc.Ok sha256 := by
  refine ⟨fun k token hk => ?_, fun hne => absurd h.sessions hne, ⟨?_, ?_⟩, h.changed, ?_, fun row hrow => ?_, ?_⟩
  · rw [h.sessions] at hk
    cases hk
  · rw [h.oldSessions]
    exact Nat.zero_le _
  · rw [h.oldLinks]
    exact Nat.zero_le _
  · rw [h.resetTokens, h.links]
    rfl
  · rw [h.resetTokens] at hrow
    cases hrow
  · rw [h.links]
    exact List.nodup_nil

/-! What a new password ends -/

/-- Sessions begun since the password was set go on, so only the old sessions and rows matter. -/
theorem Ok.ended_iff (ok : acc.Ok sha256) : acc.Ended sha256 ↔
    (∀ (k : ℕ) token, acc.sessions[k]? = some token → k < acc.oldSessions → acc.accepts token = false) ∧
      ∀ (k : ℕ) row, acc.resetTokens[k]? = some row → k < acc.oldLinks → row.isValid acc.now = false := by
  constructor
  · intro h
    refine ⟨h.sessions, fun k row hrow hk => ?_⟩
    have hlt := hk.trans_le ok.counts.2
    rw [← ok.acceptsLink (List.getElem?_eq_getElem hlt) hrow]
    exact h.links k _ (List.getElem?_eq_getElem hlt) hk
  · rintro ⟨hsessions, hrows⟩
    refine ⟨hsessions, fun k link hlink hk => ?_, fun k token htoken hk hexp => ?_⟩
    · obtain ⟨row, hrow⟩ := ok.row hlink
      rw [ok.acceptsLink hlink hrow]
      exact hrows k row hrow hk
    · obtain ⟨t, ht, rfl, hsince⟩ := ok.minted k token htoken
      have hactive := ok.active (List.ne_nil_of_mem (List.mem_of_getElem? htoken))
      exact (accepts_minted hactive ht).mpr ⟨hexp, fun c hc => timestamp_mono (hsince hk c hc)⟩

/-- A session goes on after the password is set exactly when it began in the same second. -/
theorem Ok.accepts_setPassword (ok : acc.Ok sha256) {hashed : String} {sessions : List AccessToken}
    {rows : List PasswordResetToken} (hk : acc.sessions[k]? = some token) :
    Account.accepts { acc.setPassword hashed with sessions := sessions, resetTokens := rows } token = true ↔
      token.iat = some (timestamp acc.now) := by
  obtain ⟨t, ht, rfl, -⟩ := ok.minted k token hk
  have hon := ok.active (List.ne_nil_of_mem (List.mem_of_getElem? hk))
  have haccepts : Account.accepts { acc.setPassword hashed with sessions := sessions, resetTokens := rows }
      (createAccessToken acc.id acc.username acc.role t) = true ↔
      acc.now < (createAccessToken acc.id acc.username acc.role t).exp * 1000000 ∧
        ∀ c, some acc.now = some c → timestamp c ≤ timestamp t := accepts_minted hon ht
  change _ ↔ some (timestamp t) = _
  rw [Option.some_inj]
  refine haccepts.trans ⟨fun h => ?_, fun hsame => ⟨unexpired_of_second hsame, fun c hc => ?_⟩⟩
  · exact le_antisymm (timestamp_mono ht) (h.2 acc.now rfl)
  · cases hc
    exact hsame.ge

/-- What a new password leaves: the sessions of this second and the valid rows but the one it used. -/
theorem Ok.ended_setPassword (ok : acc.Ok sha256) {hashed : String} {sessions : List AccessToken}
    {rows : List PasswordResetToken} (used : Option ℕ)
    (ok' : Ok sha256 { acc.setPassword hashed with sessions := sessions, resetTokens := rows })
    (hsessions : ∀ k < acc.sessions.length, sessions[k]? = acc.sessions[k]?)
    (hrows : ∀ (k : ℕ), rows[k]? = (acc.resetTokens[k]?).map fun row =>
      if used = some k then { row with used := true } else row) :
    Account.Ended sha256 { acc.setPassword hashed with sessions := sessions, resetTokens := rows } ↔ acc.NoneLeft used := by
  have hlen : acc.resetTokens.length = acc.links.length := by simpa using congrArg List.length ok.hashes
  rw [ok'.ended_iff]
  refine and_congr ⟨fun h token htoken hsecond => ?_, fun h k token hk hold => ?_⟩ ⟨fun h k row hrow hvalid => ?_, fun h k row' hrow' _ => ?_⟩
  · obtain ⟨k, hk⟩ := List.mem_iff_getElem?.mp htoken
    have hlt := (List.getElem?_eq_some_iff.mp hk).1
    have hrefused := h k token ((hsessions k hlt).trans hk) hlt
    rw [(ok.accepts_setPassword hk).mpr hsecond] at hrefused
    cases hrefused
  · have hk' := (hsessions k hold).symm.trans hk
    rw [← Bool.not_eq_true]
    exact fun haccepts => h token (List.mem_of_getElem? hk') ((ok.accepts_setPassword hk').mp haccepts)
  · by_contra hother
    have hlt := (List.getElem?_eq_some_iff.mp hrow).1
    rw [hlen] at hlt
    have hinvalid := h k row (by rw [hrows, hrow, Option.map_some, if_neg hother]) hlt
    exact absurd hvalid (Bool.eq_false_iff.mp hinvalid)
  · change rows[k]? = some row' at hrow'
    rw [hrows] at hrow'
    obtain ⟨row, hrow, rfl⟩ := Option.map_eq_some_iff.mp hrow'
    split_ifs with hused
    · rfl
    · rw [← Bool.not_eq_true]
      exact fun hvalid => hused (h k row hrow hvalid)

/-- A session that is refused stays refused as time passes. -/
theorem Ok.accepts_later (ok : acc.Ok sha256) {microseconds : ℕ} (hk : acc.sessions[k]? = some token)
    (h : acc.accepts token = false) : Account.accepts { acc with now := acc.now + microseconds } token = false := by
  obtain ⟨t, ht, rfl, -⟩ := ok.minted k token hk
  have hon := ok.active (List.ne_nil_of_mem (List.mem_of_getElem? hk))
  have hlater : Account.accepts { acc with now := acc.now + microseconds } (createAccessToken acc.id acc.username acc.role t) =
      true ↔ acc.now + microseconds < (createAccessToken acc.id acc.username acc.role t).exp * 1000000 ∧
        ∀ c, acc.passwordChangedAt = some c → timestamp c ≤ timestamp t :=
    accepts_minted hon (ht.trans (Nat.le_add_right _ _))
  rw [← Bool.not_eq_true] at h ⊢
  intro haccepts
  obtain ⟨hexp, hsince⟩ := hlater.mp haccepts
  exact h ((accepts_minted hon ht).mpr ⟨(Nat.le_add_right _ _).trans_lt hexp, hsince⟩)

/-- One step: nothing old is accepted after it exactly when a request that sets the password found
nothing left. -/
theorem Ended.step_iff (ok : acc.Ok sha256) (hended : acc.Ended sha256) (h : Does checkpw sha256 acc op acc') :
    acc'.Ended sha256 ↔ acc.FindsNoneLeft checkpw sha256 op := by
  have ok' := ok.step h
  obtain ⟨hsessions, hrows⟩ := ok.ended_iff.mp hended
  cases h with
  | refused hnone => exact iff_of_true hended hnone
  | login =>
    refine iff_of_true (ok'.ended_iff.mpr ⟨fun k token hk hold => ?_, hrows⟩) trivial
    rcases Table.getElem?_concat_some hk with hk | ⟨rfl, -⟩
    · exact hsessions k token hk hold
    · exact absurd hold (not_lt.mpr ok.counts.1)
  | link =>
    refine iff_of_true (ok'.ended_iff.mpr ⟨hsessions, fun k row hk hold => ?_⟩) trivial
    rcases Table.getElem?_concat_some hk with hk | ⟨rfl, -⟩
    · exact hrows k row hk hold
    · have hlen : acc.resetTokens.length = acc.links.length := by simpa using congrArg List.length ok.hashes
      exact absurd hold (not_lt.mpr (hlen ▸ ok.counts.2))
  | @tick microseconds =>
    refine iff_of_true (ok'.ended_iff.mpr ⟨fun k token hk hold => ok.accepts_later hk (hsessions k token hk hold),
      fun k row hrow hold => ?_⟩) trivial
    have hinvalid := hrows k row hrow hold
    unfold PasswordResetToken.isValid at hinvalid ⊢
    rw [Bool.and_eq_false_iff, decide_eq_false_iff_not] at hinvalid ⊢
    exact hinvalid.imp_right fun hexpired hlater => hexpired ((Nat.le_add_right acc.now microseconds).trans_lt hlater)
  | @reset _ _ _ hashed k hcheck =>
    have hmodified : ∀ j : ℕ, (acc.resetTokens.modify k ({ · with used := true }))[j]? = (acc.resetTokens[j]?).map fun row =>
        if some k = some j then { row with used := true } else row := by
      intro j
      rw [List.getElem?_modify]
      simp only [Option.some_inj]
      rfl
    have hiff := ok.ended_setPassword (some k) ok' (fun _ _ => rfl) hmodified
    refine hiff.trans ⟨fun hnone k' hk' => ?_, fun hnone => hnone k hcheck⟩
    rw [hcheck, Except.ok.injEq] at hk'
    exact hk' ▸ hnone
  | changed hcheck =>
    have hiff := ok.ended_setPassword none ok' (fun k hk => List.getElem?_append_left hk) fun j => by
      simp [setPassword]
    exact hiff.trans ⟨fun hnone _ => hnone, fun hnone => hnone hcheck⟩

/-- In every run whose new passwords found nothing left, nothing from before the last of them is accepted
and every later session is; and the next step keeps it so exactly when it meets the condition too. -/
theorem password_ends_older (h : acc₀.Fresh)
    (hrun : Run (Account.step checkpw sha256) (FindsNoneLeft checkpw sha256) acc₀ ops acc) :
    acc.Ended sha256 ∧ ∀ op, (acc.step checkpw sha256 op).Ended sha256 ↔ acc.FindsNoneLeft checkpw sha256 op := by
  have hstart : acc₀.Ok sha256 := h.ok
  have hended : acc₀.Ended sha256 := by
    refine hstart.ended_iff.mpr ⟨fun k token hk => ?_, fun k row hrow => ?_⟩
    · rw [h.sessions] at hk
      cases hk
    · rw [h.resetTokens] at hrow
      cases hrow
  have hall : acc.Ok sha256 ∧ acc.Ended sha256 := by
    refine hrun.invariant (I := fun acc => acc.Ok sha256 ∧ acc.Ended sha256) ⟨hstart, hended⟩ ?_
    rintro acc op ⟨ok, hended⟩ hnone
    have hdoes := does_step checkpw sha256 acc op
    exact ⟨ok.step hdoes, (Ended.step_iff ok hended hdoes).mpr hnone⟩
  exact ⟨hall.2, fun op => Ended.step_iff hall.1 hall.2 (does_step checkpw sha256 acc op)⟩

end

/-! A link that was not used -/

/-- A hash for the examples: the text itself. -/
def plainHash (text : String) : String := text

def signedUp : Account where
  id := 1
  username := "kim"
  role := .teacher
  passwordHash := "first password"

/-- Two reset links are asked for, and the second is used. -/
def twoLinks : List AuthOp :=
  [.forgotPassword "kim" "lost" false, .tick 60000000, .forgotPassword "kim" "found" false, .tick 60000000,
    .resetPassword "found" "second password" "second password" "second password"]

theorem signedUp_fresh : signedUp.Fresh := ⟨rfl, rfl, rfl, rfl, rfl, fun _ hc => by cases hc⟩

/-- The first link still sets the password. -/
theorem link_survives : ¬ ∀ (checkpw : String → String → Bool) (sha256 : String → String) (acc₀ acc : Account)
    (ops : List AuthOp), acc₀.Fresh → Run (Account.step checkpw sha256) Any acc₀ ops acc → acc.Ended sha256 := by
  intro hall
  have h := hall (· == ·) plainHash signedUp _ twoLinks signedUp_fresh (run_foldl _)
  exact absurd (h.links 0 "lost" (by decide +kernel) (by decide +kernel)) (by decide +kernel)

/-- The password is changed two seconds after the login. -/
def changedLater : List AuthOp :=
  [.login "kim" "first password" false, .tick 2000000,
    .changePassword (createAccessToken 1 "kim" .teacher 0) "first password" "second password" "second password" "second password"]

/-- The session of the login ends, and its successor goes on. -/
theorem login_ends :
    (changedLater.foldl (Account.step (· == ·) plainHash) signedUp).sessions.length = 2 ∧
      (changedLater.foldl (Account.step (· == ·) plainHash) signedUp).Ended plainHash := by
  have hchecks : Checks (Account.step (· == ·) plainHash) (FindsNoneLeft (· == ·) plainHash) signedUp changedLater := by
    refine ⟨trivial, trivial, fun _ => ⟨by decide +kernel, fun k row hrow => ?_⟩, trivial⟩
    have hnone : ([] : List PasswordResetToken)[k]? = some row := hrow
    rw [List.getElem?_nil] at hnone
    cases hnone
  exact ⟨by decide +kernel, (password_ends_older signedUp_fresh (run_of_checks hchecks)).1⟩

end Account

end SubmissionsChecker
