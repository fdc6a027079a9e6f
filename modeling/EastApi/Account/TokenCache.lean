import EastApi.Lib.Run

/-! The cache of API tokens (`model/token.go`, `model/token_cache.go`).  Jobs run in any order, each
with the token of the time at which it was spawned.  A job that stores an enabled token after its
row was disabled or deleted brings the token back.  The cache is given by the token's key; the HMAC
under which Redis has it is taken to have no collisions. -/

namespace EastApi.Account.TokenCache

open Run List Function Option

inductive Status where
  | enabled
  | disabled
  | expired
  | exhausted
  | other (code : Int)
  deriving DecidableEq

structure Token where
  (id userId : Int)
  key : String
  status : Status := .enabled
  expiredTime : Int := -1
  remainQuota : Int := 0
  unlimitedQuota : Bool := false
  deriving DecidableEq

def Token.clean (token : Token) : Token := { token with key := "" }

inductive Error where
  | tokenNotProvided
  | tokenInvalid
  deriving DecidableEq

abbrev Cache := String → Option Token

def cacheGetTokenByKey (cache : Cache) (key : String) : Option Token :=
  (cache key).map fun token => { token with key }

def firstByKey (rows : List Token) (key : String) : Option Token := rows.find? (·.key = key)

def checkToken (now : Int) (token : Token) : Except Error Token :=
  if token.status = .exhausted ∨ token.status = .expired ∨ token.status ≠ .enabled then
    .error .tokenInvalid
  else if token.expiredTime ≠ -1 ∧ token.expiredTime < now then .error .tokenInvalid
  else if !token.unlimitedQuota ∧ token.remainQuota ≤ 0 then .error .tokenInvalid
  else .ok token

def validateUserToken (cache : Cache) (rows : List Token) (now : Int) (key : String) :
    Except Error Token :=
  if key = "" then .error .tokenNotProvided
  else
    match (cacheGetTokenByKey cache key).or (firstByKey rows key) with
    | some token => checkToken now token
    | none => .error .tokenInvalid

/-- What a request of `UpdateToken` changes: the status alone, or the other fields. -/
inductive Edit where
  | statusOnly (status : Status)
  | fields (expiredTime remainQuota : Int) (unlimitedQuota : Bool)

def Edit.apply : Edit → Token → Token
  | .statusOnly status, token => { token with status }
  | .fields expiredTime remainQuota unlimitedQuota, token =>
    { token with expiredTime, remainQuota, unlimitedQuota }

inductive Call where
  | getTokenByKey (key : String) (fromDB : Bool)
  | update (id userId : Int) (edit : Edit)
  | delete (id userId : Int)
  | batchDeleteTokens (ids : List Int) (userId : Int)

inductive Phase where
  | start
  | missed
  | loaded (token : Token)
  | found (tokens : List Token)
  | done

inductive Job where
  | cacheSetToken (token : Token)
  | cacheDeleteTokens (keys : List String)

structure Sys (ω : Type*) where
  rows : List Token
  cache : Cache
  jobs : List Job
  phase : ω → Phase

def updateRow (token : Token) (rows : List Token) : List Token :=
  rows.map fun row =>
    if row.id = token.id then
      { row with
        status := token.status
        expiredTime := token.expiredTime
        remainQuota := token.remainQuota
        unlimitedQuota := token.unlimitedQuota }
    else row

def inBatch (ids : List Int) (userId : Int) (row : Token) : Bool :=
  row.userId = userId && row.id ∈ ids

def advance (rows : List Token) (cache : Cache) (jobs : List Job) :
    Call → Phase → Option (List Token × List Job × Phase)
  | .getTokenByKey key false, .start =>
    some (rows, jobs, if (cacheGetTokenByKey cache key).isSome then .done else .missed)
  | .getTokenByKey key true, .start | .getTokenByKey key _, .missed =>
    match firstByKey rows key with
    | some token => some (rows, .cacheSetToken token :: jobs, .done)
    | none => some (rows, jobs, .done)
  | .update id userId _, .start | .delete id userId, .start =>
    match rows.find? fun row => row.id = id && row.userId = userId with
    | some token => some (rows, jobs, .loaded token)
    | none => some (rows, jobs, .done)
  | .update _ _ edit, .loaded token =>
    some (updateRow (edit.apply token) rows, .cacheSetToken (edit.apply token) :: jobs, .done)
  | .delete _ _, .loaded token =>
    some (rows.filter (·.id ≠ token.id), .cacheDeleteTokens [token.key] :: jobs, .done)
  | .batchDeleteTokens ids userId, .start =>
    some (rows, jobs, .found (rows.filter (inBatch ids userId)))
  -- the rows leave the table when the transaction commits
  | .batchDeleteTokens ids userId, .found tokens =>
    some (rows.filter (!inBatch ids userId ·), .cacheDeleteTokens (tokens.map (·.key)) :: jobs,
      .done)
  | _, _ => none

def runJob (cache : Cache) : Job → Cache × List Job
  | .cacheSetToken token => (update cache token.key (some token.clean), [])
  | .cacheDeleteTokens (key :: keys) =>
    (update cache key none, [.cacheDeleteTokens keys])
  | .cacheDeleteTokens [] => (cache, [])

inductive Action (ω : Type*) where
  | step (w : ω)
  | runJob (index : Nat)

section System

variable {ω : Type*} [DecidableEq ω] (calls : ω → Call)

def step (s : Sys ω) : Action ω → Option (Sys ω)
  | .step w =>
    (advance s.rows s.cache s.jobs (calls w) (s.phase w)).map fun next =>
      ⟨next.1, s.cache, next.2.1, update s.phase w next.2.2⟩
  | .runJob index =>
    s.jobs[index]?.map fun job =>
      { s with
        cache := (runJob s.cache job).1
        jobs := (runJob s.cache job).2 ++ s.jobs.eraseIdx index }

/-- A job that stores an enabled token runs while the row of that key is still enabled. -/
def storesEnabled (s : Sys ω) : Action ω → Prop
  | .step _ => True
  | .runJob index => ∀ token, s.jobs[index]? = some (.cacheSetToken token) →
      token.status = .enabled → ∃ row ∈ s.rows, row.key = token.key ∧ row.status = .enabled

def Revoked (rows : List Token) (key : String) : Prop :=
  ∀ row ∈ rows, row.key = key → row.status ≠ .enabled

def Job.revokes (key : String) : Job → Prop
  | .cacheSetToken token => token.key = key ∧ token.status ≠ .enabled
  | .cacheDeleteTokens keys => key ∈ keys

def Phase.Holds (rows : List Token) (call : Call) : Phase → Prop
  | .loaded token => ∀ row ∈ rows, row.id = token.id → row.key = token.key
  | .found tokens =>
    ∀ ids userId, call = .batchDeleteTokens ids userId →
      ∀ row ∈ rows, inBatch ids userId row → row.key ∈ tokens.map (·.key)
  | _ => True

def Kept (rows rows' : List Token) : Prop :=
  ∀ row' ∈ rows', ∃ row ∈ rows, row.id = row'.id ∧ row.userId = row'.userId ∧ row.key = row'.key

theorem Kept.refl (rows : List Token) : Kept rows rows :=
  fun row mem => ⟨row, mem, rfl, rfl, rfl⟩

theorem Kept.filter (rows : List Token) (p : Token → Bool) : Kept rows (rows.filter p) :=
  fun row mem => ⟨row, (mem_filter.mp mem).1, rfl, rfl, rfl⟩

theorem Kept.updateRow (rows : List Token) (token : Token) : Kept rows (updateRow token rows) := by
  intro row' written
  obtain ⟨row, mem, rfl⟩ := mem_map.mp written
  refine ⟨row, mem, ?_⟩
  split <;> exact ⟨rfl, rfl, rfl⟩

variable {rows : List Token} {phase : Phase}

theorem Phase.Holds.kept (holds : phase.Holds rows call) (kept : Kept rows rows') :
    phase.Holds rows' call := by
  cases phase with
  | loaded token =>
    intro row' mem same
    obtain ⟨row, mem, idEq, _, keyEq⟩ := kept row' mem
    exact keyEq ▸ holds row mem (idEq.trans same)
  | found tokens =>
    intro ids userId isBatch row' mem named
    obtain ⟨row, mem, idEq, userEq, keyEq⟩ := kept row' mem
    refine keyEq ▸ holds ids userId isBatch row mem ?_
    simpa only [inBatch, idEq, userEq] using named
  | _ => trivial

variable {calls}

/-- What one statement does to the rows and the jobs: where it revokes a token, it spawns a job that
takes the token out of the cache. -/
structure Effect (rows : List Token) (jobs : List Job) (call : Call) (rows' : List Token)
    (jobs' : List Job) (phase' : Phase) : Prop where
  kept : Kept rows rows'
  jobs : jobs ⊆ jobs'
  revokes : ∀ key, Revoked rows' key → Revoked rows key ∨ ∃ job ∈ jobs', job.revokes key
  holds : phase'.Holds rows' call

variable {jobs : List Job}

theorem Effect.read (more : jobs ⊆ jobs') (holds : phase'.Holds rows call) :
    Effect rows jobs call rows jobs' phase' :=
  ⟨.refl rows, more, fun _ revoked => .inl revoked, holds⟩

theorem Effect.remove {keys : List String}
    (named : ∀ row ∈ rows, p row = false → row.key ∈ keys) :
    Effect rows jobs call (rows.filter p) (.cacheDeleteTokens keys :: jobs) .done := by
  refine ⟨.filter rows p, subset_cons_self _ _, fun key revoked => ?_, trivial⟩
  by_cases listed : key ∈ keys
  · exact .inr ⟨_, mem_cons_self, listed⟩
  · refine .inl fun row mem same => revoked row (mem_filter.mpr ⟨mem, ?_⟩) same
    by_contra removed
    exact listed (same ▸ named row mem (by simpa using removed))

theorem Effect.update (holds : ∀ row ∈ rows, row.id = token.id → row.key = token.key) :
    Effect rows jobs call (updateRow token rows) (.cacheSetToken token :: jobs) .done := by
  refine ⟨.updateRow rows token, subset_cons_self _ _, fun key revoked => ?_, trivial⟩
  by_cases revokes : token.key = key ∧ token.status ≠ .enabled
  · exact .inr ⟨_, mem_cons_self, revokes⟩
  · refine .inl fun row mem same => ?_
    by_cases own : row.id = token.id
    · -- the row is written with the status of the token, which would have to be enabled
      have written := revoked _ (mem_map_of_mem mem) (by simpa [own] using same)
      rw [if_pos own] at written
      exact absurd ⟨(holds row mem own).symm.trans same, written⟩ revokes
    · have kept := revoked _ (mem_map_of_mem mem) (by simpa [own] using same)
      rwa [if_neg own] at kept

theorem advance_effect
    (ids : ∀ row ∈ rows, ∀ other ∈ rows, row.id = other.id → row.key = other.key)
    (holds : phase.Holds rows call)
    (next : advance rows cache jobs call phase = some (rows', jobs', phase')) :
    Effect rows jobs call rows' jobs' phase' := by
  revert next
  fun_cases advance rows cache jobs call phase <;> intro next <;> cases next
  case case1.refl =>
    refine .read (List.Subset.refl _) ?_
    split <;> trivial
  case case2.refl | case4.refl => exact .read (subset_cons_self _ _) trivial
  case case6.refl token found | case8.refl token found =>
    have mem := mem_of_find?_eq_some found
    exact .read (List.Subset.refl _) fun row rowMem same => ids row rowMem token mem same
  case case10.refl edit token =>
    refine .update fun row mem same => ?_
    cases edit <;> exact holds row mem same
  case case11.refl =>
    refine .remove fun row mem removed => ?_
    exact mem_singleton.mpr (holds row mem (by simpa using removed))
  case case12.refl =>
    refine .read (List.Subset.refl _) fun _ _ same row mem named => ?_
    cases same
    exact mem_map_of_mem (mem_filter.mpr ⟨mem, named⟩)
  case case13.refl =>
    exact .remove fun row mem removed => holds _ _ rfl row mem (by simpa using removed)
  all_goals exact .read (List.Subset.refl _) trivial

variable (calls) in
/-- For every enabled token in the cache whose row is revoked, a job that takes it out is still to
run. -/
structure Revocable (s : Sys ω) : Prop where
  ids : ∀ row ∈ s.rows, ∀ other ∈ s.rows, row.id = other.id → row.key = other.key
  holds : ∀ w, (s.phase w).Holds s.rows (calls w)
  pending : ∀ key token, s.cache key = some token → token.status = .enabled →
    Revoked s.rows key → ∃ job ∈ s.jobs, job.revokes key

variable {s t : Sys ω}

theorem Revocable.call (inv : Revocable calls s)
    (effect : Effect s.rows s.jobs (calls w) rows jobs phase) :
    Revocable calls ⟨rows, s.cache, jobs, update s.phase w phase⟩ := by
  refine ⟨fun row mem other otherMem same => ?_, ?_,
    fun key token cached enabled revoked => ?_⟩
  · obtain ⟨old, oldMem, oldId, _, oldKey⟩ := effect.kept row mem
    obtain ⟨old', oldMem', oldId', _, oldKey'⟩ := effect.kept other otherMem
    rw [← oldKey, ← oldKey']
    exact inv.ids old oldMem old' oldMem' (by rw [oldId, oldId', same])
  · exact (forall_update_iff s.phase fun v phase => phase.Holds rows (calls v)).mpr
      ⟨effect.holds, fun v _ => (inv.holds v).kept effect.kept⟩
  · rcases effect.revokes key revoked with before | spawned
    · obtain ⟨job, mem, revokes⟩ := inv.pending key token cached enabled before
      exact ⟨job, effect.jobs mem, revokes⟩
    · exact spawned

omit [DecidableEq ω] in
theorem Revocable.runJob (inv : Revocable calls s) (found : s.jobs[index]? = some job)
    (ok : storesEnabled s (.runJob index)) :
    Revocable calls
      { s with
        cache := (TokenCache.runJob s.cache job).1
        jobs := (TokenCache.runJob s.cache job).2 ++ s.jobs.eraseIdx index } := by
  refine ⟨inv.ids, inv.holds, fun key token cached enabled revoked => ?_⟩
  -- a job that is not the one that runs is still there
  have stays : ∀ other ∈ s.jobs, other ≠ job → other ∈ s.jobs.eraseIdx index := by
    intro other mem different
    obtain ⟨i, place⟩ := mem_iff_getElem?.mp mem
    refine mem_eraseIdx_iff_getElem?.mpr ⟨i, ?_, place⟩
    rintro rfl
    exact different (some.inj (place.symm.trans found))
  cases job with
  | cacheSetToken stored =>
    rcases of_update_eq cached with ⟨rfl, same⟩ | ⟨own, cached⟩
    · cases same
      obtain ⟨row, mem, same, rowEnabled⟩ := ok stored found enabled
      exact absurd rowEnabled (revoked row mem same)
    · obtain ⟨other, mem, revokes⟩ := inv.pending key token cached enabled revoked
      refine ⟨other, stays other mem ?_, revokes⟩
      rintro rfl
      exact own revokes.1.symm
  | cacheDeleteTokens keys =>
    cases keys with
    | nil =>
      obtain ⟨other, mem, revokes⟩ := inv.pending key token cached enabled revoked
      refine ⟨other, stays other mem ?_, revokes⟩
      rintro rfl
      exact absurd revokes not_mem_nil
    | cons first rest =>
      rcases of_update_eq cached with ⟨-, same⟩ | ⟨own, cached⟩
      · cases same
      · obtain ⟨other, mem, revokes⟩ := inv.pending key token cached enabled revoked
        by_cases same : other = .cacheDeleteTokens (first :: rest)
        · subst same
          have later : key ∈ rest := (mem_cons.mp revokes).resolve_left own
          exact ⟨.cacheDeleteTokens rest, mem_cons_self, later⟩
        · exact ⟨other, mem_cons_of_mem _ (stays other mem same), revokes⟩

theorem Revocable.step (inv : Revocable calls s) (ok : storesEnabled s a)
    (next : TokenCache.step calls s a = some t) : Revocable calls t := by
  cases a with
  | step w =>
    obtain ⟨⟨rows, jobs, phase⟩, moved, rfl⟩ := map_eq_some_iff.mp next
    exact inv.call (advance_effect inv.ids (inv.holds w) moved)
  | runJob index =>
    obtain ⟨job, found, rfl⟩ := map_eq_some_iff.mp next
    exact inv.runJob found ok

theorem checkToken_rejects (disabled : token.status ≠ .enabled) :
    checkToken now token = .error .tokenInvalid :=
  if_pos (.inr (.inr disabled))

/-- In a run in which no job stores an enabled token whose row is revoked: once a token is disabled
or deleted and all jobs have run, the token is rejected. -/
theorem revoked_token_rejected {rows : List Token} {cache : Cache} {as : List (Action ω)}
    (ids : ∀ row ∈ rows, ∀ other ∈ rows, row.id = other.id → row.key = other.key)
    (fresh : ∀ key token, cache key = some token → token.status = .enabled → ¬ Revoked rows key)
    (path : Path storesEnabled (TokenCache.step calls) ⟨rows, cache, [], fun _ => .start⟩ as t)
    (ran : t.jobs = []) {key : String} (revoked : Revoked t.rows key) (now : Int) :
    ∃ e, validateUserToken t.cache t.rows now key = .error e := by
  have start : Revocable calls ⟨rows, cache, [], fun _ => .start⟩ :=
    ⟨ids, fun _ => trivial, fun key token cached enabled revoked =>
      absurd revoked (fresh key token cached enabled)⟩
  have inv := path.invariant (fun _ _ _ inv ok next => inv.step ok next) start
  unfold validateUserToken
  split
  · exact ⟨_, rfl⟩
  cases cached : t.cache key with
  | some token =>
    -- an enabled token would still have its job
    have disabled : token.status ≠ .enabled := by
      intro enabled
      obtain ⟨job, mem, _⟩ := inv.pending key token cached enabled revoked
      simp [ran] at mem
    simp only [cacheGetTokenByKey, cached, map_some, some_or]
    exact ⟨_, checkToken_rejects disabled⟩
  | none =>
    simp only [cacheGetTokenByKey, cached, map_none, none_or]
    cases row : firstByKey t.rows key with
    | none => exact ⟨_, rfl⟩
    | some token =>
      have same : token.key = key := by simpa using find?_some row
      exact ⟨_, checkToken_rejects (revoked token (mem_of_find?_eq_some row) same)⟩

end System

def oneToken : Sys Bool :=
  ⟨[⟨1, 7, "sk", .enabled, -1, 0, true⟩], fun _ => none, [], fun _ => .start⟩

def readAndDelete (w : Bool) : Call := if w then .getTokenByKey "sk" false else .delete 1 7

/-- The read's job is run before the deletion. -/
theorem revoked_token_rejected_read :
    ∃ t, Path storesEnabled (step readAndDelete) oneToken
        [.step true, .step true, .runJob 0, .step false, .step false, .runJob 0, .runJob 0] t ∧
      ∃ e, validateUserToken t.cache t.rows 0 "sk" = .error e := by
  refine Path.exists_and (.cons trivial rfl <| .cons trivial rfl <|
    .cons (fun _ h _ => by cases h; exact ⟨_, mem_cons_self, rfl, rfl⟩) rfl <|
    .cons trivial rfl <| .cons trivial rfl <| .cons (fun _ h => by cases h) rfl <|
    .cons (fun _ h => by cases h) rfl <| .nil _) fun path => ?_
  exact revoked_token_rejected (by simp) (by simp) path rfl (fun row mem => by cases mem) 0

/-- The read's job is run after that of the deletion: the deleted token is accepted. -/
theorem deleted_token_accepted :
    ((exec (step readAndDelete) oneToken
        [.step true, .step true, .step false, .step false, .runJob 0, .runJob 0, .runJob 0]).map
      fun t => (t.rows, t.jobs.length, validateUserToken t.cache t.rows 0 "sk")) =
      some ([], 0, .ok ⟨1, 7, "sk", .enabled, -1, 0, true⟩) := by
  decide +kernel

end EastApi.Account.TokenCache
