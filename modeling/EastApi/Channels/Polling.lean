import EastApi.Channels.KeyStatus

/-! The keys of a channel without the memory cache.  The polling index and the statuses of the keys
are one column.  Each action is one statement of one call, and the calls of all nodes interleave at
will: the polling lock of a node is not held from the load on. -/

namespace EastApi.Channels

open Run Function Option List

def nextIndex (info : ChannelInfo) (n : ℕ) (pollingIndex : Int) : Option ℕ :=
  let start := if pollingIndex < 0 ∨ n ≤ pollingIndex then 0 else pollingIndex.toNat
  ((range n).map fun i => (start + i) % n).find? fun i => info.keyStatus i = .enabled

def enabledIdx (info : ChannelInfo) (n : ℕ) : List ℕ :=
  (range n).filter fun i => info.keyStatus i = .enabled

section
variable (parseArray : String → Option (List String))

/-- The key that is returned and its index, or an error; and the channel that the deferred function
saves, if the call comes so far.  `pollingIndex` is read from the database.  Outside of polling
`intn` chooses among the enabled keys. -/
def Channel.getNextEnabledKey (c : Channel) (pollingIndex : Int) (intn : ℕ → ℕ) :
    Except String (String × ℕ) × Option Channel :=
  if ¬ c.channelInfo.isMultiKey then (.ok (c.key, 0), none)
  else
    let keys := c.getKeys parseArray
    if keys = [] then (.error "no keys available", none)
    else
      let enabled := enabledIdx c.channelInfo keys.length
      if enabled = [] then (.error "no enabled keys", none)
      else if c.channelInfo.isPolling then
        match nextIndex c.channelInfo keys.length pollingIndex with
        | some i => (.ok (keys.getD i "", i),
            some { c with channelInfo.multiKeyPollingIndex := ((i + 1) % keys.length : ℕ) })
        | none => (.ok (keys.getD (enabled.getD 0 0) "", enabled.getD 0 0), some c)
      else
        let i := enabled.getD (intn enabled.length) 0
        (.ok (keys.getD i "", i), none)

inductive CallPhase
  | idle
  | holding (loaded copy : Channel)
  /-- `SaveChannelInfo` is next. -/
  | savingInfo (loaded copy : Channel)
  /-- `SaveWithoutKey` is next, with the changes that the call makes in the loaded channel. -/
  | savingRow (loaded : Channel) (call : StatusChange)

structure KeyTable (ω : Type) where
  row : Channel
  phase : ω → CallPhase

inductive KeyAction (ω : Type)
  | load (w : ω)
  /-- `GetNextEnabledKey` up to its reading of the polling index. -/
  | next (w : ω) (intn : ℕ → ℕ)
  | saveInfo (w : ω)
  /-- `UpdateChannelStatus` up to its load of the channel. -/
  | setStatus (w : ω) (call : StatusChange)
  | saveRow (w : ω)

variable {ω : Type} [DecidableEq ω]

def KeyTable.setPhase (s : KeyTable ω) (w : ω) (p : CallPhase) : KeyTable ω :=
  { s with phase := update s.phase w p }

def keyStep (s : KeyTable ω) : KeyAction ω → Option (KeyTable ω)
  | .load w => some (s.setPhase w (.holding s.row s.row))
  | .next w intn =>
    match s.phase w with
    | .holding loaded copy =>
      match (copy.getNextEnabledKey parseArray s.row.channelInfo.multiKeyPollingIndex intn).2 with
      | none => some s
      | some copy => some (s.setPhase w (.savingInfo loaded copy))
    | _ => none
  | .saveInfo w =>
    match s.phase w with
    | .savingInfo loaded copy =>
      some { s.setPhase w (.holding loaded copy) with
        row := { s.row with channelInfo := copy.channelInfo } }
    | _ => none
  | .setStatus w call =>
    match s.phase w with
    | .idle =>
      if s.row.status = call.status then some s
      else some (s.setPhase w (.savingRow s.row call))
    | _ => none
  | .saveRow w =>
    match s.phase w with
    | .savingRow loaded call => some { s.setPhase w .idle with
        row := { loaded.changeStatus parseArray call with key := s.row.key } }
    | _ => none

def Channel.disabled (c : Channel) (i : Int) : Prop := c.channelInfo.keyStatus i ≠ .enabled

/-- The key that a call of `UpdateChannelStatus` changes. -/
def Channel.changedKey (c : Channel) (call : StatusChange) : Option Int :=
  let keys := { c with keys := [] }.getKeys parseArray
  if c.channelInfo.isMultiKey = true ∧ keys ≠ [] then some (keyIndex keys call.usingKey) else none

/-- The channel that a save has been made from, as it was loaded, and the key that was changed in
it. -/
def KeyTable.saves (s : KeyTable ω) : KeyAction ω → Option (Channel × Option Int)
  | .saveInfo w =>
    match s.phase w with
    | .savingInfo loaded _ => some (loaded, none)
    | _ => none
  | .saveRow w =>
    match s.phase w with
    | .savingRow loaded call => some (loaded, loaded.changedKey parseArray call)
    | _ => none
  | _ => none

/-- Every key that is stored as disabled was so when the saved channel was loaded, but for the one
that the call itself disables. -/
def Covers (s : KeyTable ω) (a : KeyAction ω) : Prop :=
  ∀ loaded own, s.saves parseArray a = some (loaded, own) →
    ∀ i, s.row.disabled i → loaded.disabled i ∨ own = some i

def Undisturbed (s : KeyTable ω) (a : KeyAction ω) : Prop :=
  ∀ loaded own, s.saves parseArray a = some (loaded, own) →
    s.row.channelInfo.multiKeyStatusList = loaded.channelInfo.multiKeyStatusList

def Throughout (ok : KeyTable ω → KeyAction ω → Prop) (s : KeyTable ω)
    (actions : List (KeyAction ω)) : Prop :=
  ∀ before a, before ++ [a] <+: actions → ∀ mid,
    exec (keyStep parseArray) s before = some mid → ok mid a

/-- A key that is stored as disabled at any point of a run is stored so from then on. -/
def StaysDisabled (s : KeyTable ω) (actions : List (KeyAction ω)) : Prop :=
  ∀ before later, before ++ later <+: actions → ∀ mid t,
    exec (keyStep parseArray) s before = some mid → exec (keyStep parseArray) mid later = some t →
      ∀ i, mid.row.disabled i → t.row.disabled i

end

section
variable {parseArray : String → Option (List String)} {ω : Type} [DecidableEq ω]
  {s t : KeyTable ω} {a : KeyAction ω}

/-- What a call may hold: a channel with the statuses that it was loaded with, or a status other
than enabled. -/
def CallPhase.Sound : CallPhase → Prop
  | .idle => True
  | .holding loaded copy | .savingInfo loaded copy =>
    copy.channelInfo.multiKeyStatusList = loaded.channelInfo.multiKeyStatusList
  | .savingRow _ call => call.status ≠ .enabled

def KeyAction.disables : KeyAction ω → Prop
  | .setStatus _ call => call.status ≠ .enabled
  | _ => True

theorem changeStatus_disabled_iff {c : Channel} (disables : call.status ≠ .enabled) :
    (c.changeStatus parseArray call).disabled i ↔
      c.disabled i ∨ c.changedKey parseArray call = some i := by
  unfold Channel.changeStatus Channel.changedKey
  by_cases multi : c.channelInfo.isMultiKey = true
  · rw [if_pos multi]
    unfold handlerMultiKeyUpdate
    extract_lets keys info
    by_cases empty : keys = []
    · simp [empty, Channel.disabled]
    have changed :
        info.keyStatus i ≠ .enabled ↔ c.disabled i ∨ keyIndex keys call.usingKey = i := by
      simp only [info, ChannelInfo.setKeyStatus, if_neg disables, ChannelInfo.keyStatus,
        Channel.disabled]
      by_cases own : i = keyIndex keys call.usingKey
      · rw [own, AList.lookup_insert]
        exact iff_of_true disables (.inr rfl)
      · rw [AList.lookup_insert_ne own]
        exact (or_iff_left (Ne.symm own)).symm
    simp only [multi, empty, ne_eq, not_false_eq_true, and_self, if_true, if_false, some.injEq,
      ← changed]
    split <;> rfl
  · rw [if_neg multi, if_neg fun both => multi both.1]
    exact (or_iff_left (by simp)).symm

theorem getNextEnabledKey_statuses {c saved : Channel}
    (save : (c.getNextEnabledKey parseArray pollingIndex intn).2 = some saved) :
    saved.channelInfo.multiKeyStatusList = c.channelInfo.multiKeyStatusList := by
  revert save
  fun_cases Channel.getNextEnabledKey parseArray c pollingIndex intn <;>
    intro save <;> cases save <;> rfl

theorem keyStep_sound (h : ∀ v, (s.phase v).Sound) (disables : a.disables)
    (step : keyStep parseArray s a = some t) (v : ω) : (t.phase v).Sound := by
  have set (w : ω) (p : CallPhase) (sound : p.Sound) : ((s.setPhase w p).phase v).Sound := by
    simp only [KeyTable.setPhase]
    by_cases own : v = w
    · rw [own, update_self]
      exact sound
    · rw [update_of_ne own]
      exact h v
  revert step
  fun_cases keyStep parseArray s a <;> intro step <;> cases step
  next w => exact set w (.holding s.row s.row) rfl
  next => exact h v
  next w _ loaded copy phase saved save =>
    have held := h w
    rw [phase] at held
    exact set w (.savingInfo loaded saved) ((getNextEnabledKey_statuses save).trans held)
  next w loaded copy phase =>
    have held := h w
    rw [phase] at held
    exact set w (.holding loaded copy) held
  next => exact h v
  next w call _ _ => exact set w (.savingRow s.row call) disables
  next w _ _ _ => exact set w .idle trivial

theorem keyStep_row (none : s.saves parseArray a = none) (step : keyStep parseArray s a = some t) :
    t.row = s.row := by
  revert step
  fun_cases keyStep parseArray s a <;> intro step <;> cases step <;> try rfl
  all_goals
    rename_i phase
    simp [KeyTable.saves, phase] at none

theorem keyStep_saves (h : ∀ v, (s.phase v).Sound)
    (save : s.saves parseArray a = some (loaded, own)) :
    ∃ t, keyStep parseArray s a = some t ∧
      ∀ i, t.row.disabled i ↔ loaded.disabled i ∨ own = some i := by
  revert save
  fun_cases KeyTable.saves parseArray s a <;> intro save <;> cases save
  next w copy phase =>
    have held := h w
    rw [phase, CallPhase.Sound] at held
    refine ⟨_, by simp only [keyStep, phase]; rfl, fun i => ?_⟩
    simp only [Channel.disabled, ChannelInfo.keyStatus, held, reduceCtorEq, or_false]
  next w call phase =>
    have held := h w
    rw [phase] at held
    exact ⟨_, by simp only [keyStep, phase]; rfl, fun i => changeStatus_disabled_iff held⟩

theorem keyStep_keeps_iff (h : ∀ v, (s.phase v).Sound) (step : keyStep parseArray s a = some t) :
    (∀ i, s.row.disabled i → t.row.disabled i) ↔ Covers parseArray s a := by
  cases save : s.saves parseArray a with
  | none =>
    rw [keyStep_row save step]
    exact iff_of_true (fun _ h => h) fun _ _ some => by rw [save] at some; contradiction
  | some saved =>
    obtain ⟨t', step', statuses⟩ := keyStep_saves h save
    obtain rfl := some.inj (step.symm.trans step')
    simp only [Covers, save, some.injEq, statuses]
    constructor
    · rintro keeps loaded own rfl
      exact keeps
    · exact fun covers => covers _ _ rfl

theorem exec_concat (run : exec (keyStep parseArray) s before = some t) :
    exec (keyStep parseArray) s (before ++ [a]) = keyStep parseArray t a := by
  induction before generalizing s with
  | nil =>
    cases run
    simp [exec]
  | cons b before ih =>
    obtain ⟨mid, first, rest⟩ := bind_eq_some_iff.mp run
    rw [cons_append, exec, first, bind_some, ih rest]

theorem Throughout.nil : Throughout parseArray ok s [] :=
  fun before a done => by simp at done

theorem Throughout.cons (first : ok s a) (step : keyStep parseArray s a = some t)
    (rest : Throughout parseArray ok t actions) : Throughout parseArray ok s (a :: actions) := by
  intro before b done mid run
  cases before with
  | nil =>
    cases run
    obtain rfl := (cons_prefix_cons.mp done).1
    exact first
  | cons a' before =>
    obtain ⟨rfl, later⟩ := cons_prefix_cons.mp done
    rw [exec, step] at run
    exact rest before b later mid run

theorem staysDisabled_iff (h : ∀ v, (s.phase v).Sound) (disables : ∀ a ∈ actions, a.disables) :
    StaysDisabled parseArray s actions ↔
      Throughout parseArray (Covers parseArray) s actions := by
  have sound {before rest} (done : before ++ rest <+: actions) {mid}
      (run : exec (keyStep parseArray) s before = some mid) : ∀ v, (mid.phase v).Sound :=
    (Path.of_exec run fun b member => disables b (done.subset (mem_append_left _ member))).invariant
      (I := fun s : KeyTable ω => ∀ v, (s.phase v).Sound) (fun _ _ _ h => keyStep_sound h) h
  constructor
  · intro stays before a done mid run
    cases step : keyStep parseArray mid a with
    | none =>
      intro loaded own save
      obtain ⟨t, some, -⟩ := keyStep_saves (sound done run) save
      rw [step] at some
      contradiction
    | some t =>
      exact (keyStep_keeps_iff (sound done run) step).mp
        (stays before [a] done mid t run (by simp [exec, step]))
  · intro covers before later
    induction later generalizing before with
    | nil =>
      intro _ mid t _ run i disabled
      cases run
      exact disabled
    | cons a later ih =>
      intro done mid t run rest i disabled
      obtain ⟨next, step, rest⟩ := bind_eq_some_iff.mp rest
      have first : before ++ [a] <+: actions :=
        List.IsPrefix.trans ⟨later, by simp⟩ done
      have kept := (keyStep_keeps_iff (sound done run) step).mpr (covers before a first mid run)
        i disabled
      exact ih (before ++ [a]) (by simpa using done) next t ((exec_concat run).trans step) rest i
        kept

omit [DecidableEq ω] in
theorem Undisturbed.covers (undisturbed : Undisturbed parseArray s a) : Covers parseArray s a := by
  intro loaded own save i disabled
  rw [Channel.disabled, ChannelInfo.keyStatus, undisturbed loaded own save] at disabled
  exact .inl disabled

end

/-- The calls that only disable keys: a key that is stored as disabled stays so exactly if every
save is made from a channel that was loaded with all keys disabled that are stored so, but for the
one that the call itself disables, as it is if no other call has changed the statuses since. -/
theorem disabled_key_stays_iff (parseArray : String → Option (List String)) {ω : Type}
    [DecidableEq ω] (row : Channel) (actions : List (KeyAction ω))
    (disables : ∀ a ∈ actions, a.disables) :
    let start : KeyTable ω := ⟨row, fun _ => .idle⟩
    (StaysDisabled parseArray start actions ↔
        Throughout parseArray (Covers parseArray) start actions) ∧
      (Throughout parseArray (Undisturbed parseArray) start actions →
        StaysDisabled parseArray start actions) := by
  have stays :=
    @staysDisabled_iff parseArray ω _ ⟨row, fun _ => .idle⟩ _ (fun _ => trivial) disables
  refine ⟨stays, fun undisturbed => stays.mpr fun before a done mid run => ?_⟩
  exact (undisturbed before a done mid run).covers

def polledChannel : Channel :=
  defaultChannel 1 "gpt-4" "a\nb" { isMultiKey := true, multiKeySize := 2, isPolling := true }

def stalePoll : List (KeyAction Bool) :=
  [.load false, .setStatus true ⟨1, "a", .autoDisabled, "401", 0⟩, .saveRow true,
    .next false fun _ => 0, .saveInfo false]

def freshPoll : List (KeyAction Bool) :=
  [.setStatus true ⟨1, "a", .autoDisabled, "401", 0⟩, .saveRow true, .load false,
    .next false fun _ => 0, .saveInfo false]

def lostDisable : List (KeyAction Bool) :=
  [.setStatus false ⟨1, "a", .autoDisabled, "401", 0⟩,
    .setStatus true ⟨1, "b", .autoDisabled, "401", 0⟩, .saveRow false, .saveRow true]

/-- A poll from a stale channel enables the key again, and so does a call for another key. -/
theorem disabled_key_revived :
    let start : KeyTable Bool := ⟨polledChannel, fun _ => .idle⟩
    (exec (keyStep fun _ => none) start (stalePoll.take 3)).map
        (·.row.channelInfo.keyStatus 0) = some .autoDisabled ∧
      (exec (keyStep fun _ => none) start stalePoll).map
        (·.row.channelInfo.keyStatus 0) = some .enabled ∧
      (exec (keyStep fun _ => none) start (lostDisable.take 3)).map
        (·.row.channelInfo.keyStatus 0) = some .autoDisabled ∧
      (exec (keyStep fun _ => none) start lostDisable).map
        (·.row.channelInfo.keyStatus 0) = some .enabled := by
  decide

theorem disabled_key_stays_iff_fresh :
    let start : KeyTable Bool := ⟨polledChannel, fun _ => .idle⟩
    StaysDisabled (fun _ => none) start freshPoll ∧
      (exec (keyStep fun _ => none) start freshPoll).map
        (·.row.channelInfo.keyStatus 0) = some .autoDisabled := by
  refine ⟨(disabled_key_stays_iff (fun _ => none) polledChannel freshPoll ?_).2 ?_, by decide⟩
  · simp [freshPoll, KeyAction.disables]
  · refine .cons ?_ rfl (.cons ?_ rfl (.cons ?_ rfl (.cons ?_ rfl (.cons ?_ rfl .nil))))
    all_goals
      intro loaded own save
      cases save
    all_goals rfl

end EastApi.Channels
