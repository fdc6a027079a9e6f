import EastApi.Channels.Abilities
import EastApi.Channels.Cache

/-! The statuses of the keys of a channel, in the memory cache and in the table.  Both copies follow
the requests as long as no disabled key is enabled again. -/

namespace EastApi.Channels

open Function

open List hiding keys

structure Node where
  cache : Cache
  store : Store

def StatusCall.change (call : StatusCall) : StatusChange where
  channelId := call.channelId
  usingKey := call.usingKey
  status := call.status
  reason := call.reason
  now := call.now

/-- `UpdateChannelStatus` with the memory cache.  A channel that is not cached is left alone, and
so is one with a single key that has the status in the cache already. -/
def updateChannelStatus (env : Env) (s : Node) (call : StatusCall) : Node :=
  match s.cache.channelsIDM call.channelId with
  | none => s
  | some c =>
    if ¬ c.channelInfo.isMultiKey ∧ c.status = call.status then s
    else
      ⟨updateCachedStatus env s.cache call,
        (s.store.updateChannelStatus env.parseArray call.change).getD s.store⟩

def lastRequested (calls : List StatusCall) : String → ChannelStatus :=
  calls.foldl (fun requested call => update requested call.usingKey call.status)
    fun _ => .enabled

def ChannelInfo.keyStatus (info : ChannelInfo) (index : Int) : ChannelStatus :=
  (info.multiKeyStatusList.lookup index).getD .enabled

/-- Cache and database agree about every key, each key has the status `requested`, and the channel
is enabled in both places exactly if one of its keys is. -/
structure Consistent (keys : List String) (requested : String → ChannelStatus)
    (cached stored : Channel) : Prop where
  lists : ∀ i, cached.channelInfo.multiKeyStatusList.lookup i =
    stored.channelInfo.multiKeyStatusList.lookup i
  statuses : ∀ k ∈ keys, cached.channelInfo.keyStatus (keyIndex keys k) = requested k
  cachedEnabled : cached.status = .enabled ↔ ∃ k ∈ keys, requested k = .enabled
  storedEnabled : stored.status = .enabled ↔ ∃ k ∈ keys, requested k = .enabled

theorem keyIndex_inj (ha : a ∈ keys) (hb : b ∈ keys) (same : keyIndex keys a = keyIndex keys b) :
    a = b := by
  rw [keyIndex, if_pos ha, keyIndex, if_pos hb, Nat.cast_inj] at same
  exact (idxOf_inj ha).mp same

structure Lists (keys : List String) (requested : String → ChannelStatus)
    (m : AList fun _ : Int => ChannelStatus) : Prop where
  entries : ∀ k ∈ keys, m.lookup (keyIndex keys k) =
    if requested k = .enabled then none else some (requested k)
  others : ∀ i ∈ m, ∃ k ∈ keys, keyIndex keys k = i

theorem Lists.mem_iff (h : Lists keys requested m) :
    i ∈ m ↔ ∃ k ∈ keys, requested k ≠ .enabled ∧ keyIndex keys k = i := by
  constructor
  · intro member
    obtain ⟨k, hk, rfl⟩ := h.others i member
    refine ⟨k, hk, fun enabled => ?_, rfl⟩
    have absent := h.entries k hk
    rw [if_pos enabled, AList.lookup_eq_none] at absent
    exact absent member
  · rintro ⟨k, hk, disabled, rfl⟩
    rw [← AList.lookup_isSome, h.entries k hk, if_neg disabled]
    rfl

theorem Lists.full_iff (h : Lists keys requested m) (apart : keys.Nodup) :
    (keys.length : Int) ≤ m.entries.length ↔ ¬ ∃ k ∈ keys, requested k = .enabled := by
  have perm : m.keys.Perm ((keys.filter (requested · ≠ .enabled)).map (keyIndex keys)) := by
    refine (perm_ext_iff_of_nodup m.keys_nodup ?_).mpr fun i => ?_
    · refine (apart.filter _).map_on fun a ha b hb same => ?_
      exact keyIndex_inj (mem_of_mem_filter ha) (mem_of_mem_filter hb) same
    · rw [← AList.mem_keys, h.mem_iff]
      simp [and_assoc]
  have length : m.entries.length = (keys.filter (requested · ≠ .enabled)).length := by
    have := perm.length_eq
    rwa [AList.keys, List.keys, List.length_map, List.length_map] at this
  rw [length, Nat.cast_le, (List.length_filter_le _ keys).ge_iff_eq,
    length_filter_eq_length_iff]
  simp

theorem Lists.set {info : ChannelInfo} (h : Lists keys requested info.multiKeyStatusList)
    (hu : u ∈ keys) (status : ChannelStatus) (reason : String) (now : Int) :
    Lists keys (update requested u status)
      (info.setKeyStatus (keyIndex keys u) status reason now).multiKeyStatusList := by
  unfold ChannelInfo.setKeyStatus
  split
  next enabled =>
    refine ⟨fun k hk => ?_, fun i member => h.others i (AList.mem_erase.mp member).2⟩
    by_cases own : k = u
    · rw [own, AList.lookup_erase, update_self, if_pos enabled]
    · rw [AList.lookup_erase_ne fun same => own (keyIndex_inj hk hu same),
        update_of_ne own, h.entries k hk]
  next disabled =>
    refine ⟨fun k hk => ?_, fun i member => ?_⟩
    · by_cases own : k = u
      · rw [own, AList.lookup_insert, update_self, if_neg disabled]
      · rw [AList.lookup_insert_ne fun same => own (keyIndex_inj hk hu same),
          update_of_ne own, h.entries k hk]
    · rcases AList.mem_insert _ |>.mp member with rfl | old
      · exact ⟨u, hu, rfl⟩
      · exact h.others i old

structure Tracks (parseArray : String → Option (List String)) (keys : List String)
    (requested : String → ChannelStatus) (c : Channel) : Prop where
  isMultiKey : c.channelInfo.isMultiKey = true
  size : c.channelInfo.multiKeySize = keys.length
  getKeys : c.getKeys parseArray = keys
  lists : Lists keys requested c.channelInfo.multiKeyStatusList
  status : c.status = if ∃ k ∈ keys, requested k = .enabled then .enabled else .autoDisabled

theorem Lists.lookup_congr (h : Lists keys requested m) (h' : Lists keys requested m') (i : Int) :
    m.lookup i = m'.lookup i := by
  by_cases index : ∃ k ∈ keys, keyIndex keys k = i
  · obtain ⟨k, hk, rfl⟩ := index
    rw [h.entries k hk, h'.entries k hk]
  · rw [AList.lookup_eq_none.mpr fun member => index (h.others i member),
      AList.lookup_eq_none.mpr fun member => index (h'.others i member)]

section
variable (h : Tracks parseArray keys requested c)
include h

theorem Tracks.keyStatus (hk : k ∈ keys) :
    c.channelInfo.keyStatus (keyIndex keys k) = requested k := by
  rw [ChannelInfo.keyStatus, h.lists.entries k hk]
  split
  next enabled => exact enabled.symm
  · rfl

theorem Tracks.enabled_iff : c.status = .enabled ↔ ∃ k ∈ keys, requested k = .enabled := by
  rw [h.status]
  split <;> simp_all

theorem Tracks.consistent (h' : Tracks parseArray keys requested d) :
    Consistent keys requested c d :=
  ⟨h.lists.lookup_congr h'.lists, fun _ hk => h.keyStatus hk, h.enabled_iff, h'.enabled_iff⟩

theorem Tracks.handler (apart : keys.Nodup) (hu : u ∈ keys) {status : ChannelStatus}
    (kept : status = .enabled → requested u = .enabled) (reason : String) (now : Int) :
    Tracks parseArray keys (update requested u status)
      (handlerMultiKeyUpdate parseArray c u status reason now) := by
  have lists := h.lists.set hu status reason now
  have fixed : (c.channelInfo.setKeyStatus (keyIndex keys u) status reason now).isMultiKey =
      c.channelInfo.isMultiKey ∧
      (c.channelInfo.setKeyStatus (keyIndex keys u) status reason now).multiKeySize =
        c.channelInfo.multiKeySize := by
    unfold ChannelInfo.setKeyStatus
    split <;> exact ⟨rfl, rfl⟩
  have full := lists.full_iff apart
  simp only [handlerMultiKeyUpdate, h.getKeys, if_neg (ne_nil_of_mem hu), fixed.2, h.size,
    full]
  split
  next none =>
    exact ⟨fixed.1.trans h.isMultiKey, fixed.2.trans h.size, h.getKeys, lists, (if_neg none).symm⟩
  next some =>
    refine ⟨fixed.1.trans h.isMultiKey, fixed.2.trans h.size, h.getKeys, lists, ?_⟩
    obtain ⟨k, hk, enabled⟩ := not_not.mp some
    have before : ∃ k ∈ keys, requested k = .enabled := by
      by_cases own : k = u
      · rw [own, update_self] at enabled
        exact ⟨u, hu, kept enabled⟩
      · exact ⟨k, hk, by rwa [update_of_ne own] at enabled⟩
    rw [if_pos (not_not.mp some)]
    exact h.enabled_iff.mpr before

end

def Channel.afterCall (env : Env) (stored : Channel) (call : StatusCall) : Channel :=
  if stored.status = call.status then stored
  else handlerMultiKeyUpdate env.parseArray stored call.usingKey call.status call.reason call.now

structure Copies (s : Node) (id : Int) (cached stored : Channel) : Prop where
  inCache : s.cache.channelsIDM id = some cached
  inStore : s.store.channels.find id = some stored
  noKeys : stored.keys = []

section
theorem find_updateChannelStatus {store : Store}
    (found : store.channels.find call.channelId = some stored) (noKeys : stored.keys = [])
    (real : call.channelId ≠ 0) (multi : stored.channelInfo.isMultiKey = true) :
    ((store.updateChannelStatus env.parseArray call.change).getD store).channels.find
      call.channelId = some (stored.afterCall env call) := by
  have id : stored.id = call.channelId := (Table.find_eq_some.mp found).2
  by_cases same : stored.status = call.status
  · simp [Store.updateChannelStatus, StatusCall.change, found, same, Channel.afterCall]
  · have saved : stored.changeStatus env.parseArray call.change = stored.afterCall env call := by
      have row : { stored with keys := [] } = stored := by rw [← noKeys]
      simp [Channel.changeStatus, multi, row, StatusCall.change, Channel.afterCall, same]
    have frame : { stored.afterCall env call with id := stored.id, key := stored.key } =
        stored.afterCall env call := by
      obtain ⟨status, info, reason, time, frame⟩ := handlerMultiKeyUpdate_frame env.parseArray
        stored call.usingKey call.status call.reason call.now
      rw [Channel.afterCall, if_neg same, frame]
    have channel : call.change.channelId = call.channelId := rfl
    have status : call.change.status = call.status := rfl
    simp only [Store.updateChannelStatus, channel, status, found, same, id, real, or_self, if_false,
      saved]
    split <;>
    · rw [Option.getD_some, Table.find_update, found, Option.map_some, if_pos id, frame]

variable (env) in
theorem Copies.step (h : Copies s call.channelId cached stored) (real : call.channelId ≠ 0)
    (multi : cached.channelInfo.isMultiKey = true)
    (multi' : stored.channelInfo.isMultiKey = true) :
    Copies (updateChannelStatus env s call) call.channelId
      (handlerMultiKeyUpdate env.parseArray cached call.usingKey call.status call.reason call.now)
      (stored.afterCall env call) := by
  have step : updateChannelStatus env s call = ⟨updateCachedStatus env s.cache call,
      (s.store.updateChannelStatus env.parseArray call.change).getD s.store⟩ := by
    simp [updateChannelStatus, h.inCache, multi]
  rw [step]
  refine ⟨?_, find_updateChannelStatus h.inStore h.noKeys real multi', ?_⟩
  · simp [updateCachedStatus, h.inCache, multi]
  · unfold Channel.afterCall
    split
    · exact h.noKeys
    · obtain ⟨status, info, reason, time, frame⟩ := handlerMultiKeyUpdate_frame env.parseArray
        stored call.usingKey call.status call.reason call.now
      rw [frame]
      exact h.noKeys

/-- The row follows a request that disables a key, or enables an enabled one.  If the row has the
status already, the key has it too. -/
theorem Tracks.afterCall {requested : String → ChannelStatus}
    (h : Tracks env.parseArray keys requested stored) (apart : keys.Nodup)
    (hu : call.usingKey ∈ keys) (kind : call.status = .enabled ∨ call.status = .autoDisabled)
    (disabled : ∀ k ∈ keys, requested k = .enabled ∨ requested k = .autoDisabled)
    (kept : call.status = .enabled → requested call.usingKey = .enabled) :
    Tracks env.parseArray keys (update requested call.usingKey call.status)
      (stored.afterCall env call) := by
  unfold Channel.afterCall
  split
  next same =>
    have known : requested call.usingKey = call.status := by
      rcases kind with enabled | auto
      · rw [enabled, kept enabled]
      · refine (disabled _ hu).elim (fun enabled => ?_) fun own => own.trans auto.symm
        have up := h.enabled_iff.mpr ⟨_, hu, enabled⟩
        rw [same, auto] at up
        contradiction
    rw [← known, update_eq_self]
    exact h
  · exact h.handler apart hu kept call.reason call.now

def Requests (id : Int) (keys : List String) (calls : List StatusCall) : Prop :=
  ∀ call ∈ calls, call.channelId = id ∧ call.usingKey ∈ keys ∧
    (call.status = .enabled ∨ call.status = .autoDisabled)

def NeverReenabled (calls : List StatusCall) : Prop :=
  ∀ before call, before ++ [call] <+: calls → call.status = .enabled →
    lastRequested before call.usingKey = .enabled

theorem lastRequested_concat (calls : List StatusCall) (call : StatusCall) :
    lastRequested (calls ++ [call]) =
      update (lastRequested calls) call.usingKey call.status := by
  simp [lastRequested]

variable {id : Int} {calls : List StatusCall}

theorem lastRequested_kind (requests : Requests id keys calls) (k : String) :
    lastRequested calls k = .enabled ∨ lastRequested calls k = .autoDisabled := by
  induction calls using reverseRecOn with
  | nil => exact .inl rfl
  | append_singleton before call ih =>
    obtain ⟨earlier, last⟩ := forall_mem_append.mp requests
    rw [lastRequested_concat]
    by_cases own : k = call.usingKey
    · rw [own, update_self]
      exact (last call (mem_singleton_self call)).2.2
    · rw [update_of_ne own]
      exact ih earlier

def Following (env : Env) (keys : List String) (id : Int) (calls : List StatusCall) (s : Node) :
    Prop :=
  ∃ cached stored, Copies s id cached stored ∧
    Tracks env.parseArray keys (lastRequested calls) cached ∧
    Tracks env.parseArray keys (lastRequested calls) stored

def Agrees (keys : List String) (id : Int) (calls : List StatusCall) (s : Node) : Prop :=
  ∃ cached stored, Copies s id cached stored ∧ Consistent keys (lastRequested calls) cached stored

theorem Following.agrees (h : Following env keys id calls s) : Agrees keys id calls s := by
  obtain ⟨cached, stored, copies, tracks, tracks'⟩ := h
  exact ⟨cached, stored, copies, tracks.consistent tracks'⟩

theorem Following.step {before : List StatusCall} (h : Following env keys id before s)
    (real : id ≠ 0) (apart : keys.Nodup) (requests : Requests id keys (before ++ [call]))
    (kept : call.status = .enabled → lastRequested before call.usingKey = .enabled) :
    Following env keys id (before ++ [call]) (updateChannelStatus env s call) := by
  obtain ⟨cached, stored, copies, tracks, tracks'⟩ := h
  obtain ⟨earlier, last⟩ := forall_mem_append.mp requests
  obtain ⟨rfl, hu, kind⟩ := last call (mem_singleton_self call)
  refine ⟨_, _, copies.step env real tracks.isMultiKey tracks'.isMultiKey, ?_, ?_⟩
  · rw [lastRequested_concat]
    exact tracks.handler apart hu kept call.reason call.now
  · rw [lastRequested_concat]
    exact tracks'.afterCall apart hu kind (fun k _ => lastRequested_kind earlier k) kept

/-- A call that enables a disabled key breaks the agreement.  A row that is enabled is not written,
and a channel that is disabled stays so. -/
theorem Following.not_agrees (h : Following env keys id before s) (real : id ≠ 0)
    (requests : Requests id keys (before ++ [call])) (enables : call.status = .enabled)
    (again : lastRequested before call.usingKey ≠ .enabled) :
    ¬ Agrees keys id (before ++ [call]) (updateChannelStatus env s call) := by
  obtain ⟨cached, stored, copies, tracks, tracks'⟩ := h
  obtain ⟨-, last⟩ := forall_mem_append.mp requests
  obtain ⟨rfl, hu, -⟩ := last call (mem_singleton_self call)
  have after := copies.step env real tracks.isMultiKey tracks'.isMultiKey
  rintro ⟨cached', stored', copies', agree⟩
  obtain rfl := Option.some.inj (after.inCache.symm.trans copies'.inCache)
  obtain rfl := Option.some.inj (after.inStore.symm.trans copies'.inStore)
  rw [lastRequested_concat, enables] at agree
  by_cases up : stored.status = .enabled
  · -- the row still has the key disabled
    have row : stored.afterCall env call = stored := by
      rw [Channel.afterCall, if_pos (up.trans enables.symm)]
    have status := agree.statuses _ hu
    rw [ChannelInfo.keyStatus, agree.lists, row, ← ChannelInfo.keyStatus, tracks'.keyStatus hu,
      update_self] at status
    exact again status
  · -- the channel is not enabled again
    have disabled : cached.status = .autoDisabled := by
      rw [tracks.status, if_neg fun some => up (tracks'.enabled_iff.mpr some)]
    have enabled := agree.cachedEnabled.mpr ⟨_, hu, update_self ..⟩
    have some : cached.getKeys env.parseArray ≠ [] := by
      rw [tracks.getKeys]
      exact ne_nil_of_mem hu
    simp only [handlerMultiKeyUpdate, if_neg some] at enabled
    split at enabled
    · cases enabled
    · exact absurd (disabled.symm.trans enabled) nofun

def runCalls (env : Env) (s : Node) (calls : List StatusCall) : Node :=
  calls.foldl (updateChannelStatus env) s

theorem NeverReenabled.before {before : List StatusCall} (h : NeverReenabled calls)
    (earlier : before <+: calls) : NeverReenabled before :=
  fun pre call done => h pre call (done.trans earlier)

theorem following_run (start : Following env keys id [] s) (real : id ≠ 0) (apart : keys.Nodup)
    (requests : Requests id keys calls) (never : NeverReenabled calls) :
    Following env keys id calls (runCalls env s calls) := by
  induction calls using reverseRecOn with
  | nil => exact start
  | append_singleton before call ih =>
    have earlier := ih (forall_mem_append.mp requests).1
      (never.before (prefix_append before [call]))
    rw [runCalls, foldl_concat]
    exact earlier.step real apart requests (never before call (prefix_refl _))

theorem neverReenabled_of_agrees (start : Following env keys id [] s) (real : id ≠ 0)
    (apart : keys.Nodup) (requests : Requests id keys calls)
    (agrees : ∀ done, done <+: calls → Agrees keys id done (runCalls env s done)) :
    NeverReenabled calls := by
  induction calls using reverseRecOn with
  | nil =>
    intro before call done
    simp at done
  | append_singleton before call ih =>
    have earlier := (forall_mem_append.mp requests).1
    have never := ih earlier fun done h => agrees done (h.trans (prefix_append _ _))
    have follows := following_run start real apart earlier never
    intro before' call' done enables
    rcases prefix_concat_iff.mp done with same | shorter
    · obtain ⟨rfl, last⟩ := append_inj' same rfl
      obtain rfl := singleton_inj.mp last
      by_contra again
      have whole := agrees _ (prefix_refl _)
      rw [runCalls, foldl_concat] at whole
      exact follows.not_agrees real requests enables again whole
    · exact never before' call' shorter enables

end

/-- Starting with all keys enabled, cache and database agree with the requests after every call
exactly if no disabled key is enabled again. -/
theorem keys_consistent_iff (env : Env) (s : Node) {id : Int} (real : id ≠ 0)
    {stored : Channel} (inStore : s.store.channels.find id = some stored)
    (noKeys : stored.keys = []) (multi : stored.channelInfo.isMultiKey = true)
    {keys : List String} (parsed : stored.getKeys env.parseArray = keys) (nonempty : keys ≠ [])
    (apart : keys.Nodup) (size : stored.channelInfo.multiKeySize = keys.length)
    (inCache : s.cache.channelsIDM id = some { stored with keys := keys })
    (enabled : stored.status = .enabled)
    (allEnabled : stored.channelInfo.multiKeyStatusList = ∅) (calls : List StatusCall)
    (requests : Requests id keys calls) :
    (∀ done, done <+: calls → Agrees keys id done (runCalls env s done)) ↔
      NeverReenabled calls := by
  have lists : Lists keys (lastRequested []) stored.channelInfo.multiKeyStatusList := by
    rw [allEnabled]
    exact ⟨fun k _ => rfl, fun i member => absurd member (AList.notMem_empty i)⟩
  obtain ⟨k, hk⟩ := exists_mem_of_ne_nil keys nonempty
  have up : ∃ k ∈ keys, lastRequested [] k = .enabled := ⟨k, hk, rfl⟩
  have start : Following env keys id [] s := by
    refine ⟨_, stored, ⟨inCache, inStore, noKeys⟩,
      ⟨multi, size, ?_, lists, by rw [if_pos up]; exact enabled⟩,
      ⟨multi, size, parsed, lists, by rw [if_pos up]; exact enabled⟩⟩
    have text : stored.key ≠ "" := by
      rintro empty
      rw [Channel.getKeys, if_pos empty] at parsed
      exact nonempty parsed.symm
    rw [Channel.getKeys, if_neg text, if_pos nonempty]
  refine ⟨neverReenabled_of_agrees start real apart requests, fun never done earlier => ?_⟩
  have requests' : Requests id keys done := fun call member =>
    requests call (earlier.subset member)
  exact (following_run start real apart requests' (never.before earlier)).agrees

def keysChannel (key : String) (size : Int) : Channel :=
  defaultChannel 1 "gpt-4" key { isMultiKey := true, multiKeySize := size }

def keysNode (key : String) (keys : List String) : Node where
  cache :=
    { group2model2channels := fun _ => none
      channelsIDM := fun id =>
        if id = 1 then some { keysChannel key keys.length with keys := keys } else none }
  store := singleStore (keysChannel key keys.length)

/-- One of two keys is disabled and enabled again: it is enabled in the cache only.  Where it is
the only key, its channel stays disabled. -/
theorem reenabled_key_differs :
    let calls : List StatusCall :=
      [⟨1, "a", .autoDisabled, "401", 0⟩, ⟨1, "a", .enabled, "", 1⟩]
    let two := runCalls plainEnv (keysNode "a\nb" ["a", "b"]) calls
    let one := runCalls plainEnv (keysNode "a" ["a"]) calls
    lastRequested calls "a" = .enabled ∧
      (two.cache.channelsIDM 1).map (·.channelInfo.keyStatus 0) = some .enabled ∧
      (two.store.channels.find 1).map (·.channelInfo.keyStatus 0) = some .autoDisabled ∧
      (one.cache.channelsIDM 1).map (·.channelInfo.keyStatus 0) = some .enabled ∧
      (one.cache.channelsIDM 1).map (·.status) = some .autoDisabled ∧
      (one.store.channels.find 1).map (·.status) = some .autoDisabled := by
  decide

/-- Both keys are disabled, and the first of them once more. -/
theorem keys_consistent_iff_disabled :
    Agrees ["a", "b"] 1
      [⟨1, "a", .autoDisabled, "401", 0⟩, ⟨1, "b", .autoDisabled, "401", 1⟩,
        ⟨1, "a", .autoDisabled, "403", 2⟩]
      (runCalls plainEnv (keysNode "a\nb" ["a", "b"])
        [⟨1, "a", .autoDisabled, "401", 0⟩, ⟨1, "b", .autoDisabled, "401", 1⟩,
          ⟨1, "a", .autoDisabled, "403", 2⟩]) := by
  refine (keys_consistent_iff plainEnv (keysNode "a\nb" ["a", "b"]) (by decide) rfl rfl rfl
    (by decide) (by decide) (by decide) rfl rfl rfl rfl _ ?_).mpr ?_ _ (prefix_refl _)
  · simp [Requests]
  · intro before call done enables
    have member := done.subset (mem_append_right before (mem_singleton_self call))
    simp only [mem_cons, not_mem_nil, or_false] at member
    rcases member with rfl | rfl | rfl <;> contradiction

end EastApi.Channels
