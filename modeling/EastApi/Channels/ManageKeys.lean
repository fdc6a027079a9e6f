import EastApi.Channels.KeyStatus

/-! The deletions of `ManageMultiKeys`.  The statuses, times and reasons of keys are kept by index,
so a deletion writes them anew under the indices of the keys that remain. -/

namespace EastApi.Channels

open Go List Option

structure KeyEntry where
  status : Option ChannelStatus := none
  time : Option Int := none
  reason : Option String := none

structure Remaining where
  keys : List String := []
  statusList : AList (fun _ : Int => ChannelStatus) := ∅
  disabledTime : AList (fun _ : Int => Int) := ∅
  disabledReason : AList (fun _ : Int => String) := ∅
  newIndex : Int := 0
  deletedCount : ℕ := 0

def insertSome {β : Type} (m : AList fun _ : Int => β) (i : Int) : Option β → AList fun _ : Int => β
  | some b => m.insert i b
  | none => m

def Remaining.keep (r : Remaining) (key : String) (e : KeyEntry) : Remaining :=
  { r with
    keys := r.keys ++ [key]
    statusList := insertSome r.statusList r.newIndex e.status
    disabledTime := insertSome r.disabledTime r.newIndex e.time
    disabledReason := insertSome r.disabledReason r.newIndex e.reason
    newIndex := r.newIndex + 1 }

def deleteKeys (entry : ℕ → Option KeyEntry) (keys : List (String × ℕ)) : Remaining :=
  keys.foldl (fun r p =>
    match entry p.2 with
    | none => { r with deletedCount := r.deletedCount + 1 }
    | some e => r.keep p.1 e) {}

def deleteKeyEntry (info : ChannelInfo) (keyIndex : Int) (i : ℕ) : Option KeyEntry :=
  if i = keyIndex then none
  else some {
    status := (info.multiKeyStatusList.lookup (i : Int)).filter (· ≠ .enabled)
    time := info.multiKeyDisabledTime.lookup (i : Int)
    reason := info.multiKeyDisabledReason.lookup (i : Int) }

def deleteDisabledEntry (info : ChannelInfo) (i : ℕ) : Option KeyEntry :=
  let status := info.keyStatus i
  if status = .autoDisabled then none
  else if status ≠ .enabled then some {
    status := some status
    time := info.multiKeyDisabledTime.lookup (i : Int)
    reason := info.multiKeyDisabledReason.lookup (i : Int) }
  else some {}

inductive DeleteRequest
  | deleteKey (keyIndex : Option Int)
  | deleteDisabledKeys

section
variable (parseArray : String → Option (List String))

def Channel.withRemaining (c : Channel) (r : Remaining) : Channel :=
  { c with
    key := join '\n' r.keys
    channelInfo := { c.channelInfo with
      multiKeySize := r.keys.length
      multiKeyStatusList := r.statusList
      multiKeyDisabledTime := r.disabledTime
      multiKeyDisabledReason := r.disabledReason } }

def DeleteRequest.entry (info : ChannelInfo) : DeleteRequest → ℕ → Option KeyEntry
  | .deleteKey keyIndex => deleteKeyEntry info (keyIndex.getD 0)
  | .deleteDisabledKeys => deleteDisabledEntry info

def DeleteRequest.refuses (info : ChannelInfo) (r : Remaining) : DeleteRequest → Option String
  | .deleteKey none => some "未指定要删除的密钥索引"
  | .deleteKey (some keyIndex) =>
    if keyIndex < 0 ∨ info.multiKeySize ≤ keyIndex then some "密钥索引超出范围"
    else if r.keys = [] then some "不能删除最后一个密钥"
    else none
  | .deleteDisabledKeys =>
    if r.deletedCount = 0 then some "没有需要删除的自动禁用密钥" else none

def DeleteRequest.message (r : Remaining) : DeleteRequest → String
  | .deleteKey _ => "密钥已删除"
  | .deleteDisabledKeys => "已删除 " ++ toString r.deletedCount ++ " 个自动禁用的密钥"

def DeleteRequest.remaining (c : Channel) (request : DeleteRequest) : Remaining :=
  deleteKeys (request.entry c.channelInfo) (c.getKeys parseArray).zipIdx

def Store.manageMultiKeys (s : Store) (channelId : Int) (request : DeleteRequest) :
    Except String (String × Store) :=
  match s.channels.find channelId with
  | none => .error "渠道不存在"
  | some c =>
    if ¬ c.channelInfo.isMultiKey then .error "该渠道不是多密钥模式"
    else
      let r := request.remaining parseArray c
      match request.refuses c.channelInfo r with
      | some message => .error message
      | none =>
        match s.update parseArray (c.withRemaining r) with
        | none => .error "WHERE conditions required"
        | some t => .ok (request.message r, t)

end

section
variable {β : Type}

theorem lookup_insertSome (m : AList fun _ : Int => β) (i k : Int) (o : Option β) :
    (insertSome m i o).lookup k = if k = i then o.or (m.lookup i) else m.lookup k := by
  by_cases own : k = i
  · subst own
    cases o <;> simp [insertSome]
  · rw [if_neg own]
    cases o with
    | none => rfl
    | some b => exact AList.lookup_insert_ne own

def entryAt (f : KeyEntry → Option β) (kept : List KeyEntry) (i : Int) : Option β :=
  if 0 ≤ i then (kept[i.toNat]?).bind f else none

theorem entryAt_natCast (f : KeyEntry → Option β) (kept : List KeyEntry) (j : ℕ) :
    entryAt f kept j = (kept[j]?).bind f := by simp [entryAt]

theorem entryAt_concat (f : KeyEntry → Option β) (kept : List KeyEntry) (e : KeyEntry) (i : Int) :
    entryAt f (kept ++ [e]) i = if i = kept.length then f e else entryAt f kept i := by
  rcases lt_or_ge i 0 with negative | nonneg
  · have other : i ≠ kept.length := by omega
    simp [entryAt, not_le.mpr negative, other]
  · obtain ⟨j, rfl⟩ := Int.eq_ofNat_of_zero_le nonneg
    by_cases last : j = kept.length
    · simp [entryAt, last]
    · have other : ((j : ℕ) : Int) ≠ kept.length := by exact_mod_cast last
      rw [if_neg other, entryAt_natCast, entryAt_natCast]
      rcases Nat.lt_or_gt_of_ne last with before | behind
      · rw [getElem?_append_left before]
      · rw [getElem?_eq_none (by simp; omega), getElem?_eq_none (by omega)]

end

structure Remaining.Holds (r : Remaining) (keys : List String) (kept : List KeyEntry) : Prop where
  keys : r.keys = keys
  newIndex : r.newIndex = kept.length
  statuses : ∀ i, r.statusList.lookup i = entryAt (·.status) kept i
  times : ∀ i, r.disabledTime.lookup i = entryAt (·.time) kept i
  reasons : ∀ i, r.disabledReason.lookup i = entryAt (·.reason) kept i

theorem Remaining.Holds.keep {r : Remaining} {keys : List String} (h : r.Holds keys kept)
    (key : String) (e : KeyEntry) : (r.keep key e).Holds (keys ++ [key]) (kept ++ [e]) := by
  have each {β : Type} (f : KeyEntry → Option β) (m : AList fun _ : Int => β)
      (same : ∀ i, m.lookup i = entryAt f kept i) (i : Int) :
      (insertSome m r.newIndex (f e)).lookup i = entryAt f (kept ++ [e]) i := by
    rw [lookup_insertSome, same, same, h.newIndex, entryAt_concat]
    simp [entryAt]
  exact ⟨by simp [Remaining.keep, h.keys], by simp [Remaining.keep, h.newIndex],
    each _ _ h.statuses, each _ _ h.times, each _ _ h.reasons⟩

theorem deleteKeys_holds (entry : ℕ → Option KeyEntry) (l : List (String × ℕ)) :
    (deleteKeys entry l).Holds ((l.filter fun p => (entry p.2).isSome).map Prod.fst)
      (l.filterMap fun p => entry p.2) := by
  induction l using reverseRecOn with
  | nil => exact ⟨rfl, rfl, fun _ => by simp [deleteKeys, entryAt], fun _ => by
      simp [deleteKeys, entryAt], fun _ => by simp [deleteKeys, entryAt]⟩
  | append_singleton l p ih =>
    rw [deleteKeys, foldl_concat, ← deleteKeys, filter_append, filterMap_append]
    cases found : entry p.2 with
    | none =>
      have same : ([p].filter fun p => (entry p.2).isSome) = [] ∧
          ([p].filterMap fun p => entry p.2) = [] := by simp [found]
      rw [same.1, same.2, append_nil, append_nil]
      exact ⟨ih.keys, ih.newIndex, ih.statuses, ih.times, ih.reasons⟩
    | some e =>
      simpa [found] using ih.keep p.1 e

theorem getElem?_filterMap {α β : Type} (f : α → Option β) (l : List α) (j : ℕ) :
    (l.filterMap f)[j]? = ((l.filter fun a => (f a).isSome)[j]?).bind f := by
  induction l generalizing j with
  | nil => simp
  | cons a l ih =>
    cases found : f a with
    | none => simp [found, ih]
    | some b =>
      cases j with
      | zero => simp [found]
      | succ j => simp [found, ih]

def ChannelInfo.disabledTime (info : ChannelInfo) (index : Int) : Int :=
  (info.multiKeyDisabledTime.lookup index).getD 0

def ChannelInfo.disabledReason (info : ChannelInfo) (index : Int) : String :=
  (info.multiKeyDisabledReason.lookup index).getD ""

def DeleteRequest.deletes (info : ChannelInfo) : DeleteRequest → ℕ → Bool
  | .deleteKey keyIndex, i => keyIndex = some (i : Int)
  | .deleteDisabledKeys, i => info.keyStatus i = .autoDisabled

def DeleteRequest.survivors (request : DeleteRequest) (info : ChannelInfo) (keys : List String) :
    List (String × ℕ) :=
  keys.zipIdx.filter fun p => !request.deletes info p.2

/-- The stored keys are the survivors, each with the status, the time and the reason that it had,
and no key that was disabled automatically is enabled. -/
structure KeepsRest (parseArray : String → Option (List String)) (survivors : List (String × ℕ))
    (before after : Channel) : Prop where
  keys : after.getKeys parseArray = survivors.map Prod.fst
  entries : ∀ (j : ℕ) (p : String × ℕ), survivors[j]? = some p →
    after.channelInfo.keyStatus j = before.channelInfo.keyStatus p.2 ∧
    after.channelInfo.disabledTime j = before.channelInfo.disabledTime p.2 ∧
    after.channelInfo.disabledReason j = before.channelInfo.disabledReason p.2
  disabled : ∀ (i j : ℕ) k, (before.getKeys parseArray)[i]? = some k →
    (after.getKeys parseArray)[j]? = some k → before.channelInfo.keyStatus i = .autoDisabled →
      after.channelInfo.keyStatus j ≠ .enabled

def Channel.keyText (c : Channel) (remaining : List String) : String :=
  if join '\n' remaining = "" then c.key else join '\n' remaining

def DeleteRequest.keepsTimes (info : ChannelInfo) (survivors : List (String × ℕ)) :
    DeleteRequest → Prop
  | .deleteKey _ => True
  | .deleteDisabledKeys => ∀ p ∈ survivors, info.keyStatus p.2 = .enabled →
      info.disabledTime p.2 = 0 ∧ info.disabledReason p.2 = ""

section
variable {parseArray : String → Option (List String)} {stored : Channel} {r : Remaining}

theorem foldl_erase_lookup (l : List Int) (m : AList fun _ : Int => ChannelStatus) (i : Int) :
    (l.foldl (fun m i => m.erase i) m).lookup i = if i ∈ l then none else m.lookup i := by
  induction l generalizing m with
  | nil => simp
  | cons k l ih =>
    rw [foldl_cons, ih]
    by_cases own : i = k
    · subst own
      simp
    · simp [own, AList.lookup_erase_ne own]

variable (parseArray) in
def Channel.afterDelete (stored : Channel) (r : Remaining) : Channel :=
  stored.updates ((stored.withRemaining r).resize parseArray (some stored))

theorem afterDelete_key : (stored.afterDelete parseArray r).key = stored.keyText r.keys := by
  have key : ((stored.withRemaining r).resize parseArray (some stored)).key =
      join '\n' r.keys := by
    unfold Channel.resize
    split <;> rfl
  simp only [Channel.afterDelete, Channel.updates, key, Channel.keyText]

theorem afterDelete_info (multi : stored.channelInfo.isMultiKey = true) :
    (stored.afterDelete parseArray r).channelInfo =
      ((stored.withRemaining r).resize parseArray (some stored)).channelInfo := by
  have nonzero : ((stored.withRemaining r).resize parseArray (some stored)).channelInfo ≠ {} := by
    intro zero
    have flag := congrArg ChannelInfo.isMultiKey zero
    have kept : (stored.withRemaining r).channelInfo.isMultiKey = true := multi
    rw [Channel.resize, if_pos kept] at flag
    exact absurd (flag.symm.trans kept) (by decide)
  simp only [Channel.afterDelete, Channel.updates, if_neg nonzero]

theorem countedKeys_eq {key : String} {keys : List String} (text : key ≠ "") (some : keys ≠ [])
    (read : keysOf parseArray key = keys) : countedKeys parseArray key = keys := by
  unfold keysOf at read
  rw [countedKeys, if_neg text]
  dsimp only at read ⊢
  by_cases bracket : "[".toList.isPrefixOf (trimSpace key).toList = true
  · rw [if_pos bracket] at read ⊢
    cases parsed : parseArray (trimSpace key) with
    | none =>
      rw [parsed] at read
      simpa using read
    | some array =>
      rw [parsed] at read
      obtain rfl : array = keys := read
      simp [some]
  · rw [if_neg bracket] at read ⊢
    simpa using read

theorem afterDelete_keyStatus (multi : stored.channelInfo.isMultiKey = true) {i : Int}
    (counted : i < (countedKeys parseArray (stored.keyText r.keys)).length) :
    (stored.afterDelete parseArray r).channelInfo.keyStatus i =
      (r.statusList.lookup i).getD .enabled := by
  have kept : (stored.withRemaining r).channelInfo.isMultiKey = true := multi
  have text : (if (stored.withRemaining r).key = "" then
      ((some stored).map Channel.key).getD "" else (stored.withRemaining r).key) =
        stored.keyText r.keys := rfl
  rw [afterDelete_info multi, Channel.resize, if_pos kept, text]
  simp only [ChannelInfo.keyStatus, foldl_erase_lookup]
  rw [if_neg]
  · rfl
  · intro member
    have past := (mem_filter.mp member).2
    simp at past
    omega

end

section
variable {parseArray : String → Option (List String)} {s t : Store} {id : Int} {stored : Channel}
  {request : DeleteRequest} {message : String}

theorem manageMultiKeys_ok (found : s.channels.find id = some stored)
    (ok : s.manageMultiKeys parseArray id request = .ok (message, t)) :
    stored.channelInfo.isMultiKey = true ∧
      request.refuses stored.channelInfo (request.remaining parseArray stored) = none ∧
      t.channels.find id =
        some (stored.afterDelete parseArray (request.remaining parseArray stored)) := by
  have own : stored.id = id := (Table.find_eq_some.mp found).2
  revert ok
  fun_cases s.manageMultiKeys parseArray id request <;> intro ok <;> cases ok
  next c read multi r allowed updated =>
    cases found.symm.trans read
    refine ⟨by simpa using multi, allowed, ?_⟩
    obtain ⟨-, same⟩ := ite_none_left_eq_some.mp updated
    cases same
    have id' : ((stored.withRemaining r).resize parseArray (some stored)).id = id :=
      (resize_id parseArray _ _).trans own
    have stored' : s.channels.find (stored.withRemaining r).id = some stored := by
      rw [← found]
      exact congrArg s.channels.find own
    rw [stored', Store.write, Table.find_update, found, map_some, id', if_pos own]
    rfl

variable {info : ChannelInfo} {r : Remaining}

theorem entry_isSome (allowed : request.refuses info r = none) (i : ℕ) :
    (request.entry info i).isSome = !request.deletes info i := by
  cases request with
  | deleteKey keyIndex =>
    cases keyIndex with
    | none => contradiction
    | some k =>
      by_cases own : (i : Int) = k
      · simp [DeleteRequest.entry, DeleteRequest.deletes, deleteKeyEntry, own]
      · simp [DeleteRequest.entry, DeleteRequest.deletes, deleteKeyEntry, own, Ne.symm own]
  | deleteDisabledKeys =>
    simp only [DeleteRequest.entry, DeleteRequest.deletes, deleteDisabledEntry]
    split
    next auto => simp [auto]
    next other => split <;> simp [other]

variable {p : String × ℕ}

theorem entryAt_survivor {β : Type} (f : KeyEntry → Option β)
    (allowed : request.refuses info r = none) (keys : List String) {j : ℕ}
    (survivor : (request.survivors info keys)[j]? = some p) :
    entryAt f (keys.zipIdx.filterMap fun p => request.entry info p.2) j =
      (request.entry info p.2).bind f := by
  have filtered : (keys.zipIdx.filter fun p => (request.entry info p.2).isSome) =
      request.survivors info keys := by
    simp only [entry_isSome allowed]
    rfl
  rw [entryAt_natCast, getElem?_filterMap, filtered, survivor]
  rfl

section
variable (allowed : request.refuses stored.channelInfo (request.remaining parseArray stored) = none)
include allowed

theorem remaining_holds :
    (request.remaining parseArray stored).Holds
      ((request.survivors stored.channelInfo (stored.getKeys parseArray)).map Prod.fst)
      ((stored.getKeys parseArray).zipIdx.filterMap fun p =>
        request.entry stored.channelInfo p.2) := by
  have holds := deleteKeys_holds (request.entry stored.channelInfo)
    (stored.getKeys parseArray).zipIdx
  simp only [entry_isSome allowed] at holds
  exact holds

theorem keys_ne_nil : stored.getKeys parseArray ≠ [] := by
  intro empty
  have none : request.remaining parseArray stored = {} := by
    simp [DeleteRequest.remaining, empty, deleteKeys]
  rw [none] at allowed
  cases request with
  | deleteKey keyIndex =>
    cases keyIndex with
    | none => contradiction
    | some k =>
      simp only [DeleteRequest.refuses] at allowed
      split at allowed <;> contradiction
  | deleteDisabledKeys => contradiction

theorem afterDelete_times (multi : stored.channelInfo.isMultiKey = true) {j : ℕ}
    (survivor : (request.survivors stored.channelInfo (stored.getKeys parseArray))[j]? = some p) :
    let after := stored.afterDelete parseArray (request.remaining parseArray stored)
    after.channelInfo.disabledTime j =
        ((request.entry stored.channelInfo p.2).bind (·.time)).getD 0 ∧
      after.channelInfo.disabledReason j =
        ((request.entry stored.channelInfo p.2).bind (·.reason)).getD "" := by
  have holds := remaining_holds allowed
  have kept : (stored.withRemaining (request.remaining parseArray stored)).channelInfo.isMultiKey =
    true := multi
  rw [← entryAt_survivor _ allowed _ survivor, ← entryAt_survivor _ allowed _ survivor,
    ← holds.times, ← holds.reasons]
  simp only [afterDelete_info multi, Channel.resize, if_pos kept]
  exact ⟨rfl, rfl⟩

end

/-- What the loop keeps of a survivor: its status, and its time and reason unless
`delete_disabled_keys` meets an enabled key. -/
theorem entry_survivor {i : ℕ} (survives : request.deletes info i = false)
    (allowed : request.refuses info r = none) :
    ((request.entry info i).bind (·.status)).getD .enabled = info.keyStatus i ∧
      (((request.entry info i).bind (·.time)).getD 0 = info.disabledTime i ∧
          ((request.entry info i).bind (·.reason)).getD "" = info.disabledReason i ↔
        (request = .deleteDisabledKeys → info.keyStatus i = .enabled →
          info.disabledTime i = 0 ∧ info.disabledReason i = "")) := by
  cases request with
  | deleteKey keyIndex =>
    cases keyIndex with
    | none => contradiction
    | some k =>
      have other : (i : Int) ≠ k := by
        rintro rfl
        simp [DeleteRequest.deletes] at survives
      simp only [DeleteRequest.entry, deleteKeyEntry, Option.getD_some, if_neg other,
        Option.bind_some]
      refine ⟨?_, by simp [ChannelInfo.disabledTime, ChannelInfo.disabledReason]⟩
      rw [ChannelInfo.keyStatus]
      cases info.multiKeyStatusList.lookup (i : Int) with
      | none => rfl
      | some status => by_cases enabled : status = .enabled <;> simp [Option.filter, enabled]
  | deleteDisabledKeys =>
    have other : info.keyStatus i ≠ .autoDisabled := by simpa [DeleteRequest.deletes] using survives
    simp only [DeleteRequest.entry, deleteDisabledEntry, if_neg other]
    by_cases enabled : info.keyStatus i = .enabled
    · refine ⟨by simp [enabled], ?_⟩
      simp only [enabled, ne_eq, not_true_eq_false, if_false, Option.bind_some, Option.getD_none,
        forall_const]
      exact and_congr eq_comm eq_comm
    · simp [enabled, ChannelInfo.disabledTime, ChannelInfo.disabledReason]

theorem keyText_ne_empty (nonempty : stored.getKeys parseArray ≠ []) (remaining : List String) :
    stored.keyText remaining ≠ "" := by
  have text : stored.key ≠ "" := by
    intro empty
    rw [Channel.getKeys, if_pos empty] at nonempty
    exact nonempty rfl
  unfold Channel.keyText
  split
  · exact text
  · assumption

theorem survivor_index {keys : List String} (apart : keys.Nodup) {i : ℕ}
    (member : p ∈ request.survivors info keys) (here : keys[i]? = some p.1) :
    p.2 = i := by
  have there := mem_zipIdx' (mem_of_mem_filter member)
  obtain ⟨bound, same⟩ := List.getElem?_eq_some_iff.mp here
  exact (apart.getElem_inj_iff.mp (there.2.symm.trans same.symm))

/-- A text that does not look like an array is read back exactly if the keys have one line each and
the first and the last are not empty. -/
theorem keysOf_keyText_iff {remaining : List String}
    (plain : "[".toList.isPrefixOf (trimSpace (join '\n' remaining)).toList = false) :
    join '\n' remaining ≠ "" ∧ keysOf parseArray (stored.keyText remaining) = remaining ↔
      remaining ≠ [] ∧ (∀ k ∈ remaining, '\n' ∉ k.toList) ∧ remaining.head? ≠ some "" ∧
        remaining.getLast? ≠ some "" := by
  by_cases text : join '\n' remaining = ""
  · refine iff_of_false (fun h => h.1 text) fun ⟨nonempty, _, first, _⟩ => ?_
    obtain ⟨k, rest, rfl⟩ := exists_cons_of_ne_nil nonempty
    exact first (congrArg some (eq_empty_of_join_eq_empty text k mem_cons_self))
  · rw [← split_trim_join_iff text, Channel.keyText, if_neg text, keysOf]
    simp only [plain, Bool.false_eq_true, if_false, ne_eq, text, not_false_eq_true, true_and]

theorem keepsTimes_iff {survivors : List (String × ℕ)} :
    request.keepsTimes info survivors ↔ ∀ p ∈ survivors, request = .deleteDisabledKeys →
      info.keyStatus p.2 = .enabled → info.disabledTime p.2 = 0 ∧ info.disabledReason p.2 = "" := by
  cases request <;> simp [DeleteRequest.keepsTimes]

theorem survives_of_mem {keys : List String} (member : p ∈ request.survivors info keys) :
    request.deletes info p.2 = false := by
  simpa using (mem_filter.mp member).2

end

/-- After a deletion that succeeds, the stored keys are the survivors with their statuses, times and
reasons exactly if the survivors, written one a line, are read back as they are, and no enabled one
of them has a time or a reason that `delete_disabled_keys` drops.  A text that does not look like an
array is read back exactly if there are survivors of one line each, the first and the last of them
not empty. -/
theorem deletion_keeps_rest_iff (parseArray : String → Option (List String)) {s t : Store}
    {id : Int} {stored : Channel} (found : s.channels.find id = some stored)
    (noKeys : stored.keys = []) (apart : (stored.getKeys parseArray).Nodup)
    {request : DeleteRequest} {message : String}
    (ok : s.manageMultiKeys parseArray id request = .ok (message, t)) :
    let survivors := request.survivors stored.channelInfo (stored.getKeys parseArray)
    let remaining := survivors.map Prod.fst
    ∃ after, t.channels.find id = some after ∧
      (KeepsRest parseArray survivors stored after ↔
        keysOf parseArray (stored.keyText remaining) = remaining ∧
          request.keepsTimes stored.channelInfo survivors) ∧
      ("[".toList.isPrefixOf (trimSpace (join '\n' remaining)).toList = false →
        (join '\n' remaining ≠ "" ∧ keysOf parseArray (stored.keyText remaining) = remaining ↔
          remaining ≠ [] ∧ (∀ k ∈ remaining, '\n' ∉ k.toList) ∧ remaining.head? ≠ some "" ∧
            remaining.getLast? ≠ some "")) := by
  intro survivors remaining
  obtain ⟨multi, allowed, row⟩ := manageMultiKeys_ok found ok
  have holds := remaining_holds allowed
  have nonempty := keys_ne_nil allowed
  have read : (stored.afterDelete parseArray (request.remaining parseArray stored)).getKeys
      parseArray = keysOf parseArray (stored.keyText remaining) := by
    have row : (stored.afterDelete parseArray (request.remaining parseArray stored)).keys = [] :=
      noKeys
    rw [Channel.getKeys, afterDelete_key, if_neg (keyText_ne_empty nonempty _), row, holds.keys]
    simp [remaining, survivors]
  refine ⟨_, row, ⟨fun keeps => ⟨read.symm.trans keeps.keys, ?_⟩, ?_⟩, keysOf_keyText_iff⟩
  · rw [keepsTimes_iff]
    intro p member
    obtain ⟨j, survivor⟩ := getElem?_of_mem member
    obtain ⟨time, reason⟩ := afterDelete_times allowed multi survivor
    obtain ⟨-, time', reason'⟩ := keeps.entries j p survivor
    exact (entry_survivor (survives_of_mem member) allowed).2.mp
      ⟨time.symm.trans time', reason.symm.trans reason'⟩
  · rintro ⟨back, times⟩
    have entries : ∀ (j : ℕ) (p : String × ℕ), survivors[j]? = some p →
        let after := stored.afterDelete parseArray (request.remaining parseArray stored)
        after.channelInfo.keyStatus j = stored.channelInfo.keyStatus p.2 ∧
          after.channelInfo.disabledTime j = stored.channelInfo.disabledTime p.2 ∧
          after.channelInfo.disabledReason j = stored.channelInfo.disabledReason p.2 := by
      intro j p survivor
      have member := mem_of_getElem? survivor
      obtain ⟨status, same⟩ := entry_survivor (survives_of_mem member) allowed
      obtain ⟨time, reason⟩ := afterDelete_times allowed multi survivor
      obtain ⟨time', reason'⟩ := same.mpr (keepsTimes_iff.mp times p member)
      refine ⟨?_, time.trans time', reason.trans reason'⟩
      have counted : countedKeys parseArray (stored.keyText remaining) = remaining :=
        countedKeys_eq (keyText_ne_empty nonempty remaining)
          (ne_nil_of_mem (mem_map_of_mem member)) back
      have bound : j < survivors.length := (List.getElem?_eq_some_iff.mp survivor).1
      rw [afterDelete_keyStatus multi (by rw [holds.keys, counted]; simpa [remaining] using bound),
        holds.statuses, entryAt_survivor _ allowed _ survivor, status]
    refine ⟨read.trans back, entries, fun i j k old new auto => ?_⟩
    rw [read, back, getElem?_map, map_eq_some_iff] at new
    obtain ⟨p, survivor, rfl⟩ := new
    have index := survivor_index apart (mem_of_getElem? survivor) old
    rw [(entries j p survivor).1, index, auto]
    decide

def keyedStore (key : String) (size : Int) (statuses : AList fun _ : Int => ChannelStatus) :
    Store :=
  singleStore (defaultChannel 1 "gpt-4" key
    { isMultiKey := true, multiKeySize := size, multiKeyStatusList := statuses })

def storedKeys (parseArray : String → Option (List String))
    (result : Except String (String × Store)) : Option (List (String × ChannelStatus)) :=
  result.toOption.bind fun answer => (answer.2.channels.find 1).map fun c =>
    (c.getKeys parseArray).zipIdx.map fun p => (p.1, c.channelInfo.keyStatus p.2)

def twoObjects (text : String) : Option (List String) :=
  if text = "[\x7b\"a\":\n1\x7d,\x7b\"b\":2\x7d]" then
    some ["\x7b\"a\":\n1\x7d", "\x7b\"b\":2\x7d"]
  else none

/-- Where all keys were disabled automatically, the deletion of the disabled keys deletes none and
enables all of them.  A key of two lines that survives a deletion is read back as two keys. -/
theorem deletion_breaks_keys :
    storedKeys (fun _ => none) ((keyedStore "a\nb" 2
        ((AList.insert 0 .autoDisabled ∅).insert 1 .autoDisabled)).manageMultiKeys (fun _ => none) 1
          .deleteDisabledKeys) = some [("a", .enabled), ("b", .enabled)] ∧
      storedKeys twoObjects ((keyedStore "[\x7b\"a\":\n1\x7d,\x7b\"b\":2\x7d]" 2 ∅).manageMultiKeys
          twoObjects 1 (.deleteKey (some 1))) =
        some [("\x7b\"a\":", .enabled), ("1\x7d", .enabled)] := by
  decide

/-- Of three keys one was disabled automatically and is deleted, and one by hand. -/
theorem deletion_keeps_rest_iff_manual :
    ∃ stored after, KeepsRest (fun _ => none) [("a", 0), ("c", 2)] stored after ∧
      stored.channelInfo.keyStatus 2 = .manuallyDisabled ∧
      after.channelInfo.keyStatus 1 = .manuallyDisabled := by
  have found : (keyedStore "a\nb\nc" 3 ((AList.insert 1 .autoDisabled ∅).insert 2
      .manuallyDisabled)).channels.find 1 = some _ := rfl
  obtain ⟨message, t, ok⟩ : ∃ message t, (keyedStore "a\nb\nc" 3 ((AList.insert 1 .autoDisabled
      ∅).insert 2 .manuallyDisabled)).manageMultiKeys (fun _ => none) 1 .deleteDisabledKeys =
        .ok (message, t) := ⟨_, _, rfl⟩
  obtain ⟨after, -, keeps, lines⟩ :=
    deletion_keeps_rest_iff (fun _ => none) found rfl (by decide) ok
  have kept := keeps.mpr ⟨((lines (by decide)).mpr (by decide)).2, fun p _ _ => ⟨rfl, rfl⟩⟩
  exact ⟨_, after, kept, rfl, (kept.entries 1 ("c", 2) rfl).1⟩

end EastApi.Channels
