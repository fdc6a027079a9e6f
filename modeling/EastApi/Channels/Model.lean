import EastApi.Lib.GoText
import EastApi.Lib.Table
import Mathlib.Data.List.AList

/-! Channels and abilities (`model/channel.go`, `model/ability.go`).  A channel names its groups and
its models in two comma-separated columns; the table of abilities has a row for every pair of a
group and a model, with what the selection of a channel reads. -/

namespace EastApi.Channels

open Go List

/-- The statuses that the code names, and any other number.  `unknown` is the zero value. -/
inductive ChannelStatus
  | unknown | enabled | manuallyDisabled | autoDisabled
  | other (n : Int)
deriving DecidableEq, Repr

structure ChannelInfo where
  isMultiKey : Bool := false
  multiKeySize : Int := 0
  multiKeyStatusList : AList (fun _ : Int => ChannelStatus) := ∅
  multiKeyDisabledReason : AList (fun _ : Int => String) := ∅
  multiKeyDisabledTime : AList (fun _ : Int => Int) := ∅
  multiKeyPollingIndex : Int := 0
  /-- `MultiKeyMode` is `polling`. -/
  isPolling : Bool := false
deriving DecidableEq

/-- The columns of a channel that are read here.  `statusReason` and `statusTime` are the two
entries of `other_info`, and `keys` is kept only in the memory cache. -/
structure Channel where
  id : Int
  key : String := ""
  status : ChannelStatus
  (models group : String)
  priority : Option Int := none
  weight : Option Nat := none
  tag : Option String := none
  channelInfo : ChannelInfo := {}
  statusReason : String := ""
  statusTime : Int := 0
  keys : List String := []
deriving DecidableEq

def Channel.getPriority (c : Channel) : Int := c.priority.getD 0

def Channel.getWeight (c : Channel) : Nat := c.weight.getD 0

def Channel.isEnabled (c : Channel) : Bool := c.status = .enabled

section
variable (parseArray : String → Option (List String))

def keysOf (key : String) : List String :=
  let trimmed := trimSpace key
  match if "[".toList.isPrefixOf trimmed.toList then parseArray trimmed else none with
  | some keys => keys
  | none => split '\n' (trim '\n' key)

def Channel.getKeys (c : Channel) : List String :=
  if c.key = "" then [] else if c.keys ≠ [] then c.keys else keysOf parseArray c.key

/-- The index that `handlerMultiKeyUpdate` uses for a key: its first place, or 0. -/
def keyIndex (keys : List String) (usingKey : String) : Int :=
  if usingKey ∈ keys then keys.idxOf usingKey else 0

def ChannelInfo.setKeyStatus (info : ChannelInfo) (index : Int) (status : ChannelStatus)
    (reason : String) (now : Int) : ChannelInfo :=
  if status = .enabled then
    { info with multiKeyStatusList := info.multiKeyStatusList.erase index }
  else
    { info with
      multiKeyStatusList := info.multiKeyStatusList.insert index status
      multiKeyDisabledReason := info.multiKeyDisabledReason.insert index reason
      multiKeyDisabledTime := info.multiKeyDisabledTime.insert index now }

def handlerMultiKeyUpdate (c : Channel) (usingKey : String) (status : ChannelStatus)
    (reason : String) (now : Int) : Channel :=
  let keys := c.getKeys parseArray
  if keys = [] then { c with status := status }
  else
    let info := c.channelInfo.setKeyStatus (keyIndex keys usingKey) status reason now
    if info.multiKeySize ≤ info.multiKeyStatusList.entries.length then
      { c with
        channelInfo := info
        status := .autoDisabled
        statusReason := "All keys are disabled"
        statusTime := now }
    else { c with channelInfo := info }

/-- How many keys have a status of their own once the key at `index` has been given one. -/
def ChannelInfo.statusesAfter (info : ChannelInfo) (index : Int) (status : ChannelStatus) : Int :=
  (info.multiKeyStatusList.keys.erase index).length + if status = .enabled then 0 else 1

theorem setKeyStatus_length (info : ChannelInfo) (index : Int) (status : ChannelStatus)
    (reason : String) (now : Int) :
    ((info.setKeyStatus index status reason now).multiKeyStatusList.entries.length : Int) =
      info.statusesAfter index status := by
  have size (l : AList fun _ : Int => ChannelStatus) : l.entries.length = l.keys.length :=
    (length_map _).symm
  unfold ChannelInfo.setKeyStatus ChannelInfo.statusesAfter
  split
  · simp only [size, AList.keys_erase]
    simp
  · simp only [size, AList.keys_insert]
    simp

/-- Without keys a channel takes the requested status, and with keys it is disabled once all of
them have a status. -/
theorem handlerMultiKeyUpdate_status (c : Channel) (usingKey : String) (status : ChannelStatus)
    (reason : String) (now : Int) :
    (handlerMultiKeyUpdate parseArray c usingKey status reason now).status =
      if c.getKeys parseArray = [] then status
      else if c.channelInfo.multiKeySize ≤ c.channelInfo.statusesAfter
        (keyIndex (c.getKeys parseArray) usingKey) status then .autoDisabled
      else c.status := by
  have size : ∀ index, (c.channelInfo.setKeyStatus index status reason now).multiKeySize =
      c.channelInfo.multiKeySize := by
    intro index
    unfold ChannelInfo.setKeyStatus
    split <;> rfl
  unfold handlerMultiKeyUpdate
  simp only [setKeyStatus_length, size]
  split
  · rfl
  · split <;> rfl

end

structure Ability where
  (group model : String)
  channelId : Int
  enabled : Bool
  priority : Int
  weight : Nat
  tag : Option String
deriving DecidableEq, Repr

def Ability.pk (a : Ability) : String × String × Int := (a.group, a.model, a.channelId)

def Channel.groups (c : Channel) : List String := split ',' c.group

def Channel.modelNames (c : Channel) : List String := split ',' c.models

def Channel.pairs (c : Channel) : List (String × String) :=
  c.modelNames.flatMap fun model => c.groups.map fun group => (group, model)

def Channel.ability (c : Channel) (p : String × String) : Ability where
  group := p.1
  model := p.2
  channelId := c.id
  enabled := c.isEnabled
  priority := c.getPriority
  weight := c.getWeight
  tag := c.tag

def abilityKey (p : String × String) : String := p.1 ++ "|" ++ p.2

def freshPairs : List (String × String) → List String → List (String × String)
  | [], _ => []
  | p :: rest, abilitySet =>
    if abilityKey p ∈ abilitySet then freshPairs rest abilitySet
    else p :: freshPairs rest (abilityKey p :: abilitySet)

def Channel.newAbilities (c : Channel) : List Ability := (freshPairs c.pairs []).map c.ability

def addStatements (c : Channel) : List (List Ability) := chunk 50 c.newAbilities

theorem mem_pairs {c : Channel} : p ∈ c.pairs ↔ p.1 ∈ c.groups ∧ p.2 ∈ c.modelNames := by
  obtain ⟨group, model⟩ := p
  simp only [Channel.pairs, mem_flatMap, mem_map, Prod.mk.injEq]
  constructor
  · rintro ⟨m, hm, g, hg, rfl, rfl⟩
    exact ⟨hg, hm⟩
  · rintro ⟨hg, hm⟩
    exact ⟨model, hm, group, hg, rfl, rfl⟩

theorem groups_ne_nil (c : Channel) : c.groups ≠ [] := split_ne_nil _ _

theorem modelNames_ne_nil (c : Channel) : c.modelNames ≠ [] := split_ne_nil _ _

theorem exists_pair (c : Channel) : ∃ p, p ∈ c.pairs := by
  obtain ⟨group, hg⟩ := exists_mem_of_ne_nil _ (groups_ne_nil c)
  obtain ⟨model, hm⟩ := exists_mem_of_ne_nil _ (modelNames_ne_nil c)
  exact ⟨(group, model), mem_pairs.mpr ⟨hg, hm⟩⟩

/-- The pairs that are kept are those that come first among the pairs of their key. -/
theorem mem_freshPairs_iff : p ∈ freshPairs l abilitySet ↔
    abilityKey p ∉ abilitySet ∧ l.find? (abilityKey · = abilityKey p) = some p := by
  induction l generalizing abilitySet with
  | nil => simp [freshPairs]
  | cons q rest ih =>
    unfold freshPairs
    by_cases same : abilityKey q = abilityKey p
    · rw [find?_cons_of_pos (by simpa using same)]
      split
      · rw [ih]
        simp_all
      · rw [mem_cons, ih]
        simp_all [eq_comm]
    · have other : p ≠ q := fun h => same (by rw [h])
      rw [find?_cons_of_neg (by simpa using same)]
      split
      · exact ih
      · rw [mem_cons, ih]
        simp_all [eq_comm]

theorem mem_freshPairs (h : p ∈ freshPairs l abilitySet) : p ∈ l ∧ abilityKey p ∉ abilitySet :=
  ⟨mem_of_find?_eq_some (mem_freshPairs_iff.mp h).2, (mem_freshPairs_iff.mp h).1⟩

theorem freshPairs_keys_nodup (l : List (String × String)) (abilitySet : List String) :
    ((freshPairs l abilitySet).map abilityKey).Nodup := by
  induction l generalizing abilitySet with
  | nil => simp [freshPairs]
  | cons q rest ih =>
    unfold freshPairs
    split
    · exact ih _
    · rw [map_cons, nodup_cons]
      refine ⟨fun h => ?_, ih _⟩
      obtain ⟨p, hp, same⟩ := mem_map.mp h
      exact (mem_freshPairs hp).2 (by simp [same])

theorem exists_freshPair (hp : p ∈ l) : ∃ q ∈ freshPairs l [], abilityKey q = abilityKey p := by
  cases found : l.find? (abilityKey · = abilityKey p) with
  | none => simpa using find?_eq_none.mp found p hp
  | some q =>
    have same : abilityKey q = abilityKey p := by simpa using find?_some found
    exact ⟨q, mem_freshPairs_iff.mpr ⟨not_mem_nil, by rw [same]; exact found⟩, same⟩

theorem newAbilities_pk_nodup (c : Channel) : (c.newAbilities.map Ability.pk).Nodup := by
  have keys := freshPairs_keys_nodup c.pairs []
  rw [Channel.newAbilities, map_map]
  refine List.Nodup.of_map (fun pk => abilityKey (pk.1, pk.2.1)) ?_
  rw [map_map]
  exact keys

theorem mem_newAbilities {c : Channel} :
    a ∈ c.newAbilities ↔ ∃ p ∈ freshPairs c.pairs [], c.ability p = a := mem_map

theorem channelId_of_mem_newAbilities {c : Channel} (h : a ∈ c.newAbilities) :
    a.channelId = c.id := by
  obtain ⟨p, -, rfl⟩ := mem_newAbilities.mp h
  rfl

theorem abilityKey_inj (h : abilityKey (group, model) = abilityKey (group', model)) :
    group = group' := by
  have chars := congrArg String.toList h
  simp only [abilityKey, String.toList_append, append_assoc, append_cancel_right_eq]
    at chars
  exact String.toList_inj.mp chars

/-- The rows of a channel have all of its groups: for the first model no two groups have one key. -/
theorem exists_newAbility {c : Channel} (h : group ∈ c.groups) :
    ∃ a ∈ c.newAbilities, a.group = group := by
  obtain ⟨model, rest, models⟩ := exists_cons_of_ne_nil (modelNames_ne_nil c)
  have first : ∀ (groups : List String) (l : List (String × String)) (abilitySet : List String),
      group ∈ groups → abilityKey (group, model) ∉ abilitySet →
        (group, model) ∈ freshPairs ((groups.map fun g => (g, model)) ++ l) abilitySet := by
    intro groups l
    induction groups with
    | nil => intro abilitySet h; cases h
    | cons g groups ih =>
      intro abilitySet hg new
      rw [map_cons, cons_append, freshPairs]
      by_cases same : g = group
      · subst same
        rw [if_neg new]
        exact mem_cons_self
      · have later : group ∈ groups := (mem_cons.mp hg).resolve_left fun h => same h.symm
        split
        · exact ih _ later new
        · refine mem_cons_of_mem _ (ih _ later ?_)
          rw [mem_cons, not_or]
          exact ⟨fun key => same (abilityKey_inj key).symm, new⟩
  refine ⟨c.ability (group, model), mem_newAbilities.mpr ⟨(group, model), ?_, rfl⟩, rfl⟩
  rw [Channel.pairs, models, flatMap_cons]
  exact first c.groups _ [] h (by simp)

end EastApi.Channels
