import EastApi.Channels.Model
import EastApi.Lib.Run
import EastApi.Lib.View

/-! The abilities as a mirror of the channels.  `Channel.Update`, `UpdateChannelStatus`, the writes
by tag, the deletions by status and `UpdateAbilities` keep the second table by different partial
updates; for each of them the condition is given under which the mirror stays exact. -/

namespace EastApi.Channels

open Go Run List

structure Store where
  channels : Table Channel.id
  abilities : Table Ability.pk

def channelView : View Channel.id (String × String) Channel.ability where
  idx := Channel.pairs
  owner := Ability.channelId
  owner_row := fun _ _ => rfl

/-- The abilities are the rows of the channels, one for each group and model, and no others. -/
def Store.Mirrored (s : Store) : Prop := channelView.Mirrors s.channels s.abilities

def updateAbilities (abilities : Table Ability.pk) (c : Channel) : Table Ability.pk :=
  (addStatements c).foldl Table.insertAll
    (abilities.delete fun a : Ability => a.channelId = c.id)

theorem mem_updateAbilities :
    a ∈ updateAbilities abilities c ↔
      (a ∈ abilities ∧ a.channelId ≠ c.id) ∨ a ∈ c.newAbilities := by
  have lots : ∀ (l : List (List Ability)) (t : Table Ability.pk),
      l.foldl Table.insertAll t = t.insertAll l.flatten := by
    intro l t
    exact (foldl_flatten ..).symm
  have fresh : ∀ b ∈ c.newAbilities,
      ∀ d ∈ abilities.delete fun a : Ability => a.channelId = c.id, d.pk ≠ b.pk := by
    intro b hb d hd same
    have other : d.channelId ≠ c.id := by simpa using (Table.mem_delete.mp hd).2
    rw [← channelId_of_mem_newAbilities hb] at other
    exact other (congrArg (fun k => k.2.2) same)
  rw [updateAbilities, lots, addStatements, chunk_flatten (by decide),
    Table.mem_insertAll (newAbilities_pk_nodup c) fresh, Table.mem_delete]
  simp

theorem mem_updateAll {l : List Channel} (apart : (l.map Channel.id).Nodup) :
    a ∈ l.foldl updateAbilities abilities ↔
      (a ∈ abilities ∧ ∀ c ∈ l, a.channelId ≠ c.id) ∨ ∃ c ∈ l, a ∈ c.newAbilities := by
  induction l generalizing abilities with
  | nil => simp
  | cons c l ih =>
    rw [map_cons, nodup_cons] at apart
    rw [foldl_cons, ih apart.2, mem_updateAbilities]
    have later : a ∈ c.newAbilities → ∀ d ∈ l, a.channelId ≠ d.id := by
      intro ha d hd same
      rw [channelId_of_mem_newAbilities ha] at same
      exact apart.1 (mem_map.mpr ⟨d, hd, same.symm⟩)
    simp only [forall_mem_cons, exists_mem_cons_iff]
    grind

def Channel.KeysApart (c : Channel) : Prop :=
  ∀ p ∈ c.pairs, ∀ q ∈ c.pairs, abilityKey p = abilityKey q → p = q

instance instDecidableKeysApart (c : Channel) : Decidable c.KeysApart :=
  inferInstanceAs (Decidable (∀ p ∈ c.pairs, ∀ q ∈ c.pairs, _))

/-- The rows that are created for a channel are all of its rows exactly if no pair is taken for
another one. -/
theorem newAbilities_exact_iff (c : Channel) :
    (∀ a, a ∈ c.newAbilities ↔ channelView.Has c a) ↔ c.KeysApart := by
  have inj : ∀ p q : String × String, c.ability p = c.ability q → p = q := fun p q h =>
    Prod.ext (congrArg Ability.group h) (congrArg Ability.model h)
  constructor
  · intro all p hp q hq same
    have kept : ∀ p ∈ c.pairs, p ∈ freshPairs c.pairs [] := by
      intro p hp
      obtain ⟨p', hp', h⟩ := mem_newAbilities.mp ((all (c.ability p)).mpr ⟨p, hp, rfl⟩)
      exact inj p' p h ▸ hp'
    exact inj_on_of_nodup_map (freshPairs_keys_nodup c.pairs []) (kept p hp) (kept q hq) same
  · intro apart a
    rw [mem_newAbilities]
    constructor
    · rintro ⟨p, hp, rfl⟩
      exact ⟨p, (mem_freshPairs hp).1, rfl⟩
    · rintro ⟨p, hp, rfl⟩
      obtain ⟨q, hq, same⟩ := exists_freshPair hp
      have : q = p := apart q (mem_freshPairs hq).1 p hp same
      exact ⟨p, this ▸ hq, rfl⟩

theorem newAbilities_ne_nil (c : Channel) : c.newAbilities ≠ [] := by
  obtain ⟨group, hg⟩ := exists_mem_of_ne_nil _ (groups_ne_nil c)
  obtain ⟨a, ha, -⟩ := exists_newAbility hg
  exact ne_nil_of_mem ha

theorem pairs_ne_nil (c : Channel) : c.pairs ≠ [] := by
  obtain ⟨p, hp⟩ := exists_pair c
  exact ne_nil_of_mem hp

section
variable (parseArray : String → Option (List String))

def Channel.updates (stored c : Channel) : Channel :=
  { stored with
    key := if c.key = "" then stored.key else c.key
    status := if c.status = .unknown then stored.status else c.status
    models := if c.models = "" then stored.models else c.models
    group := if c.group = "" then stored.group else c.group
    priority := c.priority <|> stored.priority
    weight := c.weight <|> stored.weight
    tag := c.tag <|> stored.tag
    channelInfo := if c.channelInfo = {} then stored.channelInfo else c.channelInfo
    statusReason := if c.statusReason = "" then stored.statusReason else c.statusReason
    statusTime := if c.statusTime = 0 then stored.statusTime else c.statusTime }

def countedKeys (key : String) : List String :=
  if key = "" then []
  else
    let trimmed := trimSpace key
    let keys := if "[".toList.isPrefixOf trimmed.toList then (parseArray trimmed).getD [] else []
    if keys = [] then split '\n' (trim '\n' key) else keys

def Channel.resize (c : Channel) (stored : Option Channel) : Channel :=
  if c.channelInfo.isMultiKey then
    let key := if c.key = "" then (stored.map Channel.key).getD "" else c.key
    let size : Int := (countedKeys parseArray key).length
    let statuses := c.channelInfo.multiKeyStatusList
    { c with
      channelInfo := { c.channelInfo with
        multiKeySize := size
        multiKeyStatusList :=
          (statuses.keys.filter (size ≤ ·)).foldl (fun m i => m.erase i) statuses } }
  else c

/-- The `Updates` of a channel, which is read again and whose abilities are written anew.  One of
an id that is not stored changes no channel, and writes the abilities of the struct as it is. -/
def Store.write (s : Store) (c : Channel) : Store :=
  let channels := s.channels.update (fun d => if d.id = c.id then d.updates c else d) fun d => by
    split <;> rfl
  ⟨channels, updateAbilities s.abilities ((channels.find c.id).getD c)⟩

def Store.update (s : Store) (c : Channel) : Option Store :=
  if c.id = 0 then none else some (s.write (c.resize parseArray (s.channels.find c.id)))

structure StatusChange where
  channelId : Int
  usingKey : String
  status : ChannelStatus
  reason : String
  now : Int

def Channel.changeStatus (c : Channel) (call : StatusChange) : Channel :=
  if c.channelInfo.isMultiKey then
    handlerMultiKeyUpdate parseArray { c with keys := [] } call.usingKey call.status call.reason
      call.now
  else { c with status := call.status, statusReason := call.reason, statusTime := call.now }

def updateAbilityStatus (abilities : Table Ability.pk) (channelId : Int) (status : Bool) :
    Table Ability.pk :=
  abilities.update (fun a => if a.channelId = channelId then { a with enabled := status } else a)
    fun a => by split <;> rfl

def Store.updateChannelStatus (s : Store) (call : StatusChange) : Option Store :=
  match s.channels.find call.channelId with
  | none => none
  | some c =>
    if c.status = call.status ∨ c.id = 0 then none
    else
      let saved := c.changeStatus parseArray call
      -- every column but the key is saved
      let channels := s.channels.update
        (fun d => if d.id = call.channelId then { saved with id := d.id, key := d.key } else d)
        fun d => by split <;> rfl
      if c.channelInfo.isMultiKey = true ∧ saved.status = c.status then
        some { s with channels := channels }
      else
        some ⟨channels, updateAbilityStatus s.abilities call.channelId (call.status = .enabled)⟩

def Store.setStatusByTag (s : Store) (tag : String) (status : ChannelStatus) (enabled : Bool) :
    Store where
  channels := s.channels.update
    (fun c => if c.tag = some tag then { c with status := status } else c)
    fun c => by split <;> rfl
  abilities := s.abilities.update
    (fun a => if a.tag = some tag then { a with enabled := enabled } else a)
    fun a => by split <;> rfl

def Store.enableChannelByTag (s : Store) (tag : String) : Store :=
  s.setStatusByTag tag .enabled true

def Store.disableChannelByTag (s : Store) (tag : String) : Store :=
  s.setStatusByTag tag .manuallyDisabled false

structure TagEdit where
  tag : String
  newTag : Option String := none
  models : Option String := none
  group : Option String := none
  priority : Option Int := none
  weight : Option Nat := none

def TagEdit.updateData (e : TagEdit) : Channel where
  id := 0
  status := .unknown
  models := e.models.getD ""
  group := e.group.getD ""
  priority := e.priority
  weight := e.weight
  tag := if e.newTag = some e.tag then none else e.newTag

def TagEdit.updatedTag (e : TagEdit) : String := e.newTag.getD e.tag

def TagEdit.shouldReCreateAbilities (e : TagEdit) : Bool :=
  e.models.getD "" ≠ "" || e.group.getD "" ≠ ""

def TagEdit.channel (e : TagEdit) (c : Channel) : Channel :=
  if c.tag = some e.tag then c.updates e.updateData else c

def TagEdit.ability (e : TagEdit) (a : Ability) : Ability :=
  if a.tag = some e.tag then
    { a with
      tag := e.newTag <|> a.tag
      priority := e.priority.getD a.priority
      weight := if e.weight.getD 0 = 0 then a.weight else e.weight.getD 0 }
  else a

def Store.editChannelByTag (s : Store) (e : TagEdit) : Store :=
  let channels := s.channels.update e.channel fun c => by
    unfold TagEdit.channel
    split <;> rfl
  if e.shouldReCreateAbilities then
    -- the key is not read
    let tagged := (channels.rows.filter fun c : Channel => c.tag = some e.updatedTag).map
      fun c => { c with key := "" }
    ⟨channels, tagged.foldl updateAbilities s.abilities⟩
  else
    ⟨channels, s.abilities.update e.ability fun a => by
      unfold TagEdit.ability
      split <;> rfl⟩

def Store.batchSetChannelTag (s : Store) (ids : List Int) (tag : Option String) : Store where
  channels := s.channels.update (fun c => if c.id ∈ ids then { c with tag := tag } else c)
    fun c => by split <;> rfl
  abilities := (s.channels.rows.filter fun c : Channel => c.id ∈ ids).foldl updateAbilities
    s.abilities

def Store.deleteByStatus (s : Store) (statuses : List ChannelStatus) : Store :=
  { s with channels := s.channels.delete fun c : Channel => c.status ∈ statuses }

inductive Mutation
  | update (c : Channel)
  | updateChannelStatus (call : StatusChange)
  | enableChannelByTag (tag : String)
  | disableChannelByTag (tag : String)
  | editChannelByTag (e : TagEdit)
  | batchSetChannelTag (ids : List Int) (tag : Option String)
  | deleteChannelByStatus (status : ChannelStatus)
  | deleteDisabledChannel
  | updateAbilities (c : Channel)

def Store.step (s : Store) : Mutation → Option Store
  | .update c => s.update parseArray c
  | .updateChannelStatus call => s.updateChannelStatus parseArray call
  | .enableChannelByTag tag => some (s.enableChannelByTag tag)
  | .disableChannelByTag tag => some (s.disableChannelByTag tag)
  | .editChannelByTag e => some (s.editChannelByTag e)
  | .batchSetChannelTag ids tag => some (s.batchSetChannelTag ids tag)
  | .deleteChannelByStatus status => some (s.deleteByStatus [status])
  | .deleteDisabledChannel => some (s.deleteByStatus [.autoDisabled, .manuallyDisabled])
  | .updateAbilities c => some { s with abilities := updateAbilities s.abilities c }

/-- The abilities that `UpdateAbilities` creates for `c` are the rows of the stored channel `d`: the
columns agree, and the pairs of `d` are those of `c` that come first with their text, one for each
text. -/
structure Channel.RowsOf (c d : Channel) : Prop where
  id : d.id = c.id
  enabled : d.isEnabled = c.isEnabled
  priority : d.getPriority = c.getPriority
  weight : d.getWeight = c.getWeight
  tag : d.tag = c.tag
  first : ∀ p ∈ d.pairs, c.pairs.find? (abilityKey · = abilityKey p) = some p
  all : ∀ p ∈ c.pairs, ∃ q ∈ d.pairs, abilityKey q = abilityKey p

theorem Channel.rowsOf_iff (c d : Channel) :
    c.RowsOf d ↔ d.id = c.id ∧ ∀ a, a ∈ c.newAbilities ↔ channelView.Has d a := by
  constructor
  · intro h
    have same : c.ability = d.ability := by
      funext p
      simp only [Channel.ability, h.id, h.enabled, h.priority, h.weight, h.tag]
    have first : ∀ p, p ∈ freshPairs c.pairs [] ↔ p ∈ d.pairs := by
      intro p
      rw [mem_freshPairs_iff]
      constructor
      · rintro ⟨-, found⟩
        obtain ⟨q, hq, key⟩ := h.all p (mem_of_find?_eq_some found)
        have own := h.first q hq
        rw [key, found] at own
        cases own
        exact hq
      · exact fun hp => ⟨not_mem_nil, h.first p hp⟩
    refine ⟨h.id, fun a => ?_⟩
    rw [mem_newAbilities, same]
    exact exists_congr fun p => and_congr_left fun _ => first p
  · rintro ⟨id, rows⟩
    obtain ⟨p, hp⟩ := exists_pair d
    have row : ∀ p ∈ d.pairs, p ∈ freshPairs c.pairs [] ∧ c.ability p = d.ability p := by
      intro p hp
      obtain ⟨q, hq, eq⟩ := mem_newAbilities.mp ((rows (d.ability p)).mpr ⟨p, hp, rfl⟩)
      obtain rfl : q = p := Prod.ext (congrArg Ability.group eq) (congrArg Ability.model eq)
      exact ⟨hq, eq⟩
    have eq := (row p hp).2
    refine ⟨id, (congrArg Ability.enabled eq).symm, (congrArg Ability.priority eq).symm,
      (congrArg Ability.weight eq).symm, (congrArg Ability.tag eq).symm,
      fun q hq => (mem_freshPairs_iff.mp (row q hq).1).2, fun q hq => ?_⟩
    obtain ⟨q', hq', key⟩ := exists_freshPair hq
    obtain ⟨r, hr, same⟩ := (rows _).mp (mem_newAbilities.mpr ⟨q', hq', rfl⟩)
    obtain rfl : r = q' := Prod.ext (congrArg Ability.group same) (congrArg Ability.model same)
    exact ⟨r, hr, key⟩

/-- The condition of each mutation, on the stored tables and its arguments. -/
def Store.keepsMirror (s : Store) : Mutation → Prop
  | .update c => ∃ d ∈ s.channels,
      d.id = c.id ∧ (d.updates (c.resize parseArray (some d))).KeysApart
  | .updateChannelStatus call => ∀ c ∈ s.channels, c.id = call.channelId →
      c.channelInfo.isMultiKey = true → call.status = .enabled →
        let keys := { c with keys := [] }.getKeys parseArray
        keys = [] ∨ c.status = .autoDisabled ∨ c.channelInfo.statusesAfter
          (keyIndex keys call.usingKey) .enabled < c.channelInfo.multiKeySize
  | .enableChannelByTag _ | .disableChannelByTag _ => True
  | .editChannelByTag e =>
    if e.shouldReCreateAbilities then
      ∀ c ∈ s.channels, (e.channel c).tag = some e.updatedTag → (e.channel c).KeysApart
    else e.weight = some 0 → ∀ c ∈ s.channels, c.tag = some e.tag → c.getWeight = 0
  | .batchSetChannelTag ids tag => ∀ c ∈ s.channels, c.id ∈ ids → c.tag = tag ∧ c.KeysApart
  | .deleteChannelByStatus status => ∀ c ∈ s.channels, c.status ≠ status
  | .deleteDisabledChannel => ∀ c ∈ s.channels, c.status ∉ [.autoDisabled, .manuallyDisabled]
  | .updateAbilities c => ∃ d ∈ s.channels, c.RowsOf d

variable {s t : Store}

section
variable (h : s.Mirrored) {l : List Channel} (apart : (l.map Channel.id).Nodup)
  (others : ∀ c : Channel, (∀ d ∈ l, d.id ≠ c.id) → (c ∈ t.channels ↔ c ∈ s.channels))
  (written : t.abilities = l.foldl updateAbilities s.abilities)
include h apart others written

theorem Store.Mirrored.refresh_iff :
    t.Mirrored ↔ ∀ c ∈ l, ∃ d ∈ t.channels, d.id = c.id ∧
      ∀ a, a ∈ c.newAbilities ↔ channelView.Has d a :=
  View.Mirrors.refresh_iff h apart (fun _ _ _ ha => channelId_of_mem_newAbilities ha)
    (fun c _ => newAbilities_ne_nil c) others
    (fun a => by rw [written]; exact mem_updateAll apart)

theorem Store.Mirrored.refresh_stored_iff
    (stored : ∀ c ∈ l, ∃ key, { c with key := key } ∈ t.channels) :
    t.Mirrored ↔ ∀ c ∈ l, c.KeysApart := by
  rw [h.refresh_iff apart others written]
  refine forall₂_congr fun c hc => ?_
  obtain ⟨key, mem⟩ := stored c hc
  rw [← newAbilities_exact_iff]
  constructor
  · rintro ⟨d, hd, same, all⟩
    obtain rfl := Table.eq_of_key hd mem same
    exact all
  · intro all
    exact ⟨_, mem, rfl, all⟩

end

theorem resize_id (c : Channel) (stored : Option Channel) :
    (c.resize parseArray stored).id = c.id := by
  unfold Channel.resize
  split <;> rfl

variable {c : Channel}

theorem Store.mem_write : e ∈ (s.write c).channels ↔
    ∃ d ∈ s.channels, (if d.id = c.id then d.updates c else d) = e := by
  rw [Store.write, Table.mem_update]

theorem Store.Mirrored.write_iff (h : s.Mirrored) (c : Channel) :
    (s.write c).Mirrored ↔ ∃ d ∈ s.channels, d.id = c.id ∧ (d.updates c).KeysApart := by
  have others : ∀ e : Channel, (c.id ≠ e.id) → (e ∈ (s.write c).channels ↔ e ∈ s.channels) := by
    intro e not
    rw [Store.write, Table.mem_update_of_fixed]
    intro b _ same
    exact if_neg fun own => not (own.symm.trans same)
  cases found : s.channels.find c.id with
  | none =>
    have missing : ∀ d ∈ s.channels, d.id ≠ c.id := Table.find_eq_none.mp found
    refine iff_of_false (fun h' => ?_) fun ⟨d, hd, same, _⟩ => missing d hd same
    rw [h.refresh_iff (l := [c]) (by simp) (by simpa using others)
      (by simp [Store.write, Table.find_update, found])] at h'
    obtain ⟨d, hd, same, -⟩ := h' c (by simp)
    obtain ⟨d0, hd0, rfl⟩ := Store.mem_write.mp hd
    rw [if_neg (missing d0 hd0)] at same
    exact missing d0 hd0 same
  | some d =>
    obtain ⟨hd, id⟩ := Table.find_eq_some.mp found
    have stored : d.updates c ∈ (s.write c).channels := Store.mem_write.mpr ⟨d, hd, if_pos id⟩
    rw [h.refresh_stored_iff (l := [d.updates c]) (by simp)
      (fun e not => others e (by simpa [Channel.updates, id] using not))
      (by simp [Store.write, Table.find_update, found, id])
      (by simpa using ⟨(d.updates c).key, stored⟩)]
    constructor
    · intro apart
      exact ⟨d, hd, id, apart _ (by simp)⟩
    · rintro ⟨d', hd', same, apart⟩
      obtain rfl : d' = d := Table.eq_of_key hd' hd (same.trans id.symm)
      simpa using apart

theorem Store.Mirrored.update_iff (h : s.Mirrored) (hs : s.update parseArray c = some t) :
    t.Mirrored ↔ s.keepsMirror parseArray (.update c) := by
  unfold Store.update at hs
  split at hs
  · contradiction
  cases hs
  rw [h.write_iff, resize_id]
  refine exists_congr fun d => and_congr_right fun hd => and_congr_right fun same => ?_
  rw [Table.find_eq_some.mpr ⟨hd, same⟩]

theorem Store.Mirrored.updateAbilities_iff (h : s.Mirrored) (c : Channel) :
    Store.Mirrored { s with abilities := updateAbilities s.abilities c } ↔
      s.keepsMirror parseArray (.updateAbilities c) := by
  have refresh := h.refresh_iff (t := ⟨s.channels, updateAbilities s.abilities c⟩) (l := [c])
    (by simp) (fun _ _ => Iff.rfl) rfl
  simpa [Store.keepsMirror, Channel.rowsOf_iff] using refresh

theorem Table.filter_ids_nodup (t : Table Channel.id) (p : Channel → Bool) :
    ((t.rows.filter p).map Channel.id).Nodup :=
  (List.Sublist.map Channel.id filter_sublist).nodup t.nodup

theorem Store.Mirrored.batchSetChannelTag_iff (h : s.Mirrored) (ids : List Int)
    (tag : Option String) :
    (s.batchSetChannelTag ids tag).Mirrored ↔
      s.keepsMirror parseArray (.batchSetChannelTag ids tag) := by
  rw [h.refresh_iff (Table.filter_ids_nodup _ _) ?_ rfl]
  · simp only [Store.keepsMirror, mem_filter, decide_eq_true_eq, and_imp]
    refine forall₃_congr fun c hc listed => ?_
    have stored : { c with tag := tag } ∈ (s.batchSetChannelTag ids tag).channels := by
      rw [Store.batchSetChannelTag, Table.mem_update]
      exact ⟨c, hc, if_pos listed⟩
    constructor
    · rintro ⟨d, hd, same, rows⟩
      obtain rfl := Table.eq_of_key hd stored same
      obtain ⟨a, ha⟩ := exists_mem_of_ne_nil _ (newAbilities_ne_nil c)
      obtain ⟨p, -, rfl⟩ := mem_newAbilities.mp ha
      obtain ⟨q, -, eq⟩ := (rows _).mp ha
      have tags : tag = c.tag := congrArg Ability.tag eq
      subst tags
      exact ⟨rfl, (newAbilities_exact_iff c).mp rows⟩
    · rintro ⟨rfl, apart⟩
      exact ⟨c, stored, rfl, (newAbilities_exact_iff c).mpr apart⟩
  · intro c not
    rw [Store.batchSetChannelTag, Table.mem_update_of_fixed]
    intro b hb same
    refine if_neg fun listed => not b (mem_filter.mpr ⟨hb, by simpa using listed⟩) same

theorem TagEdit.channel_id (e : TagEdit) (c : Channel) : (e.channel c).id = c.id := by
  unfold TagEdit.channel
  split <;> rfl

variable {e : TagEdit}

theorem TagEdit.channel_tag (h : c.tag = some e.tag) :
    (e.channel c).tag = some e.updatedTag := by
  rw [TagEdit.channel, if_pos h]
  simp only [Channel.updates, TagEdit.updateData, TagEdit.updatedTag, h]
  cases e.newTag with
  | none => rfl
  | some new =>
    split
    next same => simpa using same.symm
    · rfl

theorem Store.Mirrored.recreate_iff (h : s.Mirrored) (recreate : e.shouldReCreateAbilities = true) :
    (s.editChannelByTag e).Mirrored ↔ s.keepsMirror parseArray (.editChannelByTag e) := by
  simp only [Store.editChannelByTag, Store.keepsMirror, recreate, if_true]
  rw [h.refresh_stored_iff ?_ ?_ rfl ?_]
  · simp only [forall_mem_map, mem_filter, decide_eq_true_eq, and_imp, Table.update]
    exact Iff.rfl
  · rw [map_map]
    exact Table.filter_ids_nodup _ _
  · intro c not
    rw [Table.mem_update_of_fixed]
    intro b hb same
    refine if_neg fun tagged => not { e.channel b with key := "" } ?_ ?_
    · refine mem_map.mpr ⟨e.channel b, mem_filter.mpr ⟨?_, ?_⟩, rfl⟩
      · exact mem_map.mpr ⟨b, hb, rfl⟩
      · simpa using TagEdit.channel_tag tagged
    · exact (TagEdit.channel_id e b).trans same
  · simp only [forall_mem_map, mem_filter, and_imp]
    intro c hc _
    exact ⟨c.key, hc⟩

theorem Store.Mirrored.patch_iff (h : s.Mirrored) {f : Channel → Channel} {g : Ability → Ability}
    (channels : ∀ c, c ∈ t.channels ↔ ∃ d ∈ s.channels, f d = c)
    (abilities : ∀ a, a ∈ t.abilities ↔ ∃ b ∈ s.abilities, g b = a)
    (frame : ∀ c ∈ s.channels, (f c).id = c.id ∧ (f c).models = c.models ∧ (f c).group = c.group)
    (pk : ∀ a, (g a).pk = a.pk) :
    t.Mirrored ↔ ∀ c ∈ s.channels, ∀ p ∈ c.pairs, g (c.ability p) = (f c).ability p := by
  refine View.Mirrors.update_iff h channels abilities (fun c hc => ?_) fun c hc p _ => ?_
  · obtain ⟨-, models, group⟩ := frame c hc
    simp only [channelView, Channel.pairs, Channel.modelNames, Channel.groups, models, group]
  · rw [pk]
    simp only [Channel.ability, Ability.pk, (frame c hc).1]

theorem Store.Mirrored.setStatusByTag (h : s.Mirrored) (tag : String) (status : ChannelStatus) :
    (s.setStatusByTag tag status (status = .enabled)).Mirrored := by
  refine (h.patch_iff (fun c => mem_map) (fun a => mem_map) (fun c _ => ?_)
    fun a => ?_).mpr fun c _ p _ => ?_
  · split <;> exact ⟨rfl, rfl, rfl⟩
  · split <;> rfl
  · change (if c.tag = some tag then _ else _) = _
    split <;> rfl

theorem TagEdit.ability_eq_iff (tagged : c.tag = some e.tag) (p : String × String) :
    e.ability (c.ability p) = (e.channel c).ability p ↔ (e.weight = some 0 → c.getWeight = 0) := by
  have tag : (e.newTag <|> c.tag) = (e.channel c).tag := by
    rw [TagEdit.channel_tag tagged, tagged, TagEdit.updatedTag]
    cases e.newTag <;> rfl
  have weight : (if e.weight.getD 0 = 0 then c.getWeight else e.weight.getD 0) =
      (e.channel c).getWeight ↔ (e.weight = some 0 → c.getWeight = 0) := by
    rw [TagEdit.channel, if_pos tagged]
    simp only [Channel.updates, TagEdit.updateData, Channel.getWeight]
    cases e.weight with
    | none => simp
    | some w => by_cases zero : w = 0 <;> simp [zero]
  have priority : e.priority.getD c.getPriority = (e.channel c).getPriority := by
    rw [TagEdit.channel, if_pos tagged]
    simp only [Channel.updates, TagEdit.updateData, Channel.getPriority]
    cases e.priority <;> rfl
  have enabled : (e.channel c).isEnabled = c.isEnabled := by
    rw [TagEdit.channel, if_pos tagged]
    rfl
  rw [← weight, TagEdit.ability, if_pos (show (c.ability p).tag = _ from tagged)]
  constructor
  · exact fun eq => congrArg Ability.weight eq
  · intro eq
    simp only [Channel.ability, tag, eq, priority, enabled, TagEdit.channel_id]

theorem Store.Mirrored.retag_iff (h : s.Mirrored) (keep : e.shouldReCreateAbilities = false) :
    (s.editChannelByTag e).Mirrored ↔ s.keepsMirror parseArray (.editChannelByTag e) := by
  have texts : e.models.getD "" = "" ∧ e.group.getD "" = "" := by
    simpa [TagEdit.shouldReCreateAbilities] using keep
  simp only [Store.editChannelByTag, Store.keepsMirror, keep, Bool.false_eq_true, if_false]
  rw [h.patch_iff (fun c => mem_map) (fun a => mem_map) ?_ ?_]
  · constructor
    · intro became zero c hc tagged
      obtain ⟨p, hp⟩ := exists_pair c
      exact (TagEdit.ability_eq_iff tagged p).mp (became c hc p hp) zero
    · intro zero c hc p _
      by_cases tagged : c.tag = some e.tag
      · exact (TagEdit.ability_eq_iff tagged p).mpr fun weight => zero weight c hc tagged
      · rw [TagEdit.ability, if_neg (show ¬ (c.ability p).tag = _ from tagged), TagEdit.channel,
          if_neg tagged]
  · intro c _
    unfold TagEdit.channel
    split
    · simp [Channel.updates, TagEdit.updateData, texts]
    · exact ⟨rfl, rfl, rfl⟩
  · intro a
    unfold TagEdit.ability
    split <;> rfl

theorem handlerMultiKeyUpdate_frame (c : Channel) (usingKey : String) (status : ChannelStatus)
    (reason : String) (now : Int) :
    ∃ s info r t, handlerMultiKeyUpdate parseArray c usingKey status reason now =
      { c with status := s, channelInfo := info, statusReason := r, statusTime := t } := by
  unfold handlerMultiKeyUpdate
  extract_lets keys info
  split
  · exact ⟨_, _, _, _, rfl⟩
  · split <;> exact ⟨_, _, _, _, rfl⟩

theorem changeStatus_frame (c : Channel) (call : StatusChange) :
    let saved := { c.changeStatus parseArray call with id := c.id, key := c.key }
    saved.models = c.models ∧ saved.group = c.group ∧
      ∀ p, saved.ability p =
        { c.ability p with enabled := (c.changeStatus parseArray call).isEnabled } := by
  unfold Channel.changeStatus
  split
  · obtain ⟨s, info, r, t, eq⟩ := handlerMultiKeyUpdate_frame parseArray { c with keys := [] }
      call.usingKey call.status call.reason call.now
    rw [eq]
    exact ⟨rfl, rfl, fun _ => rfl⟩
  · exact ⟨rfl, rfl, fun _ => rfl⟩

theorem changeStatus_follows_iff (c : Channel) (call : StatusChange)
    (multi : c.channelInfo.isMultiKey = true) :
    let keys := { c with keys := [] }.getKeys parseArray
    (c.changeStatus parseArray call).status = c.status ∨
        ((c.changeStatus parseArray call).status = .enabled ↔ call.status = .enabled) ↔
      (call.status = .enabled → keys = [] ∨ c.status = .autoDisabled ∨
        c.channelInfo.statusesAfter (keyIndex keys call.usingKey) .enabled <
          c.channelInfo.multiKeySize) := by
  intro keys
  rw [Channel.changeStatus, if_pos multi, handlerMultiKeyUpdate_status]
  change (if keys = [] then _ else if _ ≤ c.channelInfo.statusesAfter _ _ then _ else _) = _ ∨ _ ↔ _
  split
  next none => simp [none]
  next some =>
    split
    next full =>
      by_cases enables : call.status = .enabled
      · have full : c.channelInfo.multiKeySize ≤
            c.channelInfo.statusesAfter (keyIndex keys call.usingKey) .enabled := by
          rw [enables] at full
          exact full
        simp [enables, some, Int.not_lt.mpr full, eq_comm]
      · simp [enables]
    next room =>
      refine iff_of_true (.inl rfl) fun enables => .inr (.inr ?_)
      rw [enables] at room
      exact Int.not_le.mp room

theorem Store.Mirrored.updateChannelStatus_iff (h : s.Mirrored) {call : StatusChange}
    (hs : s.updateChannelStatus parseArray call = some t) :
    t.Mirrored ↔ s.keepsMirror parseArray (.updateChannelStatus call) := by
  unfold Store.updateChannelStatus at hs
  split at hs
  · contradiction
  rename_i c found
  obtain ⟨hc, id⟩ := Table.find_eq_some.mp found
  have only : ∀ d ∈ s.channels, d.id = call.channelId → d = c := fun d hd same =>
    Table.eq_of_key hd hc (same.trans id.symm)
  obtain ⟨models, group, row⟩ := changeStatus_frame parseArray c call
  have frame : ∀ d ∈ s.channels, ∀ d', d' = (if d.id = call.channelId then
      { c.changeStatus parseArray call with id := d.id, key := d.key } else d) →
      d'.id = d.id ∧ d'.models = d.models ∧ d'.group = d.group := by
    rintro d hd d' rfl
    split
    next own =>
      obtain rfl := only d hd own
      exact ⟨rfl, models, group⟩
    · exact ⟨rfl, rfl, rfl⟩
  split at hs
  · contradiction
  simp only at hs
  split at hs
  next unchanged =>
    cases hs
    refine iff_of_true ?_ fun d hd own multi => ?_
    swap
    · obtain rfl := only d hd own
      exact (changeStatus_follows_iff parseArray d call multi).mp (.inl unchanged.2)
    refine (h.patch_iff (g := fun a => a) (fun c => mem_map) (fun a => by simp)
      (fun d hd => frame d hd _ rfl) fun _ => rfl).mpr fun d hd p _ => ?_
    split
    next own =>
      obtain rfl := only d hd own
      rw [row, Channel.isEnabled, unchanged.2]
      rfl
    · rfl
  next changed =>
    cases hs
    rw [h.patch_iff (fun c => mem_map) (fun a => mem_map)
      (fun d hd => frame d hd _ rfl) fun a => by split <;> rfl]
    have enabled : (c.changeStatus parseArray call).isEnabled = decide (call.status = .enabled) ↔
        s.keepsMirror parseArray (.updateChannelStatus call) := by
      rw [Channel.isEnabled, decide_eq_decide]
      constructor
      · intro same d hd own multi
        obtain rfl := only d hd own
        exact (changeStatus_follows_iff parseArray d call multi).mp (.inr same)
      · intro keeps
        cases multi : c.channelInfo.isMultiKey with
        | true =>
          rcases (changeStatus_follows_iff parseArray c call multi).mpr (keeps c hc id multi)
            with same | same
          · exact absurd ⟨multi, same⟩ changed
          · exact same
        | false => simp [Channel.changeStatus, multi]
    rw [← enabled]
    constructor
    · intro became
      obtain ⟨p, hp⟩ := exists_pair c
      have eq := became c hc p hp
      rw [if_pos id, if_pos (show (c.ability p).channelId = _ from id), row] at eq
      exact (congrArg Ability.enabled eq).symm
    · intro same d hd p _
      by_cases own : d.id = call.channelId
      · obtain rfl := only d hd own
        rw [if_pos own, if_pos (show (d.ability p).channelId = _ from own), row, same]
      · rw [if_neg own, if_neg (show ¬ (d.ability p).channelId = _ from own)]

theorem Store.Mirrored.step_iff (h : s.Mirrored) (hs : s.step parseArray m = some t) :
    t.Mirrored ↔ s.keepsMirror parseArray m := by
  have deleted : ∀ statuses : List ChannelStatus, (s.deleteByStatus statuses).Mirrored ↔
      ∀ c ∈ s.channels, c.status ∉ statuses := by
    intro statuses
    refine (View.Mirrors.delete_iff h pairs_ne_nil).trans ?_
    simp only [decide_eq_false_iff_not]
  cases m with
  | update c => exact h.update_iff parseArray hs
  | updateChannelStatus call => exact h.updateChannelStatus_iff parseArray hs
  | enableChannelByTag tag =>
    cases hs
    exact iff_of_true (h.setStatusByTag tag .enabled) trivial
  | disableChannelByTag tag =>
    cases hs
    exact iff_of_true (h.setStatusByTag tag .manuallyDisabled) trivial
  | editChannelByTag e =>
    cases hs
    cases recreate : e.shouldReCreateAbilities with
    | true => exact h.recreate_iff parseArray recreate
    | false => exact h.retag_iff parseArray recreate
  | batchSetChannelTag ids tag =>
    cases hs
    exact h.batchSetChannelTag_iff parseArray ids tag
  | deleteChannelByStatus status =>
    cases hs
    simpa [Store.keepsMirror] using deleted [status]
  | deleteDisabledChannel =>
    cases hs
    exact deleted _
  | updateAbilities c =>
    cases hs
    exact h.updateAbilities_iff parseArray c

/-- From tables that mirror each other, after any mutations that meet their conditions, the
abilities mirror the channels.  The next mutation keeps this exactly if it meets its condition
too. -/
theorem abilities_mirror_channels {start s : Store} (h : start.Mirrored) (ms : List Mutation)
    (run : Path (Store.keepsMirror parseArray) (Store.step parseArray) start ms s) :
    s.Mirrored ∧ ∀ m t, s.step parseArray m = some t →
      (t.Mirrored ↔ s.keepsMirror parseArray m) := by
  have mirrored : s.Mirrored := run.invariant (fun _ _ _ h ok hs => (h.step_iff _ hs).mpr ok) h
  exact ⟨mirrored, fun m t hs => mirrored.step_iff parseArray hs⟩

end

theorem single_ids_nodup (c : Channel) : ([c].map Channel.id).Nodup := nodup_singleton c.id

def singleStore (c : Channel) : Store :=
  ⟨⟨[c], single_ids_nodup c⟩, ⟨c.newAbilities, newAbilities_pk_nodup c⟩⟩

theorem mem_singleStore : d ∈ (singleStore c).channels ↔ d = c :=
  mem_singleton

theorem singleStore_mirrored (apart : c.KeysApart) : (singleStore c).Mirrored := by
  intro a
  simp only [mem_singleStore, exists_eq_left]
  exact (newAbilities_exact_iff c).mpr apart a

def taggedChannel : Channel where
  id := 1
  status := .enabled
  models := "gpt-4"
  group := "default,vip"
  weight := some 5
  tag := some "a"

theorem abilities_mirror_channels_tagged :
    ∃ s, Path (Store.keepsMirror fun _ => none) (Store.step fun _ => none)
        (singleStore taggedChannel)
        [.disableChannelByTag "a", .editChannelByTag { tag := "a", models := some "gpt-4o" }] s ∧
      s.Mirrored :=
  Path.exists_and (.cons trivial rfl <| .cons (fun c hc _ => by
      obtain rfl := mem_singleton.mp hc
      decide) rfl <| .nil _)
    fun path => (abilities_mirror_channels _ (singleStore_mirrored (by decide)) _ path).1

def keyedChannel : Channel where
  id := 1
  key := "k"
  status := .manuallyDisabled
  models := "gpt-4"
  group := "default"
  channelInfo := {
    isMultiKey := true
    multiKeySize := 1
    multiKeyStatusList := (∅ : AList _).insert 7 .autoDisabled }

/-- Mutations of a single channel that leave the mirror broken: a weight of 0 and a tag that do not
reach the abilities, abilities of a deleted channel, of an id that is not stored, two pairs with
one key, and a channel that is disabled when one of its keys is enabled. -/
def mirrorBreakers : List (Channel × Mutation) :=
  [(taggedChannel, .editChannelByTag { tag := "a", weight := some 0 }),
   (taggedChannel, .batchSetChannelTag [1] (some "b")),
   (keyedChannel, .deleteDisabledChannel),
   (taggedChannel, .deleteChannelByStatus .enabled),
   (taggedChannel, .update { taggedChannel with id := 2 }),
   (taggedChannel, .update { taggedChannel with group := "a,a|b", models := "b|c,c" }),
   (taggedChannel, .updateAbilities { taggedChannel with weight := none }),
   (keyedChannel, .updateChannelStatus ⟨1, "k", .enabled, "", 0⟩)]

theorem mirror_broken : mirrorBreakers.Forall fun x => (singleStore x.1).Mirrored ∧
    ∃ t, (singleStore x.1).step (fun _ => none) x.2 = some t ∧ ¬ t.Mirrored := by
  have broken : ∀ (c : Channel) (m : Mutation), c.KeysApart →
      ((singleStore c).step (fun _ => none) m).isSome = true →
      ¬ (singleStore c).keepsMirror (fun _ => none) m → (singleStore c).Mirrored ∧
        ∃ t, (singleStore c).step (fun _ => none) m = some t ∧ ¬ t.Mirrored := by
    intro c m apart succeeds not
    have mirrored := singleStore_mirrored apart
    obtain ⟨t, ht⟩ := Option.isSome_iff_exists.mp succeeds
    exact ⟨mirrored, t, ht, fun h => not ((mirrored.step_iff _ ht).mp h)⟩
  refine ⟨broken _ _ (by decide) rfl ?_, broken _ _ (by decide) rfl ?_,
    broken _ _ (by decide) rfl ?_, broken _ _ (by decide) rfl ?_, broken _ _ (by decide) rfl ?_,
    broken _ _ (by decide) rfl ?_, broken _ _ (by decide) rfl ?_, broken _ _ (by decide) rfl ?_⟩
  all_goals simp only [Store.keepsMirror, mem_singleStore, forall_eq, exists_eq_left]
  case refine_7 => exact fun rows => absurd rows.weight (by decide)
  all_goals decide

end EastApi.Channels
