import EastApi.Channels.Cache

/-! The rebuild of the cache next to the writers of its two tables.  `Insert`, `FixAbility` and the
deletions write the two tables in statements of their own, so the rows that a rebuild reads need not
belong together. -/

namespace EastApi.Channels

open Go Run List Function Option

def Covered (channels : Table Channel.id) (abilities : List Ability) : Prop :=
  ∀ c ∈ channels, c.isEnabled = true → ∀ group ∈ c.groups, ∃ a ∈ abilities, a.group = group

def SameGroups (m0 m : GroupMap) : Prop := ∀ group, (m group).isSome = (m0 group).isSome

theorem SameGroups.append (h : SameGroups m0 m) {id : Int}
    (run : appendChannel id group m model = some m') : SameGroups m0 m' := by
  obtain ⟨models, found, rfl⟩ := map_eq_some_iff.mp run
  intro g
  rw [← h g]
  by_cases own : g = group
  · subst own
    rw [update_self, found]
    rfl
  · rw [update_of_ne own]

theorem addModels_isSome_iff (h : SameGroups m0 m) (c : Channel) (group : String) :
    (c.modelNames.foldlM (appendChannel c.id group) m).isSome = true ↔
      (m0 group).isSome = true := by
  rw [foldlM_isSome_iff (P := fun _ => (m0 group).isSome = true) c.modelNames
    (fun model _ s t (hs : SameGroups m0 s) run => hs.append run)
    (fun model _ s hs => by rw [appendChannel, isSome_map, hs group]) h]
  obtain ⟨model, hmodel⟩ := exists_mem_of_ne_nil _ (modelNames_ne_nil c)
  exact ⟨fun all => all model hmodel, fun here _ _ => here⟩

theorem SameGroups.addModels (h : SameGroups m0 m) {c : Channel}
    (run : c.modelNames.foldlM (appendChannel c.id group) m = some m') : SameGroups m0 m' :=
  foldlM_invariant c.modelNames (fun _ _ _ _ hs run => hs.append run) h run

theorem addChannel_isSome_iff (h : SameGroups m0 m) (c : Channel) :
    (addChannel m c).isSome = true ↔
      (c.isEnabled = true → ∀ group ∈ c.groups, (m0 group).isSome = true) := by
  unfold addChannel
  split
  next enabled =>
    rw [foldlM_isSome_iff (P := fun group => (m0 group).isSome = true) c.groups
      (fun group _ s t (hs : SameGroups m0 s) run => hs.addModels run)
      (fun group _ s hs => addModels_isSome_iff hs c group) h]
    simp [enabled]
  next disabled => simp [disabled]

theorem SameGroups.addChannel (h : SameGroups m0 m) (run : addChannel m c = some m') :
    SameGroups m0 m' := by
  unfold Channels.addChannel at run
  split at run
  · exact foldlM_invariant c.groups (fun _ _ _ _ hs run => hs.addModels run) h run
  · cases run
    exact h

theorem abilityGroups_isSome (abilities : List Ability) (group : String) :
    (abilityGroups abilities group).isSome = true ↔ ∃ a ∈ abilities, a.group = group := by
  unfold abilityGroups
  split
  next named => exact iff_of_true rfl (by simpa using named)
  next unnamed => exact iff_of_false (by simp) (by simpa using unnamed)

/-- A rebuild assigns into no nil map exactly if the abilities that it has read cover the channels
that it has read. -/
theorem initChannelCache_isSome_iff (env : Env) (old : Int → Option Channel)
    (channels : Table Channel.id) (abilities : List Ability) :
    (initChannelCache env old channels abilities).isSome = true ↔ Covered channels abilities := by
  unfold initChannelCache
  rw [isSome_map, foldlM_isSome_iff channels.rows
    (fun c _ s t (hs : SameGroups (abilityGroups abilities) s) run => hs.addChannel run)
    (fun c _ s hs => addChannel_isSome_iff hs c) (fun _ => rfl)]
  simp only [abilityGroups_isSome]
  exact Iff.rfl

inductive Proc
  | idle
  /-- `Insert` has created the row and has these lots of abilities to add. -/
  | inserting (lots : List (List Ability))
  /-- `FixAbility` has emptied the abilities. -/
  | truncated
  /-- `FixAbility` has these lots to add for a channel, then these channels, then these chunks. -/
  | fixing (lots : List (List Ability)) (channels : List Channel) (chunks : List (List Channel))
  /-- `Delete` has deleted the row of a channel. -/
  | deleting (id : Int)
  /-- `InitChannelCache` has read the channels. -/
  | readChannels (channels : Table Channel.id)
  /-- `InitChannelCache` has read both tables. -/
  | readBoth (channels : Table Channel.id) (abilities : Table Ability.pk)

structure Tables (ω : Type) where
  channels : Table Channel.id
  abilities : Table Ability.pk
  nextId : Int
  proc : ω → Proc

inductive Stmt (ω : Type)
  | create (w : ω) (c : Channel)
  | add (w : ω)
  | truncate (w : ω)
  | list (w : ω)
  | fix (w : ω)
  | delete (w : ω) (id : Int)
  | deleteRows (w : ω)
  /-- `DeleteChannelByStatus` and `DeleteDisabledChannel`. -/
  | deleteByStatus (w : ω) (statuses : List ChannelStatus)
  /-- `BatchDeleteChannels`, a transaction on both tables. -/
  | batchDelete (w : ω) (ids : List Int)
  | readChannels (w : ω)
  | readAbilities (w : ω)
  /-- The rebuild computes the new cache and is done. -/
  | rebuild (w : ω)

section
variable {ω : Type} [DecidableEq ω]

def Tables.setProc (s : Tables ω) (w : ω) (p : Proc) : Tables ω :=
  { s with proc := update s.proc w p }

def Tables.step (s : Tables ω) : Stmt ω → Option (Tables ω)
  | .create w c =>
    match s.proc w with
    | .idle =>
      let c := { c with id := s.nextId }
      some ({ s with
        channels := s.channels.insertIgnore c
        nextId := s.nextId + 1 }.setProc w (.inserting (addStatements c)))
    | _ => none
  | .add w =>
    match s.proc w with
    | .inserting [] => some (s.setProc w .idle)
    | .inserting (rows :: lots) =>
      some ({ s with abilities := s.abilities.insertAll rows }.setProc w (.inserting lots))
    | _ => none
  | .truncate w =>
    match s.proc w with
    | .idle => some ({ s with abilities := .empty }.setProc w .truncated)
    | _ => none
  | .list w =>
    match s.proc w with
    | .truncated => some (s.setProc w (.fixing [] [] (chunk 50 s.channels.rows)))
    | _ => none
  | .fix w =>
    match s.proc w with
    | .fixing [] [] [] => some (s.setProc w .idle)
    | .fixing [] [] (channels :: chunks) =>
      some ({ s with
        abilities := s.abilities.delete fun a : Ability =>
          a.channelId ∈ channels.map Channel.id }.setProc w (.fixing [] channels chunks))
    | .fixing [] (c :: channels) chunks =>
      some (s.setProc w (.fixing (addStatements c) channels chunks))
    | .fixing (rows :: lots) channels chunks =>
      some ({ s with abilities := s.abilities.insertAll rows }.setProc w
        (.fixing lots channels chunks))
    | _ => none
  | .delete w id =>
    match s.proc w with
    | .idle =>
      some ({ s with channels := s.channels.delete fun c : Channel => c.id = id }.setProc w
        (.deleting id))
    | _ => none
  | .deleteRows w =>
    match s.proc w with
    | .deleting id =>
      some ({ s with abilities := s.abilities.delete fun a : Ability => a.channelId = id }.setProc w
        .idle)
    | _ => none
  | .deleteByStatus w statuses =>
    match s.proc w with
    | .idle => some { s with channels := s.channels.delete fun c : Channel => c.status ∈ statuses }
    | _ => none
  | .batchDelete w ids =>
    match s.proc w with
    | .idle =>
      some { s with
        channels := s.channels.delete fun c : Channel => c.id ∈ ids
        abilities := s.abilities.delete fun a : Ability => a.channelId ∈ ids }
    | _ => none
  | .readChannels w =>
    match s.proc w with
    | .idle => some (s.setProc w (.readChannels s.channels))
    | _ => none
  | .readAbilities w =>
    match s.proc w with
    | .readChannels channels => some (s.setProc w (.readBoth channels s.abilities))
    | _ => none
  | .rebuild w =>
    match s.proc w with
    | .readBoth _ _ => some (s.setProc w .idle)
    | _ => none

/-- A deletion names an id that has been given out.  One of an id that a later `Insert` gets would
delete the rows of the new channel. -/
def Tables.KnowsDeleted (s : Tables ω) : Stmt ω → Prop
  | .delete _ id => id < s.nextId
  | _ => True

def LotsHave (lots : List (List Ability)) (c : Channel) (group : String) : Prop :=
  ∃ rows ∈ lots, ∃ a ∈ rows, a.channelId = c.id ∧ a.group = group

def Proc.Owes (c : Channel) (group : String) : Proc → Prop
  | .inserting lots => LotsHave lots c group
  | .truncated => True
  | .fixing lots channels chunks =>
    LotsHave lots c group ∨ c ∈ channels ∨ ∃ chunk ∈ chunks, c ∈ chunk
  | _ => False

def Tables.Accounted (s : Tables ω) (c : Channel) (group : String) : Prop :=
  (∃ a ∈ s.abilities, a.channelId = c.id ∧ a.group = group) ∨ ∃ w, (s.proc w).Owes c group

theorem lotsHave_addStatements (h : group ∈ c.groups) :
    LotsHave (addStatements c) c group := by
  obtain ⟨a, ha, same⟩ := exists_newAbility h
  have mem : a ∈ (addStatements c).flatten := by rwa [addStatements, chunk_flatten (by decide)]
  obtain ⟨rows, hrows, ha'⟩ := mem_flatten.mp mem
  exact ⟨rows, hrows, a, ha', channelId_of_mem_newAbilities ha, same⟩

variable {s t : Tables ω} {w : ω} {p : Proc}

/-- A goroutine that has moved leaves the channel accounted for, if the channel keeps its rows and
what the goroutine owed is still owed or is there. -/
theorem Tables.Accounted.move
    (h : s.Accounted c group)
    (rows : ∀ a ∈ s.abilities, a.channelId = c.id → a ∈ t.abilities ∨ p.Owes c group)
    (proc : t.proc = update s.proc w p)
    (owes : (s.proc w).Owes c group → p.Owes c group ∨
      ∃ a ∈ t.abilities, a.channelId = c.id ∧ a.group = group) : t.Accounted c group := by
  have mine : p.Owes c group → t.Accounted c group := fun owed =>
    .inr ⟨w, by rw [proc, update_self]; exact owed⟩
  rcases h with ⟨a, ha, channel, same⟩ | ⟨v, owed⟩
  · rcases rows a ha channel with kept | owed
    · exact .inl ⟨a, kept, channel, same⟩
    · exact mine owed
  · by_cases own : v = w
    · subst own
      rcases owes owed with still | added
      · exact mine still
      · exact .inl added
    · exact .inr ⟨v, by rw [proc, update_of_ne own]; exact owed⟩

theorem lot_added {t : Table Ability.pk} (h : LotsHave (rows :: lots) c group) :
    LotsHave lots c group ∨
      ∃ a ∈ t.insertAll rows, a.channelId = c.id ∧ a.group = group := by
  obtain ⟨r, hr, a, ha, channel, same⟩ := h
  rcases mem_cons.mp hr with rfl | later
  · obtain ⟨b, hb, key⟩ := Table.exists_key_insertAll (t := t) ha
    simp only [Ability.pk, Prod.mk.injEq] at key
    exact .inr ⟨b, hb, key.2.2.trans channel, key.1.trans same⟩
  · exact .inl ⟨r, later, a, ha, channel, same⟩

/-- Every channel has a row for each of its groups or is still to get it, no id is given out twice,
and `FixAbility` adds the rows of channels as they are stored. -/
structure Tables.Sound (s : Tables ω) : Prop where
  fresh : ∀ c ∈ s.channels, c.id < s.nextId
  gone : ∀ w id, s.proc w = .deleting id → id < s.nextId ∧ ∀ c ∈ s.channels, c.id ≠ id
  listed : ∀ w lots channels chunks, s.proc w = .fixing lots channels chunks →
    ∀ chunk ∈ channels :: chunks, ∀ c' ∈ chunk, c'.id < s.nextId ∧
      ∀ c ∈ s.channels, c.id = c'.id → c = c'
  accounted : ∀ c ∈ s.channels, ∀ group ∈ c.groups, s.Accounted c group

section
variable (h : s.Sound) (proc : t.proc = update s.proc w p) (next : t.nextId = s.nextId)
  (channels : ∀ c ∈ t.channels, c ∈ s.channels)
  (gone : ∀ id, p = .deleting id → id < s.nextId ∧ ∀ c ∈ t.channels, c.id ≠ id)
include h proc next channels gone

theorem Tables.Sound.move
    (listed : ∀ lots cs chunks, p = .fixing lots cs chunks → ∀ chunk ∈ cs :: chunks,
      ∀ c' ∈ chunk, c'.id < s.nextId ∧ ∀ c ∈ s.channels, c.id = c'.id → c = c')
    (accounted : ∀ c ∈ t.channels, ∀ group ∈ c.groups,
      (∀ a ∈ s.abilities, a.channelId = c.id → a ∈ t.abilities ∨ p.Owes c group) ∧
      ((s.proc w).Owes c group → p.Owes c group ∨
        ∃ a ∈ t.abilities, a.channelId = c.id ∧ a.group = group)) : t.Sound := by
  refine ⟨fun c hc => ?_, fun v id hv => ?_, fun v lots cs chunks hv => ?_, fun c hc g hg => ?_⟩
  · rw [next]
    exact h.fresh c (channels c hc)
  · rw [next]
    rw [proc] at hv
    rcases of_update_eq hv with ⟨-, own⟩ | ⟨-, other⟩
    · exact gone id own
    · exact ⟨(h.gone v id other).1, fun c hc => (h.gone v id other).2 c (channels c hc)⟩
  · rw [next]
    rw [proc] at hv
    have old : ∀ chunk ∈ cs :: chunks, ∀ c' ∈ chunk, c'.id < s.nextId ∧
        ∀ c ∈ s.channels, c.id = c'.id → c = c' := by
      rcases of_update_eq hv with ⟨-, own⟩ | ⟨-, other⟩
      · exact listed lots cs chunks own
      · exact h.listed v lots cs chunks other
    intro chunk hchunk c' hc'
    exact ⟨(old chunk hchunk c' hc').1, fun c hc => (old chunk hchunk c' hc').2 c (channels c hc)⟩
  · obtain ⟨rows, owes⟩ := accounted c hc g hg
    exact (h.accounted c (channels c hc) g hg).move rows proc owes

theorem Tables.Sound.shrink
    (rows : ∀ c ∈ t.channels, ∀ a ∈ s.abilities, a.channelId = c.id → a ∈ t.abilities)
    (noFix : ∀ lots cs chunks, p ≠ .fixing lots cs chunks)
    (nothing : ∀ c g, ¬ (s.proc w).Owes c g) : t.Sound :=
  h.move proc next channels gone (fun _ _ _ hp => absurd hp (noFix _ _ _))
    fun c hc g _ => ⟨fun a ha channel => .inl (rows c hc a ha channel),
      fun owed => absurd owed (nothing c g)⟩

end

theorem Tables.Sound.create (h : s.Sound) (id : c.id = s.nextId) (idle : s.proc w = .idle) :
    ({ s with
      channels := s.channels.insertIgnore c
      nextId := s.nextId + 1 }.setProc w (.inserting (addStatements c))).Sound := by
  have split : ∀ d, d ∈ s.channels.insertIgnore c → d ∈ s.channels ∨ d = c := fun d hd =>
    (Table.mem_insertIgnore.mp hd).imp_right And.left
  refine ⟨fun d hd => ?_, fun v i hv => ?_, fun v lots cs chunks hv chunk hchunk c' hc' => ?_,
    fun d hd g hg => ?_⟩
  · change d.id < s.nextId + 1
    rcases split d hd with old | rfl
    · have := h.fresh d old
      omega
    · omega
  · change i < s.nextId + 1 ∧ _
    rcases of_update_eq hv with ⟨-, own⟩ | ⟨-, other⟩
    · cases own
    · obtain ⟨small, none⟩ := h.gone v i other
      refine ⟨by omega, fun d hd => ?_⟩
      rcases split d hd with old | rfl
      · exact none d old
      · omega
  · change c'.id < s.nextId + 1 ∧ _
    rcases of_update_eq hv with ⟨-, own⟩ | ⟨-, other⟩
    · cases own
    · obtain ⟨small, same⟩ := h.listed v lots cs chunks other chunk hchunk c' hc'
      refine ⟨by omega, fun d hd hid => ?_⟩
      rcases split d hd with old | rfl
      · exact same d old hid
      · omega
  · rcases split d hd with old | rfl
    · exact (h.accounted d old g hg).move (fun a ha _ => .inl ha) rfl fun owed => by
        rw [idle] at owed
        cases owed
    · refine .inr ⟨w, ?_⟩
      simp only [Tables.setProc, update_self]
      exact lotsHave_addStatements hg

theorem not_lotsHave_nil (c : Channel) (group : String) : ¬ LotsHave [] c group := by
  rintro ⟨rows, hrows, -⟩
  cases hrows

theorem Tables.Sound.add (h : s.Sound) (hs : s.step (.add w) = some t) :
    t.Sound := by
  simp only [Tables.step] at hs
  split at hs <;> cases hs
  next proc =>
    refine h.shrink rfl rfl (fun _ hc => hc) (by simp) (fun _ _ _ ha _ => ha) (by simp) ?_
    simp [proc, Proc.Owes, not_lotsHave_nil]
  next proc =>
    refine h.move rfl rfl (fun _ hc => hc) (fun _ hp => by cases hp) (fun _ _ _ hp => by cases hp)
      fun c _ g _ => ⟨fun a ha _ => .inl (Table.mem_insertAll_of_mem ha), fun owed => ?_⟩
    rw [proc] at owed
    exact lot_added owed

theorem Tables.Sound.list (h : s.Sound) (hs : s.step (.list w) = some t) : t.Sound := by
  simp only [Tables.step] at hs
  split at hs <;> cases hs
  have all : ∀ c, c ∈ s.channels ↔ ∃ lot ∈ chunk 50 s.channels.rows, c ∈ lot := by
    intro c
    rw [← mem_flatten, chunk_flatten (by decide)]
    exact Iff.rfl
  refine h.move rfl rfl (fun _ hc => hc) (fun _ hp => by cases hp) ?_
    fun c hc g _ => ⟨fun a ha _ => .inl ha, fun _ => .inl (.inr (.inr ((all c).mp hc)))⟩
  intro lots cs chunks hp lot hlot c' hc'
  cases hp
  rcases mem_cons.mp hlot with rfl | listed
  · cases hc'
  · have stored : c' ∈ s.channels := (all c').mpr ⟨lot, listed, hc'⟩
    exact ⟨h.fresh c' stored, fun c hc same => Table.eq_of_key hc stored same⟩

theorem Tables.Sound.fix (h : s.Sound) (hs : s.step (.fix w) = some t) :
    t.Sound := by
  simp only [Tables.step] at hs
  split at hs <;> cases hs
  next proc =>
    refine h.shrink rfl rfl (fun _ hc => hc) (by simp) (fun _ _ _ ha _ => ha) (by simp) ?_
    simp [proc, Proc.Owes, not_lotsHave_nil]
  next cs chunks proc =>
    have old := h.listed w [] [] (cs :: chunks) proc
    refine h.move rfl rfl (fun _ hc => hc) (fun _ hp => by cases hp) ?_ fun c hc g _ =>
      ⟨fun a ha channel => ?_, fun owed => .inl ?_⟩
    · intro lots cs' chunks' hp lot hlot
      cases hp
      exact old lot (mem_cons_of_mem _ hlot)
    · -- a row that is deleted belongs to a channel of the chunk, which is added again
      by_cases mine : a.channelId ∈ cs.map Channel.id
      · obtain ⟨c', hc', same⟩ := mem_map.mp mine
        have : c = c' := (old cs (by simp) c' hc').2 c hc (channel.symm.trans same.symm)
        exact .inr (.inr (.inl (this ▸ hc')))
      · exact .inl (Table.mem_delete.mpr ⟨ha, by simpa using mine⟩)
    · simp only [proc, Proc.Owes, not_lotsHave_nil, not_mem_nil, false_or] at owed
      obtain ⟨lot, hlot, hc'⟩ := owed
      rcases mem_cons.mp hlot with rfl | later
      · exact .inr (.inl hc')
      · exact .inr (.inr ⟨lot, later, hc'⟩)
  next c0 cs chunks proc =>
    have old := h.listed w [] (c0 :: cs) chunks proc
    refine h.move rfl rfl (fun _ hc => hc) (fun _ hp => by cases hp) ?_ fun c _ g hg =>
      ⟨fun a ha _ => .inl ha, fun owed => .inl ?_⟩
    · intro lots cs' chunks' hp lot hlot
      cases hp
      rcases mem_cons.mp hlot with rfl | later
      · exact fun c' hc' => old (c0 :: lot) (by simp) c' (mem_cons_of_mem _ hc')
      · exact old lot (mem_cons_of_mem _ later)
    · simp only [proc, Proc.Owes, not_lotsHave_nil, mem_cons, false_or] at owed
      rcases owed with (rfl | later) | later
      · exact .inl (lotsHave_addStatements hg)
      · exact .inr (.inl later)
      · exact .inr (.inr later)
  next proc =>
    refine h.move rfl rfl (fun _ hc => hc) (fun _ hp => by cases hp) ?_ fun c _ g _ =>
      ⟨fun a ha _ => .inl (Table.mem_insertAll_of_mem ha), fun owed => ?_⟩
    · intro lots' cs' chunks' hp
      cases hp
      exact h.listed w _ _ _ proc
    · rw [proc] at owed
      rcases owed with owed | listed
      · exact (lot_added owed).imp_left .inl
      · exact .inl (.inr listed)

theorem Tables.Sound.step {a : Stmt ω} (h : s.Sound) (known : s.KnowsDeleted a)
    (hs : s.step a = some t) : t.Sound := by
  cases a
  case add => exact h.add hs
  case list => exact h.list hs
  case fix => exact h.fix hs
  all_goals
    simp only [Tables.step] at hs
    split at hs <;> cases hs
  next idle => exact h.create rfl idle
  next =>
    exact h.move rfl rfl (fun _ hc => hc) (fun _ hp => by cases hp) (fun _ _ _ hp => by cases hp)
      fun c _ g _ => ⟨fun _ _ _ => .inr trivial, fun _ => .inl trivial⟩
  next idle =>
    refine h.shrink rfl rfl (fun c hc => (Table.mem_delete.mp hc).1) ?_ (fun _ _ _ ha _ => ha)
      (by simp) (by simp [idle, Proc.Owes])
    intro id' hp
    cases hp
    exact ⟨known, fun c hc => by simpa using (Table.mem_delete.mp hc).2⟩
  next id proc =>
    refine h.shrink rfl rfl (fun _ hc => hc) (by simp) (fun c hc a ha channel => ?_) (by simp)
      (by simp [proc, Proc.Owes])
    refine Table.mem_delete.mpr ⟨ha, ?_⟩
    simpa [channel] using (h.gone _ id proc).2 c hc
  next w _ _ idle =>
    exact h.shrink (w := w) (p := .idle) (by simp [← idle]) rfl
      (fun c hc => (Table.mem_delete.mp hc).1) (by simp) (fun _ _ _ ha _ => ha) (by simp)
      (by simp [idle, Proc.Owes])
  next w _ _ idle =>
    refine h.shrink (w := w) (p := .idle) (by simp [← idle]) rfl
      (fun c hc => (Table.mem_delete.mp hc).1) (by simp) (fun c hc a ha channel => ?_) (by simp)
      (by simp [idle, Proc.Owes])
    refine Table.mem_delete.mpr ⟨ha, ?_⟩
    simpa [channel] using (Table.mem_delete.mp hc).2
  all_goals
    exact h.shrink rfl rfl (fun _ hc => hc) (by simp) (fun _ _ _ ha _ => ha) (by simp)
      (by simp [*, Proc.Owes])

structure Tables.Ready (s : Tables ω) : Prop where
  fresh : ∀ c ∈ s.channels, c.id < s.nextId
  rows : ∀ c ∈ s.channels, ∀ group ∈ c.groups, ∃ a ∈ s.abilities, a.channelId = c.id ∧
    a.group = group
  idle : ∀ w, s.proc w = .idle

omit [DecidableEq ω] in
theorem Tables.Ready.sound (h : s.Ready) : s.Sound where
  fresh := h.fresh
  gone := fun w id hw => by rw [h.idle] at hw; contradiction
  listed := fun w _ _ _ hw => by rw [h.idle] at hw; contradiction
  accounted := fun c hc group hg => .inl (h.rows c hc group hg)

/-- No writer stands between two statements that matter to a rebuild which has read the channels:
those that are enabled are still there, `FixAbility` does not run, and no `Insert` of one of them
has abilities left to add. -/
structure Tables.Quiet (s : Tables ω) (channels : Table Channel.id) : Prop where
  still : ∀ c ∈ channels, c.isEnabled = true → c ∈ s.channels
  noFix : ∀ w, s.proc w ≠ .truncated ∧
    ∀ lots cs chunks, s.proc w ≠ .fixing lots cs chunks
  inserted : ∀ w lots, s.proc w = .inserting lots → ∀ rows ∈ lots, ∀ a ∈ rows, ∀ c ∈ channels,
    a.channelId ≠ c.id

omit [DecidableEq ω] in
theorem Tables.Sound.covered (h : s.Sound) {channels : Table Channel.id}
    (quiet : s.Quiet channels) : Covered channels s.abilities.rows := by
  intro c hc enabled group hg
  rcases h.accounted c (quiet.still c hc enabled) group hg with ⟨a, ha, -, same⟩ | ⟨w, owed⟩
  · exact ⟨a, ha, same⟩
  · exfalso
    cases proc : s.proc w with
    | inserting lots =>
      rw [proc] at owed
      obtain ⟨rows, hrows, a, ha, channel, -⟩ := owed
      exact quiet.inserted w lots proc rows hrows a ha c hc channel
    | truncated => exact (quiet.noFix w).1 proc
    | fixing lots cs chunks => exact (quiet.noFix w).2 lots cs chunks proc
    | idle | deleting | readChannels | readBoth =>
      rw [proc] at owed
      cases owed

/-- In every state of inserts, repairs, deletions and rebuilds, a rebuild that reads the abilities
after it has read the channels completes exactly if the abilities have every group of its enabled
channels.  In a run they do if every deletion has named an id that was given out and no writer
stands between two statements that matter to the rebuild. -/
theorem rebuild_completes_iff (env : Env) (old : Int → Option Channel) {s t : Tables ω} {w : ω}
    {channels : Table Channel.id} (read : s.proc w = .readChannels channels)
    (next : s.step (.readAbilities w) = some t) :
    t.proc w = .readBoth channels t.abilities ∧
      ((initChannelCache env old channels t.abilities.rows).isSome = true ↔
        Covered channels t.abilities.rows) ∧
      ∀ (start : Tables ω) (stmts : List (Stmt ω)), start.Ready →
        Path Tables.KnowsDeleted Tables.step start stmts s → s.Quiet channels →
          (initChannelCache env old channels t.abilities.rows).isSome = true := by
  simp only [Tables.step, read, some.injEq] at next
  subst next
  have completes := initChannelCache_isSome_iff env old channels s.abilities.rows
  refine ⟨by simp [Tables.setProc], completes, fun start stmts ready run quiet =>
    completes.mpr ?_⟩
  have sound : s.Sound := run.invariant (fun _ _ _ h known hs => h.step known hs) ready.sound
  exact sound.covered quiet

end

def emptyTables : Tables Bool where
  channels := .empty
  abilities := .empty
  nextId := 1
  proc := fun _ => .idle

theorem emptyTables_ready : emptyTables.Ready where
  fresh := fun _ hc => absurd hc not_mem_nil
  rows := fun _ hc => absurd hc not_mem_nil
  idle := fun _ => rfl

def insertThenRead : List (Stmt Bool) :=
  [.create true (defaultChannel 0 "gpt-4" "sk" {}), .add true, .add true, .readChannels false]

theorem rebuild_completes_iff_inserted :
    ∃ s t, Path Tables.KnowsDeleted Tables.step emptyTables insertThenRead s ∧
      s.step (.readAbilities false) = some t ∧
      (initChannelCache plainEnv (fun _ => none) s.channels t.abilities.rows).isSome = true := by
  have path : Path Tables.KnowsDeleted Tables.step emptyTables insertThenRead _ :=
    .cons trivial rfl <| .cons trivial rfl <| .cons trivial rfl <| .cons trivial rfl <| .nil _
  refine ⟨_, _, path, rfl, ?_⟩
  refine (rebuild_completes_iff plainEnv _ (w := false) rfl rfl).2.2 _ _ emptyTables_ready path
    ⟨fun _ hc _ => hc, fun w => ?_, fun w lots hw => ?_⟩
  · cases w <;> exact ⟨nofun, nofun⟩
  · cases w <;> cases hw

/-- Three runs that end with both reads of a rebuild: between the two statements of an `Insert`,
after `FixAbility` has emptied the abilities, and with a deletion between the reads. -/
def tornReads : List (List (Stmt Bool)) :=
  [[.create true (defaultChannel 0 "gpt-4" "sk" {}), .readChannels false, .readAbilities false],
   [.create true (defaultChannel 0 "gpt-4" "sk" {}), .add true, .add true, .truncate true,
    .readChannels false, .readAbilities false],
   [.create true (defaultChannel 0 "gpt-4" "sk" {}), .add true, .add true, .readChannels false,
    .delete true 1, .deleteRows true, .readAbilities false]]

/-- In each of them the rebuild assigns into a nil map. -/
theorem rebuild_panics :
    tornReads.Forall fun stmts =>
      ∃ s channels abilities, exec Tables.step emptyTables stmts = some s ∧
        s.proc false = .readBoth channels abilities ∧
        initChannelCache plainEnv (fun _ => none) channels abilities.rows = none :=
  ⟨⟨_, _, _, rfl, rfl, rfl⟩, ⟨_, _, _, rfl, rfl, rfl⟩, ⟨_, _, _, rfl, rfl, rfl⟩⟩

end EastApi.Channels
