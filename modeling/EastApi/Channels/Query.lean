import EastApi.Channels.Abilities
import EastApi.Lib.Weighted
import Mathlib.Data.List.MinMax

/-! The selection of a channel from the tables (`model/ability.go`): one query for the priority of a
retry, one for the abilities that have it, and a choice by weight among these. -/

namespace EastApi.Channels

open Go Weighted List Nat

/-- `ORDER BY weight DESC`.  The order of rows with one weight is the database's. -/
structure RowOrder where
  byWeight : List Ability → List Ability
  perm : ∀ l, (byWeight l).Perm l
  falling : ∀ l, (byWeight l).Pairwise fun a b => b.weight ≤ a.weight

namespace RowOrder

variable (order : RowOrder)

theorem mem_byWeight : a ∈ order.byWeight rows ↔ a ∈ rows :=
  (order.perm rows).mem_iff

theorem byWeight_ne_nil (nonempty : rows ≠ []) : order.byWeight rows ≠ [] := fun none =>
  nonempty (by simpa [none] using (order.perm rows).symm)

theorem total_byWeight (w : Ability → ℕ) (rows : List Ability) :
    total w (order.byWeight rows) = total w rows :=
  ((order.perm rows).map w).sum_eq

end RowOrder

def matching (abilities : List Ability) (group model : String) : List Ability :=
  abilities.filter fun a => a.group = group ∧ a.model = model ∧ a.enabled = true

def distinctPriorities (rows : List Ability) : List Int :=
  (rows.map (·.priority)).dedup.mergeSort fun a b => b ≤ a

def getPriority (rows : List Ability) (retry : Int) : Option (Except String Int) :=
  let priorities := distinctPriorities rows
  if priorities = [] then some (.error "数据库一致性被破坏")
  else if priorities.length ≤ retry then priorities.getLast?.map .ok
  else if retry < 0 then none
  else priorities[retry.toNat]?.map .ok

/-- `getChannelQuery`, as the rows that it selects.  The retry 0 has a query of its own, with
`priority = (SELECT MAX(priority) …)`. -/
def getChannelQuery (abilities : List Ability) (group model : String) (retry : Int) :
    Option (Except String (List Ability)) :=
  let rows := matching abilities group model
  if retry = 0 then
    some (.ok (rows.filter fun a => (rows.map (·.priority)).max? = some a.priority))
  else (getPriority rows retry).map fun r => r.map fun p => rows.filter (·.priority = p)

def weightSum (abilities : List Ability) : ℕ :=
  abilities.foldl (fun sum a => (sum + (a.weight + 10)) % 2 ^ 64) 0

def pickAbility : List Ability → Int → Option Ability
  | [], _ => none
  | a :: rest, weight =>
    let weight := wrap64 (weight - (wrap64 a.weight + 10))
    if weight ≤ 0 then some a else pickAbility rest weight

/-- `GetChannel`.  `none` is a panic: `rand.Intn` does not take a number below 1.  A row that is not
found is an error; the channel that is returned beside it has no more than its id. -/
def getChannel (order : RowOrder) (s : Store) (group model : String) (retry : Int)
    (intn : Int → Int) : Option (Except String (Option Channel)) :=
  (getChannelQuery s.abilities.rows group model retry).bind fun
    | .error message => some (.error message)
    | .ok rows =>
      let abilities := order.byWeight rows
      if abilities = [] then some (.ok none)
      else if wrap64 (weightSum abilities) ≤ 0 then none
      else
        let id := ((pickAbility abilities (intn (wrap64 (weightSum abilities)))).map
          (·.channelId)).getD 0
        match s.channels.find id with
        | some c => some (.ok (some c))
        | none => some (.error "record not found")

theorem mem_matching :
    a ∈ matching abilities group model ↔
      a ∈ abilities ∧ a.group = group ∧ a.model = model ∧ a.enabled = true := by
  simp [matching]

theorem getChannelQuery_rows (h : getChannelQuery abilities group model retry = some (.ok rows)) :
    rows.Sublist (matching abilities group model) := by
  unfold getChannelQuery at h
  dsimp only at h
  split at h
  · cases h
    exact filter_sublist
  · obtain ⟨r, -, same⟩ := Option.map_eq_some_iff.mp h
    cases r with
    | error message => cases same
    | ok p =>
      cases same
      exact filter_sublist

def Ability.share (a : Ability) : ℕ := a.weight + 10

theorem share_pos (a : Ability) : 0 < a.share := by
  unfold Ability.share
  omega

theorem weightSum_eq (l : List Ability) : weightSum l = total Ability.share l % 2 ^ 64 := by
  have from_start : ∀ (l : List Ability) (start : ℕ),
      l.foldl (fun sum a => (sum + (a.weight + 10)) % 2 ^ 64) start % 2 ^ 64 =
        (start + total Ability.share l) % 2 ^ 64 := by
    intro l
    induction l with
    | nil => intro start; simp
    | cons a l ih =>
      intro start
      rw [foldl_cons, ih, total_cons, Ability.share]
      omega
  have small : weightSum l < 2 ^ 64 := by
    unfold weightSum
    cases l using reverseRecOn with
    | nil => decide
    | append_singleton l a =>
      rw [foldl_append]
      exact mod_lt _ (by decide)
  have := from_start l 0
  rw [zero_add] at this
  rw [← this]
  exact (mod_eq_of_lt small).symm

theorem pickAbility_eq (fits : total Ability.share l < 2 ^ 63) {d : ℕ} (small : d < 2 ^ 63) :
    pickAbility l d = scanLax Ability.share l d := by
  induction l generalizing d with
  | nil => rfl
  | cons a l ih =>
    have weight : a.share = a.weight + 10 := rfl
    rw [total_cons] at fits
    have taken : wrap64 ((d : Int) - (wrap64 a.weight + 10)) = (d : Int) - (a.weight + 10) := by
      have own : wrap64 (a.weight : Int) = a.weight := wrap64_of_fits (by omega) (by omega)
      rw [own]
      exact wrap64_of_fits (by omega) (by omega)
    simp only [pickAbility, scanLax, taken]
    by_cases stops : d ≤ a.share
    · rw [if_pos (by omega), if_pos stops]
    · have rest : ((d - a.share : ℕ) : Int) = (d : Int) - (a.weight + 10) := by omega
      rw [if_neg (by omega), if_neg stops, ← ih (by omega) (by omega), rest]

/-- The abilities of any query are each chosen for exactly their weight and 10 of as many draws as
these make together if there is only one of them, and the sum does not overflow.  Of more than one
the first is chosen for one draw too many, and the last for one too few. -/
theorem database_choice_exact_iff (order : RowOrder) {abilities : Table Ability.pk}
    {group model : String} {retry : Int} {rows : List Ability}
    (query : getChannelQuery abilities.rows group model retry = some (.ok rows))
    (nonempty : rows ≠ []) :
    (wrap64 (weightSum (order.byWeight rows)) = total Ability.share (order.byWeight rows) ∧
      ∀ a ∈ order.byWeight rows,
        count (fun d => pickAbility (order.byWeight rows) (d : ℕ) = some a)
          (total Ability.share (order.byWeight rows)) = a.weight + 10) ↔
      rows.length = 1 ∧ total Ability.share rows < 2 ^ 63 := by
  have perm := order.perm rows
  have apart : (order.byWeight rows).Nodup := perm.nodup_iff.mpr
    (((getChannelQuery_rows query).trans filter_sublist).nodup abilities.nodup.of_map)
  rw [← perm.length_eq, ← order.total_byWeight Ability.share rows]
  have nonempty := order.byWeight_ne_nil nonempty
  generalize order.byWeight rows = l at apart nonempty
  have counted : total Ability.share l < 2 ^ 63 → ∀ a ∈ l,
      count (fun d => pickAbility l (d : ℕ) = some a) (total Ability.share l) +
          (if l.getLast? = some a then 1 else 0) =
        a.share + (if l.head? = some a then 1 else 0) := by
    intro fits a ha
    have lax := count_scanLax (w := Ability.share) nonempty (fun b _ => share_pos b) a
    rw [count_eq_one_of_mem apart ha, one_mul] at lax
    have same : ∀ d < total Ability.share l, pickAbility l (d : ℕ) = some a ↔
        scanLax Ability.share l d = some a := fun d below => by
      rw [pickAbility_eq fits (by omega)]
    rw [← lax, count_congr same]
  constructor
  · rintro ⟨range, exact⟩
    have fits : total Ability.share l < 2 ^ 63 := by
      have := (wrap64_bounds (weightSum l)).2
      omega
    refine ⟨?_, fits⟩
    -- the first ability has its own draws and one more, unless it is the last as well
    obtain ⟨a, rest, rfl⟩ := exists_cons_of_ne_nil nonempty
    have first := counted fits a mem_cons_self
    rw [exact a mem_cons_self, head?_cons, if_pos rfl, Ability.share] at first
    have last : (a :: rest).getLast? = some a := by
      by_contra other
      rw [if_neg other] at first
      omega
    cases rest with
    | nil => rfl
    | cons b rest =>
      rw [getLast?_cons_cons] at last
      exact absurd (mem_of_getLast? last) (nodup_cons.mp apart).1
  · rintro ⟨one, fits⟩
    obtain ⟨a, rfl⟩ := length_eq_one_iff.mp one
    constructor
    · rw [weightSum_eq, mod_eq_of_lt (by omega)]
      exact wrap64_of_fits (by omega) (by omega)
    · intro b hb
      have := counted fits b hb
      obtain rfl := mem_singleton.mp hb
      simpa [Ability.share] using this

def stableOrder : RowOrder where
  byWeight := fun l => l.insertionSort fun a b => b.weight ≤ a.weight
  perm := fun l => List.perm_insertionSort _ l
  falling := fun l => by
    have total : Std.Total fun a b : Ability => b.weight ≤ a.weight := ⟨fun _ _ => le_total _ _⟩
    have trans : IsTrans Ability fun a b => b.weight ≤ a.weight :=
      ⟨fun _ _ _ h1 h2 => le_trans h2 h1⟩
    exact List.pairwise_insertionSort _ l

def plainAbility (channelId : Int) (weight : ℕ) : Ability where
  group := "default"
  model := "gpt-4"
  channelId := channelId
  enabled := true
  priority := 0
  weight := weight
  tag := none

/-- A single ability is chosen for all of the draws. -/
theorem database_choice_exact_iff_single :
    ∃ rows, getChannelQuery [plainAbility 1 5] "default" "gpt-4" 0 = some (.ok rows) ∧
      ∀ a ∈ stableOrder.byWeight rows,
        count (fun d => pickAbility (stableOrder.byWeight rows) (d : ℕ) = some a)
          (total Ability.share (stableOrder.byWeight rows)) = a.weight + 10 := by
  have query : getChannelQuery (⟨[plainAbility 1 5], by decide⟩ : Table Ability.pk).rows "default"
      "gpt-4" 0 = some (.ok [plainAbility 1 5]) := by decide
  exact ⟨_, query, ((database_choice_exact_iff stableOrder query (by simp)).mpr
    ⟨rfl, by decide⟩).2⟩

/-- Two abilities of weight 0 share 20 draws: 11 for the first and 9 for the second. -/
theorem database_choice_uneven :
    getChannelQuery [plainAbility 1 0, plainAbility 2 0] "default" "gpt-4" 0 =
        some (.ok [plainAbility 1 0, plainAbility 2 0]) ∧
      stableOrder.byWeight [plainAbility 1 0, plainAbility 2 0] =
        [plainAbility 1 0, plainAbility 2 0] ∧
      wrap64 (weightSum [plainAbility 1 0, plainAbility 2 0]) = 20 ∧
      count (fun d => pickAbility [plainAbility 1 0, plainAbility 2 0] (d : ℕ) =
        some (plainAbility 1 0)) 20 = 11 ∧
      count (fun d => pickAbility [plainAbility 1 0, plainAbility 2 0] (d : ℕ) =
        some (plainAbility 2 0)) 20 = 9 := by
  decide

end EastApi.Channels
