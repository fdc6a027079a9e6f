import EastApi.Channels.Cache
import EastApi.Lib.Levels
import EastApi.Lib.Weighted

/-! How `GetRandomSatisfiedChannel` picks a channel from the memory cache: the retry number says at
which of the priorities, and a random number which of the channels that have it. -/

namespace EastApi.Channels

open Levels Weighted List Int Nat

def Fair (intn : Int → Int) : Prop := ∀ n, 0 < n → 0 ≤ intn n ∧ intn n < n

def drawing (n d : Int) : Int → Int := fun m => if m = n then d else 0

theorem drawing_self (n d : Int) : drawing n d n = d := if_pos rfl

theorem drawing_fair (nonneg : 0 ≤ d) (below : d < n) : Fair (drawing n d) := by
  intro m positive
  unfold drawing
  split <;> omega

theorem sortedUniquePriorities_eq (cs : List Channel) :
    sortedUniquePriorities cs = descending (cs.map (·.getPriority)) := rfl

def targets (cs : List Channel) (retry : ℕ) : List Channel :=
  cs.filter fun c => level (cs.map (·.getPriority)) retry = some c.getPriority

theorem mem_targets :
    c ∈ targets cs retry ↔
      c ∈ cs ∧ level (cs.map (·.getPriority)) retry = some c.getPriority := by
  simp [targets]

theorem targets_eq {cs : List Channel} {retry : ℕ} {p : Int}
    (here : level (cs.map (·.getPriority)) retry = some p) :
    targets cs retry = cs.filter (·.getPriority = p) := by
  refine filter_congr fun c _ => ?_
  rw [here, decide_eq_decide, Option.some.injEq, eq_comm]

theorem targets_ne_nil {cs : List Channel} (nonempty : cs ≠ []) (retry : ℕ) :
    targets cs retry ≠ [] := by
  obtain ⟨c, hc, here⟩ := exists_mem_level (·.getPriority) nonempty retry
  exact ne_nil_of_mem (mem_targets.mpr ⟨hc, here⟩)

theorem chooseByPriority_eq (nonempty : cs ≠ []) (group model : String) (retry : ℕ)
    (intn : Int → Int) :
    chooseByPriority group model retry intn cs = some (pickChannel intn (targets cs retry)) := by
  have some_priority : cs.map (·.getPriority) ≠ [] := by simpa using nonempty
  have positive := length_descending_pos some_priority
  obtain ⟨p, here⟩ := exists_level some_priority retry
  have some_target := targets_ne_nil nonempty retry
  rw [targets_eq here] at some_target ⊢
  rw [level, ← sortedUniquePriorities_eq] at here
  rw [← sortedUniquePriorities_eq] at positive
  have index : (if ((sortedUniquePriorities cs).length : Int) ≤ retry then
      ((sortedUniquePriorities cs).length : Int) - 1 else retry) =
        (min retry ((sortedUniquePriorities cs).length - 1) : ℕ) := by
    split <;> omega
  simp only [chooseByPriority, index]
  rw [if_neg (by omega), toNat_natCast, here]
  simp only [Option.map_some, if_neg some_target]

def smoothing (targets : List Channel) : ℕ × ℕ :=
  if total Channel.getWeight targets = 0 then (1, 100)
  else if total Channel.getWeight targets / targets.length < 10 then (100, 0)
  else (1, 0)

def share (targets : List Channel) (c : Channel) : ℕ :=
  c.getWeight * (smoothing targets).1 + (smoothing targets).2

theorem total_mul_add (l : List Channel) (factor adjustment : ℕ) :
    total (fun c : Channel => c.getWeight * factor + adjustment) l =
      total Channel.getWeight l * factor + l.length * adjustment := by
  induction l with
  | nil => simp
  | cons c l ih =>
    rw [total_cons, total_cons, ih, length_cons, add_mul, add_mul, one_mul]
    omega

theorem total_share (targets : List Channel) :
    total (share targets) targets = total Channel.getWeight targets * (smoothing targets).1 +
      targets.length * (smoothing targets).2 :=
  total_mul_add targets _ _

theorem total_share_pos {targets : List Channel} (nonempty : targets ≠ []) :
    0 < total (share targets) targets := by
  have some_target := length_pos_iff.mpr nonempty
  rw [total_share]
  unfold smoothing
  split
  · omega
  · split <;> omega

theorem pickByWeight_eq (factor adjustment : ℕ) (l : List Channel) (r : ℕ) :
    pickByWeight factor adjustment l r =
      match scan (fun c : Channel => c.getWeight * factor + adjustment) l r with
      | some c => .ok (some c)
      | none => .error "channel not found" := by
  induction l generalizing r with
  | nil => rfl
  | cons c l ih =>
    rw [pickByWeight, scan]
    by_cases below : r < c.getWeight * factor + adjustment
    · rw [if_pos (by omega), if_pos below]
    · rw [if_neg (by omega), if_neg below, ← ih]
      congr 1
      omega

theorem foldl_add_eq (l : List Channel) (start : Int) :
    (l.map fun c => (c.getWeight : Int)).foldl (· + ·) start =
      start + (total Channel.getWeight l : Int) := by
  induction l generalizing start with
  | nil => simp
  | cons c l ih =>
    rw [map_cons, foldl_cons, ih, total_cons]
    omega

theorem pickChannel_eq (intn : Int → Int) (targets : List Channel) :
    pickChannel intn targets = pickByWeight (smoothing targets).1 (smoothing targets).2 targets
      (intn (total (share targets) targets)) := by
  unfold pickChannel
  simp only [foldl_add_eq, zero_add, total_share, smoothing]
  split
  next zero =>
    have zero : total Channel.getWeight targets = 0 := by omega
    simp [zero]
  next positive =>
    have positive : total Channel.getWeight targets ≠ 0 := by omega
    rw [if_neg positive]
    have average : ((total Channel.getWeight targets : Int).tdiv targets.length < 10) ↔
        total Channel.getWeight targets / targets.length < 10 := by
      rw [← ofNat_tdiv]
      omega
    by_cases low : total Channel.getWeight targets / targets.length < 10
    · rw [if_pos (average.mpr low), if_pos low]
      simp
    · rw [if_neg (fun h => low (average.mp h)), if_neg low]
      simp

theorem pickChannel_draw {intn : Int → Int} {targets : List Channel} {d : ℕ}
    (drawn : intn (total (share targets) targets) = d) :
    pickChannel intn targets =
      match scan (share targets) targets d with
      | some c => .ok (some c)
      | none => .error "channel not found" := by
  rw [pickChannel_eq, drawn]
  exact pickByWeight_eq _ _ _ _

def Serves (env : Env) (cache : Cache) (group model : String) (cs : List Channel) : Prop :=
  (cache.candidates env group model).map cache.channelsIDM = cs.map some

section
variable {env : Env} {cache : Cache} {group model : String} {cs : List Channel}

theorem Serves.channels (serves : Serves env cache group model cs) :
    (cache.candidates env group model).filterMap cache.channelsIDM = cs := by
  have := congrArg (filterMap id) serves
  simpa [filterMap_map] using this

theorem getRandomSatisfiedChannel_many (serves : Serves env cache group model cs)
    (two : 2 ≤ cs.length) (retry : ℕ) (intn : Int → Int) :
    getRandomSatisfiedChannel env cache group model retry intn =
      some (pickChannel intn (targets cs retry)) := by
  have size : (cache.candidates env group model).length = cs.length := by
    simpa using congrArg length serves
  have cached : (cache.candidates env group model).find?
      (fun id => (cache.channelsIDM id).isNone) = none := by
    rw [find?_eq_none]
    intro id hid
    have listed : cache.channelsIDM id ∈ cs.map some := serves ▸ mem_map_of_mem hid
    obtain ⟨c, -, found⟩ := mem_map.mp listed
    simp [← found]
  unfold getRandomSatisfiedChannel
  split
  next none =>
    rw [none, length_nil] at size
    omega
  next one =>
    rw [one, length_singleton] at size
    omega
  · rw [cached, serves.channels]
    exact chooseByPriority_eq (ne_nil_of_length_pos (by omega)) group model retry intn

theorem getRandomSatisfiedChannel_none (serves : Serves env cache group model []) (retry : Int)
    (intn : Int → Int) :
    getRandomSatisfiedChannel env cache group model retry intn = some (.ok none) := by
  have empty : cache.candidates env group model = [] := by simpa [Serves] using serves
  unfold getRandomSatisfiedChannel
  rw [empty]

theorem getRandomSatisfiedChannel_one {c : Channel} (serves : Serves env cache group model [c])
    (retry : Int) (intn : Int → Int) :
    getRandomSatisfiedChannel env cache group model retry intn = some (.ok (some c)) := by
  unfold Serves at serves
  unfold getRandomSatisfiedChannel
  split
  next none => simp [none] at serves
  next id one =>
    rw [one] at serves
    obtain found : cache.channelsIDM id = some c := by simpa using serves
    rw [found]
  next ids none one =>
    have size := congrArg length serves
    obtain ⟨id, only⟩ := length_eq_one_iff.mp (by simpa using size)
    exact absurd only (one id)

theorem targets_single (c : Channel) (retry : ℕ) : targets [c] retry = [c] := by
  obtain ⟨d, hd⟩ := exists_mem_of_ne_nil _ (targets_ne_nil (cons_ne_nil c []) retry)
  have only := mem_singleton.mp (mem_targets.mp hd).1
  rw [only] at hd
  exact filter_eq_self.mpr fun e he => by
    rw [mem_singleton.mp he]
    simpa using (mem_targets.mp hd).2

theorem share_single_pos (c : Channel) : 0 < share [c] c := by
  have := total_share_pos (cons_ne_nil c [])
  rwa [total_cons, total_nil] at this

theorem exists_cached {ids : List Int} (cached : ∀ id ∈ ids, cache.channelsIDM id ≠ none) :
    ∃ cs : List Channel, ids.map cache.channelsIDM = cs.map some := by
  have range : ids.map cache.channelsIDM ∈ Set.range (map some) := by
    rw [Set.range_list_map]
    intro o ho
    obtain ⟨id, listed, rfl⟩ := mem_map.mp ho
    exact Option.ne_none_iff_exists.mp (cached id listed)
  obtain ⟨cs, same⟩ := range
  exact ⟨cs, same.symm⟩

theorem serves_or_error (env : Env) (cache : Cache) (group model : String) :
    (∃ cs, Serves env cache group model cs) ∨
      ∀ retry intn, ∃ e,
        getRandomSatisfiedChannel env cache group model retry intn = some (.error e) := by
  by_cases all : ∀ id ∈ cache.candidates env group model, cache.channelsIDM id ≠ none
  · exact .inl (exists_cached all)
  · right
    intro retry intn
    push Not at all
    obtain ⟨id, listed, missing⟩ := all
    unfold getRandomSatisfiedChannel
    split
    next none =>
      rw [none] at listed
      exact absurd listed not_mem_nil
    next only one =>
      rw [one] at listed
      rw [← mem_singleton.mp listed, missing]
      exact ⟨_, rfl⟩
    · split
      · exact ⟨_, rfl⟩
      next cached => exact absurd missing (by simpa using find?_eq_none.mp cached id listed)

theorem getRandomSatisfiedChannel_isSome (env : Env) (cache : Cache) (group model : String)
    (retry : ℕ) (intn : Int → Int) :
    (getRandomSatisfiedChannel env cache group model retry intn).isSome = true := by
  rcases serves_or_error env cache group model with ⟨cs, serves⟩ | fails
  · rcases cs with _ | ⟨c, _ | ⟨d, rest⟩⟩
    · rw [getRandomSatisfiedChannel_none serves]
      rfl
    · rw [getRandomSatisfiedChannel_one serves]
      rfl
    · rw [getRandomSatisfiedChannel_many serves (by simp)]
      rfl
  · obtain ⟨e, error⟩ := fails retry intn
    rw [error]
    rfl

/-- A request with listed channels is served by one of them that the retry number stands for and
that has a share. -/
theorem getRandomSatisfiedChannel_served (serves : Serves env cache group model cs)
    (nonempty : cs ≠ []) (retry : ℕ) {intn : Int → Int} (fair : Fair intn) :
    ∃ c ∈ targets cs retry, 0 < share (targets cs retry) c ∧
      getRandomSatisfiedChannel env cache group model retry intn = some (.ok (some c)) := by
  rcases cs with _ | ⟨c, _ | ⟨d, rest⟩⟩
  · exact absurd rfl nonempty
  · rw [targets_single]
    exact ⟨c, mem_singleton_self c, share_single_pos c,
      getRandomSatisfiedChannel_one serves retry intn⟩
  · have positive := total_share_pos (targets_ne_nil nonempty retry)
    obtain ⟨nonneg, below⟩ := fair _ (natCast_pos.mpr positive)
    obtain ⟨n, drawn⟩ := eq_ofNat_of_zero_le nonneg
    obtain ⟨e, chosen⟩ := scan_isSome (w := share (targets (c :: d :: rest) retry))
      (r := n) (l := targets (c :: d :: rest) retry) (by omega)
    refine ⟨e, scan_mem chosen, scan_positive chosen, ?_⟩
    rw [getRandomSatisfiedChannel_many serves (by simp), pickChannel_draw drawn, chosen]

theorem exists_served {c : Channel} {retry : ℕ} (serves : Serves env cache group model cs)
    (mem : c ∈ targets cs retry) (positive : 0 < share (targets cs retry) c) :
    ∃ intn, Fair intn ∧
      getRandomSatisfiedChannel env cache group model retry intn = some (.ok (some c)) := by
  obtain ⟨n, below, chosen⟩ := exists_scan mem positive
  refine ⟨drawing (total (share (targets cs retry)) (targets cs retry)) n,
    drawing_fair (by omega) (by omega), ?_⟩
  rcases cs with _ | ⟨d, _ | ⟨e, rest⟩⟩
  · exact absurd mem (by simp [targets])
  · rw [targets_single] at mem
    obtain rfl := mem_singleton.mp mem
    exact getRandomSatisfiedChannel_one serves retry _
  · rw [getRandomSatisfiedChannel_many serves (by simp), pickChannel_draw (drawing_self _ _),
      chosen]

end

/-- At least two listed channels, with any priorities and any weights: `rand.Intn` is called with a
positive number, every draw below it picks a channel of the priority that the retry number stands
for, and each of these is picked for as many draws as its share, as often as it is listed. -/
theorem weighted_choice_exact {env : Env} {cache : Cache} {group model : String}
    {cs : List Channel} (serves : Serves env cache group model cs) (two : 2 ≤ cs.length)
    (retry : ℕ) :
    ∃ p, p ∈ cs.map (·.getPriority) ∧
      (cs.map (·.getPriority)).dedup.countP (p < ·) =
        min retry ((cs.map (·.getPriority)).dedup.length - 1) ∧
      ∃ candidates, candidates = cs.filter (·.getPriority = p) ∧
      ∃ n : ℕ, n = total (share candidates) candidates ∧ 0 < n ∧
        (∀ intn, getRandomSatisfiedChannel env cache group model retry intn =
          getRandomSatisfiedChannel env cache group model retry fun _ => intn n) ∧
        (∀ d < n, ∃ c ∈ candidates,
          getRandomSatisfiedChannel env cache group model retry (fun _ => (d : ℕ)) =
            some (.ok (some c))) ∧
        ∀ c, count (fun d => getRandomSatisfiedChannel env cache group model retry
            (fun _ => (d : ℕ)) = some (.ok (some c))) n =
          candidates.count c * share candidates c := by
  have nonempty : cs ≠ [] := ne_nil_of_length_pos (by omega)
  obtain ⟨p, here⟩ := exists_level (show cs.map (·.getPriority) ≠ [] by simpa using nonempty) retry
  have draw : ∀ (d : ℕ) (c : Channel),
      getRandomSatisfiedChannel env cache group model retry (fun _ => (d : ℕ)) =
          some (.ok (some c)) ↔
        scan (share (targets cs retry)) (targets cs retry) d = some c := by
    intro d c
    rw [getRandomSatisfiedChannel_many serves two, pickChannel_draw rfl]
    cases scan (share (targets cs retry)) (targets cs retry) d <;> simp
  refine ⟨p, mem_of_level here, level_rank here, targets cs retry, targets_eq here, _, rfl,
    total_share_pos (targets_ne_nil nonempty retry), fun intn => ?_, fun d below => ?_,
    fun c => ?_⟩
  · rw [getRandomSatisfiedChannel_many serves two, getRandomSatisfiedChannel_many serves two,
      pickChannel_eq, pickChannel_eq]
  · obtain ⟨c, chosen⟩ := scan_isSome below
    exact ⟨c, scan_mem chosen, (draw d c).mpr chosen⟩
  · simp only [draw]
    exact count_scan _ c

def pairCache (one two : Channel) : Cache where
  group2model2channels := fun _ => some fun _ => [1, 2]
  channelsIDM := fun id => if id = 1 then some one else if id = 2 then some two else none

def weighted (id : Int) (weight : ℕ) : Channel where
  id := id
  status := .enabled
  models := "gpt-4"
  group := "default"
  weight := some weight

theorem pairCache_serves (env : Env) (one two : Channel) (group model : String) :
    Serves env (pairCache one two) group model [one, two] := rfl

/-- Weights of 3 and 1 have an average below 10: the channels have 300 and 100 of 400 draws. -/
theorem weighted_choice_exact_pair :
    ∃ n, 0 < n ∧ n = 400 ∧
      count (fun d => getRandomSatisfiedChannel plainEnv
        (pairCache (weighted 1 3) (weighted 2 1)) "default" "gpt-4" (2 : ℕ) (fun _ => (d : ℕ)) =
          some (.ok (some (weighted 1 3)))) n = 300 ∧
      count (fun d => getRandomSatisfiedChannel plainEnv
        (pairCache (weighted 1 3) (weighted 2 1)) "default" "gpt-4" (2 : ℕ) (fun _ => (d : ℕ)) =
          some (.ok (some (weighted 2 1)))) n = 100 := by
  obtain ⟨p, mem, -, candidates, rfl, n, size, positive, -, -, counts⟩ :=
    weighted_choice_exact
      (pairCache_serves plainEnv (weighted 1 3) (weighted 2 1) "default" "gpt-4") (by decide) 2
  obtain rfl : p = 0 := by simpa [weighted, Channel.getPriority] using mem
  have both : [weighted 1 3, weighted 2 1].filter (·.getPriority = 0) =
      [weighted 1 3, weighted 2 1] := rfl
  have apart : weighted 1 3 ≠ weighted 2 1 := fun same => by cases congrArg Channel.id same
  rw [both] at size counts
  refine ⟨n, positive, by rw [size]; decide, ?_, ?_⟩
  · rw [counts, count_cons_self, count_cons_of_ne (Ne.symm apart)]
    decide
  · rw [counts, count_cons_of_ne apart, count_cons_self]
    decide

end EastApi.Channels
