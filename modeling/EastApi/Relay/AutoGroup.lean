import EastApi.Relay.Retry

/-! Retries across the auto groups.  The number of attempts is bounded by a potential: the retries
that are left in the current group and in the groups after it. -/

namespace EastApi.Relay

open Channels Nat

/-- A token of the group `auto` with cross-group retry, as the loop condition sees it: the counter
is not held back, and it is 0 before the first attempt. -/
structure Crossing (userGroup : String) (s : Loop) : Prop where
  user : s.context.userGroup = userGroup
  auto : s.param.tokenGroup = "auto"
  cross : s.context.crossGroupRetry = true
  ready : s.param.resetNextTry = false
  first : s.channelMeta = false → s.param.getRetry = 0

def attemptsLeft (cfg : Config) (s : Loop) : ℕ :=
  ((getUserAutoGroup cfg s.context.userGroup).length - s.index) * (cfg.retryTimes + 1) -
    s.param.getRetry

def potential (cfg : Config) (s : Loop) : ℕ :=
  if s.channelMeta then attemptsLeft cfg s
  else max 1 ((getUserAutoGroup cfg s.context.userGroup).length * (cfg.retryTimes + 1))

/-- The state of the next pass. -/
abbrev Loop.next (s : Loop) : Loop := { s with param := s.param.increaseRetry }

theorem Selects.next (sel : Selects cfg a s u k group channel)
    (ready : s.param.resetNextTry = false) :
    if s.Exhausts cfg k then
      u.attempted.next.index = s.index + k + 1 ∧ u.attempted.next.param.getRetry = 0
    else
      u.attempted.next.index = s.index + k ∧
        u.attempted.next.param.getRetry = s.retryAt k + 1 := by
  have index : u.attempted.next.index = if s.Exhausts cfg k then s.index + k + 1
      else s.index + k := by
    rw [sel.state]
    rfl
  have param : u.attempted.next.param = u.param.increaseRetry := rfl
  rw [index, param, sel.param_eq]
  split
  · exact ⟨rfl, rfl⟩
  · refine ⟨rfl, ?_⟩
    unfold Loop.retryAt
    split
    · exact s.param.getRetry_increaseRetry ready
    · exact (s.param.setRetry 0).getRetry_increaseRetry ready

theorem Selects.attemptsLeft_lt (sel : Selects cfg a s u k group channel)
    (ready : s.param.resetNextTry = false) (within : s.param.getRetry ≤ cfg.retryTimes) :
    attemptsLeft cfg u.attempted.next < attemptsLeft cfg s := by
  have user : u.attempted.next.context.userGroup = s.context.userGroup := by
    rw [sel.state]
    rfl
  have inside : s.index + k < (getUserAutoGroup cfg s.context.userGroup).length := by
    by_contra outside
    have := sel.listed
    rw [List.getElem?_eq_none (by omega)] at this
    cases this
  have next := sel.next ready
  unfold attemptsLeft
  rw [user]
  generalize (getUserAutoGroup cfg s.context.userGroup).length = n at inside
  -- `q` groups come after the selected one
  obtain ⟨q, rfl⟩ : ∃ q, n = s.index + k + q + 1 := ⟨n - (s.index + k) - 1, by omega⟩
  have all : (s.index + k + q + 1 - s.index) * (cfg.retryTimes + 1) =
      k * (cfg.retryTimes + 1) + q * (cfg.retryTimes + 1) + (cfg.retryTimes + 1) := by
    rw [show s.index + k + q + 1 - s.index = k + q + 1 by omega]
    ring
  rw [all]
  split at next
  · rw [next.1, next.2, show s.index + k + q + 1 - (s.index + k + 1) = q by omega]
    omega
  · have here : (s.index + k + q + 1 - (s.index + k)) * (cfg.retryTimes + 1) =
        q * (cfg.retryTimes + 1) + (cfg.retryTimes + 1) := by
      rw [show s.index + k + q + 1 - (s.index + k) = q + 1 by omega]
      ring
    rw [next.1, next.2, here]
    unfold Loop.retryAt
    split
    · omega
    · have := Nat.le_mul_of_pos_left (cfg.retryTimes + 1) (Nat.pos_of_ne_zero ‹_›)
      omega

theorem Crossing.again (h : Crossing userGroup s) (within : s.param.getRetry ≤ cfg.retryTimes)
    (turn : pass cfg a s = .again t) :
    Crossing userGroup t.next ∧ potential cfg t.next < potential cfg s := by
  obtain ⟨u, got, rfl⟩ := pass_attempt (.inl turn)
  cases first : s.channelMeta with
  | false =>
    rw [getChannel_first first] at got
    obtain rfl : s = u := by simpa using got
    have count : s.attempted.next.param.getRetry = 1 := by
      have := s.param.getRetry_increaseRetry h.ready
      rwa [h.first first] at this
    refine ⟨⟨h.user, by simpa [Loop.attempted] using h.auto, h.cross, by simp [Loop.attempted],
      fun absent => by cases absent⟩, ?_⟩
    have same : s.attempted.next.index = s.index := rfl
    have user : s.attempted.next.context = s.context := rfl
    have later : s.attempted.next.channelMeta = true := rfl
    have fewer := mul_le_mul_right (cfg.retryTimes + 1)
      (sub_le (getUserAutoGroup cfg s.context.userGroup).length s.index)
    rw [potential, potential, later, first, if_pos rfl, if_neg (by simp), attemptsLeft, count, same,
      user]
    omega
  | true =>
    obtain ⟨k, group, channel, sel⟩ := getChannel_selects first h.auto got
    have left := sel.attemptsLeft_lt h.ready within
    have later : u.attempted.next.channelMeta = true := rfl
    have same : u.attempted.next.context = u.context := rfl
    refine ⟨⟨?_, ?_, ?_, by simp [Loop.attempted], fun absent => by cases absent⟩, ?_⟩
    · rw [same, sel.state]
      exact h.user
    · simpa [Loop.attempted, sel.keeps.1] using h.auto
    · rw [same, sel.state]
      exact h.cross
    · rw [potential, potential, first, later, if_pos rfl, if_pos rfl]
      exact left

theorem Crossing.last (h : Crossing userGroup s) (within : s.param.getRetry ≤ cfg.retryTimes)
    (turn : pass cfg a s = .last t) : 0 < potential cfg s := by
  obtain ⟨u, got, rfl⟩ := pass_attempt (.inr turn)
  cases first : s.channelMeta with
  | false =>
    simp only [potential, first]
    exact lt_of_lt_of_le zero_lt_one (le_max_left _ _)
  | true =>
    obtain ⟨k, group, channel, sel⟩ := getChannel_selects first h.auto got
    rw [potential, first, if_pos rfl]
    exact lt_of_le_of_lt (zero_le _) (sel.attemptsLeft_lt h.ready within)

/-- With cross-group retry the loop of `Relay` ends, for any channel caches, any random numbers and
any errors: with `n` auto groups it makes at most `(RetryTimes + 1) * n + 1` attempts, and the index
of the current group never goes down. -/
theorem relay_bounded (cfg : Config) (c : Context) (info : AsyncTask.Submit.RelayInfo)
    (cross : c.crossGroupRetry = true) (world : List Attempt) :
    (relay cfg world (enter cfg c "auto" info)).attempts.length ≤
        (cfg.retryTimes + 1) * (getUserAutoGroup cfg c.userGroup).length + 1 ∧
      (max 1 ((cfg.retryTimes + 1) * (getUserAutoGroup cfg c.userGroup).length) < world.length →
        (relay cfg world (enter cfg c "auto" info)).finished = true) ∧
      (enter cfg c "auto" info :: ((relay cfg world (enter cfg c "auto" info)).attempts ++
        [(relay cfg world (enter cfg c "auto" info)).final])).Pairwise IndexUp := by
  have start : Crossing c.userGroup (enter cfg c "auto" info) :=
    ⟨rfl, rfl, cross, rfl, fun _ => rfl⟩
  have most : potential cfg (enter cfg c "auto" info) =
      max 1 ((cfg.retryTimes + 1) * (getUserAutoGroup cfg c.userGroup).length) := by
    rw [mul_comm]
    rfl
  obtain ⟨count, ends⟩ := Retrying.run_bounded Loop.next (I := Crossing c.userGroup)
    (Φ := potential cfg)
    (fun a s t h within turn => h.again (of_decide_eq_true within) turn)
    (fun a s t h within turn => h.last (of_decide_eq_true within) turn) world start
  rw [most] at count ends
  refine ⟨count.trans (by omega), ends, ?_⟩
  exact Retrying.run_pairwise Loop.next IndexUp.refl (fun _ _ _ => IndexUp.trans)
    (fun a s t turn => pass_index turn) (fun t => IndexUp.refl t) world _

def exampleConfig (retryTimes : ℕ) (groups : List String) : Config where
  retryTimes := retryTimes
  autoGroups := groups
  usable := fun _ _ => true
  pricing := { modelRatio := fun _ => (1, true, "") }
  channels := plainEnv

def keyFailure : Attempt where
  cache := pairCache (weighted 1 3) (weighted 2 1)
  intn := fun _ => 0
  answer := some { errorCode := "channel:invalid_key", statusCode := 401 }

def crossContext : Context where
  userGroup := "default"
  usingGroup := "auto"
  crossGroupRetry := true

/-- Two groups with one retry each: every attempt fails with a channel error, and the loop ends
within five passes. -/
theorem relay_bounded_pair :
    (relay (exampleConfig 1 ["a", "b"]) (List.replicate 5 keyFailure)
        (enter (exampleConfig 1 ["a", "b"]) crossContext "auto"
          (genRelayInfo crossContext 1 "gpt-4"))).attempts.length ≤ 5 ∧
      (relay (exampleConfig 1 ["a", "b"]) (List.replicate 5 keyFailure)
        (enter (exampleConfig 1 ["a", "b"]) crossContext "auto"
          (genRelayInfo crossContext 1 "gpt-4"))).finished = true := by
  obtain ⟨count, ends, -⟩ := relay_bounded (exampleConfig 1 ["a", "b"]) crossContext
    (genRelayInfo crossContext 1 "gpt-4") rfl (List.replicate 5 keyFailure)
  exact ⟨count, ends (by decide)⟩

end EastApi.Relay
