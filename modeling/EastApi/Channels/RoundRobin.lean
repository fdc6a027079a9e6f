import EastApi.Channels.Polling
import Mathlib.Data.List.Rotate

/-! The calls of `GetNextEnabledKey` on a channel in the memory cache, where each call starts from
the polling index that the call before has left. -/

namespace EastApi.Channels

open List

/-- The indexes with `p` in cyclic order, from the stored one on. -/
def cyclic (p : ℕ → Bool) (n : ℕ) (start : Int) : List ℕ :=
  ((range n).rotate (if start < 0 ∨ n ≤ start then 0 else start.toNat)).filter p

/-- The index that a call returns goes to the end of the round. -/
theorem cyclic_next (first : cyclic p n start = i :: rest) :
    cyclic p n ((i + 1) % n : ℕ) = rest ++ [i] := by
  rw [cyclic] at first
  generalize (if start < 0 ∨ n ≤ start then 0 else start.toNat) = s at first
  obtain ⟨skipped, later, whole, disabled, enabled, rfl⟩ := filter_eq_cons_iff.mp first
  have size := congrArg length whole
  rw [length_rotate, length_range, length_append, length_cons] at size
  have here : i = (skipped.length + s) % n := by
    have := congrArg (·[skipped.length]?) whole
    simpa [getElem?_rotate, size] using this.symm
  have turn : ∀ k, (range n).rotate (k % n) = (range n).rotate k := fun k => by
    simpa using rotate_mod (range n) k
  have start : (range n).rotate ((i + 1) % n) = later ++ (skipped ++ [i]) := by
    have same : (i + 1) % n = (s + (skipped ++ [i]).length) % n := by
      rw [here, Nat.mod_add_mod, length_append, length_singleton, add_comm skipped.length,
        add_assoc]
    rw [same, turn, ← rotate_rotate, whole, append_cons, rotate_append_length_eq]
  have inside := Nat.mod_lt (i + 1) (show 0 < n by omega)
  rw [cyclic, if_neg (by omega), Int.toNat_natCast, start, filter_append, filter_append,
    filter_eq_nil_iff.mpr disabled, nil_append, filter_singleton, enabled, cond_true]

theorem mem_cyclic : i ∈ cyclic p n start ↔ i < n ∧ p i = true := by
  simp [cyclic]

variable (parseArray : String → Option (List String))

/-- The results of calls that follow one another. -/
def polls : ℕ → Channel → List (Except String (String × ℕ))
  | 0, _ => []
  | m + 1, c =>
    let call := c.getNextEnabledKey parseArray c.channelInfo.multiKeyPollingIndex fun _ => 0
    call.1 :: polls m (call.2.getD c)

/-- The enabled indexes in the order in which they are to be returned. -/
def Channel.round (c : Channel) : List ℕ :=
  cyclic (fun i => c.channelInfo.keyStatus i = .enabled) (c.getKeys parseArray).length
    c.channelInfo.multiKeyPollingIndex

def Channel.pointAfter (c : Channel) (i : ℕ) : Channel :=
  { c with channelInfo.multiKeyPollingIndex := ((i + 1) % (c.getKeys parseArray).length : ℕ) }

def Channel.keyAt (c : Channel) (i : ℕ) : String × ℕ := ((c.getKeys parseArray).getD i "", i)

variable {parseArray} {c : Channel}

theorem getNextEnabledKey_round (multi : c.channelInfo.isMultiKey = true)
    (polling : c.channelInfo.isPolling = true) (round : c.round parseArray = i :: rest)
    (intn : ℕ → ℕ) :
    c.getNextEnabledKey parseArray c.channelInfo.multiKeyPollingIndex intn =
      (.ok (c.keyAt parseArray i), some (c.pointAfter parseArray i)) := by
  have next : nextIndex c.channelInfo (c.getKeys parseArray).length
      c.channelInfo.multiKeyPollingIndex = (c.round parseArray).head? := by
    have turned : ∀ n s, (range n).map (fun i => (s + i) % n) = (range n).rotate s := fun n s =>
      ext_getElem (by simp) fun i _ _ => by simp [getElem_rotate, add_comm]
    simp only [nextIndex, Channel.round, cyclic, turned, head?_filter]
  have member := mem_cyclic.mp (round ▸ mem_cons_self : i ∈ c.round parseArray)
  have some : enabledIdx c.channelInfo (c.getKeys parseArray).length ≠ [] :=
    ne_nil_of_mem (mem_filter.mpr ⟨mem_range.mpr member.1, member.2⟩)
  have keys : c.getKeys parseArray ≠ [] := by
    intro none
    simp [none] at member
  rw [round, head?_cons] at next
  simp [Channel.getNextEnabledKey, multi, polling, keys, some, next, Channel.keyAt,
    Channel.pointAfter]

theorem polls_eq (multi : c.channelInfo.isMultiKey = true)
    (polling : c.channelInfo.isPolling = true) (some : c.round parseArray ≠ []) (m : ℕ) :
    polls parseArray m c = (range m).map fun j => .ok (c.keyAt parseArray
      ((c.round parseArray).getD (j % (c.round parseArray).length) 0)) := by
  induction m generalizing c with
  | zero => rfl
  | succ m ih =>
    obtain ⟨i, rest, round⟩ := exists_cons_of_ne_nil some
    have next : (c.pointAfter parseArray i).round parseArray = (i :: rest).rotate 1 := by
      rw [rotate_cons_succ, rotate_zero]
      exact cyclic_next round
    have later := ih (c := c.pointAfter parseArray i) multi polling (by simp [next])
    simp only [polls, getNextEnabledKey_round multi polling round, Option.getD_some, later, next,
      round, range_succ_eq_map, map_cons, map_map, length_rotate]
    refine congrArg₂ _ (by simp) (map_congr_left fun j _ => ?_)
    have inside := Nat.mod_lt j (length_pos_of_ne_nil (cons_ne_nil i rest))
    simp only [Function.comp, getD_eq_getElem?_getD, getElem?_rotate inside, Nat.mod_add_mod,
      Nat.succ_eq_add_one]
    rfl

/-- The calls return the enabled keys in turn, in cyclic order. -/
theorem polling_round_robin (parseArray : String → Option (List String)) (c : Channel)
    (multi : c.channelInfo.isMultiKey = true) (polling : c.channelInfo.isPolling = true)
    (enabled : enabledIdx c.channelInfo (c.getKeys parseArray).length ≠ []) :
    let round := c.round parseArray
    let k := (enabledIdx c.channelInfo (c.getKeys parseArray).length).length
    round.Perm (enabledIdx c.channelInfo (c.getKeys parseArray).length) ∧
      polls parseArray k c = round.map (fun i => .ok (c.keyAt parseArray i)) ∧
      ∀ m, polls parseArray m c =
        (range m).map fun j => .ok (c.keyAt parseArray (round.getD (j % k) 0)) := by
  intro round k
  have perm : round.Perm (enabledIdx c.channelInfo (c.getKeys parseArray).length) :=
    (rotate_perm ..).filter _
  have some : round ≠ [] := fun none => enabled (nil_perm.mp (none ▸ perm))
  have size : k = round.length := perm.length_eq.symm
  have all := polls_eq multi polling some
  refine ⟨perm, ?_, fun m => by rw [all, size]⟩
  rw [all, size]
  refine ext_getElem (by simp) fun j short _ => ?_
  have inside : j < round.length := by simpa using short
  rw [getElem_map, getElem_map, getElem_range, Nat.mod_eq_of_lt inside,
    getD_eq_getElem?_getD, getElem?_eq_getElem inside, Option.getD_some]

/-- Four keys, the second one disabled, and an index behind the last key. -/
def staleIndex : Channel :=
  defaultChannel 1 "gpt-4" "a\nb\nc\nd"
    { isMultiKey := true, multiKeySize := 4, isPolling := true, multiKeyPollingIndex := 7
      multiKeyStatusList := AList.insert 1 .autoDisabled ∅ }

theorem polling_round_robin_stale :
    polls (fun _ => none) 3 staleIndex = [.ok ("a", 0), .ok ("c", 2), .ok ("d", 3)] :=
  (polling_round_robin (fun _ => none) staleIndex rfl rfl (by decide)).2.1

end EastApi.Channels
