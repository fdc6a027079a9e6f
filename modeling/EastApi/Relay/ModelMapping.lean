import EastApi.Lib.GoBase
import Mathlib.Data.List.Perm.Subperm
import Mathlib.Logic.Relation

/-! The model mapping of a channel (`ModelMappedHelper`), and what an attempt takes over from the
attempts before it: in Responses compact mode the helper writes `OriginModelName`, and all attempts
of a request share one `RelayInfo`. -/

namespace EastApi.Relay

open Go List Relation

section
variable {α : Type} (next : α → Option α)

def Reaches : α → α → Prop := ReflTransGen fun x y => next x = some y

/-- The chain from `x` has the last element `y`. -/
def Ends (x y : α) : Prop := Reaches next x y ∧ next y = none

/-- The chain from `x` comes to an element that comes back to itself. -/
def Cycles (x : α) : Prop := ∃ y z, Reaches next x y ∧ next y = some z ∧ Reaches next z y

variable {next}

theorem Ends.stays (h : Ends next x y) (path : Reaches next y z) : z = y := by
  rcases path.cases_head with rfl | ⟨w, first, -⟩
  · rfl
  · rw [h.2] at first
    contradiction

theorem Ends.of_reaches (h : Ends next x y) (path : Reaches next x z) : Ends next z y := by
  have unique : Relator.RightUnique fun x y => next x = some y :=
    fun _ _ _ first second => Option.some.inj (first.symm.trans second)
  rcases ReflTransGen.total_of_right_unique unique h.1 path with rest | rest
  · rw [h.stays rest]
    exact ⟨.refl, h.2⟩
  · exact ⟨rest, h.2⟩

theorem Ends.unique (h : Ends next x y) (other : Ends next x z) : z = y :=
  (other.stays (h.of_reaches other.1).1).symm

theorem Ends.not_cycles (h : Ends next x y) : ¬ Cycles next x := by
  rintro ⟨u, v, reach, step, back⟩
  -- what is reached from the cycle is on it
  have round : ∀ w, Reaches next u w → Reaches next w u := by
    intro w path
    induction path with
    | refl => exact .refl
    | tail _ last ih =>
      rcases ih.cases_head with rfl | ⟨w', first, rest⟩
      · rwa [Option.some.inj (last.symm.trans step)]
      · rwa [Option.some.inj (last.symm.trans first)]
  have here := h.stays (round y (h.of_reaches reach).1)
  rw [here, h.2] at step
  contradiction

end

/-- What the JSON text of a channel gives; an empty text and `\x7b\x7d` give no entries. -/
abbrev ModelMap := List (String × String)

structure ModelInfo where
  (originModelName upstreamModelName : String)
  isModelMapped : Bool := false
  isResponsesCompact : Bool := false
deriving DecidableEq

def compactModelSuffix : String := "-openai-compact"

def trimCompactSuffix (name : String) : String :=
  if hasSuffix name compactModelSuffix then
    String.ofList (name.toList.take (name.length - compactModelSuffix.length))
  else name

def withCompactModelSuffix (name : String) : String :=
  if hasSuffix name compactModelSuffix then name else name ++ compactModelSuffix

inductive Followed
  | cycle
  /-- The helper returns at once: the model is mapped to itself. -/
  | returned
  | left (currentModel : String) (isModelMapped : Bool)

/-- The loop over the mapping. -/
def follow (modelMap : ModelMap) (origin : String) :
    ℕ → List String → String → Bool → Option Followed
  | 0, _, _, _ => none
  | fuel + 1, visited, current, mapped =>
    match modelMap.lookup current with
    | none => some (.left current mapped)
    | some mappedModel =>
      if mappedModel = "" then some (.left current mapped)
      else if mappedModel ∈ visited then
        if mappedModel = current then
          if current = origin then some .returned else some (.left current true)
        else some .cycle
      else follow modelMap origin fuel (mappedModel :: visited) mappedModel true

namespace ModelInfo

variable (info : ModelInfo)

def mappingModelName : String :=
  if info.isResponsesCompact then trimCompactSuffix info.originModelName else info.originModelName

/-- The helper after the loop. -/
def finish : Followed → Except String ModelInfo
  | .cycle => .error "model_mapping_contains_cycle"
  | .returned => .ok { info with isModelMapped := false }
  | .left current mapped =>
    let upstream := if mapped then current else info.upstreamModelName
    if info.isResponsesCompact then
      let final := if mapped ∧ upstream ≠ "" then upstream else info.mappingModelName
      .ok ⟨withCompactModelSuffix final, final, mapped, true⟩
    else .ok { info with isModelMapped := mapped, upstreamModelName := upstream }

/-- The model of an attempt; `original_model` is set to `OriginModelName` before each attempt. -/
def initChannelMeta : ModelInfo :=
  { info with upstreamModelName := info.originModelName, isModelMapped := false }

end ModelInfo

/-- Without a map its text could not be decoded.  `none` is a loop that has not ended. -/
def modelMappedHelper (modelMap : Option ModelMap) (info : ModelInfo) :
    Option (Except String ModelInfo) :=
  match modelMap with
  | none => some (.error "unmarshal_model_mapping_failed")
  | some modelMap =>
    (follow modelMap info.originModelName (modelMap.length + 1) [info.mappingModelName]
      info.mappingModelName info.isModelMapped).map info.finish

/-- Where the chain goes from a name: a missing or empty target and a name that is mapped to itself
end it. -/
def mapped (modelMap : ModelMap) (name : String) : Option String :=
  (modelMap.lookup name).filter fun target => target ≠ "" ∧ target ≠ name

def outcome (modelMap : ModelMap) (origin start y : String) : Followed :=
  if modelMap.lookup y = some y ∧ y ≠ "" then
    if y = origin then .returned else .left y true
  else .left y (y ≠ start)

/-- The name where the loop leaves a chain. -/
def chainEnd (modelMap : ModelMap) (name : String) : String :=
  match follow modelMap "" (modelMap.length + 1) [name] name false with
  | some (.left y _) => y
  | _ => name

section
variable (modelMap : ModelMap) (start : String)

/-- The names that were visited lead to the current one, and there are at most as many before it as
the mapping has. -/
theorem follow_spec (fuel : ℕ) : ∀ rest current, (current :: rest).Nodup →
    start ∈ current :: rest →
    (∀ name ∈ current :: rest, Reaches (mapped modelMap) name current) →
    (∀ name ∈ rest, name ∈ modelMap.map Prod.fst) → modelMap.length < fuel + rest.length →
    (Cycles (mapped modelMap) start ∧ ∀ origin,
      follow modelMap origin fuel (current :: rest) current (current ≠ start) = some .cycle) ∨
    ∃ y, Ends (mapped modelMap) start y ∧ ∀ origin,
      follow modelMap origin fuel (current :: rest) current (current ≠ start) =
        some (outcome modelMap origin start y) := by
  induction fuel with
  | zero =>
    intro rest current nodup _ _ inside enough
    have := (subperm_of_subset nodup.of_cons inside).length_le
    simp at this
    omega
  | succ fuel ih =>
    intro rest current nodup first reach inside enough
    have here := reach start first
    cases found : modelMap.lookup current with
    | none =>
      exact .inr ⟨current, ⟨here, by simp [mapped, found]⟩, by simp [follow, outcome, found]⟩
    | some target =>
      by_cases empty : target = ""
      · exact .inr ⟨current, ⟨here, by simp [mapped, found, empty]⟩,
          by simp [follow, outcome, found, empty]⟩
      by_cases own : target = current
      · subst own
        refine .inr ⟨target, ⟨here, by simp [mapped, found]⟩, fun origin => ?_⟩
        simp only [follow, outcome, found, empty, mem_cons_self, ↓reduceIte, ne_eq,
          not_false_eq_true, and_self]
        split <;> rfl
      have step : mapped modelMap current = some target := by simp [mapped, found, empty, own]
      by_cases seen : target ∈ current :: rest
      · exact .inl ⟨⟨current, target, here, step, reach target seen⟩,
          by simp only [follow, found, empty, own, seen, ↓reduceIte, implies_true]⟩
      · have other : target ≠ start := fun same => seen (same ▸ first)
        have known : current ∈ modelMap.map Prod.fst := by
          obtain ⟨before, after, whole, -⟩ := lookup_eq_some_iff.mp found
          simp [whole]
        have later := ih (current :: rest) target (nodup_cons.mpr ⟨seen, nodup⟩)
          (mem_cons_of_mem _ first)
          (forall_mem_cons.mpr ⟨.refl, fun name member => (reach name member).tail step⟩)
          (forall_mem_cons.mpr ⟨known, inside⟩) (by simp; omega)
        simpa only [follow, found, empty, seen, other, ↓reduceIte, ne_eq, not_false_eq_true,
          decide_true] using later

theorem follow_start :
    (Cycles (mapped modelMap) start ∧ ∀ origin,
      follow modelMap origin (modelMap.length + 1) [start] start false = some .cycle) ∨
    Ends (mapped modelMap) start (chainEnd modelMap start) ∧ ∀ origin,
      follow modelMap origin (modelMap.length + 1) [start] start false =
        some (outcome modelMap origin start (chainEnd modelMap start)) := by
  have run := follow_spec modelMap start (modelMap.length + 1) [] start (by simp) (by simp)
    (by simpa using .refl) (by simp) (by simp)
  simp only [ne_eq, not_true, decide_false] at run
  rcases run with cycles | ⟨y, ends, run⟩
  · exact .inl cycles
  · have same : chainEnd modelMap start = y := by
      rw [chainEnd, run "", outcome]
      split_ifs <;> simp_all
    exact .inr (same ▸ ⟨ends, run⟩)

end

theorem trimCompactSuffix_with (name : String) :
    trimCompactSuffix (withCompactModelSuffix name) = trimCompactSuffix name := by
  unfold withCompactModelSuffix
  split
  · rfl
  next plain =>
    have suffix : hasSuffix (name ++ compactModelSuffix) compactModelSuffix = true := by
      simp [hasSuffix, isSuffixOf_iff_suffix]
    rw [trimCompactSuffix, if_pos suffix, trimCompactSuffix, if_neg plain, String.toList_append,
      take_left' (by simp [String.length]), String.ofList_toList]

variable {modelMap : ModelMap} {info : ModelInfo}

/-- The next attempt of the compact mode starts from the name that was sent. -/
theorem helper_sends (acyclic : ¬ Cycles (mapped modelMap) info.mappingModelName) :
    ∃ origin y moved, modelMappedHelper (some modelMap) info.initChannelMeta =
        some (.ok ⟨origin, y, moved, info.isResponsesCompact⟩) ∧
      y = chainEnd modelMap info.mappingModelName ∧
      if info.isResponsesCompact then trimCompactSuffix origin = trimCompactSuffix y
      else origin = info.originModelName ∧ moved = (y ≠ origin : Bool) := by
  obtain ⟨cycles, -⟩ | ⟨ends, run⟩ := follow_start modelMap info.mappingModelName
  · exact absurd cycles acyclic
  have result : modelMappedHelper (some modelMap) info.initChannelMeta =
    some (info.initChannelMeta.finish _) := congrArg (Option.map _) (run info.originModelName)
  rw [result, outcome]
  generalize chainEnd modelMap info.mappingModelName = y at ends
  have named : y = "" → y = info.mappingModelName := by
    rcases ends.1.cases_tail with same | ⟨x, -, step⟩
    · exact fun _ => same
    · obtain ⟨-, target⟩ := Option.filter_eq_some_iff.mp step
      intro empty
      simp [empty] at target
  cases compact : info.isResponsesCompact with
  | false =>
    have start : info.mappingModelName = info.originModelName := by
      simp [ModelInfo.mappingModelName, compact]
    refine ⟨info.originModelName, y, y ≠ info.originModelName, ?_, rfl, rfl, rfl⟩
    by_cases same : y = info.originModelName <;> split_ifs <;>
      simp_all [ModelInfo.finish, ModelInfo.initChannelMeta]
  | true =>
    have left : ∀ moved, (moved = false → y = info.mappingModelName) →
        info.initChannelMeta.finish (.left y moved) =
          .ok ⟨withCompactModelSuffix y, y, moved, true⟩ := by
      intro moved stayed
      have start : info.initChannelMeta.mappingModelName = info.mappingModelName := rfl
      by_cases empty : y = "" <;> cases moved <;>
        simp_all [ModelInfo.finish, ModelInfo.initChannelMeta]
    simp only [↓reduceIte, Option.some.injEq]
    split_ifs with own origin
    · exact ⟨y, y, false, by simp [ModelInfo.finish, ModelInfo.initChannelMeta, compact, origin],
        rfl, rfl⟩
    · exact ⟨_, _, _, left true (by simp), rfl, trimCompactSuffix_with y⟩
    · exact ⟨_, _, _, left _ (by simp), rfl, trimCompactSuffix_with y⟩

/-- The helper in the normal mode follows the chain to its end, or returns the error. -/
theorem mapping_follows_chain (modelMap : ModelMap) (m : String) :
    let result := modelMappedHelper (some modelMap) ⟨m, m, false, false⟩
    (result = some (.error "model_mapping_contains_cycle") ↔ Cycles (mapped modelMap) m) ∧
    (¬ Cycles (mapped modelMap) m → ∃ y, Ends (mapped modelMap) m y ∧
      result = some (.ok ⟨m, y, y ≠ m, false⟩)) := by
  intro result
  obtain ⟨cycles, run⟩ | ⟨ends, -⟩ := follow_start modelMap m
  · have failed : result = some (.error "model_mapping_contains_cycle") :=
      congrArg (Option.map _) (run m)
    exact ⟨iff_of_true failed cycles, absurd cycles⟩
  · obtain ⟨origin, y, moved, sent, rfl, rfl, rfl⟩ :=
      @helper_sends modelMap ⟨m, m, false, false⟩ ends.not_cycles
    refine ⟨iff_of_false (fun failed => ?_) ends.not_cycles, fun _ => ⟨_, ends, sent⟩⟩
    exact nomatch Option.some.inj (sent.symm.trans failed)

/-- The attempts of a request, each with the mapping of its channel. -/
def attempts : ModelInfo → List ModelMap → Option ModelInfo
  | info, [] => some info
  | info, modelMap :: rest =>
    match modelMappedHelper (some modelMap) info.initChannelMeta with
    | some (.ok info) => attempts info rest
    | _ => none

def Acyclic (modelMap : ModelMap) : Prop := ∀ name, ¬ Cycles (mapped modelMap) name

def nextStart (start : String) (modelMap : ModelMap) : String :=
  trimCompactSuffix (chainEnd modelMap start)

theorem attempts_eq (last : Acyclic modelMap) (earlier : List ModelMap) : ∀ info : ModelInfo,
    (∀ modelMap ∈ earlier, Acyclic modelMap) →
    (attempts info (earlier ++ [modelMap])).map (·.upstreamModelName) =
      some (chainEnd modelMap (if info.isResponsesCompact then
        earlier.foldl nextStart info.mappingModelName else info.originModelName)) := by
  induction earlier with
  | nil =>
    intro info _
    obtain ⟨origin, y, moved, sent, rfl, -⟩ := helper_sends (last info.mappingModelName)
    simp only [nil_append, attempts, sent, Option.map_some, foldl_nil, ModelInfo.mappingModelName]
    split <;> rfl
  | cons first earlier ih =>
    intro info acyclic
    obtain ⟨known, acyclic⟩ := forall_mem_cons.mp acyclic
    obtain ⟨origin, y, moved, sent, rfl, left⟩ := helper_sends (known info.mappingModelName)
    simp only [cons_append, attempts, sent, ih _ acyclic, foldl_cons]
    cases compact : info.isResponsesCompact <;>
      simp_all [ModelInfo.mappingModelName, nextStart]

theorem Acyclic.ends_iff (acyclic : Acyclic modelMap) :
    Ends (mapped modelMap) x y ↔ y = chainEnd modelMap x := by
  obtain ⟨cycles, -⟩ | ⟨ends, -⟩ := follow_start modelMap x
  · exact absurd cycles (acyclic x)
  · exact ⟨ends.unique, fun same => same ▸ ends⟩

/-- The name that the attempts of the compact mode leave for the next one: each sends the end of
its chain, and its suffix is trimmed. -/
def Leaves : List ModelMap → String → String → Prop
  | [], start, left => left = start
  | modelMap :: rest, start, left =>
    ∃ sent, Ends (mapped modelMap) start sent ∧ Leaves rest (trimCompactSuffix sent) left

theorem leaves_iff (earlier : List ModelMap) : ∀ start,
    (∀ modelMap ∈ earlier, Acyclic modelMap) →
    (Leaves earlier start left ↔ left = earlier.foldl nextStart start) := by
  induction earlier with
  | nil => exact fun _ _ => .rfl
  | cons first earlier ih =>
    intro start acyclic
    obtain ⟨known, acyclic⟩ := forall_mem_cons.mp acyclic
    simp [Leaves, known.ends_iff, ih _ acyclic, nextStart]

theorem acyclic_single (a b : String) : Acyclic [(a, b)] := by
  have only : ∀ x y, mapped [(a, b)] x = some y → x = a ∧ y = b ∧ b ≠ a := by
    intro x y step
    simp only [mapped, lookup_cons, lookup_nil, Option.filter_eq_some_iff] at step
    split at step <;> simp_all
  rintro name ⟨y, z, -, step, back⟩
  obtain ⟨rfl, rfl, other⟩ := only y z step
  rcases back.cases_head with same | ⟨w, first, -⟩
  · exact other same
  · exact other (only z w first).1

def compactRequest : ModelInfo := ⟨"gpt-5-openai-compact", "", false, true⟩

end EastApi.Relay
