import EastApi.Lib.GoBase
import Mathlib.Data.List.Dedup

/-! The models of a channel against those that its upstream offers: what is found to be added and
removed (`collectPendingUpstreamModelChangesFromModels`), and what becomes of the channel when all
of it is applied. -/

namespace EastApi.Channels.ModelSync

open Go List

def normalizeModelNames (models : List String) : List String :=
  ((models.map trimSpace).filter (· ≠ "")).eraseDups

def mergeModelNames (base appended : List String) : List String :=
  let merged := normalizeModelNames base
  merged ++ (normalizeModelNames appended).filter (· ∉ merged)

def subtractModelNames (base removed : List String) : List String :=
  (normalizeModelNames base).filter (· ∉ normalizeModelNames removed)

def applySelectedModelChanges (originModels addModels removeModels : List String) : List String :=
  let normalizedAdd := normalizeModelNames addModels
  let normalizedRemove := subtractModelNames (normalizeModelNames removeModels) normalizedAdd
  subtractModelNames (mergeModelNames originModels normalizedAdd) normalizedRemove

/-- `matchString` is `regexp.MatchString`, with `false` for an error. -/
def ignores (matchString : String → String → Bool) (ignoredModels : List String)
    (modelName : String) : Bool :=
  (normalizeModelNames ignoredModels).any fun ignoredModel =>
    if hasPrefix ignoredModel "regex:" then
      matchString (trimSpace (trimPrefix ignoredModel "regex:")) modelName
    else ignoredModel = modelName

/-- `modelMapping` has the sources and targets of the mapping. -/
def collectPendingUpstreamModelChangesFromModels (matchString : String → String → Bool)
    (localModels upstreamModels ignoredModels : List String)
    (modelMapping : List (String × String)) : List String × List String :=
  let localSet := normalizeModelNames localModels
  let upstreamSet := normalizeModelNames upstreamModels
  let pendingAdd := upstreamSet.filter fun modelName =>
    !(modelName ∈ localSet ∨ modelName ∈ modelMapping.map Prod.snd) &&
      !ignores matchString ignoredModels modelName
  let pendingRemove := localSet.filter fun modelName =>
    modelName ∉ modelMapping.map Prod.fst ∧ modelName ∉ upstreamSet
  (normalizeModelNames pendingAdd, normalizeModelNames pendingRemove)

theorem nodup_eraseDups : ∀ l : List String, l.eraseDups.Nodup
  | [] => nodup_nil
  | name :: rest => by
    rw [eraseDups_cons]
    exact nodup_cons.mpr ⟨by simp, nodup_eraseDups _⟩
termination_by l => l.length
decreasing_by exact Nat.lt_succ_of_le (length_filter_le ..)

theorem mem_normalizeModelNames :
    name ∈ normalizeModelNames models ↔ name ≠ "" ∧ ∃ model ∈ models, trimSpace model = name := by
  rw [normalizeModelNames, mem_eraseDups]
  simp [and_comm]

/-- A list with names of which `normalizeModelNames` changes none. -/
def Clean (models : List String) : Prop := ∀ name ∈ models, trimSpace name = name ∧ name ≠ ""

theorem Clean.mem_normalize (clean : Clean models) :
    name ∈ normalizeModelNames models ↔ name ∈ models := by
  rw [mem_normalizeModelNames]
  grind [Clean]

theorem clean_normalize (models : List String) : Clean (normalizeModelNames models) := by
  intro name mem
  obtain ⟨nonempty, model, -, rfl⟩ := mem_normalizeModelNames.mp mem
  exact ⟨trimSpace_idem model, nonempty⟩

theorem Clean.filter (clean : Clean models) (p : String → Bool) : Clean (models.filter p) :=
  fun name mem => clean name (mem_of_mem_filter mem)

theorem mem_applySelectedModelChanges (cleanAdd : Clean add) (cleanRemove : Clean remove) :
    name ∈ applySelectedModelChanges models add remove ↔
      (name ∈ normalizeModelNames models ∨ name ∈ add) ∧ (name ∈ remove → name ∈ add) := by
  have merged : Clean (mergeModelNames models (normalizeModelNames add)) := by
    intro name mem
    rcases mem_append.mp mem with mem | mem
    · exact clean_normalize _ name mem
    · exact (clean_normalize _).filter _ name mem
  simp only [applySelectedModelChanges, subtractModelNames, mem_filter, merged.mem_normalize]
  simp only [mergeModelNames, mem_append, mem_filter, ((clean_normalize _).filter _).mem_normalize,
    (clean_normalize _).mem_normalize, cleanAdd.mem_normalize, cleanRemove.mem_normalize]
  grind

section
variable (matchString : String → String → Bool)
  (localModels upstreamModels ignoredModels : List String) (modelMapping : List (String × String))

theorem mem_pending (name : String) :
    let pending := collectPendingUpstreamModelChangesFromModels matchString localModels
      upstreamModels ignoredModels modelMapping
    (name ∈ pending.1 ↔ name ∈ normalizeModelNames upstreamModels ∧
      name ∉ normalizeModelNames localModels ∧ name ∉ modelMapping.map Prod.snd ∧
      ignores matchString ignoredModels name = false) ∧
    (name ∈ pending.2 ↔ name ∈ normalizeModelNames localModels ∧
      name ∉ modelMapping.map Prod.fst ∧ name ∉ normalizeModelNames upstreamModels) := by
  simp only [collectPendingUpstreamModelChangesFromModels,
    ((clean_normalize _).filter _).mem_normalize, mem_filter]
  grind

/-- When all pending changes are applied, nothing is pending. -/
theorem sync_converges :
    let collect := fun models => collectPendingUpstreamModelChangesFromModels matchString models
      upstreamModels ignoredModels modelMapping
    let add := (collect localModels).1
    let remove := (collect localModels).2
    let localModels' := applySelectedModelChanges localModels add remove
    add.Disjoint remove ∧ collect localModels' = ([], []) ∧ localModels'.Nodup ∧
      (∀ name ∈ normalizeModelNames localModels, name ∈ modelMapping.map Prod.fst ∨
        name ∈ normalizeModelNames upstreamModels → name ∈ localModels') ∧
      ∀ name ∈ localModels', name ∉ normalizeModelNames localModels →
        ignores matchString ignoredModels name = false ∧ name ∉ modelMapping.map Prod.snd := by
  intro collect add remove localModels'
  have pending := fun models =>
    mem_pending matchString models upstreamModels ignoredModels modelMapping
  have after : ∀ {name}, name ∈ localModels' ↔ _ :=
    mem_applySelectedModelChanges (clean_normalize _) (clean_normalize _)
  have clean : Clean localModels' := (clean_normalize _).filter _
  refine ⟨?_, Prod.ext ?_ ?_, (nodup_eraseDups _).filter _, ?_, ?_⟩
  · grind [List.Disjoint]
  · refine eq_nil_iff_forall_not_mem.mpr fun name mem => ?_
    rw [(pending _ name).1, clean.mem_normalize, after] at mem
    grind
  · refine eq_nil_iff_forall_not_mem.mpr fun name mem => ?_
    rw [(pending _ name).2, clean.mem_normalize, after] at mem
    grind
  · intro name mem kept
    grind
  · intro name mem new
    grind
end

end EastApi.Channels.ModelSync
