import EastApi.Lib.GoBase
import EastApi.Lib.OrderedMap
import Mathlib.Data.String.Basic

/-! The groups that a user may use (`GetUserUsableGroups`).  The special groups of the user's group
are taken in the order of a Go map, and later ones replace what earlier ones did. -/

namespace EastApi.Account

open Go List

abbrev Groups := OrderedMap String String

def applySpecial (groupsCopy : Groups) (special : String × String) : Groups :=
  if hasPrefix special.1 "-:" then groupsCopy.erase (trimPrefix special.1 "-:")
  else if hasPrefix special.1 "+:" then groupsCopy.insert (trimPrefix special.1 "+:") special.2
  else groupsCopy.insert special.1 special.2

/-- `specialSettings` are the entries for the group, in the order in which they are met. -/
def getUserUsableGroups (userUsableGroups : Groups) (specialSettings : List (String × String))
    (userGroup : String) : Groups :=
  if userGroup = "" then userUsableGroups
  else
    let groupsCopy := specialSettings.foldl applySpecial userUsableGroups
    match groupsCopy.get userGroup with
    | some _ => groupsCopy
    | none => groupsCopy.insert userGroup "用户分组"

/-- The check of a token's group in `TokenAuth`. -/
def tokenGroupAllowed (userUsableGroups : Groups) (specialSettings : List (String × String))
    (containsGroupRatio : String → Bool) (userGroup tokenGroup : String) : Bool :=
  tokenGroup = "" || ((getUserUsableGroups userUsableGroups specialSettings userGroup).get
    tokenGroup).isSome && (containsGroupRatio tokenGroup || tokenGroup = "auto")

/-- The group that an entry is about. -/
def groupOf (special : String × String) : String :=
  if hasPrefix special.1 "-:" then trimPrefix special.1 "-:" else trimPrefix special.1 "+:"

/-- The user's own group is never missing. -/
def described (userGroup group : String) (desc : Option String) : Option String :=
  if group = userGroup then some (desc.getD "用户分组") else desc

/-- What is known of its group after an entry, unless another one is about the group. -/
def outcome (userGroup : String) (special : String × String) : Option String :=
  described userGroup (groupOf special)
    (if hasPrefix special.1 "-:" then none else some special.2)

theorem get_applySpecial (groups : Groups) (special : String × String) (group : String) :
    (applySpecial groups special).get group = if group = groupOf special then
      if hasPrefix special.1 "-:" then none else some special.2 else groups.get group := by
  unfold applySpecial groupOf
  split
  · exact groups.get_erase ..
  · unfold trimPrefix
    split <;> exact groups.get_insert ..

theorem get_getUserUsableGroups (nonempty : userGroup ≠ "") (groups : Groups)
    (order : List (String × String)) (group : String) :
    (getUserUsableGroups groups order userGroup).get group = order.foldl
      (fun desc special => if group = groupOf special then outcome userGroup special else desc)
      (described userGroup group (groups.get group)) := by
  induction order generalizing groups with
  | nil =>
    simp only [getUserUsableGroups, if_neg nonempty, foldl_nil, described]
    split <;> grind [OrderedMap.get_insert]
  | cons special order ih =>
    have step : getUserUsableGroups groups (special :: order) userGroup =
        getUserUsableGroups (applySpecial groups special) order userGroup := by
      simp only [getUserUsableGroups, if_neg nonempty, foldl_cons]
    rw [step, ih, foldl_cons, get_applySpecial]
    congr 1
    split <;> simp_all [outcome]

/-- The groups of a user, and the groups that their tokens may have, are the same in every order
just if two entries about one group leave the same. -/
theorem usable_groups_iff (groups : Groups) (specialSettings : List (String × String))
    (userGroup : String) :
    (∀ order, order.Perm specialSettings →
      getUserUsableGroups groups order userGroup =
        getUserUsableGroups groups specialSettings userGroup ∧
      ∀ containsGroupRatio tokenGroup,
        tokenGroupAllowed groups order containsGroupRatio userGroup tokenGroup =
          tokenGroupAllowed groups specialSettings containsGroupRatio userGroup tokenGroup) ↔
    userGroup = "" ∨ ∀ a ∈ specialSettings, ∀ b ∈ specialSettings,
      groupOf a = groupOf b → outcome userGroup a = outcome userGroup b := by
  by_cases empty : userGroup = ""
  · simp [empty, getUserUsableGroups, tokenGroupAllowed]
  · rw [or_iff_right empty]
    constructor
    · intro same
      have last : ∀ a ∈ specialSettings, outcome userGroup a =
          (getUserUsableGroups groups specialSettings userGroup).get (groupOf a) := by
        intro a mem
        obtain ⟨before, after, rfl⟩ := append_of_mem mem
        have perm := (perm_append_singleton a after).append_left before
        rw [← (same _ perm).1, get_getUserUsableGroups empty]
        simp
      intro a aIn b bIn group
      rw [last a aIn, last b bIn, group]
    · intro agree order perm
      have groupsSame : getUserUsableGroups groups order userGroup =
          getUserUsableGroups groups specialSettings userGroup := by
        refine OrderedMap.ext_get fun group => ?_
        rw [get_getUserUsableGroups empty, get_getUserUsableGroups empty]
        refine perm.foldl_eq' (fun a aIn b bIn desc => ?_) _
        have := agree a (perm.mem_iff.mp aIn) b (perm.mem_iff.mp bIn)
        grind
      refine ⟨groupsSame, fun _ _ => ?_⟩
      rw [tokenGroupAllowed, groupsSame, tokenGroupAllowed]

/-- A group that is both added and removed. -/
theorem usable_groups_differ :
    [("-:vip", ""), ("+:vip", "VIP")].Perm [("+:vip", "VIP"), ("-:vip", "")] ∧
      tokenGroupAllowed .empty [("-:vip", ""), ("+:vip", "VIP")] (fun _ => true) "default" "vip" ∧
      ¬ tokenGroupAllowed .empty [("+:vip", "VIP"), ("-:vip", "")] (fun _ => true) "default"
        "vip" := by
  decide

end EastApi.Account
