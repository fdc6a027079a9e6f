import EastApi.Lib.GoText

/-! The patterns of a search for tokens (`sanitizeLikePattern`), with what `LIKE` makes of them. -/

namespace EastApi.Account

open List Go

/-- `strings.ReplaceAll`, of one character. -/
def replaceAll (old : Char) (new s : String) : String :=
  .ofList (s.toList.flatMap fun c => if c = old then new.toList else [c])

def sanitizeLikePattern (keyword : String) : Except String String :=
  let input := replaceAll '_' "!_" (replaceAll '!' "!!" keyword)
  let count := input.toList.count '%'
  if contains input "%%" then .error "搜索模式中不允许包含连续的 % 通配符"
  else if 2 < count then .error "搜索模式中最多允许包含 2 个 % 通配符"
  else if 0 < count ∧ len (remove '%' input) < 2 then
    .error "使用模糊搜索时，关键词长度至少为 2 个字符"
  else .ok input

/-- `LIKE` with `!` as its escape; a pattern that ends with it matches nothing. -/
def like : List Char → List Char → Bool
  | [], name => name = []
  | '%' :: pattern, name => name.tails.any (like pattern)
  | '_' :: pattern, name => name ≠ [] && like pattern name.tail
  | ['!'], _ => false
  | '!' :: c :: pattern, name => name.head? = some c && like pattern name.tail
  | c :: pattern, name => name.head? = some c && like pattern name.tail

/-- How many of the `%` of a pattern are not escaped. -/
def wildcards : List Char → Nat
  | '!' :: _ :: pattern => wildcards pattern
  | c :: pattern => wildcards pattern + if c = '%' then 1 else 0
  | [] => 0

/-- A keyword as it is meant: `%` is any text, and all else is itself. -/
def means : List Char → List Char → Bool
  | [], name => name = []
  | c :: keyword, name =>
    if c = '%' then name.tails.any (means keyword)
    else name.head? = some c && means keyword name.tail

def escape (c : Char) : List Char := if c = '!' ∨ c = '_' then ['!', c] else [c]

theorem escaped (keyword : String) :
    (replaceAll '_' "!_" (replaceAll '!' "!!" keyword)).toList = keyword.toList.flatMap escape := by
  simp only [replaceAll, String.toList_ofList, flatMap_assoc]
  refine flatMap_congr fun c _ => ?_
  unfold escape
  by_cases mark : c = '!'
  · simp [mark]
  · by_cases line : c = '_' <;> simp [mark, line]

theorem like_escaped (keyword name : List Char) :
    like (keyword.flatMap escape) name = means keyword name := by
  induction keyword generalizing name with
  | nil => rfl
  | cons c keyword ih =>
    rw [flatMap_cons, escape, means]
    by_cases percent : c = '%'
    · simp [percent, like, funext ih]
    · by_cases special : c = '!' ∨ c = '_'
      · simp [percent, special, like, ih]
      · rw [not_or] at special
        simp [percent, special, like, ih]

theorem wildcards_escaped (keyword : List Char) :
    wildcards (keyword.flatMap escape) = (keyword.flatMap escape).count '%' := by
  induction keyword with
  | nil => rfl
  | cons c keyword ih =>
    rw [flatMap_cons, escape]
    split
    next special => rcases special with rfl | rfl <;> simp [wildcards, ih]
    next plain =>
      rw [not_or] at plain
      simp [wildcards, ih, plain, count_cons]

/-- A pattern that is accepted finds just the names that the keyword means, and it has at most two
wildcards. -/
theorem search_as_meant {keyword pattern : String}
    (accepted : sanitizeLikePattern keyword = .ok pattern) :
    (∀ name : String, like pattern.toList name.toList = means keyword.toList name.toList) ∧
      wildcards pattern.toList ≤ 2 := by
  have same := escaped keyword
  simp only [sanitizeLikePattern] at accepted
  generalize replaceAll '_' "!_" (replaceAll '!' "!!" keyword) = input at same accepted
  split_ifs at accepted with _ few _
  cases accepted
  refine ⟨fun name => by rw [same, like_escaped], ?_⟩
  rw [same, wildcards_escaped, ← same]
  exact not_lt.mp few

theorem search_as_meant_underscore :
    (∀ name : String, like "a!_%!!".toList name.toList = means "a_%!".toList name.toList) ∧
      wildcards "a!_%!!".toList ≤ 2 :=
  search_as_meant (by decide : sanitizeLikePattern "a_%!" = .ok "a!_%!!")

end EastApi.Account
