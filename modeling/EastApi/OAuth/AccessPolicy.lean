import EastApi.Lib.GoText
import Mathlib.Data.List.Sort
import Mathlib.Data.String.Basic

/-! The access policy of a custom OAuth provider (`oauth/generic.go`).  A field that is missing is
compared as a nil value, hence by its text, `<nil>`.  The result is the form of a policy that denies
a user of whom every field it asks for is missing. -/

namespace EastApi.OAuth

open Go List

/-- A value of type `any` as the decoder of JSON makes it. -/
inductive Value where
  | nil
  | bool (b : Bool)
  | number (x : Float64)
  | string (s : String)
  | array (items : List Value)
  | object (entries : List (String × Value))

mutual

def sprint : Value → String
  | .nil => "<nil>"
  | .bool b => if b then "true" else "false"
  | .number x => formatFloat x
  | .string s => s
  | .array items => "[" ++ " ".intercalate (sprintItems items) ++ "]"
  | .object entries =>
    let sorted := (sprintEntries entries).insertionSort fun a b => a.1 ≤ b.1
    "map[" ++ " ".intercalate (sorted.map fun entry => entry.1 ++ ":" ++ entry.2) ++ "]"

def sprintItems : List Value → List String
  | [] => []
  | value :: rest => sprint value :: sprintItems rest

def sprintEntries : List (String × Value) → List (String × String)
  | [] => []
  | entry :: rest => sprintEntry entry :: sprintEntries rest

def sprintEntry : String × Value → String × String
  | (key, value) => (key, sprint value)

end

def text (value : Value) : String := trimSpace (sprint value)

def toFloat : Value → Option Float64
  | .number x => some x
  | .string s => parseFloat (trimSpace s)
  | _ => none

def compareAny (left right : Value) : Int :=
  match toFloat left, toFloat right with
  | some l, some r => if l.less r then -1 else if r.less l then 1 else 0
  | _, _ =>
    if text left < text right then -1 else if text right < text left then 1 else 0

def valueInSlice (current : Value) : Value → Bool
  | .array items => items.any fun item => compareAny current item = 0
  | _ => false

def containsValue (current expected : Value) : Bool :=
  match current with
  | .string s => Go.contains s (text expected)
  | .array items => items.any fun item => compareAny item expected = 0
  | _ => false

/-- A `gjson.Result` that exists: an object is left as its text. -/
inductive Result where
  | null
  | bool (b : Bool)
  | number (x : Float64)
  | string (s : String)
  | array (items : List Result)
  | json (raw : String)

/-- The JSON packages: `gjson.Get`, and the decoding of a text into an `any`. -/
structure Json where
  get : String → String → Option Result
  unmarshal : String → Option Value

mutual

def Result.toValue (json : Json) : Result → Value
  | .null => .nil
  | .bool b => .bool b
  | .number x => .number x
  | .string s => .string s
  | .array items => .array (toValues json items)
  | .json raw => (json.unmarshal raw).getD (.string raw)

def toValues (json : Json) : List Result → List Value
  | [] => []
  | result :: rest => result.toValue json :: toValues json rest

end

def gjsonResultToValue (json : Json) : Option Result → Value
  | none => .nil
  | some result => result.toValue json

inductive Op where
  | eq | ne | gt | gte | lt | lte | «in» | notIn | contains | notContains | «exists» | notExists
  deriving DecidableEq

def supportedAccessPolicyOps : List (String × Op) :=
  [("eq", .eq), ("ne", .ne), ("gt", .gt), ("gte", .gte), ("lt", .lt), ("lte", .lte), ("in", .in),
    ("not_in", .notIn), ("contains", .contains), ("not_contains", .notContains),
    ("exists", .exists), ("not_exists", .notExists)]

def Op.ofName (name : String) : Option Op := supportedAccessPolicyOps.lookup name

structure AccessCondition where
  (field op : String)
  value : Value

inductive AccessPolicy where
  | mk (logic : String) (conditions : List AccessCondition) (groups : List AccessPolicy)

structure Failure where
  (field op : String)
  (expected current : Value)

def normalizePolicyOp (op : String) : String := toLower (trimSpace op)

def normalizeLogic (logic : String) : String :=
  let logic := toLower (trimSpace logic)
  if logic = "" then "and" else logic

def Value.isArray : Value → Bool
  | .array _ => true
  | _ => false

def validateAccessCondition (condition : AccessCondition) (index : Nat) :
    Except String AccessCondition := do
  let field := trimSpace condition.field
  if field = "" then throw s!"condition[{index}].field is required"
  let op := normalizePolicyOp condition.op
  if Op.ofName op = none then throw s!"condition[{index}].op is unsupported: {op}"
  if op ∈ ["in", "not_in"] ∧ ¬ condition.value.isArray then
    throw s!"condition[{index}].value must be an array for op {op}"
  return { condition with field, op }

def validateConditions (index : Nat) : List AccessCondition → Except String (List AccessCondition)
  | [] => return []
  | condition :: rest => do
    let condition ← validateAccessCondition condition index
    return condition :: (← validateConditions (index + 1) rest)

mutual

def validateAccessPolicy : AccessPolicy → Except String AccessPolicy
  | .mk logic conditions groups => do
    let logic := normalizeLogic logic
    if logic ∉ ["and", "or"] then throw s!"unsupported policy logic: {logic}"
    if conditions.isEmpty ∧ groups.isEmpty then
      throw "policy requires at least one condition or group"
    let conditions ← validateConditions 0 conditions
    let groups ← validateGroups 0 groups
    return .mk logic conditions groups

def validateGroups (index : Nat) : List AccessPolicy → Except String (List AccessPolicy)
  | [] => return []
  | group :: rest => do
    let group ← (validateAccessPolicy group).mapError fun e =>
      s!"invalid policy group[{index}]: {e}"
    return group :: (← validateGroups (index + 1) rest)

end

variable (json : Json) (body : String)

def evaluateAccessCondition (cond : AccessCondition) : Bool × Option Failure :=
  let result := json.get body cond.field
  let current := gjsonResultToValue json result
  let failure := some ⟨cond.field, cond.op, cond.value, current⟩
  match Op.ofName cond.op with
  | some .exists => (result.isSome, failure)
  | some .notExists => (result.isNone, failure)
  | some .eq => (compareAny current cond.value = 0, failure)
  | some .ne => (compareAny current cond.value ≠ 0, failure)
  | some .gt => (compareAny current cond.value > 0, failure)
  | some .gte => (compareAny current cond.value ≥ 0, failure)
  | some .lt => (compareAny current cond.value < 0, failure)
  | some .lte => (compareAny current cond.value ≤ 0, failure)
  | some .in => (valueInSlice current cond.value, failure)
  | some .notIn => (!valueInSlice current cond.value, failure)
  | some .contains => (containsValue current cond.value, failure)
  | some .notContains => (!containsValue current cond.value, failure)
  | none => (false, failure)

def firstAllowed (firstFailure : Option Failure) :
    List (Bool × Option Failure) → Bool × Option Failure
  | [] => (false, firstFailure)
  | (ok, failure) :: rest =>
    if ok then (true, none)
    else firstAllowed (if firstFailure.isNone then failure else firstFailure) rest

def firstDenied : List (Bool × Option Failure) → Bool × Option Failure
  | [] => (true, none)
  | (ok, failure) :: rest => if ok then firstDenied rest else (false, failure)

mutual

def evaluateAccessPolicy : AccessPolicy → Bool × Option Failure
  | .mk logic conditions groups =>
    if conditions.isEmpty ∧ groups.isEmpty then (true, none)
    else
      let parts := conditions.map (evaluateAccessCondition json body) ++ evaluateGroups groups
      if normalizeLogic logic = "or" then firstAllowed none parts else firstDenied parts

def evaluateGroups : List AccessPolicy → List (Bool × Option Failure)
  | [] => []
  | group :: rest => evaluateAccessPolicy group :: evaluateGroups rest

end

theorem firstAllowed_fst (firstFailure : Option Failure) (parts : List (Bool × Option Failure)) :
    (firstAllowed firstFailure parts).1 = parts.any (·.1) := by
  induction parts generalizing firstFailure with
  | nil => rfl
  | cons part rest ih =>
    rcases part with ⟨ok, failure⟩
    cases ok with
    | true => simp [firstAllowed]
    | false => simpa [firstAllowed] using ih _

theorem firstDenied_fst (parts : List (Bool × Option Failure)) :
    (firstDenied parts).1 = parts.all (·.1) := by
  induction parts with
  | nil => rfl
  | cons part rest ih =>
    rcases part with ⟨ok, failure⟩
    cases ok with
    | true => simpa [firstDenied] using ih
    | false => simp [firstDenied]

mutual

/-- What the check says of a policy that it accepts, as far as the evaluation depends on it. -/
def AccessPolicy.Accepted : AccessPolicy → Prop
  | .mk logic conditions groups =>
    (logic = "and" ∨ logic = "or") ∧ ¬ (conditions.isEmpty ∧ groups.isEmpty) ∧ AllAccepted groups

def AllAccepted : List AccessPolicy → Prop
  | [] => True
  | group :: rest => group.Accepted ∧ AllAccepted rest

end

theorem ok_of_bind_eq_ok {α β : Type} {x : Except String α} {f : α → Except String β} {b : β}
    (ok : x >>= f = .ok b) : ∃ a, x = .ok a ∧ f a = .ok b := by
  cases x with
  | error e => cases ok
  | ok a => exact ⟨a, rfl, ok⟩

theorem of_guard_eq_ok {β : Type} [Decidable p] {e : String} {x : Except String β} {b : β}
    (ok : (if p then throw e else x) = .ok b) : ¬ p ∧ x = .ok b := by
  split at ok
  · cases ok
  · exact ⟨by assumption, ok⟩

theorem of_cons_eq_ok {α : Type} {x : Except String α} {y : Except String (List α)} {l : List α}
    (ok : (do let first ← x; return first :: (← y)) = .ok l) :
    ∃ first others, x = .ok first ∧ y = .ok others ∧ l = first :: others := by
  obtain ⟨first, firstOk, ok⟩ := ok_of_bind_eq_ok ok
  obtain ⟨others, othersOk, ok⟩ := ok_of_bind_eq_ok ok
  cases ok
  exact ⟨first, others, firstOk, othersOk, rfl⟩

theorem validateConditions_isEmpty {index : Nat} {conditions accepted : List AccessCondition}
    (ok : validateConditions index conditions = .ok accepted) :
    accepted.isEmpty = conditions.isEmpty := by
  cases conditions with
  | nil =>
    cases ok
    rfl
  | cons condition rest =>
    obtain ⟨first, others, -, -, rfl⟩ := of_cons_eq_ok ok
    rfl

theorem validateGroups_isEmpty {index : Nat} {groups accepted : List AccessPolicy}
    (ok : validateGroups index groups = .ok accepted) : accepted.isEmpty = groups.isEmpty := by
  cases groups with
  | nil =>
    cases ok
    rfl
  | cons group rest =>
    simp only [validateGroups] at ok
    obtain ⟨first, others, -, -, rfl⟩ := of_cons_eq_ok ok
    rfl

mutual

theorem validateAccessPolicy_accepted {accepted : AccessPolicy} :
    ∀ policy, validateAccessPolicy policy = .ok accepted → accepted.Accepted
  | .mk logic conditions groups => by
    intro ok
    simp only [validateAccessPolicy] at ok
    obtain ⟨known, ok⟩ := of_guard_eq_ok ok
    obtain ⟨nonempty, ok⟩ := of_guard_eq_ok ok
    obtain ⟨checked, conditionsOk, ok⟩ := ok_of_bind_eq_ok ok
    obtain ⟨nested, groupsOk, ok⟩ := ok_of_bind_eq_ok ok
    cases ok
    refine ⟨by simpa [or_iff_not_imp_left] using known, ?_,
      validateGroups_accepted 0 groups groupsOk⟩
    rwa [validateConditions_isEmpty conditionsOk, validateGroups_isEmpty groupsOk]

theorem validateGroups_accepted {accepted : List AccessPolicy} (index : Nat) :
    ∀ groups, validateGroups index groups = .ok accepted → AllAccepted accepted
  | [] => by
    intro ok
    cases ok
    trivial
  | group :: rest => by
    intro ok
    simp only [validateGroups] at ok
    obtain ⟨first, others, firstOk, restOk, rfl⟩ := of_cons_eq_ok ok
    refine ⟨?_, validateGroups_accepted (index + 1) rest restOk⟩
    cases checked : validateAccessPolicy group with
    | error e =>
      rw [checked] at firstOk
      cases firstOk
    | ok nested =>
      rw [checked] at firstOk
      cases firstOk
      exact validateAccessPolicy_accepted group checked

end

def AccessCondition.deniesMissing (cond : AccessCondition) : Prop :=
  match Op.ofName cond.op with
  | some .eq => text cond.value ≠ "<nil>"
  | some .ne => text cond.value = "<nil>"
  | some .gt => "<nil>" ≤ text cond.value
  | some .gte => "<nil>" < text cond.value
  | some .lt => text cond.value ≤ "<nil>"
  | some .lte => text cond.value < "<nil>"
  | some .in => ∀ items, cond.value = .array items → ∀ item ∈ items, text item ≠ "<nil>"
  | some .notIn => ∃ items, cond.value = .array items ∧ ∃ item ∈ items, text item = "<nil>"
  | some .contains | some .exists | none => True
  | some .notContains | some .notExists => False

mutual

def AccessPolicy.deniesMissing : AccessPolicy → Prop
  | .mk logic conditions groups =>
    if logic = "or" then
      (∀ cond ∈ conditions, cond.deniesMissing) ∧ allDenyMissing groups
    else (∃ cond ∈ conditions, cond.deniesMissing) ∨ someDeniesMissing groups

def allDenyMissing : List AccessPolicy → Prop
  | [] => True
  | group :: rest => group.deniesMissing ∧ allDenyMissing rest

def someDeniesMissing : List AccessPolicy → Prop
  | [] => False
  | group :: rest => group.deniesMissing ∨ someDeniesMissing rest

end

mutual

def AccessPolicy.fields : AccessPolicy → List String
  | .mk _ conditions groups => conditions.map (·.field) ++ groupFields groups

def groupFields : List AccessPolicy → List String
  | [] => []
  | group :: rest => group.fields ++ groupFields rest

end

theorem text_nil : text .nil = "<nil>" := by decide

theorem compareAny_nil_iff (value : Value) :
    (compareAny .nil value = 0 ↔ text value = "<nil>") ∧
      (compareAny .nil value > 0 ↔ text value < "<nil>") ∧
      (compareAny .nil value < 0 ↔ "<nil>" < text value) := by
  simp only [compareAny, toFloat, text_nil]
  rcases lt_trichotomy (text value) "<nil>" with below | same | above
  · simp [below, below.ne, below.not_gt]
  · simp [same]
  · simp [above, above.ne', above.not_gt]

theorem valueInSlice_nil (value : Value) :
    valueInSlice .nil value = true ↔
      ∃ items, value = .array items ∧ ∃ item ∈ items, text item = "<nil>" := by
  cases value <;> simp [valueInSlice, compareAny_nil_iff]

variable {json body}

theorem evaluateAccessCondition_missing {cond : AccessCondition}
    (missing : json.get body cond.field = none) :
    (evaluateAccessCondition json body cond).1 = false ↔ cond.deniesMissing := by
  unfold evaluateAccessCondition AccessCondition.deniesMissing
  simp only [missing, gjsonResultToValue]
  obtain ⟨zero, pos, neg⟩ := compareAny_nil_iff cond.value
  cases Op.ofName cond.op with
  | none => simp
  | some op =>
    cases op with
    | eq => simp [zero]
    | ne => simp [zero]
    | gt => rw [decide_eq_false_iff_not, pos, not_lt]
    | gte => simpa using neg
    | lt => rw [decide_eq_false_iff_not, neg, not_lt]
    | lte => simpa using pos
    | «in» => simpa using (valueInSlice_nil cond.value).not
    | notIn => simpa using valueInSlice_nil cond.value
    | contains => simp [containsValue]
    | notContains => simp [containsValue]
    | «exists» => simp
    | notExists => simp

theorem conditions_missing (conditions : List AccessCondition)
    (missing : ∀ cond ∈ conditions, json.get body cond.field = none) :
    ((conditions.map (evaluateAccessCondition json body)).any (·.1) = false ↔
        ∀ cond ∈ conditions, cond.deniesMissing) ∧
      ((conditions.map (evaluateAccessCondition json body)).all (·.1) = false ↔
        ∃ cond ∈ conditions, cond.deniesMissing) := by
  constructor
  · rw [any_map, any_eq_false]
    refine forall₂_congr fun cond mem => ?_
    rw [← evaluateAccessCondition_missing (missing cond mem)]
    simp
  · rw [all_map, all_eq_false]
    refine exists_congr fun cond => and_congr_right fun mem => ?_
    rw [← evaluateAccessCondition_missing (missing cond mem)]
    simp

mutual

theorem evaluateAccessPolicy_missing :
    ∀ policy : AccessPolicy, policy.Accepted →
      (∀ field ∈ policy.fields, json.get body field = none) →
      ((evaluateAccessPolicy json body policy).1 = false ↔ policy.deniesMissing)
  | .mk logic conditions groups => by
    intro accepted missing
    obtain ⟨known, nonempty, groupsAccepted⟩ := accepted
    simp only [AccessPolicy.fields, List.mem_append, List.mem_map] at missing
    obtain ⟨anyCondition, allConditions⟩ := conditions_missing conditions
      fun cond mem => missing _ (.inl ⟨cond, mem, rfl⟩)
    obtain ⟨anyGroup, allGroups⟩ := evaluateGroups_missing groups groupsAccepted
      fun field mem => missing field (.inr mem)
    simp only [evaluateAccessPolicy, AccessPolicy.deniesMissing, if_neg nonempty]
    rcases known with rfl | rfl
    · have same : normalizeLogic "and" = "and" := by decide
      rw [same, if_neg (by decide), if_neg (by decide), firstDenied_fst, all_append,
        Bool.and_eq_false_iff, allConditions, allGroups]
    · have same : normalizeLogic "or" = "or" := by decide
      rw [same, if_pos rfl, if_pos rfl, firstAllowed_fst, any_append,
        Bool.or_eq_false_iff, anyCondition, anyGroup]

theorem evaluateGroups_missing :
    ∀ groups : List AccessPolicy, AllAccepted groups →
      (∀ field ∈ groupFields groups, json.get body field = none) →
      ((evaluateGroups json body groups).any (·.1) = false ↔ allDenyMissing groups) ∧
        ((evaluateGroups json body groups).all (·.1) = false ↔ someDeniesMissing groups)
  | [] => by simp [evaluateGroups, allDenyMissing, someDeniesMissing]
  | group :: rest => by
    intro accepted missing
    simp only [groupFields, List.mem_append] at missing
    have first := evaluateAccessPolicy_missing group accepted.1 fun field mem =>
      missing field (.inl mem)
    obtain ⟨anyRest, allRest⟩ := evaluateGroups_missing rest accepted.2 fun field mem =>
      missing field (.inr mem)
    simp only [evaluateGroups, any_cons, all_cons, Bool.or_eq_false_iff,
      Bool.and_eq_false_iff, allDenyMissing, someDeniesMissing, first, anyRest, allRest, and_self]

end

/-- A policy that was accepted denies a user of whom it finds no field just if the texts of its
values lie on the right side of `<nil>`. -/
theorem denies_missing_iff {raw policy : AccessPolicy}
    (accepted : validateAccessPolicy raw = .ok policy)
    (missing : ∀ field ∈ policy.fields, json.get body field = none) :
    (evaluateAccessPolicy json body policy).1 = false ↔ policy.deniesMissing :=
  evaluateAccessPolicy_missing policy (validateAccessPolicy_accepted raw accepted) missing

def emptyReply : Json where
  get _ _ := none
  unmarshal _ := none

def roleAndAge : AccessPolicy :=
  .mk "or" []
    [.mk "and" [⟨"role", "eq", .string "admin"⟩, ⟨"age", "gte", .number (.finite false 18)⟩] []]

theorem denies_missing_iff_role :
    (evaluateAccessPolicy emptyReply "{}" roleAndAge).1 = false := by
  have accepted : validateAccessPolicy roleAndAge = .ok roleAndAge := by rfl
  have role : text (.string "admin") ≠ "<nil>" := by decide
  refine (denies_missing_iff accepted fun _ _ => rfl).mpr ?_
  exact ⟨fun _ mem => absurd mem not_mem_nil, .inl ⟨_, mem_cons_self, role⟩, trivial⟩

/-- A user without an age is let in where an age of at least 18 is asked for: the text `<nil>` comes
after `18`. -/
theorem missing_age_allowed :
    validateAccessPolicy (.mk "and" [⟨"age", "gte", .number (.finite false 18)⟩] []) =
        .ok (.mk "and" [⟨"age", "gte", .number (.finite false 18)⟩] []) ∧
      emptyReply.get "{}" "age" = none ∧
      (evaluateAccessPolicy emptyReply "{}"
        (.mk "and" [⟨"age", "gte", .number (.finite false 18)⟩] [])).1 = true := by
  refine ⟨by rfl, rfl, ?_⟩
  decide +kernel

/-- `compareAny` is an order of the values. -/
structure Ordered (values : Set Value) : Prop where
  antisymm : ∀ a ∈ values, ∀ b ∈ values, compareAny a b = -compareAny b a
  trans : ∀ a ∈ values, ∀ b ∈ values, ∀ c ∈ values,
    compareAny a b ≤ 0 → compareAny b c ≤ 0 → compareAny a c ≤ 0
  eq_trans : ∀ a ∈ values, ∀ b ∈ values, ∀ c ∈ values,
    compareAny a b = 0 → compareAny b c = 0 → compareAny a c = 0

/-- What stands between two numbers does not contradict their order: no NaN, which is equal to
both, if they differ, and no text, unless the numbers are ordered as their texts are. -/
def Between (x y between : Value) (f g : Float64) : Prop :=
  match toFloat between with
  | some m => m = .nan → g.less f = false
  | none => text x ≤ text between → text between ≤ text y →
      if text x < text y then f.less g = true else g.less f = false

theorem compareAny_nonpos (a b : Value) : compareAny a b ≤ 0 ↔
    match toFloat a, toFloat b with
    | some f, some g => g.less f = false
    | _, _ => text a ≤ text b := by
  unfold compareAny
  split <;> grind [Float64.less]

theorem compareAny_antisymm (a b : Value) : compareAny a b = -compareAny b a := by
  unfold compareAny
  cases toFloat a <;> cases toFloat b <;> grind [Float64.less]

theorem ordered_iff (values : Set Value) : Ordered values ↔
    ∀ x ∈ values, ∀ y ∈ values, ∀ between ∈ values, ∀ f ∈ toFloat x, ∀ g ∈ toFloat y,
      Between x y between f g := by
  constructor
  · intro ordered x xIn y yIn between betweenIn f isF g isG
    have ends := ordered.trans x xIn between betweenIn y yIn
    have left := ordered.trans between betweenIn y yIn x xIn
    have right := ordered.trans y yIn x xIn between betweenIn
    rw [Option.mem_def] at isF isG
    unfold Between
    simp only [compareAny_nonpos, isF, isG] at ends left right
    cases isT : toFloat between <;> simp only [isT] at ends left right <;>
      grind [Float64.less]
  · intro between
    have trans : ∀ a ∈ values, ∀ b ∈ values, ∀ c ∈ values,
        compareAny a b ≤ 0 → compareAny b c ≤ 0 → compareAny a c ≤ 0 := by
      intro a aIn b bIn c cIn
      have ends := between a aIn c cIn b bIn
      have left := between c cIn b bIn a aIn
      have right := between b bIn a aIn c cIn
      unfold Between at ends left right
      simp only [compareAny_nonpos]
      cases isF : toFloat a <;> cases isG : toFloat b <;> cases isH : toFloat c <;>
        simp only [isF, isG, isH] at ends left right ⊢ <;> grind [Float64.less]
    refine ⟨fun a _ b _ => compareAny_antisymm a b, trans, ?_⟩
    intro a aIn b bIn c cIn first second
    have back := trans c cIn b bIn a aIn
    have := trans a aIn b bIn c cIn
    grind [compareAny_antisymm]

theorem compareAny_cycle :
    compareAny (.number (.finite false 10)) (.string "1a") = -1 ∧
      compareAny (.string "1a") (.number (.finite false 2)) = -1 ∧
      compareAny (.number (.finite false 2)) (.number (.finite false 10)) = -1 ∧
      compareAny (.string "NaN") (.number (.finite false 1)) = 0 ∧
      compareAny (.string "NaN") (.number (.finite false 2)) = 0 := by
  decide +kernel

end EastApi.OAuth
