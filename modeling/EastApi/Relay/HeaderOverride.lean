import EastApi.Relay.ChannelContext
import EastApi.Relay.ParamOverride

/-! The headers that an attempt sets (`GetEffectiveHeaderOverride`).  A parameter override leaves
the headers that it has made in `RelayInfo`, which all attempts of a request share; from then on
they are used in the place of those of the channel. -/

namespace EastApi.Relay

open Go List Option

section
variable (lib : Libraries)

structure NormalHeader (e : String × String) : Prop where
  key : normalizeHeaderContextKey lib e.1 = e.1
  named : e.1 ≠ ""
  value : trimSpace e.2 = e.2
  rule : e.2 = "" → isHeaderPassthroughRuleKeyForOverride lib e.1 = true

def NormalHeaders (headers : Headers) : Prop := ∀ e ∈ headers.entries, NormalHeader lib e

variable {lib}

theorem sanitizeHeader_normal (kept : sanitizeHeader lib key value = some e) :
    NormalHeader lib e := by
  unfold sanitizeHeader at kept
  dsimp only at kept
  split at kept
  · cases kept
  next named =>
    split at kept
    · cases kept
    next set =>
      obtain rfl := some.inj kept
      refine ⟨?_, named, trimSpace_idem _, fun empty => by
        by_contra other
        exact set ⟨empty, other⟩⟩
      simp only [normalizeHeaderContextKey, Lowering.toLower_trimSpace, Lowering.toLower_idem,
        trimSpace_idem]

theorem sanitizeHeader_of_normal (normal : NormalHeader lib e) :
    sanitizeHeader lib e.1 (.str e.2) = some e := by
  unfold sanitizeHeader
  simp only [normal.key, sprintf, normal.value, if_neg normal.named]
  rw [if_neg fun h => h.2 (normal.rule h.1)]

theorem NormalHeaders.empty : NormalHeaders lib OrderedMap.empty := by
  intro e member
  cases member

theorem NormalHeaders.insert (normal : NormalHeaders lib headers)
    (entry : NormalHeader lib (key, value)) : NormalHeaders lib (headers.insert key value) := by
  intro e member
  rcases OrderedMap.mem_insert member with rfl | member
  · exact entry
  · exact normal e member

theorem NormalHeaders.erase (normal : NormalHeaders lib headers) (key : String) :
    NormalHeaders lib (headers.erase key) :=
  fun e member => normal e (OrderedMap.mem_erase member)

theorem sanitize_normal (source : Fields) :
    NormalHeaders lib (sanitizeHeaderOverrideMap lib source) := by
  -- every entry that is set is normal, whatever has been set before
  have set : ∀ (l : List (String × String)) (headers : Headers), (∀ e ∈ l, NormalHeader lib e) →
      NormalHeaders lib headers → NormalHeaders lib (headers.insertAll l) := by
    intro l
    induction l with
    | nil => exact fun headers _ normal => normal
    | cons e l ih =>
      intro headers each normal
      exact ih _ (fun d member => each d (mem_cons_of_mem _ member))
        (normal.insert (each e mem_cons_self))
  refine set _ _ (fun e member => ?_) NormalHeaders.empty
  obtain ⟨raw, _, kept⟩ := mem_filterMap.mp member
  exact sanitizeHeader_normal kept

theorem sanitize_of_normal (normal : NormalHeaders lib headers) :
    sanitizeHeaderOverrideMap lib (Headers.fields headers) = headers := by
  have each : ∀ l : List (String × String), (∀ e ∈ l, NormalHeader lib e) →
      (l.map fun e => (e.1, Value.str e.2)).filterMap (fun e => sanitizeHeader lib e.1 e.2) =
        l := by
    intro l
    induction l with
    | nil => exact fun _ => rfl
    | cons e l ih =>
      intro normal
      simp only [map_cons, filterMap_cons,
        sanitizeHeader_of_normal (normal e mem_cons_self),
        ih fun d member => normal d (mem_cons_of_mem _ member)]
  rw [sanitizeHeaderOverrideMap, Headers.fields, each headers.entries normal,
    OrderedMap.insertAll_entries]

end

structure ClientRequest where
  originModelName : String
  requestURLPath : String := ""
  requestHeaders : List (String × String) := []
  query : String := ""
  isChannelTest : Bool := false

section
variable {Setting Other : Type}

structure OverrideInfo (Setting Other : Type) where
  channelMeta : Option (ChannelMeta Setting Other Fields) := none
  runtimeHeadersOverride : Headers := OrderedMap.empty
  useRuntimeHeadersOverride : Bool := false
  retryIndex : Int := 0
  lastError : Option LastError := none

/-- One attempt: the channel that is tried, the model that its mapping gives, the body to which its
override is applied (none if the body is passed through, or not made), the retry index that the
loop has reached, and the error with which the attempt ends if it fails. -/
structure ChannelAttempt (Setting Other : Type) where
  selected : Try Setting Other Fields
  upstreamModel : String
  body : Option Value
  retryIndex : Int
  failure : LastError

structure Session (Setting Other : Type) where
  keys : ChannelKeys Setting Other Fields := {}
  info : OverrideInfo Setting Other := {}

variable (lib : Libraries) (request : ClientRequest)

def getEffectiveHeaderOverride (info : OverrideInfo Setting Other) : Headers :=
  if info.useRuntimeHeadersOverride then
    sanitizeHeaderOverrideMap lib (Headers.fields info.runtimeHeadersOverride)
  else sanitizeHeaderOverrideMap lib ((info.channelMeta.map (·.headersOverride)).getD [])

def buildParamOverrideContext (info : OverrideInfo Setting Other) : OverrideContext where
  upstreamModel := (info.channelMeta.map (·.upstreamModelName)).getD ""
  originalModel := request.originModelName
  requestPath := request.requestURLPath
  requestHeaders := buildRequestHeadersContext lib request.requestHeaders
  headerOverride :=
    sanitizeHeaderOverrideMap lib (Headers.fields (getEffectiveHeaderOverride lib info))
  retryIndex := info.retryIndex
  lastError := info.lastError
  isChannelTest := request.isChannelTest

def syncRuntimeHeaderOverrideFromContext (info : OverrideInfo Setting Other)
    (c : OverrideContext) : OverrideInfo Setting Other :=
  { info with
    runtimeHeadersOverride := sanitizeHeaderOverrideMap lib (Headers.fields c.headerOverride)
    useRuntimeHeadersOverride := true }

def applyParamOverrideWithRelayInfo (body : Value) (info : OverrideInfo Setting Other) :
    Except OverrideError (Value × OverrideInfo Setting Other) :=
  let paramOverride := (info.channelMeta.map (·.paramOverride)).getD []
  if paramOverride.isEmpty then .ok (body, info)
  else do
    let (body, c) ←
      applyParamOverride lib body paramOverride (buildParamOverrideContext lib request info)
    return (body, syncRuntimeHeaderOverrideFromContext lib info c)

def overridden (body : Option Value) (info : OverrideInfo Setting Other) :
    OverrideInfo Setting Other :=
  match body with
  | none => info
  | some body =>
    match applyParamOverrideWithRelayInfo lib request body info with
    | .error _ => info
    | .ok (_, info) => info

def OverrideInfo.start (channelMeta : ChannelMeta Setting Other Fields) (retryIndex : Int)
    (info : OverrideInfo Setting Other) : OverrideInfo Setting Other :=
  { info with channelMeta := some channelMeta, retryIndex }

variable [Inhabited Setting] [Inhabited Other] (parseArray : String → Option (List String))

/-- An attempt up to the request to the upstream; without a key of the channel there is none, and
the request ends. -/
def Session.handle (a : ChannelAttempt Setting Other) (s : Session Setting Other) :
    Option (Session Setting Other) :=
  match setupContextForSelectedChannel parseArray request.originModelName (some a.selected)
      s.keys with
  | (some _, _) => none
  | (none, keys) =>
    let channelMeta :=
      { initChannelMeta request.query keys with upstreamModelName := a.upstreamModel }
    some ⟨keys, overridden lib request a.body (s.info.start channelMeta a.retryIndex)⟩

def Session.fail (a : ChannelAttempt Setting Other) (s : Session Setting Other) :
    Session Setting Other :=
  { s with info.lastError := some a.failure }

def Session.after (history : List (ChannelAttempt Setting Other)) (s : Session Setting Other) :
    Option (Session Setting Other) :=
  history.foldlM (fun s a => (s.handle lib request parseArray a).map (Session.fail a)) s

def effectiveHeaders (history : List (ChannelAttempt Setting Other))
    (last : ChannelAttempt Setting Other) : Option Headers := do
  let s ← Session.after lib request parseArray history {}
  let s ← s.handle lib request parseArray last
  return getEffectiveHeaderOverride lib s.info

def Session.sends (a : ChannelAttempt Setting Other) (s : Session Setting Other) :
    Option Headers :=
  (s.handle lib request parseArray a).map fun s => getEffectiveHeaderOverride lib s.info

structure Carried where
  runtime : Option Headers
  lastError : Option LastError

end

section
variable {Setting Other : Type}

def OverrideInfo.carried (info : OverrideInfo Setting Other) : Carried where
  runtime := if info.useRuntimeHeadersOverride then some info.runtimeHeadersOverride else none
  lastError := info.lastError

def OverrideInfo.overrides (info : OverrideInfo Setting Other) : Fields × Fields × String :=
  ((info.channelMeta.map (·.paramOverride)).getD [],
    (info.channelMeta.map (·.headersOverride)).getD [],
    (info.channelMeta.map (·.upstreamModelName)).getD "")

structure Alike (info info' : OverrideInfo Setting Other) : Prop where
  carried : info.carried = info'.carried
  overrides : info.overrides = info'.overrides
  retryIndex : info.retryIndex = info'.retryIndex

variable {lib : Libraries} {request : ClientRequest} {info info' : OverrideInfo Setting Other}

theorem getEffectiveHeaderOverride_eq (info : OverrideInfo Setting Other) :
    getEffectiveHeaderOverride lib info = sanitizeHeaderOverrideMap lib
      (info.carried.runtime.elim info.overrides.2.1 Headers.fields) := by
  unfold getEffectiveHeaderOverride OverrideInfo.carried
  dsimp only
  split <;> rfl

theorem Alike.getEffectiveHeaderOverride (alike : Alike info info') :
    getEffectiveHeaderOverride lib info = getEffectiveHeaderOverride lib info' := by
  rw [getEffectiveHeaderOverride_eq, getEffectiveHeaderOverride_eq, alike.carried,
    alike.overrides]

theorem Alike.buildParamOverrideContext (alike : Alike info info') :
    buildParamOverrideContext lib request info = buildParamOverrideContext lib request info' := by
  have model : (info.channelMeta.map (·.upstreamModelName)).getD "" =
      (info'.channelMeta.map (·.upstreamModelName)).getD "" := congrArg (·.2.2) alike.overrides
  have lastError : info.lastError = info'.lastError := congrArg Carried.lastError alike.carried
  unfold Relay.buildParamOverrideContext
  rw [model, lastError, alike.getEffectiveHeaderOverride, alike.retryIndex]

def overrideContext (lib : Libraries) (body : Option Value) (paramOverride : Fields)
    (c : OverrideContext) : Option OverrideContext :=
  body.bind fun body =>
    if paramOverride.isEmpty then none
    else (applyParamOverride lib body paramOverride c).toOption.map (·.2)

theorem overridden_eq (body : Option Value) (info : OverrideInfo Setting Other) :
    overridden lib request body info =
      (overrideContext lib body info.overrides.1 (buildParamOverrideContext lib request info)).elim
        info (syncRuntimeHeaderOverrideFromContext lib info) := by
  cases body with
  | none => rfl
  | some body =>
    unfold overridden applyParamOverrideWithRelayInfo overrideContext OverrideInfo.overrides
    dsimp only [bind_some]
    by_cases empty : ((info.channelMeta.map (·.paramOverride)).getD []).isEmpty
    · simp only [empty, if_true, elim_none]
    · simp only [empty]
      cases applyParamOverride lib body ((info.channelMeta.map (·.paramOverride)).getD [])
          (buildParamOverrideContext lib request info) with
      | error e => rfl
      | ok result => rfl

theorem Alike.overridden (alike : Alike info info') (body : Option Value) :
    Alike (overridden lib request body info) (overridden lib request body info') := by
  have lastError : info.lastError = info'.lastError := congrArg Carried.lastError alike.carried
  rw [overridden_eq, overridden_eq, alike.overrides, alike.buildParamOverrideContext]
  cases overrideContext lib body info'.overrides.1
      (Relay.buildParamOverrideContext lib request info') with
  | none => exact alike
  | some c =>
    exact ⟨by simp [syncRuntimeHeaderOverrideFromContext, OverrideInfo.carried, lastError],
      alike.overrides, alike.retryIndex⟩

variable [Inhabited Setting] [Inhabited Other]

variable (lib request) (parseArray : String → Option (List String))
  (a : ChannelAttempt Setting Other)

/-- The key is chosen without regard to the context, and both overrides are set for every channel:
an attempt reads those of its own channel. -/
theorem handle_spec (s : Session Setting Other) :
    (∃ e, a.selected.getNextEnabledKey parseArray = .error e ∧
      s.handle lib request parseArray a = none) ∨
    (∃ pair keys channelMeta, a.selected.getNextEnabledKey parseArray = .ok pair ∧
      s.handle lib request parseArray a =
        some ⟨keys, overridden lib request a.body (s.info.start channelMeta a.retryIndex)⟩ ∧
      channelMeta.paramOverride = a.selected.channel.paramOverride ∧
      channelMeta.headersOverride = a.selected.channel.headerOverride ∧
      channelMeta.upstreamModelName = a.upstreamModel) := by
  unfold Session.handle setupContextForSelectedChannel
  dsimp only
  cases a.selected.getNextEnabledKey parseArray with
  | error e => exact Or.inl ⟨e, rfl, rfl⟩
  | ok pair =>
    refine Or.inr ⟨pair, _, _, rfl, rfl, ?_, ?_, rfl⟩
    · dsimp only
      rw [setOther_eq]
      rfl
    · dsimp only
      rw [setOther_eq]
      rfl

theorem handle_alike {s s' : Session Setting Other} (same : s.info.carried = s'.info.carried) :
    s.sends lib request parseArray a =
      s'.sends lib request parseArray a := by
  rcases handle_spec lib request parseArray a s with
    ⟨e, failed, none⟩ | ⟨pair, keys, channelMeta, picked, some, param, header, model⟩
  · rcases handle_spec lib request parseArray a s' with
      ⟨_, _, none'⟩ | ⟨_, _, _, picked', _⟩
    · rw [Session.sends, none, Session.sends, none']
    · simp [failed] at picked'
  · rcases handle_spec lib request parseArray a s' with
      ⟨_, failed', _⟩ | ⟨pair', keys', channelMeta', _, some', param', header', model'⟩
    · simp [picked] at failed'
    · have alike : Alike (s.info.start channelMeta a.retryIndex)
          (s'.info.start channelMeta' a.retryIndex) := by
        refine ⟨same, ?_, rfl⟩
        simp [OverrideInfo.overrides, OverrideInfo.start, param, param', header, header', model,
          model']
      rw [Session.sends, some, Session.sends, some', map_some, map_some,
        (alike.overridden a.body).getEffectiveHeaderOverride]

variable {lib request parseArray}

def OverrideInfo.Kept (lib : Libraries) (info : OverrideInfo Setting Other) : Prop :=
  ∀ headers, info.carried.runtime = some headers → NormalHeaders lib headers

omit [Inhabited Setting] [Inhabited Other] in
theorem OverrideInfo.Kept.overridden (kept : info.Kept lib) (body : Option Value) :
    (overridden lib request body info).Kept lib := by
  rw [overridden_eq]
  cases overrideContext lib body info.overrides.1 (buildParamOverrideContext lib request info) with
  | none => exact kept
  | some c =>
    intro headers left
    cases left
    exact sanitize_normal _

theorem after_kept {s t : Session Setting Other} (kept : s.info.Kept lib)
    (reached : Session.after lib request parseArray history s = some t) : t.info.Kept lib := by
  refine Run.foldlM_invariant (I := fun s => s.info.Kept lib) history ?_ kept reached
  intro a _ s t kept step
  rcases handle_spec lib request parseArray a s with
    ⟨_, _, none⟩ | ⟨_, keys, channelMeta, _, some, -⟩
  · rw [none] at step
    cases step
  · rw [some] at step
    cases step
    have begun : (s.info.start channelMeta a.retryIndex).Kept lib := kept
    exact begun.overridden a.body

def probe (paramOverride headerOverride : Fields) (body : Option Value) :
    ChannelAttempt Setting Other where
  selected := {
    channel := {
      id := 1
      key := "sk"
      status := .enabled
      models := ""
      group := ""
      type := 1
      setting := default
      otherSettings := default
      paramOverride := paramOverride
      headerOverride := headerOverride } }
  upstreamModel := ""
  body := body
  retryIndex := 0
  failure := ⟨500, "", "", "", false⟩

variable (lib request parseArray) in
theorem handle_probe (paramOverride headerOverride : Fields) (body : Option Value)
    (s : Session Setting Other) : ∃ channelMeta : ChannelMeta Setting Other Fields,
    s.sends lib request parseArray (probe paramOverride headerOverride body) =
      some (getEffectiveHeaderOverride lib
        (overridden lib request body (s.info.start channelMeta 0))) ∧
    channelMeta.paramOverride = paramOverride ∧ channelMeta.headersOverride = headerOverride := by
  rcases handle_spec lib request parseArray (probe paramOverride headerOverride body) s with
    ⟨_, failed, _⟩ | ⟨_, keys, channelMeta, _, handled, param, header, _⟩
  · cases failed
  · rw [Session.sends, handled]
    exact ⟨channelMeta, rfl, param, header⟩

theorem handle_plain (headerOverride : Fields) {s : Session Setting Other}
    (kept : s.info.Kept lib) :
    s.sends lib request parseArray (probe [] headerOverride none) =
      some (s.info.carried.runtime.getD (sanitizeHeaderOverrideMap lib headerOverride)) := by
  obtain ⟨channelMeta, sent, _, header⟩ :=
    handle_probe lib request parseArray [] headerOverride none s
  rw [sent, overridden, getEffectiveHeaderOverride_eq]
  have same : (s.info.start channelMeta 0).carried = s.info.carried := rfl
  have own : (s.info.start channelMeta 0).overrides.2.1 = headerOverride := header
  rw [same, own]
  cases left : s.info.carried.runtime with
  | none => rfl
  | some headers => exact congrArg some (sanitize_of_normal (kept headers left))

structure Question where
  key : String
  value : Value
  answer : LastError → Bool
  plain : Plain key
  answered : ∀ (lib : Libraries) (e : LastError), ∃ v, e.json.field key = some v ∧
    compareEqual lib v value = .ok (answer e)

namespace Question

def message (text : String) : Question where
  key := "message"
  value := .str text
  answer := fun e => e.message = text
  plain := by decide
  answered := fun _ e => ⟨.str e.message, rfl, rfl⟩

def code (text : String) : Question where
  key := "code"
  value := .str text
  answer := fun e => e.code = text
  plain := by decide
  answered := fun _ e => ⟨.str e.code, rfl, rfl⟩

def type (text : String) : Question where
  key := "type"
  value := .str text
  answer := fun e => e.type = text
  plain := by decide
  answered := fun _ e => ⟨.str e.type, rfl, rfl⟩

def statusCode (n : Int) : Question where
  key := "status_code"
  value := .num n
  answer := fun e => e.statusCode = n
  plain := by decide
  answered := fun _ e => ⟨.num e.statusCode, rfl, by simp [compareEqual]⟩

def skipRetry (b : Bool) : Question where
  key := "skip_retry"
  value := .bool b
  answer := fun e => e.skipRetry = b
  plain := by decide
  answered := fun _ e => ⟨.bool e.skipRetry, rfl, rfl⟩

def path (q : Question) : String := "last_error" ++ "." ++ q.key

theorem path_dashless (q : Question) : '-' ∉ q.path.toList := by
  intro member
  rw [path, String.toList_append, mem_append] at member
  rcases member with start | member
  · revert start
    decide
  · exact q.plain.not_mem (by decide) member

theorem path_named (q : Question) : trimSpace q.path ≠ "" :=
  trimSpace_ne_empty (c := 'l') (by simp [path]) (by decide)

end Question

theorem lastError_eq {x y : Option LastError}
    (same : ∀ q : Question, x.elim false q.answer = y.elim false q.answer) : x = y := by
  have one : ∀ {e : LastError} {y : Option LastError},
      (∀ q : Question, q.answer e = y.elim false q.answer) → y = some e := by
    intro e y same
    cases y with
    | none => simpa [Question.message] using same (.message e.message)
    | some f =>
      have message : f.message = e.message := by
        simpa [Question.message] using same (.message e.message)
      have code : f.code = e.code := by simpa [Question.code] using same (.code e.code)
      have type : f.type = e.type := by simpa [Question.type] using same (.type e.type)
      have statusCode : f.statusCode = e.statusCode := by
        simpa [Question.statusCode] using same (.statusCode e.statusCode)
      have skipRetry : f.skipRetry = e.skipRetry := by
        simpa [Question.skipRetry] using same (.skipRetry e.skipRetry)
      obtain ⟨_, _, _, _, _⟩ := e
      obtain ⟨_, _, _, _, _⟩ := f
      simp_all
  cases x with
  | none =>
    cases y with
    | none => rfl
    | some f => exact one fun q => (same q).symm
  | some e => exact (one same).symm

def Question.operations (q : Question) : List ParamOperation :=
  [{ mode := "delete_header", path := "x" },
    { mode := "set_header", path := "x", value := .str "1",
      conditions := [{ path := q.path, mode := "full", value := q.value }] }]

def Question.paramOverride (q : Question) : Fields :=
  [("operations", .arr [
    .obj [("mode", .str "delete_header"), ("path", .str "x")],
    .obj [("mode", .str "set_header"), ("path", .str "x"), ("value", .str "1"),
      ("conditions", .arr [.obj [("path", .str q.path), ("mode", .str "full"),
        ("value", q.value)]])]])]

theorem tryParseOperations_question (q : Question) :
    tryParseOperations q.paramOverride = some q.operations := by
  have mode : trimSpace "full" ≠ "" := by decide
  have condition : parseCondition (.obj [("path", .str q.path), ("mode", .str "full"),
      ("value", q.value)]) =
      some { path := q.path, mode := "full", value := q.value } := by
    simp [parseCondition, lookup_cons, Value.getString, q.path_named, mode]
  simp [tryParseOperations, Question.paramOverride, Question.operations, parseOperation,
    parseConditionOperations, condition, lookup_cons, Value.getString]

theorem normalizeHeaderContextKey_x : normalizeHeaderContextKey lib "x" = "x" := by
  rw [normalizeHeaderContextKey, lib.lowering.toLower_ascii (by decide)]
  decide

theorem lookup_textUnless (other : (key == name) = false) (text : String) :
    (textUnless name text).lookup key = none := by
  unfold textUnless
  split
  · rfl
  · rw [lookup_cons, other]
    rfl

theorem json_lastError (c : OverrideContext) : ∃ fields, c.json = .obj fields ∧
    fields.lookup "last_error" = c.lastError.map LastError.json := by
  refine ⟨_, rfl, ?_⟩
  simp only [lookup_append]
  cases c.lastError <;> simp [lookup_textUnless, lookup_cons]

theorem checkConditions_question (q : Question) (c : OverrideContext) (logic : String) :
    checkConditions lib (.obj []) c.json
        [{ path := q.path, mode := "full", value := q.value }] logic =
      .ok (c.lastError.elim false q.answer) := by
  have body : lib.get (.obj []) (lib.resolve (.obj []) q.path) = none := by
    rw [lib.resolve_plain _ _ q.path_dashless, Question.path,
      lib.get_field _ _ _ (by decide) q.plain]
    rfl
  obtain ⟨fields, json, found⟩ := json_lastError c
  have context : lib.get c.json q.path =
      (c.lastError.map LastError.json).bind (Value.field q.key) := by
    rw [json, Question.path, lib.get_field _ _ _ (by decide) q.plain, found]
  have full : lib.lowering.toLower "full" = "full" := lib.lowering.toLower_ascii (by decide)
  have single : checkSingleCondition lib (.obj []) c.json
      { path := q.path, mode := "full", value := q.value } =
      .ok (c.lastError.elim false q.answer) := by
    unfold checkSingleCondition
    dsimp only
    rw [body, context, none_or]
    cases c.lastError with
    | none => rfl
    | some e =>
      obtain ⟨v, present, compared⟩ := q.answered lib e
      simp only [map_some, bind_some, present, full, compareGjsonValues, compared]
      simp
  simp only [checkConditions, mapM_cons, single]
  by_cases logic : lib.toUpper logic = "AND"
  · simp [logic]
  · simp [logic]

def marked (b : Bool) (headers : Headers) : Headers :=
  if b then (headers.erase "x").insert "x" "1" else headers.erase "x"

theorem get_marked (b : Bool) (headers : Headers) :
    (marked b headers).get "x" = if b then some "1" else none := by
  cases b
  · simp [marked, OrderedMap.get_erase]
  · simp [marked, OrderedMap.get_insert]

theorem NormalHeaders.marked (normal : NormalHeaders lib headers) (b : Bool) :
    NormalHeaders lib (marked b headers) := by
  cases b
  · exact normal.erase "x"
  · exact (normal.erase "x").insert
      ⟨normalizeHeaderContextKey_x, by decide, by decide, fun empty => absurd empty (by decide)⟩

theorem setHeader_x (c : OverrideContext) :
    setHeaderOverrideInContext lib c "x" (.str "1") false =
      .ok { c with headerOverride := c.headerOverride.insert "x" "1" } := by
  have value : trimSpace "1" = "1" := by decide
  simp [setHeaderOverrideInContext, normalizeHeaderContextKey_x, resolveHeaderOverrideValue,
    sprintf, value]

theorem applyOperations_question (q : Question) (c : OverrideContext) :
    applyOperations lib q.operations (.obj []) c = .ok (.obj [], { c with
      headerOverride := marked (c.lastError.elim false q.answer) c.headerOverride }) := by
  have unconditional : ∀ (c : OverrideContext) (logic : String),
      checkConditions lib (.obj []) c.json [] logic = .ok true := fun _ _ => rfl
  have delete : applyOperation lib { mode := "delete_header", path := "x" } (.obj []) c =
      .ok (.obj [], { c with headerOverride := c.headerOverride.erase "x" }) := by
    simp only [applyOperation, operationModes, lookup_cons]
    simp [deleteHeaderOverrideInContext, normalizeHeaderContextKey_x, Except.map, Except.mapError]
  have set : ∀ (c : OverrideContext) (conditions : List ConditionOperation),
      applyOperation lib { mode := "set_header", path := "x", value := .str "1", conditions }
        (.obj []) c =
      .ok (.obj [], { c with headerOverride := c.headerOverride.insert "x" "1" }) := by
    intro c conditions
    simp only [applyOperation, operationModes, lookup_cons]
    simp [setHeader_x, Except.map, Except.mapError]
  simp only [applyOperations, Question.operations, unconditional, delete, checkConditions_question,
    Except.bind, bind]
  cases seen : c.lastError.elim false q.answer with
  | false => simp [marked]
  | true => simp [marked, set]

variable {Setting Other : Type} [Inhabited Setting] [Inhabited Other]

theorem handle_question (q : Question) (s : Session Setting Other) :
    (s.sends lib request parseArray (probe q.paramOverride [] (some (.obj [])))).map (·.get "x") =
      some (if s.info.carried.lastError.elim false q.answer then some "1" else none) := by
  obtain ⟨channelMeta, sent, param, _⟩ :=
    handle_probe lib request parseArray q.paramOverride [] (some (.obj [])) s
  have legacy : buildLegacyParamOverride lib q.paramOverride = [] := by
    have name : trimSpace "operations" = "operations" := by decide
    simp [buildLegacyParamOverride, Question.paramOverride, name, lib.equalFold_self]
  have applied : ∀ c, applyParamOverride lib (.obj []) q.paramOverride c = .ok (.obj [], { c with
      headerOverride := marked (c.lastError.elim false q.answer) c.headerOverride }) := by
    intro c
    have nonempty : q.paramOverride.isEmpty = false := rfl
    simp only [applyParamOverride, nonempty, tryParseOperations_question, legacy, isEmpty_nil,
      if_true, Bool.false_eq_true, if_false, bind, Except.bind, applyOperations_question]
  have override : (s.info.start channelMeta 0).overrides.1 = q.paramOverride := param
  have after : overridden lib request (some (.obj [])) (s.info.start channelMeta 0) =
      syncRuntimeHeaderOverrideFromContext lib (s.info.start channelMeta 0)
        { buildParamOverrideContext lib request (s.info.start channelMeta 0) with
          headerOverride := marked (s.info.lastError.elim false q.answer)
            (buildParamOverrideContext lib request
              (s.info.start channelMeta 0)).headerOverride } := by
    have nonempty : q.paramOverride.isEmpty = false := rfl
    rw [overridden_eq, override, overrideContext, bind_some, nonempty, applied]
    rfl
  have normal : NormalHeaders lib (marked (s.info.lastError.elim false q.answer)
      (buildParamOverrideContext lib request (s.info.start channelMeta 0)).headerOverride) :=
    (sanitize_normal _).marked _
  rw [sent, after, map_some]
  simp only [getEffectiveHeaderOverride, syncRuntimeHeaderOverrideFromContext, if_true,
    sanitize_of_normal normal, get_marked]
  rfl

theorem runtime_eq {s s' : Session Setting Other} (kept : s.info.Kept lib)
    (kept' : s'.info.Kept lib)
    (same : ∀ last : ChannelAttempt Setting Other,
      s.sends lib request parseArray last =
        s'.sends lib request parseArray last) :
    s.info.carried.runtime = s'.info.carried.runtime := by
  have sends : ∀ headerOverride : Fields,
      s.info.carried.runtime.getD (sanitizeHeaderOverrideMap lib headerOverride) =
        s'.info.carried.runtime.getD (sanitizeHeaderOverrideMap lib headerOverride) := by
    intro headerOverride
    have sent := same (probe [] headerOverride none)
    rw [handle_plain headerOverride kept, handle_plain headerOverride kept'] at sent
    exact some.inj sent
  -- a channel's own headers are told from those that are carried by a second set of them
  have one : sanitizeHeaderOverrideMap lib [] ≠
      sanitizeHeaderOverrideMap lib [("x", .str "1")] := by
    intro equal
    have found := congrArg (·.get "x") equal
    have value : trimSpace "1" = "1" := by decide
    simp [sanitizeHeaderOverrideMap, sanitizeHeader, normalizeHeaderContextKey_x, sprintf, value,
      OrderedMap.insertAll, OrderedMap.get_insert] at found
  cases left : s.info.carried.runtime with
  | none =>
    cases left' : s'.info.carried.runtime with
    | none => rfl
    | some headers' =>
      simp only [left, left', getD_none, getD_some] at sends
      exact absurd ((sends []).trans (sends _).symm) one
  | some headers =>
    cases left' : s'.info.carried.runtime with
    | none =>
      simp only [left, left', getD_none, getD_some] at sends
      exact absurd ((sends []).symm.trans (sends _)) one
    | some headers' =>
      simp only [left, left', getD_some] at sends
      rw [sends []]

theorem effectiveHeaders_eq (history : List (ChannelAttempt Setting Other))
    (last : ChannelAttempt Setting Other) :
    effectiveHeaders lib request parseArray history last =
      (Session.after lib request parseArray history {}).bind
        (Session.sends lib request parseArray last) := by
  unfold effectiveHeaders Session.sends
  cases Session.after lib request parseArray history {} with
  | none => rfl
  | some s =>
    cases handled : s.handle lib request parseArray last with
    | none => simp [handled]
    | some t => simp [handled]

end

theorem split_plain {outer inner : String} (plain : Plain outer) (plain' : Plain inner) :
    Go.split '.' (outer ++ "." ++ inner) = [outer, inner] := by
  have dotless : ∀ {name : String}, Plain name → '.' ∉ name.toList :=
    fun plain => plain.not_mem (by decide)
  have joined : (outer ++ "." ++ inner).toList =
      ['.'].intercalate [outer.toList, inner.toList] := by
    simp
  rw [Go.split, joined, splitOn_intercalate '.' (by simp [dotless plain, dotless plain'])
    (by simp)]
  simp

def plainLibraries : Libraries where
  lowering := .ofAscii
  toUpper := Go.toUpper
  equalFold := fun a b => a == b
  equalFold_self := fun s => beq_self_eq_true s
  sprint := fun _ => ""
  raw := fun _ => ""
  get := fun v path => (Go.split '.' path).foldl (fun v name => v.bind (Value.field name)) (some v)
  get_field := by
    intro fields outer inner plain plain'
    rw [split_plain plain plain']
    rfl
  resolve := fun _ path => path
  resolve_plain := fun _ _ _ => rfl
  set := fun _ _ _ => .error "unused"
  edit := fun _ _ _ body => .ok body
  parse := fun _ => none
  parse_size := fun _ _ parsed => by cases parsed

def setHeader (name value : String) (conditions : List Value) : Fields :=
  [("operations", .arr [.obj [("mode", .str "set_header"), ("path", .str name),
    ("value", .str value), ("conditions", .arr conditions)]])]

def failing (paramOverride : Fields) (statusCode : Int) : ChannelAttempt Unit Unit :=
  { probe paramOverride [] (some (.obj [])) with failure := ⟨statusCode, "", "", "", false⟩ }

def ownHeader : ChannelAttempt Unit Unit := probe [] [("X-B", .str "1")] (some (.obj []))

def afterServerError : ChannelAttempt Unit Unit :=
  probe (setHeader "X-Retry" "1" [.obj [("path", .str "last_error.status_code"),
    ("mode", .str "full"), ("value", .num 500)]]) [] (some (.obj []))

def sentAfter (first last : ChannelAttempt Unit Unit) : Option (List (String × String)) :=
  (effectiveHeaders plainLibraries { originModelName := "gpt-4" } (fun _ => none) [first] last).map
    (·.entries)

end EastApi.Relay
