import EastApi.Lib.GoText
import EastApi.Lib.GoValue
import EastApi.Lib.OrderedMap
import Mathlib.Data.String.Basic

/-! The parameter override of a channel (`relay/common/override.go`): a list of operations with
conditions, which change the body of the request and the headers that are set on it.  The edits of
the body are those of the library `sjson` and stay a parameter; the operations on headers and the
conditions are modelled as they are. -/

namespace EastApi.Relay

open Go

/-- A map that was decoded from JSON, in the order in which it is ranged over. -/
abbrev Fields := List (String × Value)

abbrev Headers := OrderedMap String String

inductive BodyMode where
  | delete | set | move | copy | prepend | append | trimPrefix | trimSuffix | ensurePrefix
  | ensureSuffix | trimSpace | toLower | toUpper | replace | regexReplace | pruneObjects

inductive OperationMode where
  | body (mode : BodyMode)
  | returnError | setHeader | deleteHeader | copyHeader | moveHeader | passHeaders | syncFields

def operationModes : List (String × OperationMode) :=
  [("delete", .body .delete), ("set", .body .set), ("move", .body .move), ("copy", .body .copy),
    ("prepend", .body .prepend), ("append", .body .append), ("trim_prefix", .body .trimPrefix),
    ("trim_suffix", .body .trimSuffix), ("ensure_prefix", .body .ensurePrefix),
    ("ensure_suffix", .body .ensureSuffix), ("trim_space", .body .trimSpace),
    ("to_lower", .body .toLower), ("to_upper", .body .toUpper), ("replace", .body .replace),
    ("regex_replace", .body .regexReplace), ("return_error", .returnError),
    ("prune_objects", .body .pruneObjects), ("set_header", .setHeader),
    ("delete_header", .deleteHeader), ("copy_header", .copyHeader), ("move_header", .moveHeader),
    ("pass_headers", .passHeaders), ("sync_fields", .syncFields)]

structure ConditionOperation where
  (path mode : String)
  value : Value := .null
  invert : Bool := false
  passMissingKey : Bool := false

structure ParamOperation where
  path : String := ""
  mode : String
  value : Value := .null
  keepOrigin : Bool := false
  fromPath : String := ""
  toPath : String := ""
  conditions : List ConditionOperation := []
  logic : String := "OR"

def conditionsOfObject (fields : Fields) : List ConditionOperation :=
  fields.filterMap fun (key, value) =>
    if trimSpace key = "" then none else some { path := trimSpace key, mode := "full", value }

def parseCondition (item : Value) : Option ConditionOperation := do
  let .obj fields := item | none
  let path := ((fields.lookup "path").bind Value.getString).getD ""
  let mode := ((fields.lookup "mode").bind Value.getString).getD ""
  if trimSpace path = "" ∨ trimSpace mode = "" then none
  else
    some {
      path, mode
      value := (fields.lookup "value").getD .null
      invert := ((fields.lookup "invert").bind Value.getBool).getD false
      passMissingKey := ((fields.lookup "pass_missing_key").bind Value.getBool).getD false }

def parseConditionOperations : Value → Option (List ConditionOperation)
  | .obj fields =>
    if (conditionsOfObject fields).isEmpty then none else some (conditionsOfObject fields)
  | .arr items => items.mapM parseCondition
  | _ => none

def parseOperation (item : Value) : Option ParamOperation := do
  let .obj fields := item | none
  let mode ← (fields.lookup "mode").bind Value.getString
  let conditions ← match fields.lookup "conditions" with
    | none => some []
    | some conditions => parseConditionOperations conditions
  return {
    path := ((fields.lookup "path").bind Value.getString).getD ""
    mode
    value := (fields.lookup "value").getD .null
    keepOrigin := ((fields.lookup "keep_origin").bind Value.getBool).getD false
    fromPath := ((fields.lookup "from").bind Value.getString).getD ""
    toPath := ((fields.lookup "to").bind Value.getString).getD ""
    conditions
    logic := ((fields.lookup "logic").bind Value.getString).getD "OR" }

def tryParseOperations (paramOverride : Fields) : Option (List ParamOperation) := do
  let .arr items ← paramOverride.lookup "operations" | none
  items.mapM parseOperation

def Plain (name : String) : Prop := name ≠ "" ∧ ∀ c ∈ name.toList, c.isLower ∨ c = '_'

instance instDecidablePlain (name : String) : Decidable (Plain name) :=
  @instDecidableAnd _ _ inferInstance
    (List.decidableBAll (fun c => c.isLower ∨ c = '_') name.toList)

theorem Plain.not_mem (plain : Plain name) (other : ¬ (c.isLower ∨ c = '_')) : c ∉ name.toList :=
  fun member => other (plain.2 c member)

/-- The functions of the libraries that the override is made of, with what is known of them:
`sprint` is `%v` of a value that is no text, `raw` the text of a value in the JSON that it was read
from, `get` and `set` are those of `gjson` and `sjson`, `resolve` is `processNegativeIndex`, `edit`
what an operation does to the body, from the JSON of the context and the body. -/
structure Libraries where
  lowering : Lowering
  toUpper : String → String
  equalFold : String → String → Bool
  equalFold_self : ∀ s : String, equalFold s s = true
  (sprint raw : Value → String)
  get : Value → String → Option Value
  get_field : ∀ (fields : Fields) (outer inner : String), Plain outer → Plain inner →
    get (.obj fields) (outer ++ "." ++ inner) = (fields.lookup outer).bind (Value.field inner)
  resolve : Value → String → String
  resolve_plain : ∀ (body : Value) (path : String), '-' ∉ path.toList → resolve body path = path
  set : Value → String → Value → Except String Value
  edit : BodyMode → ParamOperation → Value → Value → Except String Value
  parse : String → Option Value
  parse_size : ∀ (s : String) (v : Value), parse s = some v → v.size < s.length

structure ReturnError where
  message : String := ""
  statusCode : Int := 400
  code : String := "invalid_request"
  type : String := "invalid_request_error"
  skipRetry : Bool := true

/-- An error of the override; `sourceHeaderNotFound` tells the errors that wrap
`errSourceHeaderNotFound`. -/
structure OverrideError where
  text : String
  sourceHeaderNotFound : Bool := false
  returned : Option ReturnError := none

def fail {α : Type} (text : String) : Except OverrideError α := .error { text }

def OverrideError.within (start : String) (e : OverrideError) : OverrideError :=
  { e with text := start ++ e.text }

structure LastError where
  statusCode : Int
  (message code type : String)
  skipRetry : Bool
deriving DecidableEq

structure OverrideContext where
  (upstreamModel originalModel requestPath : String)
  (requestHeaders headerOverride : Headers)
  retryIndex : Int
  lastError : Option LastError
  isChannelTest : Bool

def textUnless (name text : String) : Fields := if text = "" then [] else [(name, .str text)]

def Headers.json (headers : Headers) : Value := .obj (headers.entries.map fun e => (e.1, .str e.2))

def LastError.json (e : LastError) : Value :=
  .obj [("code", .str e.code), ("error_code", .str e.code), ("error_type", .str e.type),
    ("message", .str e.message), ("skip_retry", .bool e.skipRetry),
    ("status_code", .num e.statusCode), ("type", .str e.type)]

def OverrideContext.json (c : OverrideContext) : Value :=
  .obj ([("header_override", Headers.json c.headerOverride),
      ("is_channel_test", .bool c.isChannelTest),
      ("is_retry", .bool (decide (0 < c.retryIndex)))] ++
    (match c.lastError with
      | none => []
      | some e =>
        [("last_error", e.json), ("last_error_code", .str e.code),
          ("last_error_message", .str e.message), ("last_error_status_code", .num e.statusCode),
          ("last_error_type", .str e.type)]) ++
    textUnless "model" (if c.upstreamModel = "" then c.originalModel else c.upstreamModel) ++
    textUnless "original_model" c.originalModel ++
    [("request_headers", Headers.json c.requestHeaders)] ++
    textUnless "request_path" c.requestPath ++
    [("retry", .obj [("index", .num c.retryIndex),
        ("is_retry", .bool (decide (0 < c.retryIndex)))]),
      ("retry_index", .num c.retryIndex)] ++
    textUnless "upstream_model" c.upstreamModel)

section
variable (lib : Libraries)

def gjsonString : Value → String
  | .null => ""
  | .bool b => if b then "true" else "false"
  | .str s => s
  | v => lib.raw v

def gjsonType : Value → String
  | .null => "Null"
  | .bool b => if b then "True" else "False"
  | .num _ => "Number"
  | .str _ => "String"
  | .arr _ | .obj _ => "JSON"

def compareEqual : Value → Value → Except OverrideError Bool
  | .null, target => .ok (gjsonType target = "Null")
  | _, .null => .ok false
  | .bool x, .bool y => .ok (x = y)
  | .num x, .num y => .ok (x = y)
  | value, target =>
    if gjsonType value ≠ gjsonType target then
      fail ("compare for different types, got " ++ gjsonType value ++ " and " ++ gjsonType target)
    else .ok (gjsonString lib value = gjsonString lib target)

def compareNumeric (compare : ℚ → ℚ → Bool) : Value → Value → Except OverrideError Bool
  | .num x, .num y => .ok (compare x y)
  | value, target =>
    fail ("numeric comparison requires both values to be numbers, got " ++ gjsonType value ++
      " and " ++ gjsonType target)

def compareGjsonValues (value target : Value) (mode : String) : Except OverrideError Bool :=
  if mode = "full" then compareEqual lib value target
  else if mode = "prefix" then .ok (hasPrefix (gjsonString lib value) (gjsonString lib target))
  else if mode = "suffix" then .ok (hasSuffix (gjsonString lib value) (gjsonString lib target))
  else if mode = "contains" then .ok (contains (gjsonString lib value) (gjsonString lib target))
  else if mode = "gt" then compareNumeric (fun x y => x > y) value target
  else if mode = "gte" then compareNumeric (fun x y => x ≥ y) value target
  else if mode = "lt" then compareNumeric (fun x y => x < y) value target
  else if mode = "lte" then compareNumeric (fun x y => x ≤ y) value target
  else fail ("unsupported comparison mode: " ++ mode)

def checkSingleCondition (body context : Value) (condition : ConditionOperation) :
    Except OverrideError Bool :=
  match (lib.get body (lib.resolve body condition.path)).or (lib.get context condition.path) with
  | none => .ok condition.passMissingKey
  | some value =>
    match compareGjsonValues lib value condition.value
        (lib.lowering.toLower condition.mode) with
    | .error e => .error (e.within ("comparison failed for path " ++ condition.path ++ ": "))
    | .ok result => .ok (result != condition.invert)

def checkConditions (body context : Value) (conditions : List ConditionOperation)
    (logic : String) : Except OverrideError Bool := do
  let results ← conditions.mapM (checkSingleCondition lib body context)
  if conditions.isEmpty then return true
  else if lib.toUpper logic = "AND" then return results.all id
  else return results.any id

def normalizeHeaderContextKey (key : String) : String := trimSpace (lib.lowering.toLower key)

def sprintf : Value → String
  | .str s => s
  | v => lib.sprint v

def isHeaderPassthroughRuleKeyForOverride (key : String) : Bool :=
  let key := normalizeHeaderContextKey lib key
  key = "*" || hasPrefix key "re:" || hasPrefix key "regex:"

def sanitizeHeader (key : String) (value : Value) : Option (String × String) :=
  let key := normalizeHeaderContextKey lib key
  let value := trimSpace (sprintf lib value)
  if key = "" then none
  else if value = "" ∧ ¬ isHeaderPassthroughRuleKeyForOverride lib key then none
  else some (key, value)

def sanitizeHeaderOverrideMap (source : Fields) : Headers :=
  OrderedMap.empty.insertAll (source.filterMap fun e => sanitizeHeader lib e.1 e.2)

def Headers.fields (headers : Headers) : Fields := headers.entries.map fun e => (e.1, .str e.2)

def buildRequestHeadersContext (headers : List (String × String)) : Headers :=
  OrderedMap.empty.insertAll (headers.filterMap fun (key, value) =>
    if normalizeHeaderContextKey lib key = "" ∨ trimSpace value = "" then none
    else some (normalizeHeaderContextKey lib key, trimSpace value))

def getHeaderValueFromContext (c : OverrideContext) (headerName : String) : Option String :=
  let headerName := normalizeHeaderContextKey lib headerName
  if headerName = "" then none
  else
    ([c.headerOverride, c.requestHeaders].filterMap fun source =>
      (source.get headerName).bind fun raw =>
        if trimSpace raw = "" then none else some (trimSpace raw)).head?

def splitHeaderListValue (raw : String) : List String :=
  (Go.split ',' raw).filterMap fun item =>
    if trimSpace item = "" then none else some (trimSpace item)

mutual

def parseHeaderReplacementTokens : Value → Except OverrideError (List String)
  | .null => .ok []
  | .str raw => .ok (splitHeaderListValue raw)
  | .arr items => do return (← parseItemTokens items).eraseDups
  | .obj _ => fail "header replacement value must be string, array or null"
  | raw =>
    let token := trimSpace (lib.sprint raw)
    .ok (if token = "" then [] else [token])

def parseItemTokens : List Value → Except OverrideError (List String)
  | [] => .ok []
  | item :: rest => do return (← parseHeaderReplacementTokens item) ++ (← parseItemTokens rest)

end

def resolveHeaderOverrideValueByMapping (c : OverrideContext) (headerName : String)
    (mapping : Fields) : Except OverrideError (Option String) := do
  if mapping.isEmpty then fail "header value mapping cannot be empty"
  let appendTokens ← match mapping.lookup "$append" with
    | none => .ok []
    | some raw => parseHeaderReplacementTokens lib raw
  let keepOnlyDeclared := ((mapping.lookup "$keep_only_declared").bind Value.getBool).getD false
  let sourceTokens := (getHeaderValueFromContext lib c headerName).elim [] splitHeaderListValue
  let replaced ← sourceTokens.mapM fun token =>
    match (mapping.lookup token).or (if keepOnlyDeclared then none else mapping.lookup "*") with
    | some replacement => parseHeaderReplacementTokens lib replacement
    | none => .ok (if keepOnlyDeclared then [] else [token])
  let resultTokens := (replaced.flatten ++ appendTokens).eraseDups
  return if resultTokens.isEmpty then none else some (",".intercalate resultTokens)

def resolveHeaderOverrideValue (c : OverrideContext) (headerName : String) :
    Value → Except OverrideError (Option String)
  | .null => fail "header value is required"
  | .obj mapping => resolveHeaderOverrideValueByMapping lib c headerName mapping
  | value =>
    let headerValue := trimSpace (sprintf lib value)
    .ok (if headerValue = "" then none else some headerValue)

def setHeaderOverrideInContext (c : OverrideContext) (headerName : String) (value : Value)
    (keepOrigin : Bool) : Except OverrideError OverrideContext :=
  let headerName := normalizeHeaderContextKey lib headerName
  if headerName = "" then fail "header name is required"
  else if keepOrigin ∧ trimSpace ((c.headerOverride.get headerName).getD "") ≠ "" then .ok c
  else
    match resolveHeaderOverrideValue lib c headerName value with
    | .error e => .error e
    | .ok none => .ok { c with headerOverride := c.headerOverride.erase headerName }
    | .ok (some text) => .ok { c with headerOverride := c.headerOverride.insert headerName text }

def deleteHeaderOverrideInContext (c : OverrideContext) (headerName : String) :
    Except OverrideError OverrideContext :=
  let headerName := normalizeHeaderContextKey lib headerName
  if headerName = "" then fail "header name is required"
  else .ok { c with headerOverride := c.headerOverride.erase headerName }

def copyHeaderInContext (c : OverrideContext) (fromHeader toHeader : String)
    (keepOrigin : Bool) : Except OverrideError OverrideContext :=
  let fromHeader := normalizeHeaderContextKey lib fromHeader
  let toHeader := normalizeHeaderContextKey lib toHeader
  if fromHeader = "" ∨ toHeader = "" then fail "copy_header from/to is required"
  else
    match getHeaderValueFromContext lib c fromHeader with
    | none =>
      .error {
        text := "source header does not exist: " ++ fromHeader
        sourceHeaderNotFound := true }
    | some value => setHeaderOverrideInContext lib c toHeader (.str value) keepOrigin

def moveHeaderInContext (c : OverrideContext) (fromHeader toHeader : String)
    (keepOrigin : Bool) : Except OverrideError OverrideContext :=
  let fromHeader := normalizeHeaderContextKey lib fromHeader
  let toHeader := normalizeHeaderContextKey lib toHeader
  if fromHeader = "" ∨ toHeader = "" then fail "move_header from/to is required"
  else do
    let c ← copyHeaderInContext lib c fromHeader toHeader keepOrigin
    if lib.equalFold fromHeader toHeader then return c
    else deleteHeaderOverrideInContext lib c fromHeader

def unlessMissing (c : OverrideContext) :
    Except OverrideError OverrideContext → Except OverrideError OverrideContext
  | .error e => if e.sourceHeaderNotFound then .ok c else .error e
  | .ok c' => .ok c'

def normalizeNames (values : List String) : List String :=
  (values.filterMap fun item =>
    if normalizeHeaderContextKey lib item = "" then none
    else some (normalizeHeaderContextKey lib item)).eraseDups

def namesOrInvalid (names : List String) : Except OverrideError (List String) :=
  if names.isEmpty then fail "pass_headers value is invalid" else .ok names

def parseHeaderPassThroughNames (value : Value) : Except OverrideError (List String) :=
  match value with
  | .null => fail "pass_headers value is required"
  | .str raw =>
    if trimSpace raw = "" then fail "pass_headers value is required"
    else
      let names := namesOrInvalid (normalizeNames lib (Go.split ',' (trimSpace raw)))
      if hasPrefix (trimSpace raw) "[" || hasPrefix (trimSpace raw) "\x7b" then
        match _found : lib.parse (trimSpace raw) with
        | some parsed => parseHeaderPassThroughNames parsed
        | none => names
      else names
  | .arr items => namesOrInvalid (normalizeNames lib (items.map (sprintf lib)))
  | .obj fields =>
    -- a value that is not understood counts as none
    let headers := match _found : fields.lookup "headers" with
      | some v => (parseHeaderPassThroughNames v).toOption.getD []
      | none => []
    let names := match _found : fields.lookup "names" with
      | some v => (parseHeaderPassThroughNames v).toOption.getD []
      | none => []
    let header := match _found : fields.lookup "header" with
      | some v => (parseHeaderPassThroughNames v).toOption.getD []
      | none => []
    namesOrInvalid (normalizeNames lib (headers ++ names ++ header))
  | _ => fail "pass_headers value must be string, array or object"
termination_by value.size
decreasing_by
  · exact lt_of_lt_of_le (lib.parse_size _ _ _found) (length_trimSpace_le raw)
  · exact Value.size_lookup _found
  · exact Value.size_lookup _found
  · exact Value.size_lookup _found

def passHeaders (keepOrigin : Bool) :
    List String → OverrideContext → Except OverrideError OverrideContext
  | [], c => .ok c
  | name :: rest, c => do
    passHeaders keepOrigin rest
      (← unlessMissing c (copyHeaderInContext lib c name name keepOrigin))

inductive SyncTarget where
  | json (key : String)
  | header (key : String)

def parseSyncTarget (spec : String) : Except OverrideError SyncTarget :=
  let raw := trimSpace spec
  if raw = "" then fail "sync_fields target is required"
  else if ':' ∉ raw.toList then .ok (.json raw)
  else
    let kind := lib.lowering.toLower (trimSpace (String.ofList (raw.toList.takeWhile (· ≠ ':'))))
    let key := trimSpace (String.ofList ((raw.toList.dropWhile (· ≠ ':')).drop 1))
    if key = "" then fail ("sync_fields target key is required: " ++ raw)
    else if kind = "json" ∨ kind = "body" then .ok (.json key)
    else if kind = "header" then .ok (.header key)
    else fail ("sync_fields target prefix is invalid: " ++ raw)

def readSyncTargetValue (body : Value) (c : OverrideContext) : SyncTarget → Option Value
  | .json key =>
    match lib.get body (lib.resolve body key) with
    | none | some .null => none
    | some (.str s) => if trimSpace s = "" then none else some (.str s)
    | some value => some value
  | .header key => (getHeaderValueFromContext lib c key).map .str

def writeSyncTargetValue (body : Value) (c : OverrideContext) (value : Value) :
    SyncTarget → Except OverrideError (Value × OverrideContext)
  | .json key =>
    match lib.set body (lib.resolve body key) value with
    | .error text => fail text
    | .ok body => .ok (body, c)
  | .header key => do return (body, ← setHeaderOverrideInContext lib c key value false)

def syncFieldsBetweenTargets (body : Value) (c : OverrideContext) (fromSpec toSpec : String) :
    Except OverrideError (Value × OverrideContext) := do
  let fromTarget ← parseSyncTarget lib fromSpec
  let toTarget ← parseSyncTarget lib toSpec
  match readSyncTargetValue lib body c fromTarget, readSyncTargetValue lib body c toTarget with
  | some value, none => writeSyncTargetValue lib body c value toTarget
  | none, some value => writeSyncTargetValue lib body c value fromTarget
  | _, _ => return (body, c)

def parseOverrideInt : Value → Option Int
  | .num x => if x.den = 1 then some x.num else none
  | _ => none

def returnErrorOfObject (fields : Fields) : Except OverrideError ReturnError := do
  let text := fun name => trimSpace (((fields.lookup name).bind Value.getString).getD "")
  let message := if text "message" = "" then text "msg" else text "message"
  let code := trimSpace (((fields.lookup "code").map (sprintf lib)).getD "")
  let status := fun name => match fields.lookup name with
    | none => none
    | some raw => some ((parseOverrideInt raw).elim
        (fail ("return_error " ++ name ++ " must be an integer")) Except.ok)
  let statusCode ← ((status "status_code").or (status "status")).getD (.ok 400)
  return {
    message, statusCode
    code := if code = "" then "invalid_request" else code
    type := if text "type" = "" then "invalid_request_error" else text "type"
    skipRetry := ((fields.lookup "skip_retry").bind Value.getBool).getD true }

def parseParamOverrideReturnError (value : Value) : Except OverrideError ReturnError := do
  let result ← match value with
    | .null => fail "return_error value is required"
    | .str raw => .ok { message := trimSpace raw }
    | .obj fields => returnErrorOfObject lib fields
    | _ => fail "return_error value must be string or object"
  if result.message = "" then fail "return_error message is required"
  else if result.statusCode < 100 ∨ 511 < result.statusCode then
    fail ("return_error status code out of range: " ++ toString result.statusCode)
  else return result

def returnError (value : Value) : OverrideError :=
  match parseParamOverrideReturnError lib value with
  | .error e => e
  | .ok result => { text := result.message, returned := some result }

def ParamOperation.sourceHeader (op : ParamOperation) : String :=
  if trimSpace op.fromPath = "" then trimSpace op.path else trimSpace op.fromPath

def ParamOperation.targetHeader (op : ParamOperation) : String :=
  if trimSpace op.toPath = "" then trimSpace op.path else trimSpace op.toPath

def applyOperation (op : ParamOperation) (body : Value) (c : OverrideContext) :
    Except OverrideError (Value × OverrideContext) :=
  let failed := OverrideError.within ("operation " ++ op.mode ++ " failed: ")
  let headers := fun result : Except OverrideError OverrideContext =>
    (result.map (body, ·)).mapError failed
  match operationModes.lookup op.mode with
  | none => fail ("unknown operation: " ++ op.mode)
  | some (.body mode) =>
    match lib.edit mode op c.json body with
    | .error text => fail text
    | .ok body => .ok (body, c)
  | some .returnError => .error (returnError lib op.value)
  | some .setHeader => headers (setHeaderOverrideInContext lib c op.path op.value op.keepOrigin)
  | some .deleteHeader => headers (deleteHeaderOverrideInContext lib c op.path)
  | some .copyHeader =>
    headers (unlessMissing c
      (copyHeaderInContext lib c op.sourceHeader op.targetHeader op.keepOrigin))
  | some .moveHeader =>
    headers (unlessMissing c
      (moveHeaderInContext lib c op.sourceHeader op.targetHeader op.keepOrigin))
  | some .passHeaders => do
    let names ← parseHeaderPassThroughNames lib op.value
    headers (passHeaders lib op.keepOrigin names c)
  | some .syncFields =>
    (syncFieldsBetweenTargets lib body c op.fromPath op.toPath).mapError failed

def applyOperations : List ParamOperation → Value → OverrideContext →
    Except OverrideError (Value × OverrideContext)
  | [], body, c => .ok (body, c)
  | op :: ops, body, c => do
    if ← checkConditions lib body c.json op.conditions op.logic then
      let (body, c) ← applyOperation lib op body c
      applyOperations ops body c
    else applyOperations ops body c

def jsonKind : Value → String
  | .null => "null"
  | .bool _ => "bool"
  | .num _ => "number"
  | .str _ => "string"
  | .arr _ => "array"
  | .obj _ => "object"

/-- `applyOperationsLegacy`: the fields are set at the top of the body.  On the body `null` the
source panics, which ends the request as an error does. -/
def applyOperationsLegacy (body : Value) (paramOverride : Fields) : Except OverrideError Value :=
  match body with
  | .obj fields => .ok (.obj (OrderedMap.empty.insertAll (fields ++ paramOverride)).entries)
  | body => fail ("json: cannot unmarshal " ++ jsonKind body ++
      " into Go value of type map[string]interface \x7b\x7d")

def buildLegacyParamOverride (paramOverride : Fields) : Fields :=
  paramOverride.filter fun e => !lib.equalFold (trimSpace e.1) "operations"

def applyParamOverride (body : Value) (paramOverride : Fields) (c : OverrideContext) :
    Except OverrideError (Value × OverrideContext) :=
  if paramOverride.isEmpty then .ok (body, c)
  else
    match tryParseOperations paramOverride with
    | none => do return (← applyOperationsLegacy body paramOverride, c)
    | some operations => do
      let legacy := buildLegacyParamOverride lib paramOverride
      let body ← if legacy.isEmpty then .ok body else applyOperationsLegacy body legacy
      applyOperations lib operations body c

end

end EastApi.Relay
