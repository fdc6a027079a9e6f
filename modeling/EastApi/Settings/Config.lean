import EastApi.Lib.GoPrint
import EastApi.Lib.GoReflect

/-! Settings structs and their texts.  Fields of composite types are decoded by `encoding/json` into
what the struct holds, so that loading merges instead of replacing: a key that was removed from a
map is still there afterwards. -/

namespace EastApi.Settings

open Go Go.Reflect Option List

/-- The texts and conversions of the program.  The `uint64` of a float that is too large is left to
the processor. -/
structure Runtime extends Printing where
  cpu : Processor
  overUint : ℚ → ℕ

def Runtime.toUint (rt : Runtime) (x : ℚ) : ℕ :=
  if truncate x < 2 ^ 64 then (truncate x).toNat else rt.overUint x

/-- 获取json标签作为键名 -/
def key (f : Field) : String := if f.tag = "" ∨ f.tag = "-" then f.name else f.tag

def keys : Fields → List String
  | .nil => []
  | .cons f _ rest => key f :: keys rest

variable (rt : Runtime)

def scalarText : (k : Kind) → k.codec.Val → Option String
  | .string, s => some s
  | .bool, b => some (formatBool b)
  | .int _, n => some (rt.formatInt (BitVec.toInt n))
  | .uint _, n => some (rt.formatUint (BitVec.toNat n))
  | .float, x => some (rt.formatFloat x)
  | .any, _ => none

def fieldText : (t : Ty) → t.codec.Val → Option String
  | .scalar k, v => scalarText rt k v
  | .ptr _, none => some "null"
  | t, v => some (rt.marshal (t.codec.encode v))

def configEntries : (fields : Fields) → fields.record.Val → List (String × String)
  | .nil, _ => []
  | .cons f t rest, v =>
    ((fieldText rt t v.1).map fun s => (key f, s)).toList ++ configEntries rest v.2

def configToMap (fields : Fields) (config : fields.record.Val) : OrderedMap String String :=
  OrderedMap.empty.insertAll (configEntries rt fields config)

def setScalar : (k : Kind) → String → k.codec.Mem → k.codec.Mem
  | .string, s, _ => s
  | .bool, s, old => (parseBool s).getD old
  | .int w, s, old =>
    match rt.parseInt s with
    | some n => BitVec.ofInt w.bits n
    | none =>
      -- 兼容 float 格式的字符串（如 "2.000000"）
      match rt.parseFloat s with
      | some x => BitVec.ofInt w.bits (rt.cpu.toInt x)
      | none => old
  | .uint w, s, old =>
    match rt.parseUint s with
    | some n => BitVec.ofNat w.bits n
    | none =>
      match rt.parseFloat s with
      | some x => if x < 0 then old else BitVec.ofNat w.bits (rt.toUint x)
      | none => old
  | .float, s, old => (rt.parseFloat s).getD old
  | .any, _, old => old

def setPtr (c : Codec) (s : String) (old : Option c.Mem) : Option c.Mem :=
  if s = "null" then none
  else
    let target := old.getD c.zero
    some ((rt.unmarshal s).elim target (c.decode · target))

def setField : (t : Ty) → String → t.codec.Mem → t.codec.Mem
  | .scalar k, s, old => setScalar rt k s old
  | .ptr t, s, old => setPtr rt t.codec s old
  | t, s, old => (rt.unmarshal s).elim old (t.codec.decode · old)

def updateConfigFromMap (configMap : OrderedMap String String) :
    (fields : Fields) → fields.record.Mem → fields.record.Mem
  | .nil, config => config
  | .cons f t rest, config =>
    ((configMap.get (key f)).elim config.1 (setField rt t · config.1),
      updateConfigFromMap configMap rest config.2)

theorem bits_le (w : Width) : w.bits ≤ 64 := by
  cases w <;> decide

theorem toInt_bounds {w : Width} (n : BitVec w.bits) : -2 ^ 63 ≤ n.toInt ∧ n.toInt < 2 ^ 63 := by
  have bits := bits_le w
  have wide : (2 : Int) ^ (w.bits - 1) ≤ 2 ^ 63 := pow_le_pow_right₀ (by decide) (by omega)
  have low := BitVec.le_toInt n
  have high := BitVec.toInt_lt (x := n)
  omega

theorem toNat_lt {w : Width} (n : BitVec w.bits) : n.toNat < 2 ^ 64 :=
  n.isLt.trans_le (Nat.pow_le_pow_right (by decide) (bits_le w))

theorem setScalar_scalarText {s : String} (saved : scalarText rt k v = some s) (old : k.codec.Mem) :
    k.codec.value (setScalar rt k s old) = v := by
  cases k <;> cases saved
  case string => rfl
  case bool => exact congrArg (getD · old) (parseBool_formatBool v)
  case int w =>
    obtain ⟨low, high⟩ := toInt_bounds v
    have read : rt.parseInt (rt.formatInt (BitVec.toInt v)) = some (BitVec.toInt v) :=
      rt.parseInt_formatInt _ low high
    simp only [setScalar, read]
    exact BitVec.ofInt_toInt
  case uint w =>
    have read : rt.parseUint (rt.formatUint (BitVec.toNat v)) = some (BitVec.toNat v) :=
      rt.parseUint_formatUint _ (toNat_lt v)
    simp only [setScalar, read]
    exact (BitVec.ofNat_toNat _ v).trans (BitVec.setWidth_eq v)
  case float => exact congrArg (getD · old) (rt.parseFloat_formatFloat v)

theorem setPtr_marshal (c : Codec) (v : Option c.Val) (old : Option c.Mem) :
    setPtr rt c (rt.marshal (c.ptr.encode v)) old = c.ptr.decode (c.ptr.encode v) old := by
  unfold setPtr
  by_cases null : c.ptr.encode v = .null
  · rw [if_pos (rt.marshal_eq_null.mpr null), null]
    rfl
  · rw [if_neg fun text => null (rt.marshal_eq_null.mp text), rt.unmarshal_marshal]
    exact (c.ptr_decode null old).symm

theorem setField_fieldText (saved : fieldText rt t v = some s) (old : t.codec.Mem) :
    t.codec.value (setField rt t s old) = v ↔ t.codec.Loads v old := by
  have parsed := rt.unmarshal_marshal (t.codec.encode v)
  cases t with
  | scalar k =>
    exact iff_of_true (setScalar_scalarText rt saved old) (k.loads v old)
  | ptr t =>
    have text : s = rt.marshal (t.codec.ptr.encode v) := by
      cases v with
      | none => exact (some.inj saved).symm.trans rt.marshal_null.symm
      | some x => exact (some.inj saved).symm
    exact Eq.congr_left (congrArg t.codec.ptr.value (text ▸ setPtr_marshal rt t.codec v old))
  | _ =>
    cases saved
    refine Eq.congr_left (congrArg (Codec.value _) ?_)
    exact congrArg (Option.elim · old _) parsed

theorem fst_mem_keys (saved : e ∈ configEntries rt fields v) : e.1 ∈ keys fields := by
  match fields with
  | .nil => cases saved
  | .cons f t rest =>
    rcases mem_append.mp saved with own | later
    · obtain ⟨s, -, rfl⟩ := map_eq_some_iff.mp (mem_toList.mp own)
      exact mem_cons_self
    · exact mem_cons_of_mem _ (fst_mem_keys later)

theorem configEntries_distinct (distinct : (keys fields).Nodup) (v : fields.record.Val) :
    (configEntries rt fields v).Pairwise fun a b => a.1 ≠ b.1 := by
  match fields with
  | .nil => exact List.Pairwise.nil
  | .cons f t rest =>
    obtain ⟨head, tail⟩ := nodup_cons.mp distinct
    refine pairwise_append.mpr ⟨?_, configEntries_distinct tail v.2, ?_⟩
    · cases fieldText rt t v.1 with
      | none => exact List.Pairwise.nil
      | some s => exact pairwise_singleton _ _
    · intro a own b later same
      obtain ⟨s, -, rfl⟩ := map_eq_some_iff.mp (mem_toList.mp own)
      exact head ((show key f = b.1 from same) ▸ fst_mem_keys rt later)

/-- Interface fields are not saved, and keep what they hold. -/
def FieldFresh : (t : Ty) → t.codec.Val → t.codec.Mem → Prop
  | .scalar .any, v, old => old = v
  | t, v, old => t.Fresh v old

def ConfigFresh : (fields : Fields) → fields.record.Val → fields.record.Mem → Prop
  | .nil, _, _ => True
  | .cons _ t rest, v, old => FieldFresh t v.1 old.1 ∧ ConfigFresh rest v.2 old.2

theorem field_loads_iff (distinct : t.Distinct) (v : t.codec.Val) (old : t.codec.Mem) :
    t.codec.value ((fieldText rt t v).elim old (setField rt t · old)) = v ↔
      FieldFresh t v old := by
  cases text : fieldText rt t v with
  | none =>
    have kind : t = .scalar .any := by
      cases t with
      | scalar k => cases k <;> first | rfl | cases text
      | ptr t => cases v <;> cases text
      | _ => cases text
    subst kind
    rfl
  | some s =>
    refine (setField_fieldText rt text old).trans ((t.loads_iff distinct v old).trans ?_)
    cases t with
    | scalar k => cases k <;> first | rfl | cases text
    | _ => rfl

theorem valueAt_entry (k name : String) (text : Option String) (l : List (String × String)) :
    OrderedMap.valueAt k ((text.map fun s => (name, s)).toList ++ l) =
      if k = name then text.or (OrderedMap.valueAt k l) else OrderedMap.valueAt k l := by
  cases text with
  | none => exact (ite_self _).symm
  | some s => rfl

theorem update_iff (distinct : fields.Distinct) (different : (keys fields).Nodup)
    (v : fields.record.Val) (old : fields.record.Mem) (saved : ∀ k ∈ keys fields,
      configMap.get k = OrderedMap.valueAt k (configEntries rt fields v)) :
    fields.record.value (updateConfigFromMap rt configMap fields old) = v ↔
      ConfigFresh fields v old := by
  match fields with
  | .nil => exact ⟨fun _ => trivial, fun _ => rfl⟩
  | .cons f t rest =>
    obtain ⟨head, tail⟩ := nodup_cons.mp different
    have own : configMap.get (key f) = fieldText rt t v.1 := by
      have unsaved : OrderedMap.valueAt (key f) (configEntries rt rest v.2) = none :=
        OrderedMap.valueAt_eq_none.mpr fun e later same => head (same ▸ fst_mem_keys rt later)
      rw [saved _ mem_cons_self, configEntries, valueAt_entry, if_pos rfl, unsaved,
        or_none]
    have later : ∀ k ∈ keys rest,
        configMap.get k = OrderedMap.valueAt k (configEntries rt rest v.2) := by
      intro k member
      rw [saved k (mem_cons_of_mem _ member), configEntries, valueAt_entry,
        if_neg (by rintro rfl; exact head member)]
    refine Prod.ext_iff.trans (and_congr ?_ (update_iff distinct.2 tail v.2 old.2 later))
    rw [← field_loads_iff rt distinct.1, ← own]
    rfl

theorem configToMap_get (different : (keys fields).Nodup) (config : fields.record.Val)
    (k : String) : (configToMap rt fields config).get k =
      OrderedMap.valueAt k (configEntries rt fields config) := by
  rw [configToMap, OrderedMap.get_insertAll (configEntries_distinct rt different config),
    OrderedMap.get_empty, or_none]

/-- Loading what was saved gives the saved settings if and only if the settings in use are fresh for
them: no map that is decoded into has a key that is gone, no field that `omitempty` leaves out and
no interface field has another value, and no pointer leads to something printed as `null`. -/
theorem saved_settings_loaded_iff {fields : Fields} (distinct : fields.Distinct)
    (different : (keys fields).Nodup) (config : fields.record.Val) (old : fields.record.Mem) :
    fields.record.value (updateConfigFromMap rt (configToMap rt fields config) fields old) =
      config ↔ ConfigFresh fields config old :=
  update_iff rt distinct different config old fun k _ => configToMap_get rt different config k

def paymentSetting : Fields :=
  .cons ⟨"AmountOptions", "amount_options"⟩ (.slice (.scalar (.int .w64))) <|
  .cons ⟨"AmountDiscount", "amount_discount"⟩ (.map (.scalar .float)) .nil

def groupRatioSetting : Fields :=
  .cons ⟨"GroupRatio", "group_ratio"⟩ (.ptr (.newMap (.scalar .float))) <|
  .cons ⟨"GroupGroupRatio", "group_group_ratio"⟩ (.ptr (.newMap (.map (.scalar .float)))) <|
  .cons ⟨"GroupSpecialUsableGroup", "group_special_usable_group"⟩
    (.ptr (.newMap (.map (.scalar .string)))) .nil

theorem paymentSetting_distinct : paymentSetting.Distinct ∧ (keys paymentSetting).Nodup :=
  ⟨⟨trivial, trivial, trivial⟩, by decide⟩

theorem paymentSetting_fresh_iff : ConfigFresh paymentSetting config old ↔
      ∀ m : OrderedMap String ℚ, config.2.1 = some m →
        ∀ k, m.get k = none → OrderedMap.get (Option.getD old.2.1 .empty) k = none := by
  have options : (Ty.slice (.scalar (.int .w64))).Fresh config.1 old.1 :=
    fun items _ => Codec.along_trivial _ items _
  refine ⟨fun fresh m same => (fresh.2.1 m same).2, fun keys => ⟨options, ?_, trivial⟩⟩
  exact fun m same => ⟨fun _ _ _ => trivial, keys m same⟩

/-- The maps of the group ratios are made anew: pointers to maps come back whatever was there. -/
theorem groupRatioSetting_fresh
    (made : config.1 ≠ some none ∧ config.2.1 ≠ some none ∧ config.2.2.1 ≠ some none)
    (old : groupRatioSetting.record.Mem) : ConfigFresh groupRatioSetting config old := by
  have ptr : ∀ {t : Ty} (v : Option t.newMap.codec.Val) (old : Option t.newMap.codec.Mem),
      v ≠ some none → (∀ x, t.Fresh x t.codec.zero) → (Ty.ptr t.newMap).Fresh v old := by
    intro t v old made elements m same
    cases m with
    | none => exact absurd same made
    | some m => exact ⟨nofun, fun _ _ => ⟨fun _ x _ => elements x, fun _ _ => rfl⟩⟩
  have new : ∀ (k : Kind) x, (Ty.map (.scalar k)).Fresh x none :=
    fun _ _ _ _ => ⟨fun _ _ _ => trivial, fun _ _ => rfl⟩
  exact ⟨ptr _ _ made.1 fun _ => trivial, ptr _ _ made.2.1 (new _), ptr _ _ made.2.2 (new _),
    trivial⟩

/-- What is saved of the group ratios is what is loaded, whatever ratios are in use. -/
theorem group_ratios_loaded {config : groupRatioSetting.record.Val}
    (made : config.1 ≠ some none ∧ config.2.1 ≠ some none ∧ config.2.2.1 ≠ some none)
    (old : groupRatioSetting.record.Mem) :
    groupRatioSetting.record.value (updateConfigFromMap rt
      (configToMap rt groupRatioSetting config) groupRatioSetting old) = config := by
  have distinct : groupRatioSetting.Distinct := ⟨trivial, trivial, trivial, trivial⟩
  have different : (keys groupRatioSetting).Nodup := by decide
  exact (update_iff rt distinct different config old fun k _ =>
    configToMap_get rt different config k).mpr (groupRatioSetting_fresh made old)

def exampleRuntime : Runtime where
  toPrinting := .byNumbers
  cpu := ⟨fun _ => 2 ^ 63 - 1, fun _ => .inr rfl⟩
  overUint _ := 0

/-- 100 元充值享受 9 折优惠 -/
def tenPercent : OrderedMap String ℚ := OrderedMap.empty.insert "100" (9 / 10)

/-- The group `svip` and its ratio to `vip` are removed from the maps in use. -/
theorem group_ratios_loaded_removed :
    let vip : OrderedMap String ℚ := OrderedMap.empty.insert "vip" (4 / 5)
    let setting : groupRatioSetting.record.Val :=
      (some (some vip), some (some .empty), some (some .empty), ())
    groupRatioSetting.record.value (updateConfigFromMap exampleRuntime
      (configToMap exampleRuntime groupRatioSetting setting) groupRatioSetting
      (some (some (vip.insert "svip" (1 / 2))),
        some (some (OrderedMap.empty.insert "svip" (some vip))), none, ())) = setting :=
  group_ratios_loaded _ ⟨by rintro ⟨⟩, by rintro ⟨⟩, by rintro ⟨⟩⟩ _

/-- A discount that was removed is still there after loading. -/
theorem removed_discount_loaded :
    paymentSetting.record.value (updateConfigFromMap exampleRuntime
      (configToMap exampleRuntime paymentSetting (none, some .empty, ())) paymentSetting
      (none, some tenPercent, ())) ≠ (none, some .empty, ()) := by
  intro loaded
  obtain ⟨distinct, different⟩ := paymentSetting_distinct
  have fresh := (update_iff exampleRuntime distinct different _ _ fun k _ =>
    configToMap_get exampleRuntime different _ k).mp loaded
  exact absurd (paymentSetting_fresh_iff.mp fresh _ rfl "100" rfl) (by decide)

/-- A discount that was added is loaded. -/
theorem saved_settings_loaded_iff_added :
    paymentSetting.record.value (updateConfigFromMap exampleRuntime
      (configToMap exampleRuntime paymentSetting (some [100#64], some tenPercent, ()))
      paymentSetting (some ([10#64, 20#64], []), some .empty, ())) =
        (some [100#64], some tenPercent, ()) :=
  (saved_settings_loaded_iff exampleRuntime paymentSetting_distinct.1 paymentSetting_distinct.2 _
    _).mpr (paymentSetting_fresh_iff.mpr fun _ _ _ _ => rfl)

end EastApi.Settings
