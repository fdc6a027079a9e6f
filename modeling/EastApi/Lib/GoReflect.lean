import EastApi.Lib.GoDecode
import EastApi.Lib.GoText
import EastApi.Lib.OrderedMap
import Mathlib.Data.List.Nodup
import Mathlib.Data.String.Basic

/-! Go types as `reflect` lists them, and what `encoding/json` prints of their values and decodes
into a variable of the type.  `Ty.Fresh` says when decoding what was printed gives the value back,
whatever else the variable held before. -/

namespace Go.Reflect

open List Option

/-- A type: its values, what a variable of it holds, and both directions of `encoding/json`.  A part
of a wrong type is left as it is. -/
structure Codec where
  (Val Mem : Type)
  zero : Mem
  value : Mem → Val
  encode : Val → Value
  decode : Value → Mem → Mem
  /-- What `omitempty` omits. -/
  isEmpty : Val → Bool

namespace Codec

def Loads (c : Codec) (v : c.Val) (old : c.Mem) : Prop := c.value (c.decode (c.encode v) old) = v

def scalar {α : Type} (zero : α) (print : α → Value) (read : Value → Option α)
    (isEmpty : α → Bool) : Codec where
  Val := α
  Mem := α
  zero := zero
  value := id
  encode := print
  decode v old := (read v).getD old
  isEmpty := isEmpty

/-- A pointer is decoded into what it points to, and into a new variable if it is nil. -/
def ptr (c : Codec) : Codec where
  Val := Option c.Val
  Mem := Option c.Mem
  zero := none
  value := Option.map c.value
  encode := fun v => v.elim .null c.encode
  decode := fun
    | .null, _ => none
    | v, old => some (c.decode v (old.getD c.zero))
  isEmpty := Option.isNone

theorem ptr_decode (c : Codec) (some_value : v ≠ .null) (old : Option c.Mem) :
    c.ptr.decode v old = some (c.decode v (old.getD c.zero)) := by
  cases v with
  | null => exact absurd rfl some_value
  | _ => rfl

def PtrFresh (c : Codec) (fresh : c.Val → c.Mem → Prop) (v : Option c.Val) (old : Option c.Mem) :
    Prop :=
  ∀ x, v = some x → c.encode x ≠ .null ∧ fresh x (old.getD c.zero)

theorem ptr_loads {c : Codec} {fresh : c.Val → c.Mem → Prop}
    (inner : ∀ v old, c.Loads v old ↔ fresh v old) (v : Option c.Val) (old : Option c.Mem) :
    c.ptr.Loads v old ↔ c.PtrFresh fresh v old := by
  cases v with
  | none => exact ⟨fun _ x nil => (by cases nil), fun _ => rfl⟩
  | some x =>
    change c.ptr.value (c.ptr.decode (c.encode x) old) = some x ↔ _
    by_cases null : c.encode x = .null
    · rw [null]
      refine ⟨fun loads => ?_, fun fresh => absurd null (fresh x rfl).1⟩
      cases loads
    · rw [ptr_decode c null]
      have through : c.ptr.value (some (c.decode (c.encode x) (old.getD c.zero))) = some x ↔
          c.Loads x (old.getD c.zero) := Option.some_inj
      rw [through, inner]
      refine ⟨fun holds y same => ?_, fun fresh => (fresh x rfl).2⟩
      cases same
      exact ⟨null, holds⟩

/-- Each element is decoded into the cell at its place, and into a new one past the last cell. -/
def fill (c : Codec) : List Value → List c.Mem → List c.Mem
  | [], _ => []
  | v :: rest, cells => c.decode v (cells.headD c.zero) :: c.fill rest cells.tail

/-- A variable holds the elements and the cells past them.  An empty array gives a new slice. -/
def slice (c : Codec) : Codec where
  Val := Option (List c.Val)
  Mem := Option (List c.Mem × List c.Mem)
  zero := none
  value := Option.map fun s => s.1.map c.value
  encode := fun v => v.elim .null fun items => .arr (items.map c.encode)
  decode := fun
    | .null, _ => none
    | .arr [], _ => some ([], [])
    | .arr items, old =>
      let cells := old.elim [] fun s => s.1 ++ s.2
      some (c.fill items cells, cells.drop items.length)
    | _, old => old
  isEmpty := fun v => (v.getD []).isEmpty

def Along (c : Codec) (fresh : c.Val → c.Mem → Prop) : List c.Val → List c.Mem → Prop
  | [], _ => True
  | v :: rest, cells => fresh v (cells.headD c.zero) ∧ c.Along fresh rest cells.tail

def SliceFresh (c : Codec) (fresh : c.Val → c.Mem → Prop) (v : Option (List c.Val))
    (old : Option (List c.Mem × List c.Mem)) : Prop :=
  ∀ items, v = some items → c.Along fresh items (old.elim [] fun s => s.1 ++ s.2)

theorem fill_loads {c : Codec} {fresh : c.Val → c.Mem → Prop}
    (inner : ∀ v old, c.Loads v old ↔ fresh v old) (items : List c.Val) (cells : List c.Mem) :
    (c.fill (items.map c.encode) cells).map c.value = items ↔ c.Along fresh items cells := by
  induction items generalizing cells with
  | nil => exact ⟨fun _ => trivial, fun _ => rfl⟩
  | cons v rest ih =>
    rw [map_cons, fill, map_cons, cons_eq_cons, Along, ih]
    exact and_congr_left fun _ => inner v _

theorem slice_loads {c : Codec} {fresh : c.Val → c.Mem → Prop}
    (inner : ∀ v old, c.Loads v old ↔ fresh v old) (v : Option (List c.Val))
    (old : Option (List c.Mem × List c.Mem)) :
    c.slice.Loads v old ↔ c.SliceFresh fresh v old := by
  rcases v with _ | _ | ⟨x, rest⟩
  · exact ⟨fun _ items nil => (by cases nil), fun _ => rfl⟩
  · refine ⟨fun _ items same => ?_, fun _ => rfl⟩
    cases same
    trivial
  · have through : c.slice.Loads (some (x :: rest)) old ↔
        (c.fill ((x :: rest).map c.encode) (old.elim [] fun s => s.1 ++ s.2)).map c.value =
          x :: rest := Option.some_inj
    rw [through, fill_loads inner]
    refine ⟨fun along items same => ?_, fun fresh => fresh _ rfl⟩
    cases same
    exact along

theorem along_trivial (c : Codec) (items : List c.Val) (cells : List c.Mem) :
    c.Along (fun _ _ => True) items cells := by
  induction items generalizing cells with
  | nil => trivial
  | cons v rest ih => exact ⟨trivial, ih _⟩

/-- A map, with the texts of its keys.  An element of a map is no variable: it is replaced as a
whole.  The keys that an object does not mention stay. -/
def map (c : Codec) : Codec where
  Val := Option (OrderedMap String c.Val)
  Mem := Option (OrderedMap String c.Val)
  zero := none
  value := id
  encode := fun v => v.elim .null fun m => .obj (m.entries.map fun e => (e.1, c.encode e.2))
  decode := fun
    | .null, _ => none
    | .obj fields, old =>
      some ((old.getD .empty).insertAll
        (fields.map fun e => (e.1, c.value (c.decode e.2 c.zero))))
    | _, old => old
  isEmpty := fun v => v.all fun m => m.entries.isEmpty

/-- A struct around a map, to be used behind a pointer: its `UnmarshalJSON` makes a new map and
decodes into it. -/
def newMap (c : Codec) : Codec where
  Val := Option (OrderedMap String c.Val)
  Mem := Option (OrderedMap String c.Val)
  zero := none
  value := id
  encode := c.map.encode
  decode v _ := c.map.decode v (some .empty)
  isEmpty := fun _ => false

def MapFresh (c : Codec) (fresh : c.Val → c.Mem → Prop)
    (v old : Option (OrderedMap String c.Val)) : Prop :=
  ∀ m, v = some m → (∀ k x, m.get k = some x → fresh x c.zero) ∧
    ∀ k, m.get k = none → (old.getD .empty).get k = none

theorem valueAt_map {α β : Type} (f : α → β) (k : String) (l : List (String × α)) :
    OrderedMap.valueAt k (l.map fun e => (e.1, f e.2)) = (OrderedMap.valueAt k l).map f := by
  induction l with
  | nil => rfl
  | cons e rest ih =>
    rw [map_cons, OrderedMap.valueAt, OrderedMap.valueAt, ih]
    split <;> rfl

theorem insertAll_loads (c : Codec) (m old : OrderedMap String c.Val) :
    old.insertAll (m.entries.map fun e => (e.1, c.value (c.decode (c.encode e.2) c.zero))) = m ↔
      (∀ k x, m.get k = some x → c.Loads x c.zero) ∧ ∀ k, m.get k = none → old.get k = none := by
  have distinct : (m.entries.map fun e =>
      (e.1, c.value (c.decode (c.encode e.2) c.zero))).Pairwise fun a b => a.1 ≠ b.1 :=
    pairwise_map.mpr (m.rising.imp ne_of_lt)
  have found : ∀ k, (old.insertAll (m.entries.map fun e =>
      (e.1, c.value (c.decode (c.encode e.2) c.zero)))).get k =
        ((m.get k).map fun x => c.value (c.decode (c.encode x) c.zero)).or (old.get k) := by
    intro k
    rw [OrderedMap.get_insertAll distinct,
      valueAt_map fun x => c.value (c.decode (c.encode x) c.zero)]
    rfl
  constructor
  · intro same
    have at_key : ∀ k, ((m.get k).map fun x => c.value (c.decode (c.encode x) c.zero)).or
        (old.get k) = m.get k := fun k => by rw [← found k, same]
    refine ⟨fun k x present => ?_, fun k absent => ?_⟩
    · have here := at_key k
      rw [present] at here
      exact some.inj here
    · have here := at_key k
      rwa [absent] at here
  · rintro ⟨elements, keys⟩
    refine OrderedMap.ext_get fun k => ?_
    rw [found k]
    cases present : m.get k with
    | none => exact keys k present
    | some x => exact congrArg some (elements k x present)

theorem map_loads {c : Codec} {fresh : c.Val → c.Mem → Prop}
    (inner : ∀ v old, c.Loads v old ↔ fresh v old) (v old : Option (OrderedMap String c.Val)) :
    c.map.Loads v old ↔ c.MapFresh fresh v old := by
  cases v with
  | none => exact ⟨fun _ m nil => (by cases nil), fun _ => rfl⟩
  | some m =>
    have decoded : c.map.decode (c.map.encode (some m)) old =
        some ((old.getD .empty).insertAll
          (m.entries.map fun e => (e.1, c.value (c.decode (c.encode e.2) c.zero)))) := by
      change some ((old.getD .empty).insertAll (List.map _ (List.map _ m.entries))) = _
      rw [List.map_map]
      rfl
    change c.map.value (c.map.decode (c.map.encode (some m)) old) = some m ↔ _
    rw [decoded]
    refine (some_inj.trans (insertAll_loads c m _)).trans ⟨?_, ?_⟩
    · rintro ⟨elements, keys⟩ m' same
      cases same
      exact ⟨fun k x present => (inner x _).mp (elements k x present), keys⟩
    · intro fresh
      obtain ⟨elements, keys⟩ := fresh m rfl
      exact ⟨fun k x present => (inner x _).mpr (elements k x present), keys⟩

end Codec

structure Field where
  (name tag : String)

namespace Field

def hidden (f : Field) : Bool := f.tag = "-"

def jsonName (f : Field) : String :=
  let tagged := (split ',' f.tag).headD ""
  if tagged = "" then f.name else tagged

def omitEmpty (f : Field) : Bool := (split ',' f.tag).tail.contains "omitempty"

def omits (f : Field) (empty : Bool) : Bool := f.hidden || f.omitEmpty && empty

end Field

structure Record where
  (Val Mem : Type)
  names : List String
  zero : Mem
  value : Mem → Val
  encode : Val → List (String × Value)
  /-- Decodes into the field of the name. -/
  put : String → Value → Mem → Mem
  encode_names : ∀ v, ((encode v).map Prod.fst).Sublist names

namespace Record

def nil : Record where
  Val := Unit
  Mem := Unit
  names := []
  zero := ()
  value := id
  encode _ := []
  put _ _ m := m
  encode_names _ := List.Sublist.slnil

def cons (f : Field) (c : Codec) (r : Record) : Record where
  Val := c.Val × r.Val
  Mem := c.Mem × r.Mem
  names := if f.hidden then r.names else f.jsonName :: r.names
  zero := (c.zero, r.zero)
  value m := (c.value m.1, r.value m.2)
  encode v :=
    if f.omits (c.isEmpty v.1) then r.encode v.2
    else (f.jsonName, c.encode v.1) :: r.encode v.2
  put name v m :=
    if !f.hidden && name = f.jsonName then (c.decode v m.1, m.2) else (m.1, r.put name v m.2)
  encode_names := by
    intro v
    have rest := r.encode_names v.2
    cases hidden : f.hidden with
    | true => simpa [Field.omits, hidden] using rest
    | false =>
      by_cases omitted : f.omits (c.isEmpty v.1)
      · simpa [omitted] using rest.cons _
      · simpa [omitted] using rest

variable (r : Record)

/-- The field of an object's name: the one with this name, or else the first one whose name differs
in case only. -/
def resolve (name : String) : Option String :=
  if r.names.contains name then some name
  else r.names.find? fun n => Decoder.foldName n = Decoder.foldName name

def member (m : r.Mem) (e : String × Value) : r.Mem :=
  match r.resolve e.1 with
  | some name => r.put name e.2 m
  | none => m

def codec : Codec where
  Val := r.Val
  Mem := r.Mem
  zero := r.zero
  value := r.value
  encode v := .obj (r.encode v)
  decode := fun
    | .obj fields, old => fields.foldl r.member old
    | _, old => old
  isEmpty := fun _ => false

def reload (v : r.Val) (old : r.Mem) : r.Mem :=
  (r.encode v).foldl (fun m e => r.put e.1 e.2 m) old

theorem resolve_self (known : name ∈ r.names) : r.resolve name = some name := by
  rw [resolve, if_pos (contains_iff_mem.mpr known)]

theorem codec_decode (v : r.Val) (old : r.Mem) :
    r.codec.decode (r.codec.encode v) old = r.reload v old := by
  refine foldl_ext _ _ old fun m e printed => ?_
  have known : e.1 ∈ r.names := (r.encode_names v).subset (mem_map_of_mem printed)
  rw [member, r.resolve_self known]

theorem foldl_put_cons {c : Codec} {entries : List (String × Value)}
    (other : ∀ e ∈ entries, ¬ (!f.hidden && e.1 = f.jsonName) = true) (m : c.Mem) (rest : r.Mem) :
    entries.foldl (fun m e => (cons f c r).put e.1 e.2 m) (m, rest) =
      (m, entries.foldl (fun m e => r.put e.1 e.2 m) rest) := by
  induction entries generalizing rest with
  | nil => rfl
  | cons e entries ih =>
    have passed : (cons f c r).put e.1 e.2 (m, rest) = (m, r.put e.1 e.2 rest) :=
      if_neg (other e mem_cons_self)
    change entries.foldl _ ((cons f c r).put e.1 e.2 (m, rest)) = _
    rw [passed]
    exact ih (fun e' later => other e' (mem_cons_of_mem _ later)) _

theorem names_sublist (f : Field) (c : Codec) : r.names.Sublist (cons f c r).names := by
  change r.names.Sublist (if _ then _ else _)
  split
  · exact List.Sublist.refl _
  · exact sublist_cons_self _ _

theorem reload_cons {f : Field} {c : Codec} (distinct : (cons f c r).names.Nodup)
    (v : c.Val × r.Val) (m : c.Mem × r.Mem) :
    (cons f c r).reload v m =
      (if f.omits (c.isEmpty v.1) then m.1 else c.decode (c.encode v.1) m.1,
        r.reload v.2 m.2) := by
  have other : ∀ e ∈ r.encode v.2, ¬ (!f.hidden && e.1 = f.jsonName) = true := by
    intro e printed same
    simp only [Bool.and_eq_true, Bool.not_eq_true', decide_eq_true_eq] at same
    have known : e.1 ∈ r.names := (r.encode_names v.2).subset (mem_map_of_mem printed)
    rw [show (cons f c r).names = _ from if_neg (by simp [same.1])] at distinct
    exact (nodup_cons.mp distinct).1 (same.2 ▸ known)
  by_cases omitted : f.omits (c.isEmpty v.1)
  · have printed : (cons f c r).encode v = r.encode v.2 := if_pos omitted
    rw [if_pos omitted]
    exact (congrArg (foldl _ m) printed).trans (r.foldl_put_cons other m.1 m.2)
  · have printed : (cons f c r).encode v = (f.jsonName, c.encode v.1) :: r.encode v.2 :=
      if_neg omitted
    have shown : f.hidden = false := by
      simp only [Field.omits, Bool.or_eq_true, not_or, Bool.not_eq_true] at omitted
      exact omitted.1
    have first : (cons f c r).put f.jsonName (c.encode v.1) m =
        (c.decode (c.encode v.1) m.1, m.2) := if_pos (by simp [shown])
    rw [if_neg omitted]
    have start : (cons f c r).reload v m =
        (r.encode v.2).foldl (fun m e => (cons f c r).put e.1 e.2 m)
          ((cons f c r).put f.jsonName (c.encode v.1) m) := congrArg (foldl _ m) printed
    rw [first] at start
    exact start.trans (r.foldl_put_cons other _ m.2)

end Record

inductive Width where
  | w8 | w16 | w32 | w64
  deriving DecidableEq

def Width.bits : Width → ℕ
  | w8 => 8
  | w16 => 16
  | w32 => 32
  | w64 => 64

/-- The kinds of scalars; an `interface{}` holds a decoded value. -/
inductive Kind where
  | string
  | bool
  | int (w : Width)
  | uint (w : Width)
  | float
  | any
  deriving DecidableEq

def readInt (w : ℕ) : Value → Option (BitVec w)
  | .num x =>
    if x.den = 1 ∧ (BitVec.ofInt w x.num).toInt = x.num then some (BitVec.ofInt w x.num) else none
  | _ => none

def readUint (w : ℕ) : Value → Option (BitVec w)
  | .num x =>
    if x.den = 1 ∧ ((BitVec.ofInt w x.num).toNat : Int) = x.num then some (BitVec.ofInt w x.num)
    else none
  | _ => none

def readNum : Value → Option ℚ
  | .num x => some x
  | _ => none

def isNull : Value → Bool
  | .null => true
  | _ => false

def Kind.codec : Kind → Codec
  | string => .scalar "" .str Value.getString (· = "")
  | bool => .scalar false .bool Value.getBool (!·)
  | int w => .scalar (0 : BitVec w.bits) (fun x => .num x.toInt) (readInt w.bits) (· = 0)
  | uint w => .scalar (0 : BitVec w.bits) (fun x => .num x.toNat) (readUint w.bits) (· = 0)
  | float => .scalar (0 : ℚ) .num readNum (· = 0)
  | any => .scalar .null id some isNull

theorem readInt_toInt (x : BitVec w) : readInt w (.num x.toInt) = some x := by
  rw [readInt, Rat.den_intCast, Rat.num_intCast, BitVec.ofInt_toInt, if_pos ⟨rfl, rfl⟩]

theorem readUint_toNat {w : ℕ} (x : BitVec w) : readUint w (.num x.toNat) = some x := by
  have back : BitVec.ofInt w (x.toNat : Int) = x := by
    rw [BitVec.ofInt_natCast, BitVec.ofNat_toNat, BitVec.setWidth_eq]
  rw [readUint, Rat.den_natCast, Rat.num_natCast, back, if_pos ⟨rfl, rfl⟩]

theorem Kind.loads (k : Kind) (v : k.codec.Val) (old : k.codec.Mem) : k.codec.Loads v old := by
  cases k with
  | int w => exact congrArg (getD · old) (readInt_toInt v)
  | uint w => exact congrArg (getD · old) (readUint_toNat v)
  | _ => rfl

mutual

inductive Ty where
  | scalar (k : Kind)
  | ptr (t : Ty)
  | slice (t : Ty)
  | map (t : Ty)
  | newMap (t : Ty)
  | struct (fields : Fields)

inductive Fields where
  | nil
  | cons (f : Field) (t : Ty) (rest : Fields)

end

mutual

def Ty.codec : Ty → Codec
  | .scalar k => k.codec
  | .ptr t => t.codec.ptr
  | .slice t => t.codec.slice
  | .map t => t.codec.map
  | .newMap t => t.codec.newMap
  | .struct fields => fields.record.codec

def Fields.record : Fields → Record
  | .nil => .nil
  | .cons f t rest => .cons f t.codec rest.record

end

/-! Names of fields differ, in every struct of the type. -/

mutual

def Ty.Distinct : Ty → Prop
  | .scalar _ => True
  | .ptr t | .slice t | .map t | .newMap t => t.Distinct
  | .struct fields => fields.record.names.Nodup ∧ fields.Distinct

def Fields.Distinct : Fields → Prop
  | .nil => True
  | .cons _ t rest => t.Distinct ∧ rest.Distinct

end

/-! What a variable may hold for the value to come back. -/

mutual

def Ty.Fresh : (t : Ty) → t.codec.Val → t.codec.Mem → Prop
  | .scalar _, _, _ => True
  | .ptr t, v, old => t.codec.PtrFresh t.Fresh v old
  | .slice t, v, old => t.codec.SliceFresh t.Fresh v old
  | .map t, v, old => t.codec.MapFresh t.Fresh v old
  | .newMap t, v, _ => t.codec.MapFresh t.Fresh v (some .empty)
  | .struct fields, v, old => fields.Fresh v old

def Fields.Fresh : (fields : Fields) → fields.record.Val → fields.record.Mem → Prop
  | .nil, _, _ => True
  | .cons f t rest, v, old =>
    (if f.omits (t.codec.isEmpty v.1) then t.codec.value old.1 = v.1 else t.Fresh v.1 old.1) ∧
      rest.Fresh v.2 old.2

end

mutual

theorem Ty.loads_iff : ∀ t : Ty, t.Distinct → ∀ v old, t.codec.Loads v old ↔ t.Fresh v old
  | .scalar k, _ => fun v old => ⟨fun _ => trivial, fun _ => k.loads v old⟩
  | .ptr t, distinct => Codec.ptr_loads (t.loads_iff distinct)
  | .slice t, distinct => Codec.slice_loads (t.loads_iff distinct)
  | .map t, distinct => Codec.map_loads (t.loads_iff distinct)
  | .newMap t, distinct => fun v _ => Codec.map_loads (t.loads_iff distinct) v (some .empty)
  | .struct fields, distinct => fun v old => by
    rw [Codec.Loads]
    exact (Eq.congr_left (congrArg fields.record.value (fields.record.codec_decode v old))).trans
      (fields.reload_iff distinct.1 distinct.2 v old)

theorem Fields.reload_iff : ∀ fields : Fields, fields.record.names.Nodup → fields.Distinct →
    ∀ v old, fields.record.value (fields.record.reload v old) = v ↔ fields.Fresh v old
  | .nil, _, _ => fun _ _ => ⟨fun _ => trivial, fun _ => rfl⟩
  | .cons f t rest, names, distinct => fun v old => by
    have later : rest.record.names.Nodup := names.sublist (rest.record.names_sublist f t.codec)
    have reloaded := congrArg (Record.cons f t.codec rest.record).value
      (rest.record.reload_cons names v old)
    refine (Eq.congr_left reloaded).trans (Prod.ext_iff.trans (and_congr ?_ ?_))
    · change t.codec.value (if _ then _ else _) = _ ↔ _
      split
      · exact Iff.rfl
      · exact t.loads_iff distinct.1 v.1 old.1
    · exact rest.reload_iff later distinct.2 v.2 old.2

end

end Go.Reflect
