import EastApi.Lib.GoFloat
import EastApi.Lib.GoValue
import Mathlib.Data.Rat.Encodable
import Mathlib.Data.W.Basic
import Mathlib.Tactic.DeriveEncodable

/-! The texts that `strconv` and `encoding/json` print, known by this alone: what they print they
read back. -/

namespace Go

open List String

structure Printing where
  formatInt : Int → String
  parseInt : String → Option Int
  parseInt_formatInt : ∀ n : Int, -2 ^ 63 ≤ n → n < 2 ^ 63 → parseInt (formatInt n) = some n
  formatUint : ℕ → String
  parseUint : String → Option ℕ
  parseUint_formatUint : ∀ n < 2 ^ 64, parseUint (formatUint n) = some n
  formatFloat : ℚ → String
  parseFloat : String → Option ℚ
  parseFloat_formatFloat : ∀ x, parseFloat (formatFloat x) = some x
  marshal : Value → String
  /-- The value of a text, if it is JSON. -/
  unmarshal : String → Option Value
  unmarshal_marshal : ∀ v, unmarshal (marshal v) = some v
  marshal_null : marshal .null = "null"

theorem Printing.marshal_eq_null (p : Printing) : p.marshal v = "null" ↔ v = .null := by
  refine ⟨fun text => ?_, fun null => null ▸ p.marshal_null⟩
  have back := p.unmarshal_marshal v
  rw [text, ← p.marshal_null, p.unmarshal_marshal] at back
  exact (Option.some.inj back).symm

def formatBool (b : Bool) : String := if b then "true" else "false"

def parseBool (s : String) : Option Bool :=
  if ["1", "t", "T", "TRUE", "true", "True"].contains s then some true
  else if ["0", "f", "F", "FALSE", "false", "False"].contains s then some false
  else none

theorem parseBool_formatBool (b : Bool) : parseBool (formatBool b) = some b := by
  cases b <;> rfl

/-! ### A printing by numbers

Values have numbers, as trees with finitely many branches, and a number can be written as a text of
this length. -/

instance encodableString : Encodable String :=
  Encodable.ofLeftInjection (fun s : String => s.toList.map Char.toNat)
    (fun codes => some (ofList (codes.map Char.ofNat))) fun s => by
      simp [Function.comp_def]

/-- What a value is besides its parts. -/
inductive Head where
  | null
  | bool (b : Bool)
  | num (x : ℚ)
  | str (s : String)
  | arr
  | obj (names : List String)
  deriving Encodable

def Head.value : Head → List Value → Value
  | null, _ => .null
  | bool b, _ => .bool b
  | num x, _ => .num x
  | str s, _ => .str s
  | arr, parts => .arr parts
  | obj names, parts => .obj (names.zip parts)

/-- A tree with a number of branches at every node. -/
abbrev Tree := WType fun node : Head × ℕ => Fin node.2

namespace Tree

def node (h : Head) (parts : List Tree) : Tree := ⟨(h, parts.length), parts.get⟩

def value : Tree → Value := WType.elim Value fun n => n.1.1.value (ofFn n.2)

theorem value_node (h : Head) (parts : List Tree) :
    value (node h parts) = h.value (parts.map value) := by
  change h.value (ofFn (value ∘ parts.get)) = _
  rw [← map_ofFn, ofFn_get]

end Tree

mutual

def Value.tree : Value → Tree
  | .null => .node .null []
  | .bool b => .node (.bool b) []
  | .num x => .node (.num x) []
  | .str s => .node (.str s) []
  | .arr items => .node .arr (Value.treesOfItems items)
  | .obj fields => .node (.obj (fields.map Prod.fst)) (Value.treesOfFields fields)

def Value.treesOfItems : List Value → List Tree
  | [] => []
  | v :: rest => v.tree :: treesOfItems rest

def Value.treesOfFields : List (String × Value) → List Tree
  | [] => []
  | (_, v) :: rest => v.tree :: treesOfFields rest

end

mutual

theorem Value.value_tree : ∀ v : Value, v.tree.value = v
  | .null | .bool _ | .num _ | .str _ => rfl
  | .arr items => by
    rw [tree, Tree.value_node, value_treesOfItems items]
    rfl
  | .obj fields => by
    rw [tree, Tree.value_node, value_treesOfFields fields]
    exact congrArg Value.obj (zip_of_prod rfl rfl).symm

theorem Value.value_treesOfItems : ∀ items : List Value,
    (Value.treesOfItems items).map Tree.value = items
  | [] => rfl
  | v :: rest => by
    rw [treesOfItems, map_cons, value_tree v, value_treesOfItems rest]

theorem Value.value_treesOfFields : ∀ fields : List (String × Value),
    (Value.treesOfFields fields).map Tree.value = fields.map Prod.snd
  | [] => rfl
  | (_, v) :: rest => by
    rw [treesOfFields, map_cons, map_cons, value_tree v, value_treesOfFields rest]

end

instance encodableValue : Encodable Value :=
  Encodable.ofLeftInverse Value.tree Tree.value Value.value_tree

namespace Printing

def strokes (n : ℕ) : String := ofList (replicate n '|')

theorem length_strokes (n : ℕ) : (strokes n).length = n := by
  rw [strokes, length_ofList, List.length_replicate]

/-- The text of null has four letters, and no other text has. -/
def marshalNumber : Value → String
  | .null => "null"
  | v => strokes (Encodable.encode v + 5)

def unmarshalNumber (s : String) : Option Value :=
  if s = "null" then some .null else Encodable.decode (s.length - 5)

theorem unmarshalNumber_marshalNumber (v : Value) :
    unmarshalNumber (marshalNumber v) = some v := by
  have other : strokes (Encodable.encode v + 5) ≠ "null" := by
    intro same
    have lengths := congrArg String.length same
    rw [length_strokes] at lengths
    exact absurd lengths (by change _ + 5 ≠ 4; omega)
  cases v with
  | null => rfl
  | _ =>
    rw [marshalNumber, unmarshalNumber, if_neg other, length_strokes, Nat.add_sub_cancel,
      Encodable.encodek]
    nofun

theorem decode_strokes {α : Type} [Encodable α] (a : α) :
    Encodable.decode (strokes (Encodable.encode a)).length = some a := by
  rw [length_strokes, Encodable.encodek]

theorem length_strokes_some (n : ℕ) : some (strokes n).length = some n :=
  congrArg some (length_strokes n)

theorem marshalNumber_null : marshalNumber .null = "null" := rfl

/-- Numbers as strokes.  This is no JSON text: it shows that the laws of `Printing` can be met. -/
def byNumbers : Printing where
  formatInt n := strokes (Encodable.encode n)
  parseInt s := Encodable.decode s.length
  parseInt_formatInt n _ _ := decode_strokes n
  formatUint := strokes
  parseUint s := some s.length
  parseUint_formatUint n _ := length_strokes_some n
  formatFloat x := strokes (Encodable.encode x)
  parseFloat s := Encodable.decode s.length
  parseFloat_formatFloat := decode_strokes
  marshal := marshalNumber
  unmarshal := unmarshalNumber
  unmarshal_marshal := unmarshalNumber_marshalNumber
  marshal_null := marshalNumber_null

end Printing

end Go
