import EastApi.Lib.GoBase
import Mathlib.Data.Rat.Init

/-! Values that `encoding/json` decodes to `interface{}`, and the lower case of texts. -/

namespace Go

open List String

inductive Value where
  | null
  | bool (b : Bool)
  | num (x : ℚ)
  | str (s : String)
  | arr (items : List Value)
  | obj (fields : List (String × Value))

namespace Value

def field (name : String) : Value → Option Value
  | obj fields => fields.lookup name
  | _ => none

def getString : Value → Option String
  | str s => some s
  | _ => none

def getBool : Value → Option Bool
  | bool b => some b
  | _ => none

/-! A measure of values that goes down from a value to its parts and from a text to what is decoded
from it. -/

mutual

def size : Value → ℕ
  | null | bool _ | num _ => 0
  | str s => s.length
  | arr items => sizeItems items + 1
  | obj fields => sizeFields fields + 1

def sizeItems : List Value → ℕ
  | [] => 0
  | v :: rest => v.size + sizeItems rest

def sizeFields : List (String × Value) → ℕ
  | [] => 0
  | (_, v) :: rest => v.size + sizeFields rest

end

theorem size_lookup (found : fields.lookup name = some v) : v.size < (obj fields).size := by
  rw [size]
  induction fields with
  | nil => simp at found
  | cons e rest ih =>
    rw [lookup_cons] at found
    rw [sizeFields]
    split at found
    · cases found
      omega
    · have := ih found
      omega

end Value

theorem length_trimSpace_le (s : String) : (trimSpace s).length ≤ s.length := by
  rw [trimSpace, length_ofList, ← length_toList]
  exact List.IsPrefix.length_le ( rdropWhile_prefix _ _) |>.trans (dropWhile_suffix _).length_le

/-- `unicode.ToLower`: known in full for ASCII, where it is the lower case of Lean. -/
structure Lowering where
  lower : Char → Char
  ascii : ∀ c : Char, c.val < 128 → lower c = c.toLower
  idem : ∀ c, lower (lower c) = lower c
  space : ∀ c, isSpace (lower c) = isSpace c

namespace Lowering

variable (l : Lowering)

def toLower (s : String) : String := ofList (s.toList.map l.lower)

theorem toLower_idem (s : String) : l.toLower (l.toLower s) = l.toLower s := by
  have twice : l.lower ∘ l.lower = l.lower := funext l.idem
  simp only [toLower, toList_ofList, List.map_map, twice]

theorem toLower_trimSpace (s : String) : l.toLower (trimSpace s) = trimSpace (l.toLower s) := by
  have keeps : isSpace ∘ l.lower = isSpace := funext l.space
  simp only [toLower, trimSpace, toList_ofList, dropWhile_map, rdropWhile,
    ← map_reverse, keeps]

theorem toLower_ascii (small : s.toList.all fun c => decide (c.val < 128 ∧ c.toLower = c)) :
    l.toLower s = s := by
  simp only [all_eq_true, decide_eq_true_eq] at small
  have each : s.toList.map l.lower = s.toList := by
    conv_rhs => rw [← map_id s.toList]
    refine map_congr_left fun c member => ?_
    rw [l.ascii c (small c member).1, (small c member).2, id]
  rw [toLower, each, ofList_toList]

/-! The lower case of Lean is one that knows ASCII only. -/

theorem toNat_toLower {c : Char} (capital : c.val ≥ 'A'.val ∧ c.val ≤ 'Z'.val) :
    c.toLower.toNat = c.toNat + 32 ∧ 65 ≤ c.toNat ∧ c.toNat ≤ 90 := by
  have low : 65 ≤ c.toNat := UInt32.le_iff_toNat_le.mp capital.1
  have high : c.toNat ≤ 90 := UInt32.le_iff_toNat_le.mp capital.2
  refine ⟨?_, low, high⟩
  have val : c.toLower.val = c.val + ('a'.val - 'A'.val) := congrArg Char.val (dif_pos capital)
  have sum : c.toLower.toNat = (c.toNat + 32) % 2 ^ 32 := by
    rw [Char.toNat, val, UInt32.toNat_add]
    rfl
  omega

theorem toLower_of_not_capital {c : Char} (other : ¬ (c.val ≥ 'A'.val ∧ c.val ≤ 'Z'.val)) :
    c.toLower = c :=
  dif_neg other

theorem isSpace_letter {c : Char} (low : 65 ≤ c.toNat) (high : c.toNat ≤ 122) :
    isSpace c = false := by
  simp only [isSpace, ← UInt32.toNat_inj, UInt32.le_iff_toNat_le, Bool.or_eq_false_iff,
    decide_eq_false_iff_not, Bool.and_eq_false_iff]
  simp
  omega

def ofAscii : Lowering where
  lower := Char.toLower
  ascii := fun _ _ => rfl
  idem := by
    intro c
    by_cases capital : c.val ≥ 'A'.val ∧ c.val ≤ 'Z'.val
    · have once := toNat_toLower capital
      refine toLower_of_not_capital fun again => ?_
      have twice := toNat_toLower again
      omega
    · rw [toLower_of_not_capital capital, toLower_of_not_capital capital]
  space := by
    intro c
    by_cases capital : c.val ≥ 'A'.val ∧ c.val ≤ 'Z'.val
    · have once := toNat_toLower capital
      rw [isSpace_letter (by omega) (by omega), isSpace_letter (by omega) (by omega)]
    · rw [toLower_of_not_capital capital]

end Lowering

end Go
