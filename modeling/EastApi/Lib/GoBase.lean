import Mathlib.Algebra.Group.Nat.Defs
import Mathlib.Algebra.Ring.Int.Defs
import Mathlib.Data.List.DropRight

/-! Go's `int` and the string functions that the models use. -/

namespace Go

open List

def wrap64 (x : Int) : Int := Int.bmod x (2 ^ 64)

theorem wrap64_bounds (x : Int) : -2 ^ 63 ≤ wrap64 x ∧ wrap64 x < 2 ^ 63 := by
  unfold wrap64
  rw [Int.bmod_def]
  split <;> omega

theorem wrap64_of_fits (lower : -2 ^ 63 ≤ x) (upper : x < 2 ^ 63) : wrap64 x = x := by
  unfold wrap64
  rw [Int.bmod_def]
  split <;> omega

theorem wrap64_of_overflow (lower : 2 ^ 63 ≤ x) (upper : x < 2 ^ 64) : wrap64 x = x - 2 ^ 64 := by
  rw [wrap64, Int.bmod_def]
  split <;> omega

/-- `unicode.IsSpace`. -/
def isSpace (c : Char) : Bool :=
  c.val = 0x20 || (0x09 ≤ c.val && c.val ≤ 0x0d) || c.val = 0x85 || c.val = 0xa0 ||
  c.val = 0x1680 || (0x2000 ≤ c.val && c.val ≤ 0x200a) || c.val = 0x2028 || c.val = 0x2029 ||
  c.val = 0x202f || c.val = 0x205f || c.val = 0x3000

/-- `strings.TrimSpace`. -/
def trimSpace (s : String) : String :=
  String.ofList ((s.toList.dropWhile isSpace).rdropWhile isSpace)

def contains (s part : String) : Bool := s.toList.tails.any part.toList.isPrefixOf

def hasPrefix (s start : String) : Bool := start.toList.isPrefixOf s.toList

def trimPrefix (s start : String) : String :=
  if hasPrefix s start then .ofList (s.toList.drop start.length) else s

def hasSuffix (s tail : String) : Bool := tail.toList.isSuffixOf s.toList

def chunk {α : Type} (size : Nat) (l : List α) : List (List α) :=
  (List.range ((l.length + size - 1) / size)).map fun i => (l.drop (size * i)).take size

theorem chunk_flatten {α : Type} (positive : 0 < size) (l : List α) :
    (chunk size l).flatten = l := by
  have first : ∀ k, ((range k).map fun i => (l.drop (size * i)).take size).flatten =
      l.take (size * k) := by
    intro k
    induction k with
    | zero => simp
    | succ k ih =>
      rw [range_succ, map_append, flatten_append, ih, Nat.mul_succ, take_add]
      simp
  have enough : l.length ≤ size * ((l.length + size - 1) / size) := by
    have := Nat.lt_mul_div_succ (l.length + size - 1) positive
    rw [Nat.mul_add] at this
    omega
  rw [chunk, first, take_of_length_le enough]

theorem dropWhile_rdropWhile {α : Type} (p : α → Bool) (l : List α) :
    ((l.dropWhile p).rdropWhile p).dropWhile p = (l.dropWhile p).rdropWhile p := by
  rw [dropWhile_eq_self_iff]
  intro nonempty first
  -- the first element survives the trimming of the end, so it is the first one that fails `p`
  have start : l.dropWhile p ≠ [] := by
    intro empty
    simp [empty] at nonempty
  have head := head_dropWhile_not p start
  have same : ((l.dropWhile p).rdropWhile p)[0] = (l.dropWhile p).head start := by
    rw [head_eq_getElem]
    exact ( rdropWhile_prefix p (l.dropWhile p)).getElem _
  rw [same, head] at first
  contradiction

theorem trimSpace_idem (s : String) : trimSpace (trimSpace s) = trimSpace s := by
  simp only [trimSpace, String.toList_ofList, dropWhile_rdropWhile, rdropWhile_idempotent]

theorem trimSpace_ne_empty (member : c ∈ s.toList) (solid : isSpace c = false) :
    trimSpace s ≠ "" := by
  intro empty
  have none : (s.toList.dropWhile isSpace).rdropWhile isSpace = [] := by
    simpa [trimSpace] using empty
  have spaces := rdropWhile_eq_nil_iff.mp none
  have start : s.toList.dropWhile isSpace = [] := by
    by_contra nonempty
    have head := head_dropWhile_not isSpace nonempty
    rw [spaces _ (head_mem nonempty)] at head
    cases head
  have all := dropWhile_eq_nil_iff.mp start c member
  rw [solid] at all
  cases all

example : trimSpace " vip\n" = "vip" := by decide

end Go
