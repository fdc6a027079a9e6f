import EastApi.Lib.GoBase
import Mathlib.Algebra.Order.BigOperators.Group.List
import Mathlib.Data.Int.Log
import Mathlib.Data.Rat.Floor

/-! The text of a value in Go: `strings.ToLower` and `ToUpper`, `strconv.ParseFloat`, and the form
that `fmt.Sprint` gives a `float64`. -/

namespace Go

open List String

/-- `unicode.ToLower` as far as a comparison with a text of ASCII can tell: the two capitals outside
of ASCII with a small letter in it are lowered, and the others there are kept as they are. -/
def lower (c : Char) : Char :=
  if c = 'İ' then 'i' else if c = 'K' then 'k' else c.toLower

/-- `unicode.ToUpper`, in the same way. -/
def upper (c : Char) : Char :=
  if c = 'ı' then 'I' else if c = 'ſ' then 'S' else c.toUpper

def toLower (s : String) : String := ofList (s.toList.map lower)

def toUpper (s : String) : String := ofList (s.toList.map upper)

/-- `len`, which counts bytes. -/
def len (s : String) : Nat := (s.toList.map Char.utf8Size).sum

/-- `strings.ReplaceAll(s, old, "")`, for a text of one character. -/
def remove (old : Char) (s : String) : String := ofList (s.toList.filter (· ≠ old))

/-- `strings.Split`, at a separator of one character. -/
def split (sep : Char) (s : String) : List String := (s.toList.splitOn sep).map ofList

theorem split_ne_nil (sep : Char) (s : String) : split sep s ≠ [] := by
  simp [split, splitOn_ne_nil]

/-- `strings.Trim`, of one character. -/
def trim (cut : Char) (s : String) : String :=
  ofList ((s.toList.dropWhile (· = cut)).rdropWhile (· = cut))

/-- `strings.Join`, with a separator of one character. -/
def join (sep : Char) (texts : List String) : String :=
  ofList ([sep].intercalate (texts.map toList))

theorem split_join (nonempty : texts ≠ []) (lines : ∀ s ∈ texts, sep ∉ s.toList) :
    split sep (join sep texts) = texts := by
  have apart : ∀ l ∈ texts.map toList, sep ∉ l := by
    simpa using lines
  rw [split, join, toList_ofList,
    splitOn_intercalate sep apart (by simpa using nonempty), List.map_map]
  simp [Function.comp_def]

theorem trim_eq_self (first : s.toList.head? ≠ some cut) (last : s.toList.getLast? ≠ some cut) :
    trim cut s = s := by
  have front : s.toList.dropWhile (· = cut) = s.toList := by
    cases chars : s.toList with
    | nil => rfl
    | cons c rest =>
      rw [chars, head?_cons, ne_eq, Option.some.injEq] at first
      rw [dropWhile_cons_of_neg (by simpa using first)]
  have back : s.toList.rdropWhile (· = cut) = s.toList := by
    rw [rdropWhile_eq_self_iff]
    intro nonempty same
    rw [getLast?_eq_some_getLast nonempty, ne_eq, Option.some.injEq] at last
    exact last (by simpa using same)
  rw [trim, front, back, ofList_toList]

theorem join_cons (sep : Char) (s : String) (rest : List String) :
    ∃ back, (join sep (s :: rest)).toList = s.toList ++ back := by
  cases rest with
  | nil => exact ⟨[], by simp [join, List.intercalate]⟩
  | cons t rest => exact ⟨_, by simp [join, List.intercalate]; rfl⟩

theorem eq_empty_of_join_eq_empty (h : join sep texts = "") : ∀ s ∈ texts, s = "" := by
  match texts with
  | [] => simp
  | [s] => simpa [join, List.intercalate] using h
  | s :: t :: rest => simp [join, List.intercalate] at h

theorem join_concat (sep : Char) (texts : List String) (s : String) :
    (join sep (texts ++ [s])).toList = (texts.flatMap fun t => t.toList ++ [sep]) ++ s.toList := by
  induction texts with
  | nil => simp [join, List.intercalate]
  | cons t rest ih =>
    obtain ⟨u, rest', split⟩ := exists_cons_of_ne_nil (concat_ne_nil s rest)
    rw [flatMap_cons, List.append_assoc, ← ih, cons_append, split]
    simp [join, List.intercalate]

theorem trim_join (lines : ∀ s ∈ texts, sep ∉ s.toList) (first : texts.head? ≠ some "")
    (last : texts.getLast? ≠ some "") : trim sep (join sep texts) = join sep texts := by
  rcases texts.eq_nil_or_concat with rfl | ⟨init, s, rfl⟩
  · rfl
  rw [concat_eq_append] at lines first last ⊢
  refine trim_eq_self ?_ ?_
  · obtain ⟨t, rest, same⟩ := exists_cons_of_ne_nil (concat_ne_nil s init)
    rw [same] at lines first ⊢
    obtain ⟨back, chars⟩ := join_cons sep t rest
    have nonempty : t.toList ≠ [] := by simpa using first
    rw [chars, head?_append_of_ne_nil _ nonempty]
    exact fun here => lines t mem_cons_self (mem_of_mem_head? here)
  · have nonempty : s.toList ≠ [] := by simpa using last
    rw [join_concat, getLast?_append_of_ne_nil _ nonempty]
    exact fun here => lines s (by simp) (mem_of_mem_getLast? here)

theorem trim_ends (same : trim cut s = s) :
    s.toList.head? ≠ some cut ∧ s.toList.getLast? ≠ some cut := by
  have chars : (s.toList.dropWhile (· = cut)).rdropWhile (· = cut) = s.toList := by
    simpa [trim] using congrArg toList same
  constructor
  · intro first
    obtain ⟨rest, eq⟩ := head?_eq_some_iff.mp first
    have short := ( rdropWhile_prefix (· = cut) (s.toList.dropWhile (· = cut))).length_le
    have shorter := (dropWhile_suffix (l := rest) (decide <| · = cut)).length_le
    rw [chars, eq, dropWhile_cons_of_pos (by simp), length_cons] at short
    omega
  · intro last
    obtain ⟨init, eq⟩ := getLast?_eq_some_iff.mp last
    have ends := rdropWhile_last_not (· = cut) (s.toList.dropWhile (· = cut))
    rw [chars, eq] at ends
    simp at ends

theorem not_mem_of_mem_splitOn (l : List Char) : ∀ t ∈ l.splitOn sep, sep ∉ t := by
  induction l with
  | nil => simp
  | cons c l ih =>
    obtain ⟨first, rest, eq⟩ := exists_cons_of_ne_nil (splitOn_ne_nil sep l)
    rw [eq] at ih
    rw [splitOn_cons_eq_if_modifyHead, eq]
    split
    · simpa using ih
    · next other =>
      refine forall_mem_cons.mpr ⟨fun here => ?_, (forall_mem_cons.mp ih).2⟩
      rcases mem_cons.mp here with rfl | here
      · exact other (beq_self_eq_true _)
      · exact ih first mem_cons_self here

/-- Texts are read back from their lines exactly if each is one line and the text does not begin or
end with an empty one. -/
theorem split_trim_join_iff {texts : List String} (text : join sep texts ≠ "") :
    split sep (trim sep (join sep texts)) = texts ↔ texts ≠ [] ∧
      (∀ s ∈ texts, sep ∉ s.toList) ∧ texts.head? ≠ some "" ∧ texts.getLast? ≠ some "" := by
  constructor
  · intro back
    have same : trim sep (join sep texts) = join sep texts := by
      conv_rhs => rw [← back]
      simp [join, split, Function.comp_def, intercalate_splitOn]
    obtain ⟨begins, ends⟩ := trim_ends same
    refine ⟨?_, fun s hs => ?_, fun first => begins ?_, fun last => ends ?_⟩
    · rw [← back]
      exact split_ne_nil _ _
    · rw [← back] at hs
      obtain ⟨l, hl, rfl⟩ := mem_map.mp hs
      simpa using not_mem_of_mem_splitOn _ l hl
    · obtain ⟨rest, rfl⟩ := head?_eq_some_iff.mp first
      cases rest with
      | nil => simp [join, List.intercalate] at text
      | cons t rest => simp [join, List.intercalate]
    · obtain ⟨init, rfl⟩ := getLast?_eq_some_iff.mp last
      rcases init.eq_nil_or_concat with rfl | ⟨init, t, rfl⟩
      · simp [join, List.intercalate] at text
      · rw [join_concat, concat_eq_append]
        simp
  · rintro ⟨nonempty, lines, first, last⟩
    rw [trim_join lines first last, split_join nonempty lines]
def concat : List String → String
  | [] => ""
  | s :: rest => s ++ concat rest

@[simp] theorem concat_nil : concat [] = "" := rfl

@[simp] theorem concat_cons (s : String) (rest : List String) :
    concat (s :: rest) = s ++ concat rest := rfl

@[simp] theorem concat_append (before after : List String) :
    concat (before ++ after) = concat before ++ concat after := by
  induction before with
  | nil => simp
  | cons s rest ih => simp [ih, String.append_assoc]

theorem concat_eq_empty : concat texts = "" ↔ ∀ s ∈ texts, s = "" := by
  induction texts with
  | nil => simp
  | cons s rest ih => simp [ih]

theorem toList_concat_map {α : Type*} (f : α → String) (items : List α) :
    (concat (items.map f)).toList = items.flatMap fun a => (f a).toList := by
  induction items with
  | nil => rfl
  | cons a rest ih => simp [ih]

/-- Lists that grow by at most what others grow by, piece by piece, are the same in the end when no
piece differs: a piece that was lost is never made up for. -/
theorem flatMap_eq_iff {α β : Type*} {f g : α → List β} {items : List α}
    (short : ∀ a ∈ items, (f a).length ≤ (g a).length) :
    items.flatMap f = items.flatMap g ↔ ∀ a ∈ items, f a = g a := by
  refine ⟨fun same => ?_, fun each => flatMap_congr each⟩
  induction items with
  | nil => simp
  | cons a rest ih =>
    rw [forall_mem_cons] at short ⊢
    have later : (rest.flatMap f).length ≤ (rest.flatMap g).length := by
      rw [length_flatMap, length_flatMap]
      exact sum_le_sum short.2
    have lengths := congrArg List.length same
    simp only [flatMap_cons, List.length_append] at lengths
    obtain ⟨head, tail⟩ := append_inj same (by omega)
    exact ⟨head, ih short.2 tail⟩

theorem concat_map_eq_iff {α : Type*} {f g : α → String} {items : List α}
    (short : ∀ a ∈ items, (f a).length ≤ (g a).length) :
    concat (items.map f) = concat (items.map g) ↔ ∀ a ∈ items, f a = g a := by
  rw [← toList_inj, toList_concat_map, toList_concat_map,
    flatMap_eq_iff (by simpa only [length_toList] using short)]
  simp only [toList_inj]

/-- A `float64`, by its sign and its size. -/
inductive Float64 where
  | finite (negative : Bool) (size : ℚ)
  | inf (negative : Bool)
  | nan
  deriving DecidableEq

/-- The value, for the comparison of two numbers of which none is a NaN: an infinity is beyond the
greatest finite value, which is below `2 ^ 1024`. -/
def Float64.value : Float64 → ℚ
  | .finite negative size => if negative then -size else size
  | .inf negative => if negative then -2 ^ 1024 else 2 ^ 1024
  | .nan => 0

def Float64.less (x y : Float64) : Bool := x != .nan && y != .nan && x.value < y.value

def roundEven (x : ℚ) : Int :=
  let n := ⌊x⌋
  if x - n < 1 / 2 then n else if 1 / 2 < x - n then n + 1 else if n % 2 = 0 then n else n + 1

def nearest64 (x : ℚ) : Option ℚ :=
  if x = 0 then some 0
  else
    let unit : ℚ := 2 ^ max (Int.log 2 x - 52) (-1074)
    let rounded := roundEven (x / unit) * unit
    if rounded < 2 ^ 1024 then some rounded else none

/-- `InexactFloat64` of a decimal, with the value of `Float64.value` for an infinity. -/
def inexactFloat64 (x : ℚ) : ℚ :=
  if x < 0 then -((nearest64 (-x)).getD (2 ^ 1024)) else (nearest64 x).getD (2 ^ 1024)

theorem nearest64_nonneg (nonneg : 0 ≤ x) : 0 ≤ (nearest64 x).getD (2 ^ 1024) := by
  have rounded : ∀ y : ℚ, 0 ≤ y → 0 ≤ roundEven y := by
    intro y nonneg
    have floor := Int.floor_nonneg.mpr nonneg
    simp only [roundEven]
    split_ifs <;> omega
  simp only [nearest64]
  split
  · simp
  · split
    · have unit : (0 : ℚ) < 2 ^ max (Int.log 2 x - 52) (-1074) := zpow_pos (by norm_num) _
      have quotient := rounded _ (div_nonneg nonneg unit.le)
      exact mul_nonneg (by exact_mod_cast quotient) unit.le
    · rw [Option.getD_none]
      positivity

theorem inexactFloat64_nonpos (nonpos : x ≤ 0) : inexactFloat64 x ≤ 0 := by
  unfold inexactFloat64
  split
  next negative => linarith [nearest64_nonneg (show 0 ≤ -x by linarith)]
  next nonneg =>
    have zero : x = 0 := le_antisymm nonpos (not_lt.mp nonneg)
    simp [zero, nearest64]

/-- The digits of a positive `float64`, as few as tell it from its neighbours, and the place of the
decimal point among them. -/
def shortest (x : ℚ) : List Char × Int :=
  let exponent := Int.log 10 x
  let rounded (n : Nat) : Int := roundEven (x * 10 ^ (n - exponent))
  let more := ((range 17).find? fun n =>
    nearest64 (rounded n / 10 ^ (n - exponent)) = some x).getD 16
  let digits := Nat.toDigits 10 (rounded more).toNat
  (digits.rdropWhile (· = '0'), digits.length - more + exponent)

/-- The `%g` form: with an exponent when that is below -4 or at least 6. -/
def formatDigits (digits : List Char) (point : Int) : List Char :=
  let exponent := point - 1
  let fraction (n : Nat) := if digits.length ≤ n then [] else '.' :: digits.drop n
  if exponent < -4 ∨ 6 ≤ exponent then
    let places := Nat.toDigits 10 exponent.natAbs
    digits.take 1 ++ fraction 1 ++ 'e' :: (if exponent < 0 then '-' else '+') ::
      (List.replicate (2 - places.length) '0' ++ places)
  else if point ≤ 0 then '0' :: '.' :: (List.replicate (-point).toNat '0' ++ digits)
  else
    let whole := point.toNat
    digits.take whole ++ List.replicate (whole - digits.length) '0' ++ fraction whole

def formatFloat : Float64 → String
  | .finite negative size =>
    let (digits, point) := if size = 0 then (['0'], 1) else shortest size
    ofList ((if negative then ['-'] else []) ++ formatDigits digits point)
  | .inf negative => if negative then "-Inf" else "+Inf"
  | .nan => "NaN"

def digitValue (base : Nat) (c : Char) : Option Nat :=
  if c.isDigit then some (c.toNat - '0'.toNat)
  else if base = 16 ∧ 'a' ≤ c.toLower ∧ c.toLower ≤ 'f' then
    some (c.toLower.toNat - 'a'.toNat + 10)
  else none

/-- Reads digits, underscores and one point: the number of the digits, how many of them stand
behind the point, if any digit was seen, and the text that is left. -/
def scanMantissa (base : Nat) (number : Nat) (behind : Option Nat) (seen : Bool) :
    List Char → Nat × Option Nat × Bool × List Char
  | [] => (number, behind, seen, [])
  | c :: rest =>
    if c = '_' then scanMantissa base number behind seen rest
    else if c = '.' ∧ behind = none then scanMantissa base number (some 0) seen rest
    else
      match digitValue base c with
      | some digit => scanMantissa base (number * base + digit) (behind.map (· + 1)) true rest
      | none => (number, behind, seen, c :: rest)

def scanExponent (exponent : Nat) : List Char → Nat × List Char
  | [] => (exponent, [])
  | c :: rest =>
    if c = '_' then scanExponent exponent rest
    else if c.isDigit then
      scanExponent (if exponent < 10000 then exponent * 10 + (c.toNat - '0'.toNat) else exponent)
        rest
    else (exponent, c :: rest)

def readSign : List Char → Bool × List Char
  | '-' :: rest => (true, rest)
  | '+' :: rest => (false, rest)
  | rest => (false, rest)

/-- `strconv.Atoi`, with whether it gives no error. A number that no `int` holds is cut to the
nearest one. -/
def atoi (s : String) : Int × Bool :=
  let (negative, digits) := readSign s.toList
  if digits ≠ [] ∧ digits.all Char.isDigit then
    let size : Int := digits.foldl (fun n c => n * 10 + (c.toNat - '0'.toNat)) 0
    let value := if negative then -size else size
    if value < -2 ^ 63 then (-2 ^ 63, false)
    else if 2 ^ 63 ≤ value then (2 ^ 63 - 1, false)
    else (value, true)
  else (0, false)

def readExponent (text : List Char) : Option (Int × List Char) :=
  let (negative, digits) := readSign text
  if (digits.head?.map Char.isDigit).getD false then
    let (exponent, rest) := scanExponent 0 digits
    some (if negative then -exponent else exponent, rest)
  else none

inductive Saw where
  | start
  | digit
  | underscore
  | other
  deriving DecidableEq

def scanUnderscores (hex : Bool) (saw : Saw) : List Char → Bool
  | [] => saw ≠ .underscore
  | c :: rest =>
    if (digitValue (if hex then 16 else 10) c).isSome then scanUnderscores hex .digit rest
    else if c = '_' then saw = .digit && scanUnderscores hex .underscore rest
    else saw ≠ .underscore && scanUnderscores hex .other rest

def underscoreOK : List Char → Bool
  | '0' :: c :: rest =>
    if c.toLower ∈ ['b', 'o', 'x'] then scanUnderscores (c.toLower = 'x') .digit rest
    else scanUnderscores false .start ('0' :: c :: rest)
  | text => scanUnderscores false .start text

def readBase : List Char → Nat × List Char
  | '0' :: x :: c :: rest =>
    if x.toLower = 'x' then (16, c :: rest) else (10, '0' :: x :: c :: rest)
  | text => (10, text)

def readFloat (text : List Char) : Option ℚ := do
  let (base, digits) := readBase text
  let (number, behind, seen, rest) := scanMantissa base 0 none false digits
  guard seen
  let (exponent, rest) ←
    match rest with
    | c :: after =>
      if c.toLower = (if base = 16 then 'p' else 'e') then readExponent after
      else if base = 16 then none
      else some (0, c :: after)
    | [] => if base = 16 then none else some (0, [])
  guard (rest = [] ∧ ('_' ∈ text → underscoreOK text))
  let unit : ℚ := if base = 16 then 2 else 10
  some (number / (base : ℚ) ^ behind.getD 0 * unit ^ exponent)

def parseFloat (s : String) : Option Float64 :=
  let (negative, text) := readSign s.toList
  let small := text.map Char.toLower
  if small = "inf".toList ∨ small = "infinity".toList then some (.inf negative)
  else if s.toList.map Char.toLower = "nan".toList then some .nan
  else (readFloat text).bind fun x => (nearest64 x).map (.finite negative)

end Go
