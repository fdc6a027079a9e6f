import EastApi.Lib.GoValue

/-! `encoding/json` with a typed target.  A part of a wrong type leaves its target as it is, and
decoding goes on.  The fields of an object are taken in the order in which they are written. -/

namespace Go

/-- An `interface{}`: a decoded value, or a value of the type that the program itself puts there. -/
inductive Any (α : Type*)
  | value (v : Value)
  | typed (a : α)

abbrev Decoder (α : Type*) := Value → α → α × Bool

namespace Decoder

variable {α β : Type*}

def string : Decoder String
  | .str s, _ => (s, true)
  | .null, old => (old, true)
  | _, old => (old, false)

def int : Decoder Int
  | .num x, old =>
    if x.den = 1 ∧ -2 ^ 63 ≤ x.num ∧ x.num < 2 ^ 63 then (x.num, true) else (old, false)
  | .null, old => (old, true)
  | _, old => (old, false)

def bool : Decoder Bool
  | .bool b, _ => (b, true)
  | .null, old => (old, true)
  | _, old => (old, false)

def any : Decoder Value := fun v _ => (v, true)

def raw : Decoder (Option Value) := fun v _ => (some v, true)

def pointer (zero : α) (d : Decoder α) : Decoder (Option α)
  | .null, _ => (none, true)
  | v, old =>
    let (a, ok) := d v (old.getD zero)
    (some a, ok)

def slice (zero : α) (d : Decoder α) : Decoder (List α)
  | .null, _ => ([], true)
  | .arr items, _ => (items.map fun v => (d v zero).1, items.all fun v => (d v zero).2)
  | _, old => (old, false)

def mapping : Decoder (Option (List (String × Value)))
  | .null, _ => (none, true)
  | .obj fields, old => (some (fields ++ old.getD []), true)
  | _, old => (old, false)

/-- The name of a field without the case of its letters: besides the ASCII letters, two characters
fold to one of them. -/
def foldName (name : String) : String :=
  String.ofList (name.toList.map fun c =>
    if c.toNat = 0x17F then 's' else if c.toNat = 0x212A then 'k' else c.toLower)

def into (d : Decoder β) (v : Value) (old : β) (put : β → α) : α × Bool :=
  let (b, ok) := d v old
  (put b, ok)

def struct (set : String → Decoder α) : Decoder α
  | .null, old => (old, true)
  | .obj fields, old =>
    fields.foldl (fun r e =>
      let (a, ok) := set (foldName e.1) e.2 r.1
      (a, r.2 && ok)) (old, true)
  | _, old => (old, false)

def unknown (old : α) : α × Bool := (old, true)

def unmarshal (zero : α) (d : Decoder α) (v : Value) : Option α :=
  let (a, ok) := d v zero
  if ok then some a else none

end Decoder

end Go
