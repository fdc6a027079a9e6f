import Mathlib.Data.List.Basic

/-! Buffered channels of Go.  A `Chan` carries the proof that its buffer is within the capacity.
`send` and `recv` are `none` where the goroutine has to wait; a receive from a closed channel gives
what is buffered, and then nothing. -/

namespace Go

universe u

structure Chan (α : Type u) (capacity : Nat) where
  buffer : List α
  closed : Bool
  bounded : buffer.length ≤ capacity

namespace Chan

variable {α : Type u}

def make : Chan α capacity := ⟨[], false, Nat.zero_le _⟩

def send (ch : Chan α capacity) (a : α) : Option (Chan α capacity) :=
  if room : ch.buffer.length < capacity then
    some { ch with buffer := ch.buffer ++ [a], bounded := by rw [List.length_append]; exact room }
  else none

def safeSend (ch : Chan α capacity) (a : α) : Option (Chan α capacity) :=
  if ch.closed then some ch else ch.send a

/-- `<-ch`: the value, or `none` from a closed channel that is drained. -/
def recv (ch : Chan α capacity) : Option (Option α × Chan α capacity) :=
  match h : ch.buffer with
  | a :: rest => some (some a, { ch with
      buffer := rest
      bounded := Nat.le_of_succ_le (by simpa [h] using ch.bounded) })
  | [] => if ch.closed then some (none, ch) else none

def close (ch : Chan α capacity) : Chan α capacity := { ch with closed := true }

theorem send_eq_some {ch ch' : Chan α capacity} (h : ch.send a = some ch') :
    ch.buffer.length < capacity ∧ ch'.buffer = ch.buffer ++ [a] ∧ ch'.closed = ch.closed := by
  unfold send at h
  split at h <;> cases h
  rename_i room
  exact ⟨room, rfl, rfl⟩

theorem send_isSome (ch : Chan α capacity) (a : α) :
    (ch.send a).isSome = true ↔ ch.buffer.length < capacity := by
  unfold send
  split <;> simp_all

theorem safeSend_eq_some {ch ch' : Chan α capacity} (h : ch.safeSend a = some ch')
    (isOpen : ch.closed = false) : ch'.buffer = ch.buffer ++ [a] ∧ ch'.closed = false := by
  rw [safeSend, isOpen, if_neg (by simp)] at h
  obtain ⟨-, buffer, closed⟩ := send_eq_some h
  exact ⟨buffer, closed.trans isOpen⟩

theorem safeSend_closed {ch ch' : Chan α capacity} (h : ch.safeSend a = some ch') :
    ch'.closed = ch.closed := by
  unfold safeSend at h
  split at h
  · cases h
    rfl
  · exact (send_eq_some h).2.2

theorem safeSend_isSome {ch : Chan α capacity} (a : α) (room : ch.buffer.length < capacity) :
    (ch.safeSend a).isSome = true := by
  unfold safeSend
  split
  · rfl
  · exact (send_isSome ch a).mpr room

theorem recv_eq_some {ch ch' : Chan α capacity} (h : ch.recv = some (r, ch')) :
    ch'.closed = ch.closed ∧ (match r with
      | some a => ch.buffer = a :: ch'.buffer
      | none => ch.buffer = [] ∧ ch.closed = true ∧ ch' = ch) := by
  unfold recv at h
  split at h
  next a rest eq =>
    cases h
    exact ⟨rfl, eq⟩
  next eq =>
    split at h <;> cases h
    rename_i closed
    exact ⟨rfl, eq, closed, rfl⟩

theorem recv_isSome (ch : Chan α capacity) :
    ch.recv.isSome = true ↔ ch.buffer ≠ [] ∨ ch.closed = true := by
  unfold recv
  split
  next eq => simp [eq]
  next eq => split <;> simp_all

end Chan

end Go
