import Mathlib.Tactic.Common

/-!
# Files whose operations may fail

A file that holds one value, written whole. An operation that fails may have been carried out
or not; a write that fails may also have stopped half-way, and then nobody can read the file.
The three relations say what an answer means: `Reads`, `Writes` and `Removes`.
-/

namespace Framework

/-- A file that holds a value of type `α`. -/
inductive Stored (α : Type) where
  | missing
  | damaged
  | holds (a : α)
  deriving DecidableEq

namespace Stored

variable {α : Type}

def present : Stored α → Bool
  | missing => false
  | damaged | holds _ => true

def value : Stored α → Option α
  | holds a => some a
  | missing | damaged => none

/-- A read answers with the value, or with nothing where there is no file; a file that is
damaged cannot be read, and any read may fail. -/
def Reads (file : Stored α) : Except String (Option α) → Prop
  | .ok none => file = .missing
  | .ok (some a) => file = .holds a
  | .error _ => True

def Writes (old : Stored α) (a : α) (new : Stored α) : Except String Unit → Prop
  | .ok _ => new = .holds a
  | .error _ => new = old ∨ new = .damaged ∨ new = .holds a

def Removes (old new : Stored α) : Except String Unit → Prop
  | .ok _ => new = .missing
  | .error _ => new = old ∨ new = .missing

def read : Stored α → Except String (Option α)
  | missing => .ok none
  | damaged => .error "the file cannot be read"
  | holds a => .ok (some a)

theorem reads_read (file : Stored α) : file.Reads file.read := by
  cases file with
  | missing => rfl
  | damaged => trivial
  | holds a => rfl

variable {answer : Option α} {file : Stored α}

theorem Reads.value (h : file.Reads (.ok answer)) :
    file.value = answer := by
  cases answer with
  | none =>
    obtain rfl : file = .missing := h
    rfl
  | some a =>
    obtain rfl : file = .holds a := h
    rfl

theorem Reads.present (h : file.Reads (.ok answer)) :
    file.present = answer.isSome := by
  cases answer with
  | none =>
    obtain rfl : file = .missing := h
    rfl
  | some a =>
    obtain rfl : file = .holds a := h
    rfl

theorem Writes.present {old new : Stored α} {a : α} {answer : Except String Unit}
    (h : old.Writes a new answer) (hold : old.present = true) : new.present = true := by
  cases answer with
  | ok _ =>
    obtain rfl : new = .holds a := h
    rfl
  | error _ => rcases h with rfl | rfl | rfl <;> first | exact hold | rfl

end Stored

end Framework
