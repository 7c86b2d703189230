import Mathlib.Tactic.Common

/-!
# Dynamic scopes

A function that runs reads a variable in its own frame and, where it has not set it, in the
frames of its callers; it assigns in its own frame only, and that frame is gone when it
returns. So a variable of the caller cannot be changed by an assignment of the callee
(`leave_assign_enter`), although the callee has read it (`read_enter`).
-/

namespace Framework

variable {κ ν : Type} [DecidableEq κ]

abbrev Frame (κ ν : Type) := κ → Option ν

abbrev Scopes (κ ν : Type) := List (Frame κ ν)

namespace Scopes

def read (x : κ) : Scopes κ ν → Option ν
  | [] => none
  | frame :: callers => (frame x).or (read x callers)

def assign (x : κ) (v : ν) : Scopes κ ν → Scopes κ ν
  | [] => []
  | frame :: callers => (fun y => if y = x then some v else frame y) :: callers

def enter (scopes : Scopes κ ν) : Scopes κ ν := (fun _ => none) :: scopes

def leave (scopes : Scopes κ ν) : Scopes κ ν := scopes.tail

variable (scopes : Scopes κ ν) (x y : κ) (v : ν)

omit [DecidableEq κ] in
@[simp] theorem read_enter : (enter scopes).read x = scopes.read x := Option.none_or

omit [DecidableEq κ] in
@[simp] theorem leave_enter : (enter scopes).leave = scopes := rfl

@[simp] theorem read_assign_enter :
    ((enter scopes).assign x v).read y = if y = x then some v else scopes.read y := by
  change (if y = x then some v else none).or (scopes.read y) = _
  split <;> rfl

@[simp] theorem read_assign_assign (x' : κ) (v' : ν) :
    (((enter scopes).assign x v).assign x' v').read y =
      if y = x' then some v' else if y = x then some v else scopes.read y := by
  change (if y = x' then some v' else if y = x then some v else none).or (scopes.read y) = _
  split
  · rfl
  · split <;> rfl

/-- **What a function assigns is gone when it returns.** -/
@[simp] theorem leave_assign_enter : ((enter scopes).assign x v).leave = scopes := rfl

end Scopes

end Framework
