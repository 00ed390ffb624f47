/-
# Handoff.Tag.Walk — walking a tag tree

The walk keeps a stack of tags that are still to be visited. A step takes the top tag off, puts its
children on in its place, from the last to the first, and yields the tag. `preorder` says what the walk
yields: a tag, and then the pre-orders of its children in turn. The walk ends because a step removes one
tag from the trees on the stack.
-/

import Handoff.Tag.Basic

namespace Handoff.Tag

/-! ## Pre-order -/

mutual

/-- A tag, then its children's pre-orders in turn. -/
def preorder : Tag → List Tag
  | t@⟨_, children⟩ => t :: preorderList children

def preorderList : List Tag → List Tag
  | [] => []
  | t :: ts => preorder t ++ preorderList ts

end

/-! ## The walk -/

mutual

/-- The number of tags in a tree. -/
def count : Tag → Nat
  | ⟨_, children⟩ => 1 + countList children

def countList : List Tag → Nat
  | [] => 0
  | t :: ts => count t + countList ts

end

theorem count_eq (t : Tag) : t.count = 1 + countList t.children := by
  cases t; rfl

theorem countList_append (ts us : List Tag) :
    countList (ts ++ us) = countList ts + countList us := by
  induction ts with
  | nil => simp [countList]
  | cons t ts ih => simp [countList, ih, Nat.add_assoc]

/-- Puts tags on a stack one after another, so the last of them ends up on top. -/
def pushAll (stack tags : List Tag) : List Tag :=
  tags.foldl (fun stack t => t :: stack) stack

theorem pushAll_reverse (stack tags : List Tag) : pushAll stack tags.reverse = tags ++ stack := by
  rw [pushAll, List.foldl_reverse]
  exact List.foldr_cons_eq_append'

/-- One step: the tag on top of the stack, and the stack behind it. -/
def next? : List Tag → Option (Tag × List Tag)
  | [] => none
  | t :: stack => some (t, pushAll stack t.children.reverse)

theorem next?_cons (t : Tag) (stack : List Tag) : next? (t :: stack) = some (t, t.children ++ stack) := by
  rw [next?, pushAll_reverse]

/-- A step takes one tag out of the trees on the stack. The stack itself may grow. -/
theorem countList_of_next? {stack rest : List Tag} {t : Tag} (h : next? stack = some (t, rest)) :
    countList stack = countList rest + 1 := by
  cases stack with
  | nil => cases h
  | cons u us =>
    rw [next?_cons] at h
    cases h
    rw [countList_append, countList, count_eq]
    omega

/-- All that a walk yields from this stack on. -/
def walk (stack : List Tag) : List Tag :=
  match _h : next? stack with
  | none => []
  | some (t, rest) => t :: walk rest
termination_by countList stack
decreasing_by
  rw [countList_of_next? _h]
  exact Nat.lt_succ_self _

/-- The first tag of a walk with the given name. -/
def find? (t : Tag) (name : String) : Option Tag :=
  (walk [t]).find? fun u => u.name == name

end Handoff.Tag
