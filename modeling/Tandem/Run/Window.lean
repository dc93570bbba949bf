/-!
# Windows

A window holds the last entries that were put into it, up to a fixed number, in the order in
which they came. It is kept in two halves, so that an entry goes in at one end and out at the
other without a walk through the window. `toList` is the view of a window that everything else
is said with: `toList_push` says that a push appends, and drops the oldest entry when the
window is full.
-/

namespace Tandem

/-- The last entries of a sequence: the older ones in order, then the newer ones with the last
one first. -/
structure Window (α : Type) where
  older : List α
  newer : List α
  size : Nat
  size_eq : size = older.length + newer.length

namespace Window

variable {α : Type}

/-- The window without entries. -/
def empty : Window α := ⟨[], [], 0, rfl⟩

/-- The entries in the order in which they came. -/
def toList (w : Window α) : List α :=
  w.older ++ w.newer.reverse

/-- The window without its oldest entry. -/
def dropOldest (w : Window α) : Window α :=
  match h : w.older with
  | _ :: older =>
    ⟨older, w.newer, w.size - 1, by have := w.size_eq; simp [h] at this; omega⟩
  | [] =>
    match hr : w.newer.reverse with
    | [] => empty
    | _ :: older =>
      ⟨older, [], w.size - 1, by
        have := w.size_eq
        have hl := congrArg List.length hr
        simp [h] at this hl ⊢
        omega⟩

/-- The window with another entry. -/
def append (w : Window α) (a : α) : Window α :=
  ⟨w.older, a :: w.newer, w.size + 1, by have := w.size_eq; simp; omega⟩

/-- The window with another entry, without its oldest one if it holds `cap` entries already. -/
def push (cap : Nat) (w : Window α) (a : α) : Window α :=
  (if cap ≤ w.size then w.dropOldest else w).append a

theorem length_toList (w : Window α) : w.toList.length = w.size := by
  simp [toList, w.size_eq]

@[simp] theorem toList_empty : (empty : Window α).toList = [] := rfl

@[simp] theorem toList_append (w : Window α) (a : α) :
    (w.append a).toList = w.toList ++ [a] := by
  simp [toList, append]

/-- The oldest entry is the first. -/
@[simp] theorem toList_dropOldest (w : Window α) : w.dropOldest.toList = w.toList.tail := by
  unfold dropOldest
  split
  · next h => simp [toList, h]
  · next h =>
    split
    · next hr => simp [toList, h, hr, empty]
    · next hr => simp [toList, h, hr]

/-- The window moves on by the new entry, and drops the oldest one if it is full. -/
theorem toList_push (cap : Nat) (w : Window α) (a : α) :
    (w.push cap a).toList =
      (if cap ≤ w.toList.length then w.toList.tail else w.toList) ++ [a] := by
  rw [push, toList_append, length_toList]
  split <;> simp

end Window

end Tandem
