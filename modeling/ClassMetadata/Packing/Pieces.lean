/-!
# Pieces of a list

`pieces size l` cuts a list into pieces of one size; the last piece has what is left over and is
never empty.

* `pieces_cons` peels off the first piece, and so describes the whole cut.
-/

namespace ClassMetadata.Packing

variable {α : Type}

/-- The pieces of a list, behind those in `done`, which are in reverse. -/
def piecesFrom (size : Nat) (done : List (List α)) (l : List α) : List (List α) :=
  match l with
  | [] => done.reverse
  | a :: rest => piecesFrom size ((a :: rest.take size) :: done) (rest.drop size)
termination_by l.length
decreasing_by
  simp only [List.length_drop, List.length_cons]
  omega

/-- The list cut into pieces of `size` members; a size of zero counts as one. -/
def pieces (size : Nat) (l : List α) : List (List α) :=
  piecesFrom (size - 1) [] l

/-- The pieces that are done stand before those to come. -/
theorem piecesFrom_append (size : Nat) (done before : List (List α)) (l : List α) :
    piecesFrom size (done ++ before) l = before.reverse ++ piecesFrom size done l := by
  fun_induction piecesFrom size done l with
  | case1 done => simp [piecesFrom]
  | case2 done a rest ih =>
    rw [piecesFrom, ← ih, List.cons_append]

/-- An empty list has no pieces. -/
@[simp] theorem pieces_nil (size : Nat) : pieces size ([] : List α) = [] := by
  simp [pieces, piecesFrom]

/-- The first piece holds the first members of the list, and the others are the pieces of the rest.
-/
theorem pieces_cons {size : Nat} (hsize : 0 < size) {l : List α} (hl : l ≠ []) :
    pieces size l = l.take size :: pieces size (l.drop size) := by
  obtain ⟨n, rfl⟩ : ∃ n, size = n + 1 := ⟨size - 1, by omega⟩
  cases l with
  | nil => contradiction
  | cons a rest =>
    rw [pieces, pieces, piecesFrom]
    exact piecesFrom_append n [] [a :: rest.take n] _

end ClassMetadata.Packing
