/-!
# Scanning up to a Character

Most readers take the characters of a text as long as they are of some class and
go on with what is left. On a text that was written for them, the run they take
is known: it ends at the first character of another class.

## Theorems

* `takeWhile_append_cons`, `dropWhile_append_cons`: The run, and what is left.
* `takeWhile_cons_of_false`, `dropWhile_cons_of_false`: An empty run.
-/

namespace PackageSymbols

variable {α : Type} {p : α → Bool}

theorem takeWhile_cons_of_false {a : α} (h : p a = false) (rest : List α) :
    (a :: rest).takeWhile p = [] := by
  rw [List.takeWhile_cons, h, if_neg Bool.false_ne_true]

theorem dropWhile_cons_of_false {a : α} (h : p a = false) (rest : List α) :
    (a :: rest).dropWhile p = a :: rest := by
  rw [List.dropWhile_cons, h, if_neg Bool.false_ne_true]

theorem takeWhile_append_cons {xs : List α} {a : α} (hxs : ∀ x ∈ xs, p x = true)
    (ha : p a = false) (rest : List α) : (xs ++ a :: rest).takeWhile p = xs := by
  rw [List.takeWhile_append_of_pos hxs, takeWhile_cons_of_false ha, List.append_nil]

theorem dropWhile_append_cons {xs : List α} {a : α} (hxs : ∀ x ∈ xs, p x = true)
    (ha : p a = false) (rest : List α) : (xs ++ a :: rest).dropWhile p = a :: rest := by
  rw [List.dropWhile_append_of_pos hxs, dropWhile_cons_of_false ha]

end PackageSymbols
