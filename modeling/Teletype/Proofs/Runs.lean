import Mathlib

/-!
# Runs

The longest run of elements with a property, and what stands behind it.
-/

namespace Teletype

variable {α : Type} {p : α → Bool} {xs ys : List α} {y : α}

/-- A run that is stopped, by what stops it. -/
lemma takeWhile_of_dropWhile_cons (rest : xs.dropWhile p = y :: ys) :
    xs = xs.takeWhile p ++ y :: ys ∧ p y = false := by
  refine ⟨?_, ?_⟩
  · rw [← rest, List.takeWhile_append_dropWhile]
  · have stop := List.head?_dropWhile_not p xs
    rw [rest] at stop
    simpa using stop

/-- A run that nothing stops is all there is. -/
lemma takeWhile_of_dropWhile_nil (rest : xs.dropWhile p = []) : xs.takeWhile p = xs := by
  have split := List.takeWhile_append_dropWhile (p := p) (l := xs)
  rwa [rest, List.append_nil] at split

/-- The longest run of elements with `p` ends at the first one without it. -/
lemma takeWhile_append_stop (all : ∀ x ∈ xs, p x = true) (stop : ∀ y ∈ ys.head?, p y = false) :
    (xs ++ ys).takeWhile p = xs ∧ (xs ++ ys).dropWhile p = ys := by
  rw [List.takeWhile_append_of_pos all, List.dropWhile_append_of_pos all]
  cases ys with
  | nil => simp
  | cons y ys =>
    have hy : p y = false := stop y rfl
    simp [hy]

/-- Where the elements with `p` end is no matter of choice. -/
lemma append_stop_inj {us vs : List α} {v : α} (hx : ∀ x ∈ xs, p x = true)
    (hu : ∀ u ∈ us, p u = true) (hy : p y = false) (hv : p v = false)
    (same : xs ++ y :: ys = us ++ v :: vs) : xs = us ∧ y :: ys = v :: vs := by
  have stopY : ∀ z ∈ (y :: ys).head?, p z = false := by simpa using hy
  have stopV : ∀ z ∈ (v :: vs).head?, p z = false := by simpa using hv
  obtain ⟨front, behind⟩ := takeWhile_append_stop hx stopY
  obtain ⟨front', behind'⟩ := takeWhile_append_stop hu stopV
  rw [same] at front behind
  exact ⟨front.symm.trans front', behind.symm.trans behind'⟩

end Teletype
