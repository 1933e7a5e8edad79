/-
  Registers under partial writes: the last write wins.

  An event `e` writes `v` to the register `i` if `write e i = some v`, and leaves `i` alone if it is
  `none`.  After any sequence of events a register holds what the last event that wrote to it
  wrote, or its first value if none did (`foldl_apply`).
-/
import Mathlib.Data.List.Basic

namespace LastWrite

variable {ι ε V : Type*} (write : ε → ι → Option V)

/-- The registers after an event. -/
def apply (c : ι → V) (e : ε) : ι → V := fun i => (write e i).getD (c i)

/-- What the last of the events that write to `i` writes. -/
def last (es : List ε) (i : ι) : Option V := (es.filterMap fun e => write e i).getLast?

@[simp] theorem last_nil (i : ι) : last write [] i = none := rfl

theorem last_append (es es' : List ε) (i : ι) :
    last write (es ++ es') i = (last write es' i).or (last write es i) := by
  simp [last, List.filterMap_append, List.getLast?_append]

theorem last_snoc (es : List ε) (e : ε) (i : ι) :
    last write (es ++ [e]) i = (write e i).or (last write es i) := by
  rw [last_append]
  congr 1
  cases h : write e i <;> simp [last, h]

theorem last_cons (e : ε) (es : List ε) (i : ι) :
    last write (e :: es) i = (last write es i).or (write e i) := by
  rw [← List.singleton_append, last_append, ← List.nil_append [e], last_snoc, last_nil,
    Option.or_none]

/-- **The last write wins.** -/
theorem foldl_apply (i : ι) (es : List ε) : ∀ c : ι → V,
    es.foldl (apply write) c i = (last write es i).getD (c i) := by
  induction es with
  | nil => intro c; rfl
  | cons e es ih =>
    intro c
    rw [List.foldl_cons, ih, last_cons, apply]
    cases last write es i <;> rfl

/-- A register was written last by one of the events that write to it. -/
theorem mem_of_last {es : List ε} {i : ι} {v : V} (h : last write es i = some v) :
    ∃ e ∈ es, write e i = some v := by
  obtain ⟨e, he, hw⟩ := List.mem_filterMap.1 (List.mem_of_getLast? h)
  exact ⟨e, he, hw⟩

theorem last_eq_none_iff {es : List ε} {i : ι} :
    last write es i = none ↔ ∀ e ∈ es, write e i = none := by
  rw [last, List.getLast?_eq_none_iff, List.filterMap_eq_nil_iff]

end LastWrite
