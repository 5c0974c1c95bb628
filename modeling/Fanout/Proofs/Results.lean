import Fanout.Fault

/-!
# Results that may be errors

Much of what is read is read in steps, and the first step that fails decides. A
result that is no error therefore has had every step succeed, and these lemmas
give the steps back one by one, so that no proof has to go through the ways in
which a step can fail.
-/

namespace Fanout

variable {ε ε' α β : Type} {x : Except ε α} {a : α} {b : β}

theorem ok_of_bind {next : α → Except ε β} (h : (x >>= next) = .ok b) :
    ∃ a, x = .ok a ∧ next a = .ok b := by
  cases x with
  | error fault => cases h
  | ok a => exact ⟨a, rfl, h⟩

theorem ok_of_map {put : α → β} (h : x.map put = .ok b) :
    ∃ a, x = .ok a ∧ b = put a := by
  cases x with
  | error fault => cases h
  | ok a =>
      cases h
      exact ⟨a, rfl, rfl⟩

theorem ok_of_mapError {change : ε → ε'}
    (h : x.mapError change = .ok a) : x = .ok a := by
  cases x with
  | error fault => cases h
  | ok a =>
      cases h
      rfl

theorem ok_of_toOption (h : x.toOption = some a) : x = .ok a := by
  cases x with
  | error fault => cases h
  | ok a =>
      cases h
      rfl

theorem ok_of_isOk (h : x.isOk = true) : ∃ a, x = .ok a := by
  cases x with
  | error fault => cases h
  | ok a => exact ⟨a, rfl⟩

end Fanout
