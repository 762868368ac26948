import Mathlib.Data.List.Basic

namespace TorrentPlayer.Library

/-!
# Checks before a result

A function that returns an error when a check fails has a result just when the
check passed and the rest has it.
-/

variable {Error Result : Type*} {check : Prop} [Decidable check] {error : Error}
  {rest : Except Error Result} {result : Result}

theorem error_else_eq_ok : (if check then .error error else rest) = .ok result <->
    ¬ check /\ rest = .ok result := by
  by_cases failed : check <;> simp [failed]

theorem else_error_eq_ok : (if check then rest else .error error) = .ok result <->
    check /\ rest = .ok result := by
  by_cases passed : check <;> simp [passed]

end TorrentPlayer.Library
