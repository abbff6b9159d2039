import Triad.Session

/-!
# Runs step by step

A run from one session either answers in another session or stops.  Whoever
knows which of the two its first half does from `s` knows how the whole run
goes on, so a run can be followed from one session to the next.
-/

namespace Triad.Run

variable {ι β γ : Type} {r : Run ι β} {f : β → Run ι γ} {s s' : Session ι} {b : β} {stop : Stop}

theorem bind_of_ok (h : r s = .ok b s') : (r >>= f) s = f b s' := by
  simp only [Bind.bind, EStateM.bind, h]

theorem bind_of_stop (h : r s = .error stop s') : (r >>= f) s = .error stop s' := by
  simp only [Bind.bind, EStateM.bind, h]

theorem result_of_ok (h : r s = .ok b s') : r.result s = .ok b := by rw [result, h]

theorem result_of_stop (h : r s = .error stop s') : r.result s = .error stop := by rw [result, h]

theorem ok_of_result (h : r.result s = .ok b) : r s = .ok b (r.final s) := by
  unfold result at h
  unfold final
  cases hr : r s with
  | error stop s' => simp [hr] at h
  | ok b' s' =>
    rw [hr] at h
    obtain rfl := Except.ok.inj h
    rfl

end Triad.Run
