/-!
# Logs that grow at their end

Whatever happens is added to a log at its end. So an entry of a log is the one that was added last,
or it lies where it lay before.
-/

namespace ControlPlane
variable {α : Type}

theorem append_singleton_split {log before after : List α} {a last : α}
    (h : log ++ [last] = before ++ a :: after) :
    before = log ∧ a = last ∧ after = [] ∨ ∃ after', after = after' ++ [last] ∧
      log = before ++ a :: after' := by
  rcases List.eq_nil_or_concat after with rfl | ⟨after', b, rfl⟩
  · obtain ⟨rfl, same⟩ := List.append_inj' h rfl
    cases same
    exact .inl ⟨rfl, rfl, rfl⟩
  · rw [List.concat_eq_append, ← List.cons_append, ← List.append_assoc] at h
    obtain ⟨rfl, same⟩ := List.append_inj' h rfl
    cases same
    exact .inr ⟨after', List.concat_eq_append, rfl⟩

end ControlPlane
