import ControlPlane.Proofs.Concurrent.ContractInSystem
import ControlPlane.Proofs.Operation.OutwardRequests
import ControlPlane.Proofs.Operation.OwnItem

/-!
# Contracts that build on the discipline

Once it is known that all jobs keep to the discipline, a job can be looked at again, for requests
that it only makes under certain conditions. It need not be shown a second time that its steps are
allowed, and more may be known of the steps of others.
-/

namespace ControlPlane.Concurrent
open Control

/-- The contract of a job that is known to keep to the discipline. -/
def reviewed (more : Shared → Shared → Prop)
    (fit : List Exchange → Shared → Request → Prop) (node : NodeId) (job : Nat) :
    Contract where
  job := job
  invariant := Coherent
  rely := Relation.ReflTransGen fun a b => Passes job node a b ∧ more a b
  allow _ _ := True
  fit := fit
  rely_refl _ := .refl
  rely_trans := .trans
  allow_refl _ := trivial

variable {more : Shared → Shared → Prop}
  {fit fit' : List Exchange → Shared → Request → Prop} {node : NodeId} {job : Nat} {α : Type}
  {Q : α → Assertion} {p : Program surroundings α} {past : List Exchange} {s : Shared}
  {K : Request → Prop}

theorem stable_reviewed {R : Assertion}
    (step : ∀ {past a b}, Coherent a → Others job node a b → more a b →
      R past a → R past b) :
    Stable (reviewed more fit node job) R := by
  intro past s s' rely inv h
  clear inv
  change Relation.ReflTransGen _ s s' at rely
  induction rely with
  | refl => exact h
  | tail _ passes ih => exact step passes.1.before passes.1.others passes.2 ih

theorem rely_of_reviewed {s s' : Shared} (rely : (reviewed more fit node job).rely s s') :
    (discipline fit' node job).rely s s' :=
  Relation.ReflTransGen.mono (fun _ _ h => h.1) _ _ rely

theorem Stable.again {R : Assertion} (stable : Stable (discipline fit' node job) R) :
    Stable (reviewed more fit node job) R :=
  fun _ _ _ rely inv h => stable (rely_of_reviewed rely) inv h

/-- What is safe under the discipline is safe at the second look, as far as it only makes requests
that may always be made. -/
theorem Safe.again {P : α → Prop} (h : Safe (discipline fit' node job) Q p past s)
    (within : p.Within K P) (fits : ∀ {r past s}, K r → fit past s r) :
    Safe (reviewed more fit node job) Q p past s := by
  induction p generalizing past s with
  | done a => exact h
  | ask r rest ih =>
    intro s₁ rely₁ inv₁
    obtain ⟨-, h⟩ := h s₁ (rely_of_reviewed rely₁) inv₁
    refine ⟨trivial, fun s₂ rely₂ inv₂ => ⟨fits within.1,
      fun reply s₃ answers => ⟨trivial, ?_⟩⟩⟩
    obtain ⟨-, h⟩ := h s₂ (rely_of_reviewed rely₂) inv₂
    exact ih reply (h reply s₃ answers).2 (within.2 reply)

/-- What a job has learned does not go away, whatever it asks for next. -/
theorem Safe.learned {P : α → Prop} {R : List Exchange → Prop} (within : p.Within K P)
    (fits : ∀ {r past s}, K r → R past → fit past s r)
    (grows : ∀ {past e}, R past → R (past ++ [e])) (h : R past) :
    Safe (reviewed more fit node job) (fun a past _ => P a ∧ R past) p past s := by
  induction p generalizing past s with
  | done a => exact ⟨within, h⟩
  | ask r rest ih =>
    intro s₁ _ _
    refine ⟨trivial, fun s₂ _ _ => ⟨fits within.1 h,
      fun reply s₃ _ => ⟨trivial, ?_⟩⟩⟩
    exact ih reply (within.2 reply) (grows h)

open Work Operation Procedure in
/-- An operation is safe at the second look if its body is, from the moment its item is open. -/
theorem Safe.underWork {ctx : Context} {v : VmId} {operation : Operation} {plan : Option Plan}
    {body : Item → Body α} (clerical : ∀ {r past s}, r.Clerical → fit past s r)
    (closes : ∀ {item step now past s}, fit past s (.transact (.closeItem item step now)))
    (idle : Idle job s) (each : ∀ {item past s}, item.vm = v → Working job item plan s →
      Safe (reviewed more fit item.owner job) Anyhow (body item).run past s) :
    Safe (reviewed more fit ctx.node.id job) Anyhow
      (underWork ctx v operation plan body).run past s := by
  have begins : Safe (operating ctx.node.id job) _
    (Work.start ctx.node v operation plan).run past s :=
    safe_begin idle
  refine Safe.andThen (begins.again (start_within ..) clerical) (fun item past s h => ?_)
    fun _ _ _ _ => trivial
  obtain ⟨owner, subject, working, -⟩ := h
  refine Safe.ofProgram (Q := Anyhow) (owner ▸ each subject working) fun ending past s _ => ?_
  have settles : (settle ctx item ending).run.Within (fun r => ∀ past s, fit past s r) _ :=
    settle_asks (fun _ h _ _ => clerical h) fun _ _ _ _ => closes
  exact (Safe.learned (R := fun _ => True) settles (fun fits _ => fits _ _) (fun _ => trivial)
    trivial).mono fun _ _ _ _ => trivial

end ControlPlane.Concurrent
