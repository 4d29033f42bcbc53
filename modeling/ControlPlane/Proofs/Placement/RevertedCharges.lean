import ControlPlane.Placement.RetryLoop

/-!
# Charges are taken back

When nobody knows how an attempt has ended, it is the last one. The loop asks once more to take back
what it has charged, and then it is over. If the charge cannot be taken back, the loop ends with
that failure, and not with the one that somebody would have to reconcile.
-/

namespace ControlPlane

/-- The program comes to an end, given what its requests are answered with. -/
inductive Program.Comes {I : Interface} {α : Type} :
    Program I α → List (Σ r : I.Request, I.Reply r) → α → Prop
  | done (a : α) : Comes (.done a) [] a
  | ask {r : I.Request} {rest : I.Reply r → Program I α} {reply : I.Reply r}
      {log : List (Σ r : I.Request, I.Reply r)} {a : α} (goes : Comes (rest reply) log a) :
      Comes (.ask r rest) (⟨r, reply⟩ :: log) a

namespace Placement
variable {α β γ : Type} {failure : Failure} {call : Call} {target : Target}

def Unclear (failure : Failure) : (call : Call) → (calls α).Reply call → Prop
  | .attempt _, reply => reply = .error failure ∧ failure.NeedsReconciliation
  | _, _ => False

/-- How the program goes on after an attempt whose end is unclear. -/
def Strands (lost : Failure → Program (calls α) β → Prop) : Program (calls α) β → Prop
  | .done _ => True
  | .ask call rest => ∀ reply,
      (∀ failure, Unclear failure call reply → lost failure (rest reply)) ∧
      Strands lost (rest reply)

theorem Strands.bind {lost : Failure → Program (calls α) β → Prop}
    {lost' : Failure → Program (calls α) γ → Prop} {p : Program (calls α) β}
    {f : β → Program (calls α) γ} (h : Strands lost p)
    (left : ∀ failure q, lost failure q → lost' failure (q >>= f))
    (next : ∀ b, Strands lost' (f b)) :
    Strands lost' (p >>= f) := by
  induction p with
  | done b => exact next b
  | ask call rest ih =>
    intro reply
    obtain ⟨unclear, goes⟩ := h reply
    exact ⟨fun failure lost => left failure _ (unclear failure lost), ih reply goes⟩

theorem strands_ask {lost : Failure → Program (calls α) β → Prop}
    {rest : (calls α).Reply call → Program (calls α) β}
    (calm : ∀ target, call ≠ .attempt target) (next : ∀ reply, Strands lost (rest reply)) :
    Strands lost (.ask call rest) := by
  intro reply
  refine ⟨fun failure unclear => ?_, next reply⟩
  cases call with
  | attempt target => exact absurd rfl (calm target)
  | _ => exact unclear.elim

namespace Loop

def Fails (failure : Failure) (p : Program (calls α) (Except Failure (Attempt α × Exclusions))) :
    Prop :=
  failure.NeedsReconciliation ∧ ∃ host excluded,
    p = .done (.ok (.failed host failure, excluded))

def Misses (failure : Failure) (p : Program (calls α) (Except Failure (Attempt α))) : Prop :=
  failure.NeedsReconciliation ∧ ∃ host, p = .done (.ok (.failed host failure))

def lastly (failure : Failure) : Program (calls α) (Except Failure β) :=
  (do decrement; throw failure : Loop α β).run

theorem strands_tryOn : Strands Misses (tryOn (α := α) target).run := by
  intro reply
  constructor
  · intro failure unclear
    obtain ⟨rfl, unknown⟩ := unclear
    exact ⟨unknown, target.host, rfl⟩
  · cases reply <;> trivial

theorem strands_tryElsewhere (excluded : Exclusions) :
    Strands Misses (tryElsewhere (α := α) excluded).run := by
  refine strands_ask nofun fun chosen => ?_
  rcases chosen with failure | _ | host
  · trivial
  · trivial
  · refine strands_ask nofun fun room => ?_
    rcases room with failure | _ | _
    · trivial
    · trivial
    · exact strands_tryOn

theorem strands_attempt (growth : Growth) (excluded : Exclusions) :
    Strands Fails (attempt (α := α) growth excluded).run := by
  have paired : ∀ {excluded : Exclusions} {p : Loop α (Attempt α)}, Strands Misses p.run →
      Strands Fails (do return (← p, excluded) : Loop α (Attempt α × Exclusions)).run := by
    intro excluded p h
    refine Strands.bind h ?_ fun result => by cases result <;> trivial
    intro failure q lost
    obtain ⟨unknown, host, rfl⟩ := lost
    exact ⟨unknown, host, excluded, rfl⟩
  unfold attempt
  split
  · refine strands_ask nofun fun room => ?_
    rcases room with failure | _ | _
    · trivial
    · exact paired (strands_tryElsewhere _)
    · exact paired strands_tryOn
  · exact paired (strands_tryElsewhere _)

theorem strands_reverting {action : Loop α (Attempt α × Exclusions)}
    (h : Strands Fails action.run) :
    Strands Fails (reverting action).run := by
  refine Strands.bind h ?_ fun result => ?_
  · intro failure q lost
    obtain ⟨unknown, host, excluded, rfl⟩ := lost
    exact ⟨unknown, host, excluded, rfl⟩
  · rcases result with failure | pair
    · exact strands_ask nofun fun reply => by cases reply <;> trivial
    · trivial

theorem strands_attempts (growth : Growth) (limit remaining : Nat) (excluded : Exclusions) :
    Strands (fun failure p => p = lastly failure)
      (attempts (α := α) growth limit remaining excluded).run := by
  induction remaining generalizing excluded with
  | zero => trivial
  | succ remaining ih =>
    refine strands_ask nofun fun charged => ?_
    rcases charged with failure | _
    · trivial
    refine Strands.bind (p := (reverting (attempt growth excluded)).run)
      (strands_reverting (strands_attempt growth excluded)) ?_ fun result => ?_
    · intro failure q lost
      obtain ⟨unknown, host, excluded, rfl⟩ := lost
      change ExceptT.run (do
        decrement
        if failure.NeedsReconciliation then throw failure
        else attempts growth limit remaining (excluded.insert host)) = _
      -- The host is not barred, for no other is tried.
      rw [if_pos unknown]
      rfl
    · rcases result with failure | ⟨made, excluded⟩
      · trivial
      cases made with
      | succeeded target value => trivial
      | noRoom host =>
        refine strands_ask nofun fun reply => ?_
        rcases reply with failure | _
        · trivial
        · exact ih _
      | failed host failure =>
        refine strands_ask nofun fun reply => ?_
        rcases reply with refused | _
        · trivial
        · change Strands _ (ExceptT.run (if failure.NeedsReconciliation then throw failure
            else attempts growth limit remaining (excluded.insert host)))
          split
          · trivial
          · exact ih _
      | noCandidate => exact strands_ask nofun fun reply => by cases reply <;> trivial

end Loop

theorem strands_retry (growth : Growth) (limit : Nat) :
    Strands (fun failure p => p = Loop.lastly failure) (retry α growth limit) :=
  Loop.strands_attempts growth limit limit ∅

/-- The last thing that is asked for is to take the charge back. -/
theorem lastly_of_comes {log : List (Σ call : Call, (calls α).Reply call)}
    {result : Except Failure β} (comes : (Loop.lastly (α := α) failure).Comes log result) :
    ∃ reply : Except Failure Unit, log = [⟨.decrement, reply⟩] ∧
      result = reply.bind fun _ => .error failure := by
  cases comes with
  | @ask _ _ reply log _ goes =>
    refine ⟨reply, ?_⟩
    cases reply with
    | error refused =>
      cases goes
      exact ⟨rfl, rfl⟩
    | ok _ =>
      cases goes
      exact ⟨rfl, rfl⟩

theorem reverted_of_comes {p : Program (calls α) (Except Failure β)}
    {log : List (Σ call : Call, (calls α).Reply call)} {result : Except Failure β}
    (strands : Strands (fun failure p => p = Loop.lastly failure) p) (comes : p.Comes log result)
    (attempted : ⟨.attempt target, .error failure⟩ ∈ log)
    (unknown : failure.NeedsReconciliation) :
    ∃ before, ∃ reply : Except Failure Unit,
      log = before ++ [⟨.attempt target, .error failure⟩, ⟨.decrement, reply⟩] ∧
        result = reply.bind fun _ => .error failure := by
  -- On the calls before the attempt; after it the loop has but one left.
  induction comes with
  | done => cases attempted
  | ask goes ih =>
    rcases List.mem_cons.1 attempted with same | later
    · cases same
      have last := (strands _).1 failure ⟨rfl, unknown⟩
      rw [last] at goes
      obtain ⟨reply, rfl, told⟩ := lastly_of_comes goes
      exact ⟨[], reply, rfl, told⟩
    · obtain ⟨before, reply, rfl, told⟩ := ih (strands _).2 later
      exact ⟨_ :: before, reply, rfl, told⟩

end Placement
end ControlPlane
