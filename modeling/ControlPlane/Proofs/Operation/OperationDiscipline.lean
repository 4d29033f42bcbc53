import ControlPlane.Operation.Local
import ControlPlane.Operation.Scale
import ControlPlane.Proofs.Operation.OutwardRequests
import ControlPlane.Proofs.Operation.OwnItem

/-!
# Operations keep to the discipline

Each operation opens its item while the machine stands still, and sends the machine on its way only
afterwards. When it closes the item, the machine stands still again.
-/

namespace ControlPlane.Concurrent
open Work Control Operation Procedure

variable {job : Nat} {s : Shared} {c : Item} {plan : Option Plan} {P : State → UInt64 → Prop}
  {past : List Exchange} {α β : Type} {ctx : Context}

theorem safe_rests {wrap : Failure → Ending} {action : Procedure α}
    (h : Safe (operating c.owner job) (fun _ past s => ∃ plan, At job c plan Never past s)
      action.run past s) :
    Safe (operating c.owner job) (Rests job c) (action.adapt wrap : Body α).run past s :=
  Safe.adapt (h.mono fun _ _ _ ⟨_, h⟩ => .of_never _ h)

theorem calm_of_local {e : ControlPlane.Event}
    (h : e = .destroyRequested ∨ e = .recoveryRequested ∨
      e = .expungeRequested) (state next : State) (legal : state.next? e = some next) :
    ¬ next.InMotion := by
  rcases h with rfl | rfl | rfl <;> cases state <;> cases legal <;> decide

theorem safe_locally {id : VmId} {operation : Operation} {allowed : List State}
    {e : ControlPlane.Event}
    (calm : ∀ (state next : State), state.next? e = some next → ¬ next.InMotion)
    (idle : Idle job s) :
    Safe (operating ctx.node.id job) (fun _ _ _ => True) (locally ctx id operation allowed e).run
      past s := by
  refine safe_underWork idle fun {item past s} subject h => safe_rests ?_
  refine Safe.andThen (Q := fun _ past s => At job item none Never past s)
    ((safe_quiet (loadVm_within id trivial) h).mono fun _ _ _ h => h.2) ?_
    fun _ _ _ h => ⟨_, h⟩
  intro vm past s h
  refine Safe.ofExcept (fun _ _ => ?_) fun _ _ => ⟨_, h⟩
  refine Safe.andThen (safe_calm (upheld_working job item none) subject.symm
    (fun next legal => calm _ next legal) h.1 h.2) (fun _ _ _ h => ⟨_, h⟩) fun _ _ _ h => ?_
  exact ⟨_, h.1, h.2.mono fun _ _ p => p.1⟩

theorem safe_settling {t : Transition} {wrap : Failure → Ending} {f : Vm → Body β}
    (h : At job c plan P past s) (subject : t.vm = c.vm)
    (calm : ∀ next, t.expected.next? t.event = some next → ¬ next.InMotion)
    (refused : ∀ failure past s, At job c plan P past s →
      Rests (α := β) job c (.error (wrap failure)) past s)
    (next : ∀ vm past s, At job c plan Never past s →
      Safe (operating c.owner job) (Rests job c) (f vm).run past s) :
    Safe (operating c.owner job) (Rests job c)
      ((Transition.run t).adapt wrap >>= f).run past s := by
  refine Safe.adapted (safe_calm (upheld_working job c plan) subject calm h.1 h.2) next ?_
  intro failure past s h
  exact refused failure past s ⟨h.1, h.2.mono fun _ _ p => p.1⟩

theorem safe_departing {t : Transition} {wrap : Failure → Ending} {f : Vm → Body β}
    {next : State} (h : At job c plan Never past s) (subject : t.vm = c.vm)
    (legal : t.expected.next? t.event = some next) (stays : next ≠ .migrating)
    (goes : ∀ vm past s, vm.id = c.vm → At job c plan (fun state _ => state = next) past s →
      Safe (operating c.owner job) (Rests job c) (f vm).run past s) :
    Safe (operating c.owner job) (Rests job c)
      ((Transition.run t).adapt wrap >>= f).run past s := by
  exact Safe.adapted (safe_stir (upheld_working job c plan) (fun h => h) subject legal
    (fun e => absurd e stays) h.1 h.2) (fun vm past s h => goes vm past s h.1 h.2)
    fun _ _ _ h => .of_never _ h

theorem At.unresolved {state : State} (h : At job c plan (fun s _ => s = state) past s)
    (stays : state ≠ .migrating) (failure : Failure) :
    Rests (α := α) job c (.error (.unresolved failure)) past s :=
  ⟨plan, h.1, h.2.mono fun _ _ e => e ▸ stays⟩

theorem safe_stopBody {id : VmId} {force : Bool} (subject : c.vm = id)
    (h : At job c plan Never past s) :
    Safe (operating c.owner job) (Rests job c) (stopBody ctx id force).run past s := by
  refine safe_look (loadVm_within id trivial) h fun vm past s h => ?_
  refine safe_require h fun _ _ => ?_
  refine safe_require h fun host _ => ?_
  refine safe_look (requireGuru_within vm.role).quiet h fun _ past s h => ?_
  refine safe_look (Program.Within.demand trivial) h fun _ past s h => ?_
  refine safe_departing h subject.symm rfl nofun fun _ past s _ h => ?_
  refine safe_query (sendResolved_within ..) h fun resolution past s _ h => ?_
  cases resolution with
  | succeeded =>
    refine safe_settling h subject.symm (by rintro _ ⟨⟩; decide)
      (fun failure _ _ h => h.unresolved nofun failure) fun stopped past s h => ?_
    refine safe_query (Program.Within.call trivial) h fun _ past s _ h => ?_
    exact Rests.of_never _ h
  | failed failure =>
    refine safe_settling h subject.symm (by rintro _ ⟨⟩; decide)
      (fun failure _ _ h => h.unresolved nofun failure) fun _ past s h => ?_
    exact Rests.of_never _ h
  | unknown failure => exact h.unresolved nofun failure

theorem safe_stop {id : VmId} {force : Bool} (idle : Idle job s) :
    Safe (operating ctx.node.id job) (fun _ _ _ => True) (stop ctx id force).run past s :=
  safe_underWork idle fun subject h => safe_stopBody subject h

theorem safe_load {id : VmId} {wrap : Failure → Ending} {f : Vm → Body β}
    (h : At job c plan Never past s)
    (next : ∀ vm past s, vm.id = id → At job c plan Never past s →
      Safe (operating c.owner job) (Rests job c) (f vm).run past s) :
    Safe (operating c.owner job) (Rests job c) ((loadVm id).adapt wrap >>= f).run past s := by
  exact Safe.adapted (safe_loadVm (T := fun vm _ _ => vm.id = id) (K := Request.Quiet) trivial
    (upheld_working job c plan).lasting_bound h fun _ stored _ => Store.id_of_vm? stored)
    (fun vm past s h => next vm past s (h.2 vm rfl) h.1) fun _ _ _ h => .of_never _ h.1

/-- Nothing that is about machines at rest is wrong for machines on their way. -/
theorem At.of_never (h : At job c plan Never past s) : At job c plan P past s :=
  ⟨h.1, h.2.mono fun _ _ => False.elim⟩

theorem safe_finishStart {starting : Vm} (subject : starting.id = c.vm)
    (h : At job c plan (fun state _ => state = .starting) past s) :
    Safe (operating c.owner job) (Ends (fun _ => At job c plan Never)
      (At job c plan fun state _ => state = .starting)) (finishStart starting).run past s := by
  refine Safe.andThen (Q := Ends (fun _ => At job c plan Never)
    (At job c plan fun state _ => state = .starting))
    ((safe_calm (upheld_working job c plan) subject (by rintro _ ⟨⟩; decide) h.1 h.2).mono ?_)
    ?_ fun _ _ _ h => h
  · intro result past s ends
    rcases result with failure | vm
    · exact ⟨ends.1, ends.2.mono fun _ _ p => p.1⟩
    · exact ends
  intro running past s h
  have loaded : ∀ past s, At job c plan Never past s →
      Safe (operating c.owner job) (Ends (fun _ => At job c plan Never)
        (At job c plan fun state _ => state = .starting)) (loadVm running.id).run past s := by
    intro past s h
    refine (safe_quiet (loadVm_within running.id trivial) h).mono ?_
    intro result past s h
    obtain ⟨-, h⟩ := h
    rcases result with failure | vm
    · exact h.of_never
    · exact h
  cases pending : starting.credentialsPending with
  | false => exact loaded past s h
  | true =>
    refine Safe.andThen (Q := fun _ => At job c plan Never)
      (safe_write rfl rfl (by rintro _ ⟨⟩) (fun _ => trivial) h) (fun _ => loaded)
      fun _ _ _ h => h.of_never

theorem safe_startOn {vm starting : Vm} {host : HostId} (subject : starting.id = c.vm)
    (h : At job c plan (fun state _ => state = .starting) past s)
    {f : StartAttempt → Body β}
    (running : ∀ vm past s, At job c plan Never past s →
      Safe (operating c.owner job) (Rests job c) (f (.running vm)).run past s)
    (refused : ∀ failure past s, At job c plan (fun state _ => state = .starting) past s →
      Safe (operating c.owner job) (Rests job c) (f (.refused failure)).run past s) :
    Safe (operating c.owner job) (Rests job c) (startOn ctx vm starting host >>= f).run past s := by
  refine Safe.andThen (Q := fun result past s => match result with
    | .ok (.running _) => At job c plan Never past s
    | .ok (.refused _) => At job c plan (fun state _ => state = .starting) past s
    | .error e => Rests (α := β) job c (.error e) past s) ?_ ?_ fun _ _ _ h => h
  · refine safe_query (sendResolved_within ..) h fun resolution past s _ h => ?_
    cases resolution with
    | unknown failure => exact h.unresolved (α := β) nofun failure
    | failed failure => exact h
    | succeeded =>
      refine safe_query (Program.Within.call trivial) h fun finalized past s _ h => ?_
      rcases finalized with failure | _
      · exact safe_query (forceStop_within ..) h fun _ past s _ h => h
      · exact Safe.adapted (safe_finishStart subject h) (fun _ _ _ h => h)
          fun failure _ _ h => h.unresolved (α := β) nofun failure
  · intro result past s h
    rcases result with vm | failure
    · exact running vm past s h
    · exact refused failure past s h

/-- The first attempt is rejected if it fails before anything is sent. -/
theorem refusing (first : Bool) (action : Procedure α) :
    (if first then rejecting else failing) action =
      action.adapt (if first then .rejected else .failed) := by
  cases first <;> rfl

theorem safe_tryStart {vm : Vm} (subject : vm.id = c.vm) (remaining : Nat)
    (excluded : Placement.Exclusions) (last : Option Failure) (h : At job c plan Never past s) :
    Safe (operating c.owner job) (Rests job c) (tryStart ctx vm remaining excluded last).run
      past s := by
  induction remaining generalizing excluded last past s with
  | zero => exact Rests.of_never _ h
  | succ remaining ih =>
    refine safe_look (Program.Within.call trivial) h fun chosen past s h => ?_
    cases chosen with
    | none => exact Rests.of_never _ h
    | some host =>
      refine safe_load h fun current past s _ h => ?_
      simp only [refusing]
      refine safe_departing h subject rfl nofun fun starting past s named h => ?_
      refine safe_startOn named h (fun _ _ _ h => Rests.of_never _ h) fun failure past s h => ?_
      exact safe_settling h subject (by rintro _ ⟨⟩; decide)
        (fun failure _ _ h => h.unresolved nofun failure) fun _ _ _ h => ih _ _ h

theorem safe_start {id : VmId} (idle : Idle job s) :
    Safe (operating ctx.node.id job) (fun _ _ _ => True) (start ctx id).run past s := by
  refine safe_underWork idle fun subject h => ?_
  refine safe_load h fun vm past s named h => ?_
  refine safe_require h fun _ _ => ?_
  refine safe_look (requireGuru_within vm.role).quiet h fun _ past s h => ?_
  exact safe_tryStart (named.trans subject.symm) _ _ _ h

end ControlPlane.Concurrent
