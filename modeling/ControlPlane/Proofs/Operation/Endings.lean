import ControlPlane.Proofs.Operation.ItemStep

/-!
# How operations end

Every way out of an operation, followed to the record that it leaves. Without another writer all
transitions of an operation are made, so that the only open question is what hosts and collaborators
answer.
-/

namespace ControlPlane

namespace Concurrent
open Work Control Operation Procedure

variable {v : VmId} {job : Nat} {s : Shared} {past : List Exchange} {item : Item}
  {view first : View} {T : List Exchange → Prop} {α β : Type} {ctx : Context} {call : Call}

theorem Stands.forget (h : Stands v item view T past s) :
    Stands v item view (fun _ => True) past s :=
  ⟨h.1, trivial⟩

section
variable {wrap : Failure → Ending} {f : Vm → Body β} {Q : Except Ending β → Assertion}

theorem alone_load (spared : Spared T) (h : Stands v item view T past s)
    (next : ∀ vm past s, view.vm = some vm → Stands v item view T past s →
      Safe (alone v job) Q (f vm).run past s)
    (error : ∀ failure past s, Stands v item view T past s → Q (.error (wrap failure)) past s) :
    Safe (alone v job) Q ((loadVm v).adapt wrap >>= f).run past s :=
  Safe.adapted (alone_loadVm spared h) (fun vm past s h => next vm past s ((h.1 vm).1 rfl) h.2)
    fun failure past s h => error failure past s h.2

theorem alone_moving {t : Transition} {vm : Vm} {next : State} {host lastHost : Option HostId}
    (spared : Spared T) (subject : t.vm = v) (stored : view.vm = some vm)
    (expected : vm.state = t.expected) (pinned : t.version.getD vm.version = vm.version)
    (legal : t.expected.next? t.event = some next)
    (hosted : Transition.hosts vm next t.host = .ok (host, lastHost))
    (h : Stands v item view T past s)
    (goes : ∀ written past s, written = t.written vm next host lastHost →
      Stands v item ⟨some written, view.volumes⟩ T past s →
      Safe (alone v job) Q (f written).run past s) :
    Safe (alone v job) Q (t.run.adapt wrap >>= f).run past s := by
  refine Safe.adapted (alone_moves spared subject stored expected pinned legal hosted h) ?_ ?_
  · intro vm past s h
    obtain ⟨_, ⟨⟩, same, h⟩ := h
    exact goes vm past s same h
  · intro failure past s h
    obtain ⟨_, ⟨⟩, -⟩ := h

end

theorem alone_dispatch (first : View) {k : Agent.Kind} (other : k ≠ .checkState)
    (host : HostId) (body : k.Body) (wait : Span) (h : Stands v item view T past s) :
    Safe (alone v job) (fun _ => Stands v item view (Steady v first view))
      (Agent.dispatch host k body wait).run past s := by
  refine Safe.observe trivial stable_lies h (fun _ _ _ => trivial) ?_
  intro s reply h _ _
  refine ⟨h.1.append (by rintro y ⟨⟩), ?_⟩
  unfold Steady
  rw [viewAtCommand_append, if_pos]
  · exact h.1.view
  · exact Agent.Envelope.commands_ofBody other host body wait

theorem alone_command {β : Type} (first : View) {k : Agent.Kind} (other : k ≠ .checkState)
    (host : HostId) (body : k.Body) (wait : Span)
    {f : Except Failure k.Reply → Program surroundings β}
    (quiet : ∀ result, (f result).Within Request.Quiet fun _ => True)
    (h : Stands v item view T past s) :
    Safe (alone v job) (fun _ => Stands v item view (Steady v first view))
      ((Agent.dispatch host k body wait).run >>= f) past s := by
  refine Safe.then (alone_dispatch first other host body wait h) ?_
  intro result past s h
  refine (Safe.within (quiet result) (fun _ quiet => quiet) lasting_steady h).mono ?_
  exact fun _ _ _ h => h.2

theorem alone_sendResolved (first : View) {k : Agent.Kind} (other : k ≠ .checkState)
    {host : HostId} {token : String} {wanted : PowerState} {body : k.Body} {wait : Span}
    (h : Stands v item view T past s) :
    Safe (alone v job) (fun _ => Stands v item view (Steady v first view))
      (sendResolved ctx host token wanted k body wait) past s := by
  refine alone_command first other host body wait ?_ h
  intro result
  cases result with
  | ok reply => trivial
  | error failure =>
    simp only
    split
    · exact (Agent.powerState_within ..).then fun _ _ => trivial
    · trivial

theorem alone_locally (call : Call) {operation : Operation} {allowed : List State}
    {event : ControlPlane.Event}
    (reaches : ∀ {last}, Follows event first last → call.Reaches first last)
    (h : Waits call.vm first past s) :
    Safe (alone call.vm job) (fun result => Told call first result.isOk)
      (locally ctx call.vm operation allowed event).run past s := by
  refine alone_underWork call h ?_
  intro item past s h
  refine Safe.adapt (Safe.andThen (alone_loadVm spared_unsent h) ?_ fun _ _ _ h => h.2)
  intro vm past s h
  obtain ⟨loaded, h⟩ := h
  have stored : first.vm = some vm := (loaded vm).1 rfl
  refine Safe.ofExcept (fun _ _ => ?_) fun _ _ => h
  refine Safe.andThen (alone_transition spared_unsent rfl h) ?_ fun _ _ _ h => h.2
  intro written past s h
  obtain ⟨vm', u, stored', checked, rfl, h⟩ := h
  rw [stored] at stored'
  cases stored'
  obtain ⟨next, legal, -, -, -, e⟩ := Transition.check_ok checked
  refine ⟨_, reaches ⟨vm, _, stored, rfl, ?_⟩, h.forget⟩
  rw [legal, e]
  rfl

theorem alone_look {action : Procedure α} {wrap : Failure → Ending} {f : α → Body β}
    {Q : Except Ending β → Assertion} (within : action.run.Within Request.Silent fun _ => True)
    (spared : Spared T) (h : Stands v item view T past s)
    (next : ∀ a past s, Stands v item view T past s → Safe (alone v job) Q (f a).run past s)
    (error : ∀ failure past s, Stands v item view T past s → Q (.error (wrap failure)) past s) :
    Safe (alone v job) Q (action.adapt wrap >>= f).run past s :=
  Safe.look within (fun _ silent => silent.1) (lasting_silent spared) h
    (fun a past s _ => next a past s) error

/-- A part of an operation that changes nothing, after a command. -/
theorem alone_query {P : α → Prop} {p : Program surroundings α} {f : α → Body β}
    {Q : Except Ending β → Assertion} (within : p.Within Request.Quiet P)
    (h : Stands v item view (Steady v first view) past s)
    (next : ∀ a past s, Stands v item view (Steady v first view) past s →
      Safe (alone v job) Q (f a).run past s) :
    Safe (alone v job) Q ((liftM p : Body α) >>= f).run past s :=
  Safe.query within (fun _ quiet => quiet) lasting_steady h fun a past s _ => next a past s

theorem alone_stop {force : Bool} {id : VmId} (h : Waits id first past s) :
    Safe (alone id job) (fun result => Told (.stop id force) first result.isOk)
      (stop ctx id force).run past s := by
  refine alone_underWork (.stop id force) h ?_
  intro item past s h
  refine alone_load spared_unsent h ?_ fun _ _ _ h => h
  intro vm past s stored h
  refine Safe.ofAdapted (fun _ stated => ?_) fun _ _ => h
  have running : vm.state = .running := List.mem_singleton.1 (mem_of_requireState stated)
  refine Safe.ofAdapted (fun host hosted => ?_) fun _ _ => h
  have here : vm.host = some host := host_of_requireHost hosted
  refine alone_look (requireGuru_within vm.role) spared_unsent h ?_ fun _ _ _ h => h
  intro _ past s h
  refine alone_look (Program.Within.demand ⟨trivial, fun no => no⟩) spared_unsent
    h ?_ fun _ _ _ h => h
  intro _ past s h
  refine alone_moving spared_unsent rfl stored running rfl rfl
    (Transition.hosts_kept (by decide) here) h ?_
  intro stopping past s leaves h
  refine Safe.ofProgram (alone_sendResolved first (by decide) h) ?_
  intro resolution past s h
  cases resolution with
  | succeeded =>
    refine alone_moving spared_steady rfl rfl (by rw [leaves]; rfl) rfl rfl
      (Transition.hosts_left none (by decide)) h ?_
    intro stopped past s stops h
    refine Safe.query (K := Request.Silent) (Program.Within.call ⟨trivial, fun no => no⟩)
      (fun _ silent => silent.1) (lasting_silent spared_steady) h ?_
    intro _ past s _ h
    exact ⟨⟨some stopped, first.volumes⟩,
      ⟨stopped, rfl, congrArg Vm.state stops⟩, h.1, trivial⟩
  | failed failure =>
    have there : stopping.host = some host := by rw [leaves]; exact here
    refine alone_moving spared_steady rfl rfl (by rw [leaves]; rfl) rfl rfl
      (Transition.hosts_kept (by decide) there) h ?_
    intro resumed past s resumes h
    refine ⟨⟨some resumed, first.volumes⟩,
      ⟨vm, resumed, stored, rfl, congrArg Vm.state resumes, ?_, rfl⟩, h.forget⟩
    rw [resumes, here]
    exact there
  | unknown failure =>
    exact ⟨_, ⟨_, rfl, congrArg Vm.state leaves⟩, h⟩

end Concurrent
end ControlPlane
