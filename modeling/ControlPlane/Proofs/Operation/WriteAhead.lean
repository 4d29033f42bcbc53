import ControlPlane.Proofs.Concurrent.FurtherContract
import ControlPlane.Proofs.Concurrent.SingleWriter
import ControlPlane.Proofs.Operation.OperationDiscipline

/-!
# Commands are recorded before they are sent

Before an operation sends a command, the store says what the recovery scan has to know if the answer
never comes: on which host the machine starts, stops or runs, or between which hosts it moves. As
long as the item of the operation covers the machine, no other operation changes what is recorded.
-/

namespace ControlPlane.Concurrent
open Work Control Operation Procedure Agent

/-- The record of the machine has a state and a host of a kind. -/
def Recorded (v : VmId) (P : State → Option HostId → Prop) (s : Store) : Prop :=
  ∃ vm, s.vm? v = some vm ∧ P vm.state vm.host

def Only (state : State) (host : Option HostId) (state' : State) (host' : Option HostId) : Prop :=
  state' = state ∧ host' = host

def JustRefused (host : HostId) (past : List Exchange) : Prop :=
  ∃ vm failure before, past.getLast? = some ⟨.finalizeStart vm host, .error failure, before⟩

/-- The item says that its machine is to leave a host, on which it is recorded to run, for
another. -/
def Leaving (x : Item) (source destination : HostId) (s : Store) : Prop :=
  (∃ p, x.plan = some p ∧ p.source = source ∧ p.destination = destination) ∧
    Recorded x.vm (Only .running (some source)) s

/-- What the store says before a command goes to a host, where the item is the one of its
operation. -/
def Announced (past : List Exchange) (s : Store) (x : Item) (host : HostId) :
    (k : Kind) → k.Body → Prop
  | .start, body => body.vm = x.vm ∧ Recorded x.vm (Only .starting (some host)) s
  | .stop, body => body.vm = x.vm ∧ (Recorded x.vm (Only .stopping (some host)) s ∨
      Recorded x.vm (Only .starting (some host)) s ∧ JustRefused host past)
  | .scale, _ => Recorded x.vm (Only .running (some host)) s
  | .migrate, body | .send, body => Leaving x host body.destination s
  | .migrateWithStorage, body => Leaving x body.source host s
  | .receive, _ | .complete, _ | .cleanup, _ => ∃ source, Leaving x source host s
  | .checkState, _ => True

def Idles (r : Control.Request) : Prop := ¬ r.Commands

/-- If the request is a command, the store has the open item of the job for the machine, and says
what has to be said before. -/
def Foretold (job : Nat) (v : VmId) (past : List Exchange) (s : Shared)
    (r : Control.Request) : Prop :=
  r.Commands → ∃ x host k body wait, r = .send (.ofBody host k body wait) ∧ x.vm = v ∧
    s.store.Covers x ∧ s.Drew job x.id ∧ Announced past s.store x host k body

/-- Others leave the record of the machine as it is while it is covered by an item of the job. -/
def Spares (v : VmId) (job : Nat) (a b : Shared) : Prop :=
  ∀ x vm, a.store.Covers x → x.vm = v → a.Drew job x.id → a.store.vm? v = some vm →
    ∃ vm', b.store.vm? v = some vm' ∧ vm'.state = vm.state ∧ vm'.host = vm.host

abbrev foreseeing (v : VmId) (node : NodeId) (job : Nat) : Contract :=
  reviewed (Spares v job) (Foretold job v) node job

variable {job : Nat} {c x : Item} {plan : Option Plan} {P : State → Option HostId → Prop}
  {s : Shared} {past : List Exchange} {r : Control.Request} {α β : Type} {ctx : Context}
  {v : VmId} {node : NodeId} {host : HostId} {wait : Span}

theorem Recorded.mono {Q : State → Option HostId → Prop} {s : Store} (h : Recorded v P s)
    (le : ∀ state host, P state host → Q state host) : Recorded v Q s := by
  obtain ⟨vm, stored, p⟩ := h
  exact ⟨vm, stored, le _ _ p⟩

def Under (job : Nat) (c : Item) (plan : Option Plan) (P : State → Option HostId → Prop) :
    Assertion :=
  fun _ s => Working job c plan s ∧ Recorded c.vm P s.store

theorem stable_under : Stable (foreseeing c.vm c.owner job) (Under job c plan P) :=
  stable_reviewed fun coherent others spares h => by
    obtain ⟨working, vm, stored, p⟩ := h
    obtain ⟨x, covers, same, here, -⟩ := working.covered
    obtain ⟨vm', stored', state, host⟩ := spares x vm covers here (same ▸ working.drew) stored
    refine ⟨working.others coherent others, vm', stored', ?_⟩
    rwa [state, host]

theorem foretold_of_idle (idle : ¬ r.Commands) : Foretold job v past s r := fun commands =>
  absurd commands idle

theorem not_commands_of_silent (silent : r.Silent) : ¬ r.Commands := fun commands =>
  silent.2 commands.sends

structure Befits (job : Nat) (c : Item) (plan : Option Plan) (P : State → Option HostId → Prop)
    (r : Control.Request) : Prop where
  quiet : r.Quiet
  told : ∀ {past s}, Under job c plan P past s → Foretold job c.vm past s r

theorem befits_of_silent (silent : r.Silent) : Befits job c plan P r :=
  ⟨silent.1, fun _ => foretold_of_idle (not_commands_of_silent silent)⟩

theorem befits_within {Q : α → Prop} {p : Program surroundings α}
    (within : p.Within Request.Silent Q) :
    p.Within (Befits job c plan P) Q :=
  within.mono (fun _ silent => befits_of_silent silent) fun _ q => q

theorem befits_probe {token : String} : Befits job c plan P (.send (probe host token wait)) :=
  ⟨trivial, fun _ => foretold_of_idle fun commands => commands rfl⟩

theorem Under.foretold {k : Kind} {body : k.Body} (h : Under job c plan P past s)
    (announced : ∀ x, x.vm = c.vm → x.plan = plan → Announced past s.store x host k body) :
    Foretold job c.vm past s (.send (.ofBody host k body wait)) := by
  obtain ⟨x, covers, same, here, planned⟩ := h.1.covered
  exact fun _ => ⟨x, host, k, body, wait, rfl, here, covers, same ▸ h.1.drew,
    announced x here planned⟩

theorem befits_command {k : Kind} {body : k.Body}
    (announced : ∀ {past} {s : Store} {x}, x.vm = c.vm → x.plan = plan → Recorded c.vm P s →
      Announced past s x host k body) : Befits job c plan P (.send (.ofBody host k body wait)) :=
  ⟨trivial, fun h => h.foretold fun _ here planned => announced here planned h.2⟩

theorem lasting_under :
    Lasting (foreseeing c.vm c.owner job) (Befits job c plan P) (Under job c plan P) :=
  ⟨stable_under, fun befits h _ => befits.told h, fun _ h => h⟩

theorem lasting_working :
    Lasting (foreseeing c.vm c.owner job) Request.Silent fun _ s => Working job c plan s :=
  ⟨(upheld_working job c plan).stable.again,
    fun silent _ _ => foretold_of_idle (not_commands_of_silent silent), fun _ h => h⟩

theorem foreseen_within {P : α → Prop} {p : Program surroundings α}
    (within : p.Within Idles P) : Safe (foreseeing v node job) Anyhow p past s :=
  (Safe.learned (R := fun _ => True) within (fun idle _ => foretold_of_idle idle) (fun _ => trivial)
    trivial).mono fun _ _ _ _ => trivial

section
variable {T : Except Ending β → Assertion} {wrap : Failure → Ending}

theorem foreseen_ask {Q : α → Prop} {p : Program surroundings α} {f : α → Body β}
    (within : p.Within (Befits job c plan P) Q) (h : Under job c plan P past s)
    (next : ∀ a past s, Under job c plan P past s →
      Safe (foreseeing c.vm c.owner job) T (f a).run past s) :
    Safe (foreseeing c.vm c.owner job) T ((liftM p : Body α) >>= f).run past s :=
  Safe.query within (fun _ befits => befits.quiet) lasting_under h
    fun a past s _ h => next a past s h

theorem foreseen_look {action : Procedure α} {f : α → Body β}
    (within : action.run.Within (Befits job c plan P) fun _ => True) (h : Under job c plan P past s)
    (next : ∀ a past s, Under job c plan P past s →
      Safe (foreseeing c.vm c.owner job) T (f a).run past s)
    (error : ∀ failure past s, Under job c plan P past s → T (.error (wrap failure)) past s) :
    Safe (foreseeing c.vm c.owner job) T (action.adapt wrap >>= f).run past s :=
  Safe.look within (fun _ befits => befits.quiet) lasting_under h
    (fun a past s _ h => next a past s h) error

theorem foreseen_load {id : VmId} {f : Vm → Body β} (subject : c.vm = id)
    (h : Working job c plan s)
    (next : ∀ vm past s, vm.id = c.vm → Under job c plan (Only vm.state vm.host) past s →
      Safe (foreseeing c.vm c.owner job) T (f vm).run past s)
    (error : ∀ failure past s, Working job c plan s → T (.error (wrap failure)) past s) :
    Safe (foreseeing c.vm c.owner job) T ((loadVm id).adapt wrap >>= f).run past s := by
  refine Safe.adapted (safe_loadVm (K := Request.Silent) (T := fun vm past s => vm.id = c.vm ∧
    Under job c plan (Only vm.state vm.host) past s) ⟨trivial, fun no => no⟩
      lasting_working h ?_)
    (fun vm past s h => next vm past s (h.2 vm rfl).1 (h.2 vm rfl).2)
    fun failure past s h => error _ _ _ h.1
  intro vm s _ stored h
  exact ⟨(Store.id_of_vm? stored).trans subject.symm, h, vm, subject ▸ stored, rfl, rfl⟩

end

/-- A swap under the item of the job: the record is what it writes, or what it was. -/
theorem foreseen_swap {t : Transition} {u : StateUpdate} (subject : u.vm = c.vm)
    (h : Under job c plan P past s) :
    Safe (foreseeing c.vm c.owner job)
      (Ends
        (fun written past s => written.id = c.vm ∧ Under job c plan (Only u.state u.host) past s)
        (Under job c plan P)) (.ask (.transact (.swap u)) t.afterSwap) past s := by
  refine Safe.carry stable_under h (fun _ _ _ => foretold_of_idle id)
    fun s h _ _ => ⟨trivial, ?_⟩
  obtain ⟨working, vm, stored, p⟩ := h
  have working' := working.framed (t := .swap u) rfl rfl
  have found : s.store.vm? u.vm = some vm := subject ▸ stored
  by_cases fits : u.Matches vm
  · have e := Store.swap_matching found fits
    have named : vm.id = c.vm := Store.id_of_vm? stored
    simp only [Transaction.apply, e] at working' ⊢
    refine ⟨named, working', u.apply vm, ?_, rfl, rfl⟩
    exact (Store.vm?_insert ..).trans (if_pos named)
  · have e := Store.swap_stale found fits
    simp only [Transaction.apply, e] at working' ⊢
    exact ⟨working', vm, stored, p⟩

theorem foreseen_run {t : Transition} (subject : t.vm = c.vm) (h : Under job c plan P past s) :
    Safe (foreseeing c.vm c.owner job)
      (Ends (fun written past s => written.id = c.vm ∧ ∃ vm u, P vm.state vm.host ∧
        t.check vm = .ok u ∧ Under job c plan (Only u.state u.host) past s) (Under job c plan P))
          t.run.run past s := by
  refine Safe.attempt lasting_under (befits_of_silent ⟨trivial, id⟩)
    (befits_of_silent ⟨trivial, id⟩)
    (fun {past s vm u} here stored checked past' s' h => ?_) (fun _ _ _ h => h) h
  obtain ⟨-, vm', stored', p⟩ := here
  rw [← subject, stored] at stored'
  cases stored'
  obtain ⟨next, -, -, -, -, e⟩ := Transition.check_ok checked
  have about : u.vm = c.vm := (congrArg StateUpdate.vm e).trans subject
  refine (foreseen_swap about h).mono fun result past s ends => ?_
  cases result with
  | error failure => exact ends
  | ok written => exact ⟨ends.1, vm, u, p, checked, ends.2⟩

section
variable {T : Except Ending β → Assertion} {wrap : Failure → Ending}

theorem foreseen_transition {t : Transition} {f : Vm → Body β} (subject : t.vm = c.vm)
    (h : Under job c plan P past s)
    (next : ∀ written vm u past s, written.id = c.vm → P vm.state vm.host →
      t.check vm = .ok u → Under job c plan (Only u.state u.host) past s →
      Safe (foreseeing c.vm c.owner job) T (f written).run past s)
    (error : ∀ failure past s, Under job c plan P past s → T (.error (wrap failure)) past s) :
    Safe (foreseeing c.vm c.owner job) T ((Transition.run t).adapt wrap >>= f).run past s := by
  refine Safe.adapted (foreseen_run subject h) ?_ error
  intro written past s ends
  obtain ⟨named, vm, u, p, checked, h⟩ := ends
  exact next written vm u past s named p checked h

end

theorem idles_run (t : Transition) : t.run.run.Within Idles fun _ => True :=
  t.run_asks id id fun _ _ _ => id

theorem foreseen_stopBody {id : VmId} {force : Bool} (subject : c.vm = id)
    (h : Working job c plan s) :
    Safe (foreseeing c.vm c.owner job) Anyhow (stopBody ctx id force).run past s := by
  refine foreseen_load subject h (fun vm past s _ h => ?_) fun _ _ _ _ => trivial
  refine Safe.ofAdapted (fun _ stated => ?_) fun _ _ => trivial
  refine Safe.ofAdapted (fun host placed => ?_) fun _ _ => trivial
  have running : vm.state = .running := List.mem_singleton.1 (mem_of_requireState stated)
  rw [running, host_of_requireHost placed] at h
  refine foreseen_look (befits_within (requireGuru_within vm.role)) h (fun _ past s h => ?_)
    fun _ _ _ _ => trivial
  refine foreseen_look (befits_within (.demand ⟨trivial, fun no => no⟩)) h
    (fun _ past s h => ?_) fun _ _ _ _ => trivial
  refine foreseen_transition subject.symm h (fun _ found u past s _ same checked h => ?_)
    fun _ _ _ _ => trivial
  obtain ⟨stops, hosted⟩ := Transition.hosts_of_check checked rfl
  have stays : u.host = some host := Transition.host_kept hosted (by decide) same.2
  rw [stops, stays] at h
  have asks : (sendResolved ctx host vm.token .off .stop ⟨id, vm.token, force⟩
    ctx.waits.stopWait).Within
      (Befits job c plan (Only .stopping (some host))) fun _ => True := by
    refine sendResolved_asks (befits_command fun here _ recorded => ⟨?_, .inl ?_⟩) befits_probe
    · exact (here.trans subject).symm
    · exact here ▸ recorded
  refine foreseen_ask asks h fun resolution past s h => foreseen_within (P := fun _ => True) ?_
  cases resolution with
  | succeeded =>
    refine .adapted (idles_run _) fun stopped => ?_
    exact .ofProgram (.call fun no => no) fun _ _ => trivial
  | failed failure => exact .adapted (idles_run _) fun _ => trivial
  | unknown failure => trivial

theorem idles_finishStart (starting : Vm) :
    (finishStart starting).run.Within Idles fun _ => True := by
  refine .andThen (idles_run _) (fun running _ => ?_) fun _ _ => trivial
  have loaded : (loadVm running.id).run.Within Idles fun _ => True := loadVm_within _ fun no => no
  cases starting.credentialsPending with
  | false => exact loaded
  | true => exact .andThen (.demand fun no => no) (fun _ _ => loaded) fun _ _ => trivial

/-- The guru has refused, so the machine is turned off where it was started. -/
theorem foreseen_forceStop {vm : Vm} (subject : vm.id = c.vm) (refused : JustRefused host past)
    (h : Under job c plan (Only .starting (some host)) past s) :
    Safe (foreseeing c.vm c.owner job) (fun _ => Under job c plan (Only .starting (some host)))
      (forceStop ctx vm host) past s := by
  have stable : Stable (foreseeing c.vm c.owner job) fun past s =>
      Under job c plan (Only .starting (some host)) past s ∧ JustRefused host past :=
    fun _ _ _ rely inv h => ⟨stable_under rely inv h.1, h.2⟩
  refine Safe.observe trivial stable ⟨h, refused⟩ (fun s h _ => ?_) fun _ _ h _ _ => h.1
  exact h.1.foretold fun x here _ => ⟨subject.trans here.symm, .inr ⟨here ▸ h.1.2, h.2⟩⟩

/-- An attempt to start a machine leaves the record as it was when the command was sent, unless the
machine runs. -/
theorem foreseen_startOn {vm starting : Vm} {f : StartAttempt → Body Vm}
    (subject : starting.id = c.vm) (named : vm.id = c.vm)
    (h : Under job c plan (Only .starting (some host)) past s)
    (running : ∀ vm, (f (.running vm)).run.Within Idles fun _ => True)
    (refused : ∀ failure past s, Under job c plan (Only .starting (some host)) past s →
      Safe (foreseeing c.vm c.owner job) Anyhow (f (.refused failure)).run past s) :
    Safe (foreseeing c.vm c.owner job) Anyhow (startOn ctx vm starting host >>= f).run past s := by
  refine Safe.andThen (Q := fun result past s => ∀ failure, result = .ok (.refused failure) →
    Under job c plan (Only .starting (some host)) past s) ?_ ?_ fun _ _ _ _ => trivial
  · have asks : (sendResolved ctx host vm.token .on .start
        ⟨vm.id, vm.token, vm.resources, vm.credentialsPending⟩ ctx.waits.startWait).Within
          (Befits job c plan (Only .starting (some host))) fun _ => True := by
      refine sendResolved_asks (befits_command fun here _ recorded => ⟨?_, ?_⟩) befits_probe
      · exact named.trans here.symm
      · exact here ▸ recorded
    refine foreseen_ask asks h fun resolution past s h => ?_
    cases resolution with
    | unknown failure => exact nofun
    | failed failure => exact fun _ _ => h
    | succeeded =>
      refine Safe.ofProgram (Q := fun result past s =>
        Under job c plan (Only .starting (some host)) past s ∧
        ∀ failure, result = .error failure → JustRefused host past) ?_
          fun finalized past s h => ?_
      · refine Safe.observe trivial stable_under h (fun _ _ _ => foretold_of_idle fun no => no)
          fun s reply h _ _ => ⟨h, ?_⟩
        rintro failure rfl
        exact ⟨starting, failure, s.store, List.getLast?_concat⟩
      · obtain ⟨h, refused⟩ := h
        rcases finalized with failure | _
        · exact Safe.ofProgram (foreseen_forceStop subject (refused failure rfl) h)
            fun _ _ _ h _ _ => h
        · exact Safe.adapted (foreseen_within (idles_finishStart starting)) (fun _ _ _ _ => nofun)
            fun _ _ _ _ => nofun
  · intro attempt past s h
    cases attempt with
    | running vm => exact foreseen_within (running vm)
    | refused failure => exact refused failure past s (h failure rfl)

theorem foreseen_tryStart {vm : Vm} (subject : vm.id = c.vm) (remaining : Nat)
    (excluded : Placement.Exclusions) (last : Option Failure) (h : Under job c plan P past s) :
    Safe (foreseeing c.vm c.owner job) Anyhow
      (tryStart ctx vm remaining excluded last).run past s := by
  induction remaining generalizing P excluded last past s with
  | zero => trivial
  | succ remaining ih =>
    refine foreseen_look (befits_within (.demand ⟨trivial, fun no => no⟩)) h
      (fun chosen past s h => ?_) fun _ _ _ _ => trivial
    cases chosen with
    | none => trivial
    | some host =>
      refine foreseen_load subject.symm h.1 (fun current past s _ h => ?_) fun _ _ _ _ => trivial
      simp only [refusing]
      refine foreseen_transition subject h (fun starting found u past s named _ checked h => ?_)
        fun _ _ _ _ => trivial
      obtain ⟨starts, hosted⟩ := Transition.hosts_of_check checked rfl
      have here : u.host = some host := Transition.host_taken hosted (by decide)
      rw [starts, here] at h
      refine foreseen_startOn named subject h (fun _ => trivial) fun failure past s h => ?_
      exact foreseen_transition subject h (fun _ _ _ _ _ _ _ _ h => ih _ _ h) fun _ _ _ _ => trivial

theorem foreseen_startBody {id : VmId} (subject : c.vm = id) (h : Working job c plan s) :
    Safe (foreseeing c.vm c.owner job) Anyhow (startBody ctx id).run past s := by
  refine foreseen_load subject h (fun vm past s named h => ?_) fun _ _ _ _ => trivial
  refine Safe.ofAdapted (fun _ _ => ?_) fun _ _ => trivial
  refine foreseen_look (befits_within (requireGuru_within vm.role)) h (fun _ past s h => ?_)
    fun _ _ _ _ => trivial
  exact foreseen_tryStart named _ _ _ h

end ControlPlane.Concurrent
